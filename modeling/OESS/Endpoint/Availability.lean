import OESS.Endpoint.Conflict
import OESS.Vlans.Ranges

namespace OESS.Endpoint

open Vlans (RangeElement processTagString)

inductive NetworkType where
  | openflow | mpls

/-- What the check reads of the interface, and the types of circuits. -/
structure Site where
  (vlanTagRange mplsVlanTagRange : Option (List RangeElement))
  circuitType : Nat → NetworkType

def inRange (string : Option (List RangeElement)) (vlan : Nat) : Bool :=
  ((string.bind processTagString).getD []).contains (vlan : Int)

namespace Tables

variable (t : Tables) (site : Site) (interface vlan : Nat) (innerVlan circuitId : Option Nat)

def sameTagRows : List Row :=
  t.rows.filter fun r => r.kind==.circuit && r.interface==interface && r.tag==vlan &&
    r.innerTag==innerVlan && r.endEpoch==-1

/-- The condition on the inner tag is built but not added. -/
def vrfTagRows : List Row :=
  t.rows.filter fun r =>
    r.kind==.vrf && t.connected r && r.interface==interface && r.tag==vlan

/-- Both loops return at their first row. -/
def isExternalVlanAvailableOnInterface : Bool×NetworkType :=
  match t.sameTagRows interface vlan innerVlan with
  | r::_ => (circuitId==some r.owner,site.circuitType r.owner)
  | [] =>
    match t.vrfTagRows interface vlan with
    | r::_ => (circuitId==some r.owner,.mpls)
    | [] =>
      if inRange site.vlanTagRange vlan then (true,.openflow)
      else if inRange site.mplsVlanTagRange vlan then (true,.mpls)
      else (false,.openflow)

/-- A live endpoint of another circuit or any VRF overlaps. -/
def Taken : Prop :=
  ∃ r,t.Live r∧r.interface=interface∧Overlap r.tag r.innerTag vlan innerVlan∧
    (r.kind=.circuit → circuitId≠some r.owner)

/-- The first circuit endpoint with the tags is another circuit's; or there is none, and the first
VRF endpoint with the outer tag is of a VRF with another number; or there is none either, and no
range has the tag. -/
def Refused : Prop :=
  (∃ r rs,t.sameTagRows interface vlan innerVlan=r::rs∧circuitId≠some r.owner)∨
    t.sameTagRows interface vlan innerVlan=[]∧
      ((∃ r rs,t.vrfTagRows interface vlan=r::rs∧circuitId≠some r.owner)∨
        t.vrfTagRows interface vlan=[]∧inRange site.vlanTagRange vlan=false∧
          inRange site.mplsVlanTagRange vlan=false)

theorem notAvailable_iff :
    (t.isExternalVlanAvailableOnInterface site interface vlan innerVlan circuitId).1=false ↔
      t.Refused site interface vlan innerVlan circuitId := by
  unfold isExternalVlanAvailableOnInterface Refused
  cases t.sameTagRows interface vlan innerVlan with
  | cons r rs => simp
  | nil =>
    cases t.vrfTagRows interface vlan with
    | cons r rs => simp
    | nil => cases inRange site.vlanTagRange vlan <;> cases inRange site.mplsVlanTagRange vlan <;> simp

/-- Only free VLANs are said to be available exactly if every taken one is refused by a first row or
its range. -/
theorem available_onlyFree_iff :
    ((t.isExternalVlanAvailableOnInterface site interface vlan innerVlan circuitId).1=true →
        ¬t.Taken interface vlan innerVlan circuitId) ↔
      (t.Taken interface vlan innerVlan circuitId →
        t.Refused site interface vlan innerVlan circuitId) := by
  rw [← notAvailable_iff,← Bool.not_eq_true]
  exact imp_not_comm

end Tables

/-- VLAN 100 is VRF 11's; circuit 11 asks for it. -/
theorem available_vrf_number :
    let t : Tables := ⟨[⟨.vrf,1,11,1,100,none,100,-1,some .active⟩],[(.vrf,11)]⟩
    (t.isExternalVlanAvailableOnInterface ⟨none,none,fun _ => .mpls⟩ 1 100 none (some 11)).1=true∧
      t.Taken 1 100 none (some 11) := by
  refine ⟨by decide,_,⟨List.mem_singleton_self _,?_⟩,rfl,⟨rfl,.inl rfl⟩,?_⟩ <;> decide

end OESS.Endpoint
