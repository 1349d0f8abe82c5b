import OESS.Acls.VlanValid
import OESS.Endpoint.Unit

namespace OESS.Endpoint.Tables

open Acls (Acl Numeral VlanInterface aclsAllow)

-- `activeCircuits` are those whose row and whose current instantiation are active.
variable (t : Tables) (activeCircuits : List Nat) (interface : Nat)

def vrfVlansInUse : List Nat :=
  (t.rows.filter fun r => r.kind==.vrf && t.connected r && r.state==some .active &&
    r.interface==interface).map Row.tag

def circuitVlansInUse : List Nat :=
  (t.rows.filter fun r => r.kind==.circuit && activeCircuits.contains r.owner && r.endEpoch==-1 &&
    r.interface==interface).map Row.tag

variable (acls : List Acl) (mplsVlanTagRange : List (Numeral×Numeral))

/-- `fetch` of an interface, as far as `vlan_valid` reads it. -/
def fetchInterface : VlanInterface where
  acls := acls
  usedVlans :=
    (t.vrfVlansInUse interface++t.circuitVlansInUse activeCircuits interface).map Int.ofNat
  mplsVlanTagRange := mplsVlanTagRange

variable (workgroup vlan : Nat)

/-- All conditions of `vlan_valid` hold but that the VLAN is not in use. -/
def Permitted : Prop :=
  1≤vlan∧vlan≤4095∧aclsAllow acls workgroup vlan=true∧
    ⟨0,vlan⟩∈mplsVlanTagRange.flatMap Acls.rangeKeys

theorem vlanValid_fetchInterface :
    (t.fetchInterface activeCircuits interface acls mplsVlanTagRange).vlanValid workgroup vlan=true ↔
      Permitted acls mplsVlanTagRange workgroup vlan∧
        vlan∉t.vrfVlansInUse interface++t.circuitVlansInUse activeCircuits interface := by
  simp only [VlanInterface.vlanValid,VlanInterface.vlanInUse,VlanInterface.mplsRange,Permitted,fetchInterface]
  grind

/-- A unit for a VLAN without an inner tag is found exactly if the conflict queries return
nothing. -/
theorem findAvailableUnit_new : (t.findAvailableUnit interface vlan none none none).isSome=true ↔
      t.conflictRows interface vlan none=[] := by
  rw [findAvailableUnit_eq]
  cases t.conflictRows interface vlan none with
  | nil => simp
  | cons r rs => cases h : r.kind <;> simp [Row.IsSelf,h]

/-- Every valid VLAN can be created exactly if the endpoints that stand in the way count as used. -/
theorem vlanValid_creatable_iff :
    ((t.fetchInterface activeCircuits interface acls mplsVlanTagRange).vlanValid workgroup vlan=true →
        (t.findAvailableUnit interface vlan none none none).isSome=true) ↔
      (Permitted acls mplsVlanTagRange workgroup vlan →
        ∀ r∈t.conflictRows interface vlan none,
          vlan∈t.vrfVlansInUse interface++t.circuitVlansInUse activeCircuits interface) := by
  rw [vlanValid_fetchInterface,findAvailableUnit_new,List.eq_nil_iff_forall_not_mem]
  constructor
  · intro h hpermitted r hr
    by_contra hfree
    exact h ⟨hpermitted,hfree⟩ r hr
  · intro h ⟨hpermitted,hfree⟩ r hr
    exact hfree (h hpermitted r hr)

/-- A decommissioned endpoint of the active VRF 11 is in the way of VLAN 100, which is valid. -/
theorem vlanValid_decommissioned_endpoint :
    let t : Tables := ⟨[⟨.vrf,1,11,1,100,none,100,-1,some .decom⟩],[(.vrf,11)]⟩
    (t.fetchInterface [] 1 [⟨1,none,1,.allow,10,1,some 4095,none,none⟩]
        [(⟨0,1⟩,⟨0,200⟩)]).vlanValid 5 100=true∧
      t.findAvailableUnit 1 100 none none none=none := by
  decide

end OESS.Endpoint.Tables
