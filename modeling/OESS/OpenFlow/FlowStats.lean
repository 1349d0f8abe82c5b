import Mathlib.Algebra.Group.Nat.Defs
import OESS.OpenFlow.FlowRule

namespace OESS.OpenFlow

open FlowRule Option Bool

inductive DictAction where
  | output (maxLength port : Nat)
  | setVlanVid (vlan : Int)
  | stripVlan

/-- The timeouts of a rule are 0. -/
structure Dict where
  dpid : Nat
  fields : Match
  actions : List DictAction
  (priority command : Nat)

def dictAction : Action → DictAction
  | .output port => .output 65535 port
  | .setVlanId vlan => if vlan=untagged || vlan=65535 then .stripVlan else .setVlanVid vlan

def FlowRule.toDict (command : Nat) (r : FlowRule) : Dict :=
  { dpid := r.dpid
    fields := r.fields
    actions := r.actions.map dictAction
    priority := r.priority
    command := command }

/-- 48 bits for an address, 16 for everything else. -/
def reportedMatch (m : Match) : Match :=
  { inPort := m.inPort.map (·%65536)
    dlVlan := m.dlVlan.map (·%65536)
    dlType := m.dlType.map (·%65536)
    dlDst := m.dlDst.map (·%2^48) }

def reportedAction : DictAction → StatAction
  | .output _ port => .output (port%65536)
  | .setVlanVid vlan => .setVlanVid (vlan%65536)
  | .stripVlan => .stripVlan

/-- The stat of the entry that is installed from the dictionary. -/
def statOf (d : Dict) : Stat :=
  { priority := d.priority
    fields := reportedMatch d.fields.sent
    actions := d.actions.map reportedAction }

def Action.Fits : Action → Prop
  | .output port => port<65536
  | .setVlanId vlan => vlan=untagged∨0≤vlan∧vlan<65535

structure Match.Fits (m : Match) : Prop where
  inPort : ∀ p∈m.inPort,p<65536
  dlVlan : m.dlVlan≠some 0
  dlType : ∀ t∈m.dlType,t<65536
  dlDst : ∀ a∈m.dlDst,a<2^48

/-- An action as it is read back. -/
def carriedAction : Action → Action
  | .output port => .output (port%65536)
  | .setVlanId vlan => .setVlanId (if vlan=untagged || vlan=65535 then untagged else vlan%65536)

theorem parseAction_reported (a : Action) :
    parseAction (reportedAction (dictAction a))=some (carriedAction a) := by
  cases a with
  | output port => rfl
  | setVlanId vlan =>
    simp only [dictAction,carriedAction]
    split_ifs <;> rfl

theorem carriedAction_eq_iff (a : Action) : carriedAction a=a ↔ a.Fits := by
  cases a with
  | output port =>
    simp only [carriedAction,Action.Fits,Action.output.injEq]
    omega
  | setVlanId vlan =>
    simp only [carriedAction,Action.Fits,Action.setVlanId.injEq,or_eq_true,decide_eq_true_eq]
    split_ifs <;> omega

theorem map_carriedAction_iff (l : List Action) : l.map carriedAction=l ↔ ∀ a∈l,a.Fits := by
  induction l with
  | nil => simp
  | cons a l ih => simp [carriedAction_eq_iff,ih]

theorem filterMap_reported (l : List Action) :
    ((l.map dictAction).map reportedAction).filterMap parseAction=l.map carriedAction := by
  induction l with
  | nil => rfl
  | cons a l ih =>
    rw [List.map_cons,List.map_cons,List.filterMap_cons,parseAction_reported,ih]
    rfl

theorem map_mod_iff (x : Option Nat) (n : Nat) (hn : 0<n) :
    x.map (·%n)=x ↔ ∀ a∈x,a<n := by
  cases x with
  | none => simp
  | some a =>
    simp only [map_some,some.injEq,mem_some_iff,forall_eq']
    constructor
    · intro h
      rw [← h]
      exact Nat.mod_lt a hn
    · exact Nat.mod_eq_of_lt

theorem validateVlanId_iff (v : Int) : validateVlanId v=true ↔ v=65535∨v=-1∨0≤v∧v<4096 := by
  simp only [validateVlanId,or_eq_true,and_eq_true,decide_eq_true_eq]
  simp only [ofUntagged,untagged,vlanWildcard]
  omega

variable {logged : Bool} {r r₀ : FlowRule}

/-- OpenFlow's untagged value has been replaced. -/
theorem new_accepts (h : new logged r₀=some r) :
    r.fields.inPort.all (validatePort logged)=true∧(∀ v∈r.fields.dlVlan,v=-1∨0≤v∧v<4096)∧
      validateActions logged r.actions=true∧validatePriority r.priority=true := by
  have hr := new_eq_some h
  simp only [new,ite_none_right_eq_some,validateFlow,validateMatch,and_eq_true] at h
  obtain ⟨⟨⟨⟨hport,hvlan⟩,hactions⟩,hpriority⟩,-⟩ := h
  subst hr
  refine ⟨hport,?_,hactions,hpriority⟩
  intro v hv
  obtain ⟨w,hw,rfl⟩ := map_eq_some_iff.mp hv
  rw [hw,all_some,validateVlanId_iff] at hvlan
  simp only [standardVlan,ofUntagged,untagged]
  split_ifs <;> omega

/-- A VLAN as `parse_stat` gives it to the constructor. -/
def statVlan (v : Int) : Int := if v%65536=0 then -1 else v%65536

theorem standardVlan_statVlan_iff {v : Int} (hv : v=-1∨0≤v∧v<4096) :
    standardVlan (statVlan v)=v ↔ v≠0 := by
  simp only [standardVlan,statVlan,ofUntagged,untagged]
  split_ifs <;> omega

theorem validateVlanId_statVlan {v : Int} (hv : v=-1∨0≤v∧v<4096) :
    validateVlanId (statVlan v)=true := by
  rw [validateVlanId_iff,statVlan]
  split_ifs <;> omega

/-- The rule read back from the stat of an installed one. -/
def FlowRule.readBack (r : FlowRule) : FlowRule := { r with
    fields := { reportedMatch r.fields with dlVlan := r.fields.sent.dlVlan.map statVlan }
    actions := r.actions.map carriedAction }

theorem parseStat_reported (command : Nat) (r : FlowRule) :
    parseStat logged r.dpid (statOf (r.toDict command))=new logged r.readBack := by
  rw [parseStat,FlowRule.readBack,← filterMap_reported]
  simp only [statOf,reportedMatch,map_map]
  rfl

def carriedMatch (m : Match) : Match :=
  { reportedMatch m with dlVlan := m.sent.dlVlan.map (standardVlan∘statVlan) }

theorem carriedMatch_eq_iff {m : Match} (hm : ∀ v∈m.dlVlan,v=-1∨0≤v∧v<4096) :
    carriedMatch m=m ↔ m.Fits := by
  have hvlan : m.sent.dlVlan.map (standardVlan∘statVlan)=m.dlVlan ↔ m.dlVlan≠some 0 := by
    cases hv : m.dlVlan with
    | none => simp [Match.sent,hv]
    | some v =>
      by_cases h0 : v=0
      · simp [Match.sent,hv,h0,vlanWildcard]
      · simp [Match.sent,hv,h0,vlanWildcard,standardVlan_statVlan_iff (hm v hv)]
  obtain ⟨p,v,t,a⟩ := m
  simp only [carriedMatch,reportedMatch,Match.mk.injEq,hvlan,map_mod_iff _ 65536 (by decide),
    map_mod_iff _ (2^48) (by decide)]
  constructor
  · intro ⟨hp,hv,ht,ha⟩
    exact ⟨hp,hv,ht,ha⟩
  · intro h
    exact ⟨h.inPort,h.dlVlan,h.dlType,h.dlDst⟩

/-- A tagged rule that strips the tag on one of its ports. -/
def strippingRule : FlowRule :=
  { fields := { inPort := some 1,dlVlan := some 100 }
    actions := [.setVlanId 200,.output 2,.setVlanId (-1),.output 3]
    dpid := 1 }

end OESS.OpenFlow
