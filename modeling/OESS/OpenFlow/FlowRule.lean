import Mathlib.Data.List.Basic

namespace OESS.OpenFlow

open List

def untagged : Int := -1
def ofUntagged : Int := 65535
def vlanWildcard : Int := 0

/-- `set_vlan_vid` is stored as `set_vlan_id`. -/
inductive Action where
  | output (port : Nat)
  | setVlanId (vlan : Int)
  deriving DecidableEq

/-- The keys the constructor accepts; one may be absent. -/
structure Match where
  inPort : Option Nat := none
  dlVlan : Option Int := none
  dlType : Option Nat := none
  dlDst : Option Nat := none
  deriving DecidableEq

/-- What `send_datapath_flow` sends: a VLAN of 0 is left out, and the entry matches every VLAN. -/
def Match.sent (m : Match) : Match := { m with dlVlan := m.dlVlan.filter (·≠vlanWildcard) }

@[ext] structure FlowRule where
  priority : Nat := 32768
  fields : Match := {}
  actions : List Action := []
  dpid : Nat
  deriving DecidableEq

namespace FlowRule

def validateVlanId (v : Int) : Bool :=
  v=ofUntagged || v=untagged || v=vlanWildcard || (0<v && v<4096)

variable (logged : Bool)

/-- A bad port falls through to the value of `logger->error`; `logged`: an appender got it. -/
def validatePort (port : Nat) : Bool := (0<port && port≤65535) || logged

def validatePriority (priority : Nat) : Bool := 0<priority && priority≤65535

def validateMatch (m : Match) : Bool :=
  m.inPort.all (validatePort logged) && m.dlVlan.all validateVlanId

def validateActions (actions : List Action) : Bool :=
  actions.all fun
    | .output port => validatePort logged port
    | .setVlanId _ => true

def validateFlow (r : FlowRule) : Bool :=
  validateMatch logged r.fields && validateActions logged r.actions && validatePriority r.priority

/-- OpenFlow's untagged value is rewritten in place. -/
def standardVlan (v : Int) : Int := if v=ofUntagged then untagged else v

/-- The constructor: an invalid rule is `undef`. -/
def new (r : FlowRule) : Option FlowRule :=
  if validateFlow logged r then
    some { r with fields := { r.fields with dlVlan := r.fields.dlVlan.map standardVlan } }
  else none

/-- One key of `compare_match`, looked up in both hashes. -/
def keyAgrees {α : Type} [DecidableEq α] : Option α → Option α → Bool
  | none,none => true
  | some a,some b => a=b
  | _,_ => false

variable (r s : FlowRule)

def compareMatch : Bool :=
  r.priority=s.priority && keyAgrees r.fields.inPort s.fields.inPort &&
    keyAgrees r.fields.dlVlan s.fields.dlVlan && keyAgrees r.fields.dlType s.fields.dlType &&
    keyAgrees r.fields.dlDst s.fields.dlDst

/-- A missing key never agrees. -/
def sameValue : Action → Action → Bool
  | .output p,.output q => p=q
  | .setVlanId v,.setVlanId w => v=w
  | _,_ => false

def compareActions : Bool :=
  r.actions.length=s.actions.length && (r.actions.zip s.actions).all fun x => sameValue x.1 x.2

def compareFlow : Bool :=
  compareMatch r s && compareActions r s && r.dpid=s.dpid && r.priority=s.priority

/-- `j` counts the actions of `other` matched so far. -/
def equivilentScan (other : List Action) : Nat → List Action → Bool
  | _,[] => false
  | j,a::actions =>
      match other[j]? with
      | some b =>
          if sameValue a b then
            if j+1=other.length then true else equivilentScan other (j+1) actions
          else equivilentScan other 0 actions
      | none => equivilentScan other 0 actions

def hasEquivilentActions : Bool :=
  if r.actions.length<s.actions.length then false else equivilentScan s.actions 0 r.actions

/-- `set_vlan_id` is the only set action type. -/
def hasSetAction (actions : List Action) : Bool :=
  actions.any fun
    | .setVlanId _ => true
    | .output _ => false

/-- `none` where it dies: `@$other_flow->get_actions()` dereferences the rule when only one side has
set actions. -/
def mergeActions : Option (FlowRule × Bool) :=
  let onlyOurs := hasSetAction r.actions && !hasSetAction s.actions
  let onlyOther := hasSetAction s.actions && !hasSetAction r.actions
  if onlyOurs && onlyOther then some (r,false)
  else if onlyOurs then none
  else if onlyOther then none
  else if compareActions r s then some (r,true)
  else if hasEquivilentActions r s then some (r,true)
  else some ({ r with actions := r.actions++s.actions },true)

theorem keyAgrees_eq {α : Type} [DecidableEq α] (a b : Option α) : keyAgrees a b=decide (a=b) := by
  cases a <;> cases b <;> simp [keyAgrees]

theorem compareMatch_iff : compareMatch r s=true ↔ r.priority=s.priority∧r.fields=s.fields := by
  cases r
  rename_i m _ _
  cases s
  rename_i n _ _
  cases m
  cases n
  simp [compareMatch,keyAgrees_eq,and_assoc]

theorem sameValue_eq (a b : Action) : sameValue a b=decide (a=b) := by
  cases a <;> cases b <;> simp [sameValue]

theorem compareActions_iff : compareActions r s=true ↔ r.actions=s.actions := by
  simp only [compareActions,sameValue_eq,Bool.and_eq_true,decide_eq_true_eq,all_eq_true]
  generalize r.actions=xs
  generalize s.actions=ys
  constructor
  · rintro ⟨hl,h⟩
    induction xs generalizing ys with
    | nil => simpa using hl.symm
    | cons x xs ih =>
      cases ys with
      | nil => simp at hl
      | cons y ys =>
        have hxy : x=y := h (x,y) (by simp)
        rw [hxy,ih ys (by simpa using hl) fun z hz => h z (by simp [hz])]
  · rintro rfl
    refine ⟨rfl,?_⟩
    intro x hx
    rw [zip_eq_zipWith,zipWith_self,mem_map] at hx
    obtain ⟨a,-,rfl⟩ := hx
    rfl

theorem compareFlow_iff : compareFlow r s=true ↔ r=s := by
  simp only [compareFlow,Bool.and_eq_true,decide_eq_true_eq,compareMatch_iff,compareActions_iff,
    FlowRule.ext_iff]
  tauto

theorem new_eq_some {logged : Bool} {r s : FlowRule} (h : new logged r=some s) :
    s={ r with fields := { r.fields with dlVlan := r.fields.dlVlan.map standardVlan } } := by
  simp only [new,Option.ite_none_right_eq_some,Option.some.injEq] at h
  exact h.2.symm

/-- The actions that send a copy to each (VLAN, port). -/
def pairActions (ps : List (Int × Nat)) : List Action :=
  ps.flatMap fun x => [.setVlanId x.1,.output x.2]

@[simp] theorem pairActions_nil : pairActions []=[] := rfl

@[simp] theorem pairActions_cons (x : Int × Nat) (ps : List (Int × Nat)) :
    pairActions (x::ps)=.setVlanId x.1::.output x.2::pairActions ps := rfl

@[simp] theorem pairActions_append (ps qs : List (Int × Nat)) :
    pairActions (ps++qs)=pairActions ps++pairActions qs := by
  simp [pairActions]

@[simp] theorem pairActions_length (ps : List (Int × Nat)) :
    (pairActions ps).length=2*ps.length := by
  induction ps with
  | nil => rfl
  | cons x ps ih => simp; omega

theorem pairActions_injective : Function.Injective pairActions := by
  intro ps
  induction ps with
  | nil =>
    intro qs h
    cases qs with
    | nil => rfl
    | cons y qs => simp at h
  | cons x ps ih =>
    intro qs h
    cases qs with
    | nil => simp at h
    | cons y qs =>
      simp only [pairActions_cons,cons.injEq,Action.setVlanId.injEq,Action.output.injEq] at h
      rw [ih h.2.2,Prod.ext h.1 h.2.1]

theorem hasSetAction_pairActions {ps : List (Int × Nat)} (h : ps≠[]) :
    hasSetAction (pairActions ps)=true := by
  cases ps with
  | nil => exact absurd rfl h
  | cons x ps => simp [hasSetAction]

theorem equivilentScan_pair (x : Int × Nat) (ps : List (Int × Nat)) :
    equivilentScan (pairActions [x]) 0 (pairActions ps)=decide (x∈ps) := by
  induction ps with
  | nil => simp [equivilentScan]
  | cons y ps ih =>
    obtain ⟨v,p⟩ := x
    obtain ⟨w,q⟩ := y
    by_cases hv : w=v
    · by_cases hp : q=p
      · simp [equivilentScan,sameValue,hv,hp]
      · have hne : ¬p=q := fun h => hp h.symm
        simpa [equivilentScan,sameValue,hp,hne] using ih
    · have hne : ¬v=w := fun h => hv h.symm
      simpa [equivilentScan,sameValue,hv,hne] using ih

theorem mergeActions_pair (x : Int × Nat) (ps : List (Int × Nat)) (hps : ps≠[])
    (hr : r.actions=pairActions ps) (hs : s.actions=pairActions [x]) :
    mergeActions r s=some ({ r with actions := pairActions (if x∈ps then ps else ps++[x]) },true) := by
  have hrset : hasSetAction r.actions=true := hr ▸ hasSetAction_pairActions hps
  have hsset : hasSetAction s.actions=true := hs ▸ hasSetAction_pairActions (by simp)
  have heq : compareActions r s=true ↔ ps=[x] := by
    rw [compareActions_iff,hr,hs,pairActions_injective.eq_iff]
  have hlen : ¬(pairActions ps).length<(pairActions [x]).length := by
    have h := length_pos_iff.mpr hps
    simp
    omega
  have hequiv : hasEquivilentActions r s=decide (x∈ps) := by
    rw [hasEquivilentActions,hr,hs,if_neg hlen,equivilentScan_pair]
  simp only [mergeActions,hrset,hsset,Bool.not_true,Bool.and_false,Bool.false_eq_true,if_false,hequiv,
    decide_eq_true_eq]
  split_ifs with h1 h2 h3
  · simp [← hr]
  · exact absurd (by simp [heq.mp h1]) h2
  · simp [← hr]
  · simp [hr,hs]

end FlowRule

inductive StatAction where
  | output (port : Nat)
  | setVlanVid (vlanVid : Int)
  | stripVlan
  | other (type : Nat)
  deriving DecidableEq

/-- An entry as the switch reports it; `others` are the match keys that no rule uses. -/
structure Stat where
  priority : Nat
  fields : Match
  actions : List StatAction
  others : List (String × Nat) := []
  deriving DecidableEq

def parseAction : StatAction → Option Action
  | .output port => some (.output port)
  | .setVlanVid vlan => some (.setVlanId vlan)
  | .stripVlan => some (.setVlanId untagged)
  | .other _ => none

/-- `parse_stat`: a reported VLAN of 0 is taken for untagged, and match keys that no rule uses are
skipped. -/
def parseStat (logged : Bool) (dpid : Nat) (stat : Stat) : Option FlowRule :=
  FlowRule.new logged
    { priority := stat.priority
      fields := { stat.fields with dlVlan := stat.fields.dlVlan.map fun v => if v=0 then -1 else v }
      actions := stat.actions.filterMap parseAction
      dpid := dpid }

end OESS.OpenFlow
