import Mathlib.Data.List.Basic

namespace OESS.Endpoint

open List Bool

/-- The table of an endpoint: `vrf_ep` or `circuit_edge_interface_membership`. -/
inductive Kind where
  | vrf | circuit
  deriving DecidableEq

instance : LawfulBEq (Kind×Nat) := inferInstance

inductive State where
  | active | decom | inReview
  deriving DecidableEq

/-- A row of either table. `state` may be NULL; `endEpoch` is `-1` in a current circuit row. -/
structure Row where
  kind : Kind
  (id owner interface tag : Nat)
  innerTag : Option Nat
  unit : Nat
  endEpoch : Int
  state : Option State
  deriving DecidableEq

def Row.key (r : Row) : Kind×Nat := (r.kind,r.id)

/-- `connections`: those with a state that is not decom. -/
structure Tables where
  rows : List Row
  connections : List (Kind×Nat)

/-- NULL does not pass the comparison. -/
def stateNotDecom : Option State → Bool
  | none | some .decom => false
  | some _ => true

/-- The tag condition of the four conflict queries. -/
def Row.taggedAs (tag : Nat) (innerTag : Option Nat) (r : Row) : Bool :=
  match innerTag with
  | none => r.tag==tag
  | some inner =>
    (r.tag==tag && r.innerTag==some inner) || (r.tag==tag && r.innerTag==none)

namespace Tables

variable (t : Tables)

def connected (r : Row) : Bool := t.connections.contains (r.kind,r.owner)

def currentCircuitEp (r : Row) : Bool :=
  r.kind==.circuit && r.endEpoch==-1 && t.connected r && stateNotDecom r.state

variable (interface tag : Nat)

/-- Unlike the other query, this one does not look at the state. -/
def l3Rows (innerTag : Option Nat) : List Row :=
  t.rows.filter fun r =>
    r.kind==.vrf && t.connected r && r.interface==interface && r.taggedAs tag innerTag

def l2Rows (innerTag : Option Nat) : List Row :=
  t.rows.filter fun r =>
    t.currentCircuitEp r && r.interface==interface && r.taggedAs tag innerTag

def usedVrfUnits (interface : Nat) : List Nat :=
  (t.rows.filter fun r => r.kind==.vrf && decide (5000≤r.unit) && r.state==some .active &&
    r.interface==interface).map Row.unit

def usedCircuitUnits (interface : Nat) : List Nat :=
  (t.rows.filter fun r => t.currentCircuitEp r && r.interface==interface).map Row.unit

def used (interface : Nat) : List Nat := t.usedVrfUnits interface++t.usedCircuitUnits interface

def firstFree (used : List Nat) : Option Nat :=
  (List.range' 5000 11000).find? fun i => !used.contains i

def findAvailableUnit (innerTag circuitEpId vrfEpId : Option Nat) : Option Nat :=
  match t.l3Rows interface tag innerTag with
  | r::_ => if vrfEpId=some r.id then some r.unit else none
  | [] =>
    match t.l2Rows interface tag innerTag with
    | r::_ => if circuitEpId=some r.id then some r.unit else none
    | [] =>
      match innerTag with
      | none => some tag
      | some _ => firstFree (t.used interface)

/-- The endpoint is in service; a missing state counts as active. -/
def Live (r : Row) : Prop :=
  r∈t.rows∧t.connected r=true∧r.state≠some .decom∧(r.kind=.circuit → r.endEpoch= -1)
  deriving Decidable

end Tables

/-- The endpoint that a request edits, if any. -/
def Row.IsSelf (circuitEpId vrfEpId : Option Nat) (r : Row) : Prop :=
  match r.kind with
  | .vrf => vrfEpId=some r.id
  | .circuit => circuitEpId=some r.id

instance (circuitEpId vrfEpId : Option Nat) (r : Row) :
    Decidable (r.IsSelf circuitEpId vrfEpId) := by
  unfold Row.IsSelf
  split <;> infer_instance

theorem firstFree_eq_some_iff {used : List Nat} {u : Nat} : Tables.firstFree used=some u↔
      u∉used∧(5000≤u∧u<16000)∧∀ v,5000≤v → v<u → v∈used := by
  simp [Tables.firstFree,find?_range'_eq_some,mem_range'_1]

theorem firstFree_spec {used : List Nat} {u : Nat} (h : Tables.firstFree used=some u) :
    5000≤u∧u∉used := by
  obtain ⟨hfree,hu,_⟩ := firstFree_eq_some_iff.mp h
  exact ⟨hu.1,hfree⟩

theorem firstFree_none_iff (used : List Nat) :
    Tables.firstFree used=none↔∀ u,5000≤u → u<16000 → u∈used := by
  simp only [Tables.firstFree,find?_eq_none,mem_range'_1]
  constructor
  · intro h u hl hu
    have hu' := h u ⟨hl,by omega⟩
    simpa using hu'
  · intro h u hu
    have hu' := h u hu.1 (by omega)
    simpa using hu'

namespace Tables

variable (t : Tables) (interface tag : Nat) (innerTag circuitEpId vrfEpId : Option Nat)

/-- The rows of the four conflict queries in the order in which they are looked at. -/
def conflictRows : List Row := t.l3Rows interface tag innerTag++t.l2Rows interface tag innerTag

theorem findAvailableUnit_eq : t.findAvailableUnit interface tag innerTag circuitEpId vrfEpId=
      match t.conflictRows interface tag innerTag with
      | r::_ => if r.IsSelf circuitEpId vrfEpId then some r.unit else none
      | [] => if innerTag=none then some tag else firstFree (t.used interface) := by
  unfold findAvailableUnit conflictRows
  cases h3 : t.l3Rows interface tag innerTag with
  | cons r rs =>
    have hr : r∈t.l3Rows interface tag innerTag := by simp [h3]
    have hk : r.kind=.vrf := by
      simp only [l3Rows,mem_filter,and_eq_true,beq_iff_eq] at hr
      exact hr.2.1.1.1
    simp [Row.IsSelf,hk]
  | nil =>
    cases h2 : t.l2Rows interface tag innerTag with
    | cons r rs =>
      have hr : r∈t.l2Rows interface tag innerTag := by simp [h2]
      have hk : r.kind=.circuit := by
        simp only [l2Rows,currentCircuitEp,mem_filter,and_eq_true,beq_iff_eq] at hr
        exact hr.2.1.1.1.1.1
      simp [Row.IsSelf,hk]
    | nil => cases innerTag <;> simp

-- `activeCircuits` are those whose row and whose current instantiation are active.
variable (activeCircuits : List Nat)

/-- For `OESS::Database` VRF endpoints count only above 5000. -/
def seenByDatabase (r : Row) : Bool :=
  r.interface==interface && match r.kind with
    | .vrf => decide (5000<r.unit) && r.state==some .active
    | .circuit => r.endEpoch==-1 && activeCircuits.contains r.owner

/-- `find_available_unit` of `OESS::Database`. -/
def databaseFindAvailableUnit : Option Nat :=
  match innerTag with
  | none => some tag
  | some _ => firstFree ((t.rows.filter (seenByDatabase interface activeCircuits)).map Row.unit)

/-- `find_available_unit` of `OESS::Interface`, which has no `_execute_query` and dies there. -/
def interfaceFindAvailableUnit : Option Nat :=
  match innerTag with
  | none => some tag
  | some _ => none

/-- The unit found is none of a live endpoint's. -/
def AvoidsLive (unit : Option Nat) : Prop :=
  ∀ u,unit=some u → ∀ r,t.Live r → r.interface=interface → r.unit≠u

/-- The units found avoid the live endpoints exactly if each of these that is not seen has a unit
that one seen has, or a free one below. -/
theorem foundUnits_avoid_live_iff (inner : Nat) :
    (t.AvoidsLive interface (t.databaseFindAvailableUnit interface tag (some inner) activeCircuits)∧
        t.AvoidsLive interface (interfaceFindAvailableUnit tag (some inner))) ↔
      ∀ r,t.Live r → r.interface=interface → 5000≤r.unit → r.unit<16000 →
        (∃ s∈t.rows,seenByDatabase interface activeCircuits s=true∧s.unit=r.unit)∨
        ∃ v,5000≤v∧v<r.unit∧
          ∀ s∈t.rows,seenByDatabase interface activeCircuits s=true → s.unit≠v := by
  simp only [AvoidsLive,databaseFindAvailableUnit,interfaceFindAvailableUnit,firstFree_eq_some_iff,
    mem_map,mem_filter]
  constructor
  · intro ⟨h,_⟩ r hr hi hlow hhigh
    by_contra hc
    push Not at hc
    refine h r.unit ⟨?_,⟨hlow,hhigh⟩,?_⟩ r hr hi rfl
    · intro ⟨s,⟨hs,hseen⟩,hu⟩
      exact hc.1 s hs hseen hu
    · intro v hv hlt
      obtain ⟨s,hs,hseen,hu⟩ := hc.2 v hv hlt
      exact ⟨s,⟨hs,hseen⟩,hu⟩
  · intro h
    refine ⟨?_,by simp⟩
    intro u ⟨hfree,hu,hbelow⟩ r hr hi hru
    subst hru
    rcases h r hr hi hu.1 hu.2 with ⟨s,hs,hseen,hsu⟩ | ⟨v,hv,hlt,hnone⟩
    · exact hfree ⟨s,⟨hs,hseen⟩,hsu⟩
    · obtain ⟨s,⟨hs,hseen⟩,hsv⟩ := hbelow v hv hlt
      exact hnone s hs hseen hsv

/-- The unit found is 5000, which a VRF endpoint holds and the query leaves out. -/
theorem foundUnit_taken : ¬AvoidsLive ⟨[⟨.vrf,1,1,1,100,some 7,5000,-1,some .active⟩],[(.vrf,1)]⟩ 1
      (databaseFindAvailableUnit ⟨[⟨.vrf,1,1,1,100,some 7,5000,-1,some .active⟩],[(.vrf,1)]⟩
        1 100 (some 8) []) := by
  intro h
  exact h 5000 (by decide +kernel) ⟨.vrf,1,1,1,100,some 7,5000,-1,some .active⟩ (by decide) rfl rfl

end Tables

end OESS.Endpoint
