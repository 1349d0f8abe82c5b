import OESS.Endpoint.Unit

namespace OESS.Endpoint

/-- Two VLANs overlap: the outer tag is the same, and an inner tag is missing or the same. -/
def Overlap (tag : Nat) (innerTag : Option Nat) (tag' : Nat) (innerTag' : Option Nat) : Prop :=
  tag=tag'∧(innerTag=none∨innerTag'=none∨innerTag=innerTag')

theorem taggedAs_iff (r : Row) (tag : Nat) (innerTag : Option Nat) :
    r.taggedAs tag innerTag=true↔Overlap r.tag r.innerTag tag innerTag := by
  cases innerTag with
  | none => simp [Row.taggedAs,Overlap]
  | some inner =>
    simp only [Row.taggedAs,Bool.or_eq_true,Bool.and_eq_true,beq_iff_eq]
    constructor
    · rintro (h|h)
      · exact ⟨h.1,.inr (.inr h.2)⟩
      · exact ⟨h.1,.inl h.2⟩
    · rintro ⟨htag,hinner|hinner|hinner⟩
      · exact .inr ⟨htag,hinner⟩
      · cases hinner
      · exact .inl ⟨htag,hinner⟩

namespace Tables

variable (t : Tables) (interface tag : Nat) (innerTag circuitEpId vrfEpId : Option Nat)

/-- A live endpoint other than the edited one has an overlapping VLAN. -/
def Conflicting (r : Row) : Prop :=
  t.Live r∧r.interface=interface∧Overlap r.tag r.innerTag tag innerTag∧
    ¬r.IsSelf circuitEpId vrfEpId

def AcceptsOnlyFree : Prop :=
  (t.findAvailableUnit interface tag innerTag circuitEpId vrfEpId).isSome=true →
    ∀ r,¬t.Conflicting interface tag innerTag circuitEpId vrfEpId r

/-- Every unit for an inner tag is taken. -/
def Exhausted : Prop := ∀ u,5000≤u → u<16000 → u∈t.used interface

/-- The first row is not the edited one, or no unit is left. -/
def Noticed : Prop :=
  (∃ r rs,t.conflictRows interface tag innerTag=r::rs∧¬r.IsSelf circuitEpId vrfEpId)∨
    (t.conflictRows interface tag innerTag=[]∧innerTag≠none∧t.Exhausted interface)

theorem findAvailableUnit_isNone_iff :
    t.findAvailableUnit interface tag innerTag circuitEpId vrfEpId=none↔
      t.Noticed interface tag innerTag circuitEpId vrfEpId := by
  rw [findAvailableUnit_eq]
  cases hrows : t.conflictRows interface tag innerTag with
  | cons r rs =>
    by_cases hself : r.IsSelf circuitEpId vrfEpId
    all_goals simp [Noticed,hrows]
  | nil =>
    by_cases hinner : innerTag=none
    · subst hinner
      simp [Noticed,hrows]
    · simp [Noticed,hrows,hinner,Exhausted,firstFree_none_iff]

theorem currentCircuitEp_of_live {r : Row} (hlive : t.Live r) (hk : r.kind=.circuit)
    (hset : r.state≠none) : t.currentCircuitEp r=true := by
  obtain ⟨hmem,hconn,hstate,hepoch⟩ := hlive
  have hnot : stateNotDecom r.state=true := by
    cases hs : r.state with
    | none => exact absurd hs hset
    | some s => cases s <;> simp_all [stateNotDecom]
  simp [currentCircuitEp,hk,hepoch hk,hconn,hnot]

/-- The queries find every live endpoint that overlaps and has a state. -/
theorem mem_conflictRows {r : Row} (hlive : t.Live r) (hset : r.state≠none)
    (hif : r.interface=interface) (hover : Overlap r.tag r.innerTag tag innerTag) :
    r∈t.conflictRows interface tag innerTag := by
  have htag := (taggedAs_iff r tag innerTag).mpr hover
  rw [conflictRows]
  cases hk : r.kind with
  | vrf =>
    simp [l3Rows,hlive.1,hlive.2.1,hk,hif,htag]
  | circuit =>
    simp [l2Rows,hlive.1,t.currentCircuitEp_of_live hlive hk hset,hif,htag]

/-- Only free VLANs are accepted exactly if every conflict shows in the first row that the queries
give. -/
theorem acceptsOnlyFree_iff : t.AcceptsOnlyFree interface tag innerTag circuitEpId vrfEpId↔
      ((∃ r,t.Conflicting interface tag innerTag circuitEpId vrfEpId r) →
        t.Noticed interface tag innerTag circuitEpId vrfEpId) := by
  rw [←findAvailableUnit_isNone_iff,AcceptsOnlyFree]
  cases hunit : t.findAvailableUnit interface tag innerTag circuitEpId vrfEpId <;> simp

end Tables

/-- Two circuits share outer tag 100 with different inner tags. -/
def shared : Tables where
  rows := [⟨.circuit,1,11,1,100,some 10,5000,-1,some .active⟩,
    ⟨.circuit,2,12,1,100,some 20,5001,-1,some .active⟩]
  connections := [(.circuit,11),(.circuit,12)]

/-- Endpoint 1 takes the whole of VLAN 100. -/
theorem shared_accepts_conflict : ¬shared.AcceptsOnlyFree 1 100 none (some 1) none := by
  intro h
  apply h (by decide) ⟨.circuit,2,12,1,100,some 20,5001,-1,some .active⟩
  exact ⟨by decide,rfl,⟨rfl,.inr (.inl rfl)⟩,by decide⟩

end OESS.Endpoint
