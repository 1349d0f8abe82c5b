import OESS.Vlans.Ranges

namespace OESS.Vlans

/-- What is no span is compared as a number. -/
inductive Piece where
  | span (start stop : Nat)
  | number (n : Int)

/-- The request from `start` to `stop` is in the element. -/
def Piece.contains (start stop : Int) : Piece → Bool
  | .span first last => start≥first∧stop≤last
  | .number n => start=n∧stop=n

inductive RangeError where
  | endBeforeStart | outsideRange

variable (vlanTagRange mplsVlanTagRange : List Piece) (start : Int) (stop : Option Int)

/-- A request from the untagged value to a tag is checked from 1. -/
def checkedStart : Int := if start=untagged∧stop.isSome then 1 else start

/-- An end of 0 counts as undefined. -/
def checkedEnd : Int :=
  match stop with
  | none => checkedStart start stop
  | some last => if last=0 then checkedStart start stop else last

def checkVlanRange : Except RangeError Unit :=
  let pieces := vlanTagRange++mplsVlanTagRange
  if checkedEnd start stop<checkedStart start stop then .error .endBeforeStart
  else if start=untagged∧¬pieces.any (·.contains untagged untagged) then .error .outsideRange
  else if start=untagged∧checkedStart start stop=untagged∧checkedEnd start stop=untagged then .ok ()
  else if pieces.any (·.contains (checkedStart start stop) (checkedEnd start stop)) then .ok ()
  else .error .outsideRange

/-- The request is not empty, and each tag is in some element. -/
def Within (pieces : List Piece) : Prop :=
  start≤ stop.getD start∧ ∀ t,start≤t → t≤ stop.getD start → t≠0 → ∃ p∈pieces,p.contains t t=true

/-- One element contains the request as the check sees it. -/
def InOne (pieces : List Piece) : Prop :=
  start=untagged∧stop=none∨ checkedStart start stop≤checkedEnd start stop∧
      ∃ p∈pieces,p.contains (checkedStart start stop) (checkedEnd start stop)=true

theorem checkVlanRange_ok_iff : (checkVlanRange vlanTagRange mplsVlanTagRange start stop).isOk=true ↔
    (start=untagged → ∃ p∈vlanTagRange++mplsVlanTagRange,p.contains untagged untagged=true)∧
      InOne start stop (vlanTagRange++mplsVlanTagRange) := by
  unfold checkVlanRange InOne
  cases stop <;> grind [checkedStart,checkedEnd,Except.toBool]

theorem contains_of_mem {p : Piece} {first last t : Int} (h : p.contains first last=true)
    (hfirst : first≤t) (hlast : t≤last) : p.contains t t=true := by
  cases p <;> grind [Piece.contains]

/-- A request in one element is within the range, unless its end is 0. -/
theorem within_of_inOne {pieces : List Piece}
    (huntagged : start=untagged → ∃ p∈pieces,p.contains untagged untagged=true)
    (hone : InOne start stop pieces) (hend : stop=some 0 → start=untagged) :
    Within start stop pieces := by
  have hchecked (t : Int) (hfirst : checkedStart start stop≤t) (hlast : t≤checkedEnd start stop)
      (hne : ¬(start=untagged∧stop=none)) : ∃ p∈pieces,p.contains t t=true := by
    obtain ⟨-,p,hp,hcontains⟩ := hone.resolve_left hne
    exact ⟨p,hp,contains_of_mem hcontains hfirst hlast⟩
  unfold InOne at hone
  refine ⟨?_,fun t hfirst hlast hzero => ?_⟩
  · cases stop <;> grind [checkedStart,checkedEnd,untagged]
  · by_cases ht : t=untagged∧start=untagged
    · rw [ht.1]
      exact huntagged ht.2
    · apply hchecked t <;> cases stop <;> grind [checkedStart,checkedEnd,untagged]

/-- The check is right about a request exactly if one element has all of it, and an end of 0, read
as undefined, does not let a wrong one pass. -/
theorem checkVlanRange_within_iff :
    ((checkVlanRange vlanTagRange mplsVlanTagRange start stop).isOk=true ↔
        Within start stop (vlanTagRange++mplsVlanTagRange)) ↔
      (Within start stop (vlanTagRange++mplsVlanTagRange) →
          InOne start stop (vlanTagRange++mplsVlanTagRange))∧
        (stop=some 0 → start≠untagged →
          (∃ p∈vlanTagRange++mplsVlanTagRange,p.contains start start=true) →
            Within start stop (vlanTagRange++mplsVlanTagRange)) := by
  rw [checkVlanRange_ok_iff]
  constructor
  · intro hiff
    refine ⟨fun hwithin => (hiff.mpr hwithin).2,?_⟩
    intro hzero hstart hp
    subst hzero
    apply hiff.mp
    simpa [InOne,checkedStart,checkedEnd,hstart] using hp
  · intro ⟨hone,hzero⟩
    constructor
    · intro ⟨huntagged,hin⟩
      by_cases hend : stop=some 0 → start=untagged
      · exact within_of_inOne start stop huntagged hin hend
      · obtain ⟨rfl,hstart⟩ := Classical.not_imp.mp hend
        apply hzero rfl hstart
        simpa [InOne,checkedStart,checkedEnd,hstart] using hin
    · intro hwithin
      refine ⟨?_,hone hwithin⟩
      intro hstart
      subst hstart
      exact hwithin.2 _ (Int.le_refl _) hwithin.1 (by decide)

/-- 5 to 15 in the ranges 1 to 10 and 11 to 20. -/
theorem checkVlanRange_adjacent :
    (checkVlanRange [.span 1 10,.span 11 20] [] 5 (some 15)).isOk=false∧
      Within 5 (some 15) [.span 1 10,.span 11 20] := by
  refine ⟨by decide,by decide,fun t hfirst hlast _ => ?_⟩
  by_cases h : t≤10
  · exact ⟨.span 1 10,by simp,by grind [Piece.contains]⟩
  · exact ⟨.span 11 20,by simp,by grind [Piece.contains]⟩

end OESS.Vlans
