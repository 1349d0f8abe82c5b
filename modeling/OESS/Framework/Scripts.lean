import OESS.Framework.Transactions

namespace OESS.Scripts

open Transactions Transactions.Routine List

variable {C : Type}

inductive Answer where
  | failed (error : String)
  | unchanged
  | changed
  deriving DecidableEq

def Answer.error : Answer → Option String
  | .failed error => some error
  | _ => none

/-- A failed check reports an error, or the handler dies. -/
inductive Check where
  | need (passes : Bool) (error : String)
  | must (holds : Bool)

/-- A check, which may roll back, or a statement that changes `c`, after whose failure the handler
goes on, sometimes with a rollback. -/
inductive Step (C : Type) where
  | check (c : Check) (rollsBack : Bool)
  | write (c : C) (answer : Answer) (undoes : Bool)

/-- Checks, the transaction, and checks after its commit. -/
structure Script (C : Type) where
  before : List Check
  body : List (Step C)
  commits : Bool
  late : List Check

/-- A change is taken by the transaction or, without one, by the database. -/
def take (c : C) : Routine (List C) String Unit := fun s => (.done (),{s with db := s.db++[c]})

def perform : Step C → Routine (List C) String Unit
  | .check (.need true _) _ => pure ()
  | .check (.need false error) true => abort error
  | .check (.need false error) false => fail error
  | .check (.must true) _ => pure ()
  | .check (.must false) _ => die
  | .write c .changed _ => take c
  | .write _ .unchanged _ => pure ()
  | .write _ (.failed _) true => rollback
  | .write _ (.failed _) false => pure ()

def checks (cs : List Check) : List (Step C) := cs.map fun c => .check c false

def Script.run (x : Script C) : Routine (List C) String Unit := do
  each perform (checks x.before)
  let _ ← begin
  each perform x.body
  let _ ← commit
  each perform (checks x.late)

/-- When the process ends, what is open is rolled back. -/
def kept (s : Session (List C)) : List C := s.saved.getD s.db

inductive Verdict where
  | passes | reports | dies
  deriving DecidableEq

def ended : Outcome String Unit → Verdict
  | .done _ => .passes
  | .failed _ => .reports
  | .died => .dies

def Script.outcome (x : Script C) (db : List C) : Outcome String Unit×Session (List C) :=
  x.run (connect db fun _ => !x.commits)

/-- After an error the database is as it was. -/
def Script.Harmless (x : Script C) (db : List C) : Prop :=
  ended (x.outcome db).1=.reports → kept (x.outcome db).2=db

def Step.verdict : Step C → Verdict
  | .check (.need false _) _ => .reports
  | .check (.must false) _ => .dies
  | _ => .passes

def verdict : List (Step C) → Verdict
  | [] => .passes
  | x::xs => if x.verdict=.passes then verdict xs else x.verdict

variable (xs : List (Step C))

def reached : List (Step C) := xs.takeWhile fun x => x.verdict==.passes

def Step.changes : Step C → List C
  | .write c .changed _ => [c]
  | _ => []

def changes : List C := xs.flatMap Step.changes

def Step.undoes : Step C → Bool
  | .write _ (.failed _) true => true
  | _ => false

/-- Changes after a rollback take effect at once. -/
def strayed : List (Step C) → List C
  | [] => []
  | x::xs => if x.undoes=true then changes xs else strayed xs

/-- The changes that are in the database after the commit. -/
def lasting (commits : Bool) (xs : List (Step C)) : List C :=
  if xs.any Step.undoes=true then strayed xs
  else if commits=true then changes xs
  else []

variable {x : Step C} {s : Session (List C)}

theorem perform_plain (hv : x.verdict=.passes) (hu : x.undoes=false) (s : Session (List C)) :
    perform x s=(.done (),{s with db := s.db++x.changes}) := by
  have hpure : (s : Session (List C))={s with db := s.db++[]} := by rw [append_nil]
  cases x with
  | check c rollsBack =>
    match c,hv with
    | .need true _,_ | .must true,_ => exact Prod.ext rfl hpure
  | write c answer undoes =>
    match answer,undoes,hu with
    | .changed,_,_ => rfl
    | .unchanged,_,_ | .failed _,false,_ => exact Prod.ext rfl hpure

theorem perform_undoes (hu : x.undoes=true) (s : Session (List C)) :
    perform x s=(.done (),s.rollback) := by
  match x,hu with
  | .write _ (.failed _) true,_ => rfl

theorem perform_stops (hv : x.verdict≠.passes) (s : Session (List C)) :
    ended (perform x s).1=x.verdict∧
      ((perform x s).2=s∨x.verdict=.reports∧(perform x s).2=s.rollback) := by
  cases x with
  | check c rollsBack =>
    match c,rollsBack,hv with
    | .need true _,_,hv => exact absurd rfl hv
    | .need false error,true,_ => exact ⟨rfl,.inr ⟨rfl,rfl⟩⟩
    | .need false error,false,_ => exact ⟨rfl,.inl rfl⟩
    | .must true,_,hv => exact absurd rfl hv
    | .must false,_,_ => exact ⟨rfl,.inl rfl⟩
  | write c answer undoes => exact absurd rfl hv

theorem each_passes (hv : x.verdict=.passes) (xs : List (Step C)) (s : Session (List C)) :
    each perform (x::xs) s=each perform xs (perform x s).2 := by
  cases hu : x.undoes with
  | true => exact bind_of_done (perform_undoes hu s) |>.trans (by rw [perform_undoes hu])
  | false => exact bind_of_done (perform_plain hv hu s) |>.trans (by rw [perform_plain hv hu])

theorem each_stops (hv : x.verdict≠.passes) (xs : List (Step C)) (s : Session (List C)) :
    each perform (x::xs) s=perform x s := by
  have h := (perform_stops hv s).1
  change (perform x >>= fun _ => each perform xs) s=perform x s
  rw [bind_apply]
  match perform x s,h with
  | (.done a,t),h => exact absurd h.symm hv
  | (.failed e,t),h | (.died,t),h => rfl

theorem verdict_cons_passes (hv : x.verdict=.passes) (xs : List (Step C)) :
    verdict (x::xs)=verdict xs := if_pos hv

theorem verdict_cons_stops (hv : x.verdict≠.passes) (xs : List (Step C)) :
    verdict (x::xs)=x.verdict := if_neg hv

theorem reached_cons_passes (hv : x.verdict=.passes) (xs : List (Step C)) :
    reached (x::xs)=x::reached xs := takeWhile_cons_of_pos (by simp [hv])

theorem reached_cons_stops (hv : x.verdict≠.passes) (xs : List (Step C)) :
    reached (x::xs)=[] := takeWhile_cons_of_neg (by simp [hv])

@[simp] theorem changes_cons (x : Step C) (xs : List (Step C)) :
    changes (x::xs)=x.changes++changes xs := flatMap_cons

theorem strayed_cons_undoes (hu : x.undoes=true) (xs : List (Step C)) :
    strayed (x::xs)=changes xs := if_pos hu

theorem strayed_cons_plain (hu : x.undoes=false) (xs : List (Step C)) :
    strayed (x::xs)=strayed xs := if_neg (by simp [hu])

theorem each_ended (s : Session (List C)) : ended (each perform xs s).1=verdict xs := by
  induction xs generalizing s with
  | nil => rfl
  | cons x xs ih =>
    by_cases hv : x.verdict=.passes
    · rw [each_passes hv,verdict_cons_passes hv]
      exact ih _
    · rw [each_stops hv,verdict_cons_stops hv]
      exact (perform_stops hv s).1

theorem rollback_closed (hs : s.saved=none) : s.rollback.db=s.db := by
  change s.saved.getD s.db=s.db
  rw [hs]
  rfl

theorem each_closed (hs : s.saved=none) :
    (each perform xs s).2.saved=none∧(each perform xs s).2.db=s.db++changes (reached xs) := by
  induction xs generalizing s with
  | nil => exact ⟨hs,(append_nil _).symm⟩
  | cons x xs ih =>
    by_cases hv : x.verdict=.passes
    · rw [each_passes hv,reached_cons_passes hv]
      cases hu : x.undoes with
      | true =>
        rw [perform_undoes hu]
        obtain ⟨ih₁,ih₂⟩ := ih (s := s.rollback) rfl
        have hx : x.changes=[] := by
          match x,hu with
          | .write _ (.failed _) true,_ => rfl
        refine ⟨ih₁,ih₂.trans ?_⟩
        rw [rollback_closed hs,changes_cons,hx,nil_append]
      | false =>
        rw [perform_plain hv hu]
        obtain ⟨ih₁,ih₂⟩ := ih (s := {s with db := s.db++x.changes}) hs
        refine ⟨ih₁,ih₂.trans ?_⟩
        rw [changes_cons,append_assoc]
    · rw [each_stops hv,reached_cons_stops hv]
      have hnil : s.db=s.db++changes ([] : List (Step C)) := (append_nil _).symm
      obtain h | ⟨-,h⟩ := (perform_stops hv s).2
      · rw [h]
        exact ⟨hs,hnil⟩
      · rw [h]
        exact ⟨rfl,(rollback_closed hs).trans hnil⟩

/-- After a step that rolled back, later changes stay; otherwise it is open with all changes, or was
rolled back by the step with the error. -/
theorem each_opened {d : List C} (hs : s.saved=some d) : if (reached xs).any Step.undoes=true then
      (each perform xs s).2.saved=none∧(each perform xs s).2.db=d++strayed (reached xs)
    else
      ((each perform xs s).2.saved=some d∧
        (each perform xs s).2.db=s.db++changes (reached xs))∨
      verdict xs=.reports∧(each perform xs s).2.saved=none∧(each perform xs s).2.db=d := by
  induction xs generalizing s with
  | nil => exact .inl ⟨hs,(append_nil _).symm⟩
  | cons x xs ih =>
    by_cases hv : x.verdict=.passes
    · rw [each_passes hv,reached_cons_passes hv,verdict_cons_passes hv]
      cases hu : x.undoes with
      | true =>
        have hd : s.rollback.db=d := by
          change s.saved.getD s.db=d
          rw [hs]
          rfl
        obtain ⟨h₁,h₂⟩ := each_closed xs (s := s.rollback) rfl
        rw [if_pos (by simp [hu]),perform_undoes hu,strayed_cons_undoes hu]
        exact ⟨h₁,by rw [h₂,hd]⟩
      | false =>
        have h := ih (s := {s with db := s.db++x.changes}) hs
        rw [perform_plain hv hu,any_cons,hu,strayed_cons_plain hu,changes_cons,
          ← append_assoc]
        exact h
    · rw [each_stops hv,reached_cons_stops hv,verdict_cons_stops hv]
      obtain h | ⟨hr,h⟩ := (perform_stops hv s).2
      · rw [h]
        exact .inl ⟨hs,(append_nil _).symm⟩
      rw [h]
      refine .inr ⟨hr,rfl,?_⟩
      change s.saved.getD s.db=d
      rw [hs]
      rfl

section Harmless

theorem reached_of_passes {xs : List (Step C)} (h : verdict xs=.passes) : reached xs=xs := by
  induction xs with
  | nil => rfl
  | cons x xs ih =>
    by_cases hv : x.verdict=.passes
    · rw [verdict_cons_passes hv] at h
      rw [reached_cons_passes hv,ih h]
    · rw [verdict_cons_stops hv] at h
      exact absurd h hv

theorem strayed_eq_nil {xs : List (Step C)} (h : xs.any Step.undoes=false) : strayed xs=[] := by
  induction xs with
  | nil => rfl
  | cons x xs ih =>
    rw [any_cons,Bool.or_eq_false_iff] at h
    rw [strayed_cons_plain h.1]
    exact ih h.2

theorem changes_checks (cs : List Check) : changes (reached (checks cs : List (Step C)))=[] := by
  apply flatMap_eq_nil_iff.mpr
  intro x hx
  have hmem := takeWhile_subset _ hx
  obtain ⟨c,-,rfl⟩ := mem_map.mp hmem
  rfl

def SameFaults (s t : Session (List C)) : Prop := t.faults=s.faults

instance : Stable (SameFaults (C := C)) where
  refl _ := rfl
  trans _ _ _ h h' := h'.trans h

theorem perform_faults (x : Step C) : Keeps SameFaults (perform x) := by
  intro s
  by_cases hv : x.verdict=.passes
  · cases hu : x.undoes with
    | true => rw [perform_undoes hu]; rfl
    | false => rw [perform_plain hv hu]; rfl
  · obtain h | ⟨-,h⟩ := (perform_stops hv s).2
    all_goals rw [h]; rfl

theorem each_checks (cs : List Check) (hs : s.saved=none) :
    (each perform (checks cs) s).2.saved=none∧(each perform (checks cs) s).2.db=s.db := by
  obtain ⟨h₁,h₂⟩ := each_closed (checks cs) hs
  rw [changes_checks,append_nil] at h₂
  exact ⟨h₁,h₂⟩

theorem kept_closed (hs : s.saved=none) : kept s=s.db := by
  rw [kept,hs]
  rfl

theorem kept_inside {d : List C} (hs : s.saved=some d) :
    kept (each perform xs s).2=d++strayed (reached xs) := by
  have h := each_opened xs hs
  cases hu : (reached xs).any Step.undoes with
  | true =>
    rw [if_pos hu] at h
    rw [kept_closed h.1,h.2]
  | false =>
    rw [if_neg (by simp [hu])] at h
    rw [strayed_eq_nil hu,append_nil]
    obtain ⟨ho,-⟩ | ⟨-,hc,hd⟩ := h
    · rw [kept,ho]
      rfl
    · rw [kept_closed hc,hd]

theorem commit_lasting {commits : Bool} {s t : Session (List C)} (hs : s.saved=some s.db)
    (ht : (each perform xs s).2=t) (hf : t.faults=fun _ => !commits) (hv : verdict xs=.passes) :
    t.commit.2.saved=none∧t.commit.2.db=s.db++lasting commits xs := by
  refine ⟨t.commit_saved,?_⟩
  have h := each_opened xs hs
  rw [reached_of_passes hv,ht] at h
  unfold lasting Session.commit
  by_cases hu : xs.any Step.undoes=true
  · rw [if_pos hu] at h ⊢
    rw [h.1]
    exact h.2
  rw [if_neg hu] at h ⊢
  obtain ⟨ho,hd⟩ | ⟨hr,-⟩ := h
  · rw [ho,hf]
    cases commits with
    | true => exact hd
    | false => exact (append_nil _).symm
  · rw [hv] at hr
    exact absurd hr (by decide)

namespace Script

variable (x : Script C)

def Admitted : Prop := verdict (checks x.before : List (Step C))=.passes
  deriving Decidable

/-- The handler reports an error from inside its transaction. -/
def FailsInside : Prop := x.Admitted∧verdict x.body=.reports
  deriving Decidable

def FailsLate : Prop :=
  x.Admitted∧verdict x.body=.passes∧verdict (checks x.late : List (Step C))=.reports
  deriving Decidable

end Script

theorem each_then (f : Unit → Routine (List C) String Unit) (s : Session (List C)) :
    (each perform xs >>= f) s=
      if verdict xs=.passes then f () (each perform xs s).2 else each perform xs s := by
  have he := each_ended xs s
  rw [bind_apply]
  match each perform xs s,he with
  | (.done a,t),he => exact (if_pos he.symm).symm
  | (.failed e,t),he | (.died,t),he => exact (if_neg (by rw [← he]; exact Verdict.noConfusion)).symm

theorem Script.harmless_iff (x : Script C) (db : List C) :
    x.Harmless db ↔
      (x.FailsInside → strayed (reached x.body)=[])∧
        (x.FailsLate → lasting x.commits x.body=[]) := by
  set s₀ := connect db fun _ => !x.commits
  obtain ⟨hc₁,hd₁⟩ := each_checks (s := s₀) x.before rfl
  have hf₁ := Keeps.each perform_faults (checks x.before) s₀
  rw [Harmless,outcome,run,FailsInside,FailsLate,each_then]
  by_cases ha : x.Admitted
  · -- the transaction begins with the database unchanged
    have ha' : verdict (checks x.before : List (Step C))=.passes := ha
    set s₁ := (each perform (checks x.before) s₀).2
    have hs : s₁.opened.saved=some s₁.opened.db := rfl
    have hd : s₁.opened.db=db := hd₁
    have hbegin : (begin : Routine (List C) String Bool) s₁=(.done true,s₁.opened) := by
      rw [Routine.begin,Session.begin_closed hc₁]
    rw [if_pos ha',bind_of_done hbegin,each_then]
    have hkept := kept_inside x.body hs
    by_cases hp : verdict x.body=.passes
    · set s₂ := (each perform x.body s₁.opened).2 with hs₂
      have hf₂ : s₂.faults=fun _ => !x.commits :=
        (Keeps.each perform_faults x.body s₁.opened).trans hf₁
      obtain ⟨hc₃,hd₃⟩ := commit_lasting x.body hs hs₂.symm hf₂ hp
      obtain ⟨hc₄,hd₄⟩ := each_checks x.late hc₃
      have hl : (each perform (checks x.late) s₂.commit.2).2.db=db++lasting x.commits x.body := by
        rw [hd₄,hd₃,hd]
      have hcommit : (Routine.commit : Routine (List C) String Bool) s₂=
          (.done s₂.commit.1,s₂.commit.2) := rfl
      rw [if_pos hp,bind_of_done hcommit,each_ended,kept_closed hc₄,hl]
      simp [ha,hp]
    · rw [if_neg hp,each_ended,hkept,hd]
      simp [ha,hp]
  · have hna : ¬verdict (checks x.before : List (Step C))=.passes := ha
    rw [if_neg hna,kept_closed hc₁]
    simp only [ha,false_and,false_implies,and_self,iff_true]
    intro _
    exact hd₁

end Harmless

/-- A call with the steps it makes and the error it returns. -/
structure Call (C : Type) where
  steps : List (Step C)
  error : Option String

namespace Call

def refusing (refusal : Option String) (c : Call C) : Call C :=
  if refusal.isSome=true then ⟨[],refusal⟩ else c

def andThen (c d : Call C) : Call C :=
  if c.error.isSome=true then c else ⟨c.steps++d.steps,d.error⟩

def leading (lead : String) (c : Call C) : Call C := {c with error := c.error.map (lead++·)}

def required (c : Call C) (lead : String) (rollsBack : Bool) : List (Step C) :=
  c.steps++[.check (.need c.error.isNone (lead++c.error.getD "")) rollsBack]

end Call

def statements : List (C×Answer) → Call C
  | [] => ⟨[],none⟩
  | (c,answer)::ws => Call.andThen ⟨[.write c answer false],answer.error⟩ (statements ws)

def Steady : Prop := ∀ x∈xs,x.undoes=false

section Steady

variable {xs ys : List (Step C)} {c d : Call C}

theorem steady_nil : Steady ([] : List (Step C)) := fun _ h => absurd h not_mem_nil

theorem Steady.append (hx : Steady xs) (hy : Steady ys) : Steady (xs++ys) := by
  intro x h
  obtain h | h := mem_append.mp h
  · exact hx x h
  · exact hy x h

theorem steady_check (c : Check) (rollsBack : Bool) : Steady [(.check c rollsBack : Step C)] := by
  intro x h
  rw [mem_singleton.mp h]
  rfl

theorem steady_write (c : C) (answer : Answer) : Steady [.write c answer false] := by
  intro x h
  rw [mem_singleton.mp h]
  cases answer <;> rfl

theorem steady_flatMap {ι : Type} {f : ι → List (Step C)} {is : List ι}
    (h : ∀ i∈is,Steady (f i)) : Steady (is.flatMap f) := by
  intro x hx
  obtain ⟨i,hi,hx⟩ := mem_flatMap.mp hx
  exact h i hi x hx

theorem Steady.refusing (refusal : Option String) (hc : Steady c.steps) :
    Steady (c.refusing refusal).steps := by
  unfold Call.refusing
  split_ifs
  · exact steady_nil
  · exact hc

theorem Steady.andThen (hc : Steady c.steps) (hd : Steady d.steps) :
    Steady (c.andThen d).steps := by
  unfold Call.andThen
  split_ifs
  · exact hc
  · exact hc.append hd

theorem Steady.required (hc : Steady c.steps) (lead : String) (rollsBack : Bool) :
    Steady (c.required lead rollsBack) := hc.append (steady_check _ _)

theorem statements_steady (ws : List (C×Answer)) : Steady (statements ws).steps := by
  induction ws with
  | nil => exact steady_nil
  | cons w ws ih => exact (steady_write w.1 w.2).andThen ih

theorem Steady.strayed (hx : Steady xs) : strayed (reached xs)=[] := by
  apply strayed_eq_nil
  apply any_eq_false.mpr
  intro x h
  rw [hx x (takeWhile_subset _ h)]
  exact Bool.false_ne_true

end Steady

end OESS.Scripts
