import OESS.Framework.Transactions

namespace OESS.Transactions

open Routine List

variable {D E α β ι : Type} {P : D → Prop} {V : α → Prop} {W : β → Prop}

/-- The result of the routine, or nothing if it reports a failure. -/
def Routine.attempt (x : Routine D E α) : Routine D E (Option α) := fun s =>
  match x s with
  | (.done a,t) => (.done (some a),t)
  | (.failed _,t) => (.done none,t)
  | (.died,t) => (.died,t)

/-- `P` holds of the data, and of what a rollback would bring back. -/
def Holds (P : D → Prop) (s : Session D) : Prop := P s.db∧∀ d∈s.saved,P d

/-- `P` is kept however the routine ends, and `V` holds of what it returns. -/
def Safe (P : D → Prop) (x : Routine D E α) (V : α → Prop) : Prop :=
  ∀ s,Holds P s → After x (fun a t => V a∧Holds P t) (Holds P) s

variable {s : Session D} {x y : Routine D E α} {f : α → Routine D E β} {c : Prop}
  {serve : ι → Routine D E α}

theorem Holds.rollback (h : Holds P s) : Holds P s.rollback := by
  refine ⟨?_,by simp [Session.rollback]⟩
  unfold Session.rollback
  cases hs : s.saved with
  | none => exact h.1
  | some d => exact h.2 d hs

theorem Holds.commit (h : Holds P s) : Holds P s.commit.2 := by
  refine ⟨?_,by simp [s.commit_saved]⟩
  unfold Session.commit
  cases hs : s.saved with
  | none => exact h.1
  | some d =>
    cases s.faults s.asked with
    | true => exact h.2 d hs
    | false => exact h.1

theorem Holds.begin (h : Holds P s) : Holds P s.begin.2 := by
  unfold Session.begin
  cases hs : s.saved with
  | none =>
    refine ⟨h.1,fun d hd => ?_⟩
    cases hd
    exact h.1
  | some d =>
    refine ⟨h.1,fun d' hd => h.2 d' ?_⟩
    rwa [hs]

theorem Safe.mono {V' : α → Prop} (hx : Safe P x V) (h : ∀ a,V a → V' a) :
    Safe P x V' := fun s hs => (hx s hs).mono fun a _ ha => ⟨h a ha.1,ha.2⟩

theorem Safe.holds (hx : Safe P x V) (hs : Holds P s) : Holds P (x s).2 := by
  have h := hx s hs
  unfold After at h
  match x s,h with
  | (.done a,t),h => exact h.2
  | (.failed e,t),h | (.died,t),h => exact h

protected theorem Safe.pure {a : α} (h : V a) : Safe P (pure a : Routine D E α) V := fun _ hs => ⟨h,hs⟩

protected theorem Safe.fail (e : E) : Safe P (fail e : Routine D E α) V := fun _ hs => hs

protected theorem Safe.die : Safe P (die : Routine D E α) V := fun _ hs => hs

protected theorem Safe.bind (hx : Safe P x V) (hf : ∀ a,V a → Safe P (f a) W) : Safe P (x >>= f) W := by
  intro s hs
  rw [After.bind]
  exact (hx s hs).mono fun a t ha => hf a ha.1 t ha.2

protected theorem Safe.ite {_ : Decidable c} (hx : Safe P x V) (hy : Safe P y V) :
    Safe P (if c then x else y) V := by
  split_ifs
  · exact hx
  · exact hy

protected theorem Safe.onlyIf {_ : Decidable c} {x : Routine D E Unit} (hx : Safe P x fun _ => True) :
    Safe P (onlyIf c x) fun _ => True :=
  .ite hx (.pure trivial)

protected theorem Safe.orElse {x : Routine D E (Option α)} (hx : Safe P x fun o => ∀ a∈o,V a)
    (hy : Safe P y V) : Safe P (orElse x y) V := by
  refine .bind hx fun o ho => ?_
  cases o with
  | none => exact hy
  | some a => exact .pure (ho a rfl)

protected theorem Safe.each {body : ι → Routine D E Unit} (is : List ι)
    (h : ∀ i∈is,Safe P (body i) fun _ => True) : Safe P (each body is) fun _ => True := by
  induction is with
  | nil => exact .pure trivial
  | cons i is ih =>
    refine .bind (h i mem_cons_self) fun _ _ => ?_
    exact ih fun j hj => h j (mem_cons_of_mem i hj)

protected theorem Safe.statement {f : D → Option (α×D)} (h : ∀ d a d',P d → f d=some (a,d') → P d'∧V a) :
    Safe P (statement f : Routine D E (Option α)) fun o => ∀ a∈o,V a := by
  intro s hs
  unfold After statement
  cases s.faults s.asked with
  | true => exact ⟨by simp,hs⟩
  | false =>
    cases hf : f s.db with
    | none => exact ⟨by simp,hs⟩
    | some r =>
      obtain ⟨hdb,hv⟩ := h s.db r.1 r.2 hs.1 hf
      exact ⟨by simpa using hv,hdb,hs.2⟩

protected theorem Safe.select {f : D → α} (h : ∀ d,P d → V (f d)) :
    Safe P (select f : Routine D E (Option α)) fun o => ∀ a∈o,V a := by
  apply Safe.statement
  intro d a d' hd hf
  cases hf
  exact ⟨hd,h d hd⟩

protected theorem Safe.write {f : D → D} (h : ∀ d,P d → P (f d)) :
    Safe P (write f : Routine D E (Option Unit)) fun _ => True := by
  refine (Safe.statement (V := fun _ => True) ?_).mono fun _ _ => trivial
  intro d a d' hd hf
  cases hf
  exact ⟨h d hd,trivial⟩

protected theorem Safe.rollback : Safe P (rollback : Routine D E Unit) fun _ => True :=
  fun _ hs => ⟨trivial,hs.rollback⟩

protected theorem Safe.commit : Safe P (commit : Routine D E Bool) fun _ => True :=
  fun _ hs => ⟨trivial,hs.commit⟩

protected theorem Safe.abort (e : E) : Safe P (abort e : Routine D E α) V :=
  .bind .rollback fun _ _ => .fail e

protected theorem Safe.beginOrDie : Safe P (beginOrDie : Routine D E Unit) fun _ => True := by
  have hbegin : Safe P (Routine.begin : Routine D E Bool) fun _ => True :=
    fun _ hs => ⟨trivial,hs.begin⟩
  exact .bind hbegin fun _ _ => .ite (.pure trivial) .die

protected theorem Safe.undoing (hx : Safe P x V) : Safe P (undoing x) V := by
  intro s hs
  have h := hx s hs
  unfold After at h
  unfold After undoing
  match x s,h with
  | (.done a,t),h => exact h
  | (.failed e,t),h => exact h.rollback
  | (.died,t),h => exact h

protected theorem Safe.attempt (hx : Safe P x V) : Safe P (attempt x) fun _ => True := by
  intro s hs
  have h := hx s hs
  unfold After at h
  unfold After attempt
  match x s,h with
  | (.done a,t),h => exact ⟨trivial,h.2⟩
  | (.failed e,t),h => exact ⟨trivial,h⟩
  | (.died,t),h => exact h

theorem ReadOnly.safe (hx : ReadOnly x) : Safe P x fun _ => True := by
  intro s hs
  obtain ⟨ht,⟨hdb,-⟩,-⟩ := hx s
  have hend : Holds P (x s).2 := by
    rw [Holds,hdb,ht.1]
    exact hs
  unfold After
  match x s,hend with
  | (.done a,t),hend => exact ⟨trivial,hend⟩
  | (.failed e,t),hend | (.died,t),hend => exact hend

/-- The routine goes from no transaction to none, unless it dies. -/
def Rests (x : Routine D E α) : Prop := Ends Idle x Idle Idle Logged

protected theorem Rests.pure (a : α) : Rests (pure a : Routine D E α) := fun _ h => h

protected theorem Rests.fail (e : E) : Rests (fail e : Routine D E α) := fun _ h => h

protected theorem Rests.die : Rests (die : Routine D E α) := fun _ h => h.2

protected theorem Rests.bind (hx : Rests x) (hf : ∀ a,Rests (f a)) : Rests (x >>= f) := Ends.bind hx hf

protected theorem Rests.ite {_ : Decidable c} (hx : Rests x) (hy : Rests y) : Rests (if c then x else y) := by
  split_ifs
  · exact hx
  · exact hy

protected theorem Rests.onlyIf {_ : Decidable c} {x : Routine D E Unit} (hx : Rests x) :
    Rests (onlyIf c x) := .ite hx (.pure ())

protected theorem Rests.orElse {x : Routine D E (Option α)} (hx : Rests x) (hy : Rests y) :
    Rests (orElse x y) := by
  refine .bind hx fun a => ?_
  cases a with
  | none => exact hy
  | some a => exact .pure a

protected theorem Rests.of_inside (hx : Keeps SameTransaction x) : Rests x := by
  intro s hs
  have hsame := hx s
  have hidle : Idle (x s).2 := ⟨hsame.1.trans hs.1,hsame.logged hs.2⟩
  match x s,hidle with
  | (.done a,t),hidle | (.failed e,t),hidle => exact hidle
  | (.died,t),hidle => exact hidle.2

protected theorem Rests.rollback : Rests (rollback : Routine D E Unit) :=
  fun _ hs => ⟨rfl,logged_rollback hs.2⟩

protected theorem Rests.attempt (hx : Rests x) : Rests (attempt x) := by
  intro s hs
  have h := hx s hs
  unfold attempt
  match x s,h with
  | (.done a,t),h | (.failed e,t),h | (.died,t),h => exact h

/-- A transaction open at first is closed at the end. -/
def Concludes (x : Routine D E α) : Prop := ∀ d,Ends (Within d) x Idle Idle Logged

protected theorem Concludes.bind (hx : Guarded x) (hf : ∀ a,Concludes (f a)) : Concludes (x >>= f) := by
  intro d s hs
  have hend := hx d s hs
  rw [bind_apply]
  match x s,hend with
  | (.done a,t),hend => exact hf a d t hend
  | (.failed e,t),hend => exact ⟨hend.1.1,hend.2⟩
  | (.died,t),hend => exact hend.2

protected theorem Concludes.commit (a : α) : Concludes (commit >>= fun _ => pure a : Routine D E α) :=
  fun _ s hs => ⟨s.commit_saved,logged_commit hs.2⟩

protected theorem Rests.transaction (hx : Concludes x) : Rests (beginOrDie >>= fun _ => x) := by
  intro s hs
  simp only [beginOrDie,bind_apply,Routine.begin,Session.begin_closed hs.1]
  exact hx s.db s.opened ⟨rfl,logged_opened hs⟩

theorem turn_rests {c : ι} (h : Rests (serve c)) (hs : Idle s) : Idle (turn serve s c) := by
  have hend := h s hs
  unfold turn
  match serve c s,hend with
  | (.done a,t),hend | (.failed e,t),hend => exact hend
  | (.died,t),hend => exact ⟨rfl,logged_rollback hend⟩

theorem Safe.turn {c : ι} (h : Safe P (serve c) V) (hs : Holds P s) : Holds P (turn serve s c) := by
  have hend := h.holds hs
  unfold Transactions.turn
  match serve c s,hend with
  | (.done a,t),hend | (.failed e,t),hend => exact hend
  | (.died,t),hend => exact hend.rollback

end OESS.Transactions
