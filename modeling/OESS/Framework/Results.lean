import OESS.Framework.Transactions

namespace OESS.Transactions

open Routine

variable {D E α β : Type} {d : D} {Q : α → D → Prop}

/-- While no statement fails, `Q` holds of result and data. -/
def Yields (x : Routine D E α) (d : D) (Q : α → D → Prop) : Prop :=
  ∀ s a t,s.Healthy → s.db=d → x s=(.done a,t) → t.Healthy∧Q a t.db

variable {x y : Routine D E α} {f : α → Routine D E β} {R : β → D → Prop}

theorem Yields.mono {R : α → D → Prop} (hx : Yields x d R) (h : ∀ a d',R a d' → Q a d') :
    Yields x d Q := by
  intro s a t hs hd hr
  obtain ⟨ht,ha⟩ := hx s a t hs hd hr
  exact ⟨ht,h a t.db ha⟩

protected theorem Yields.pure {a : α} (h : Q a d) : Yields (pure a : Routine D E α) d Q := by
  intro s b t hs hd hr
  obtain ⟨rfl,rfl⟩ := pure_done_iff.mp hr
  exact ⟨hs,hd ▸ h⟩

/-- A routine that never returns. -/
def Barren (x : Routine D E α) : Prop := ∀ s a t,x s≠(.done a,t)

theorem Barren.yields (h : Barren x) : Yields x d Q := fun s a t _ _ hr => absurd hr (h s a t)

protected theorem Barren.fail (e : E) : Barren (fail e : Routine D E α) := fun _ _ _ h => (by cases h)

protected theorem Barren.die : Barren (die : Routine D E α) := fun _ _ _ h => (by cases h)

protected theorem Barren.bind (hf : ∀ a,Barren (f a)) : Barren (x >>= f) := by
  intro s b t h
  obtain ⟨a,u,-,hu⟩ := bind_done_iff.mp h
  exact hf a u b t hu

protected theorem Barren.abort (e : E) : Barren (abort e : Routine D E α) := .bind fun _ => .fail e

protected theorem Yields.bind (hx : Yields x d Q) (hf : ∀ a d',Q a d' → Yields (f a) d' R) :
    Yields (x >>= f) d R := by
  intro s b t hs hd hr
  obtain ⟨a,u,hu,hb⟩ := bind_done_iff.mp hr
  obtain ⟨hhealthy,ha⟩ := hx s a u hs hd hu
  exact hf a u.db ha u b t hhealthy rfl hb

protected theorem Yields.ite {c : Prop} {_ : Decidable c} (hx : c → Yields x d Q)
    (hy : ¬c → Yields y d Q) : Yields (if c then x else y) d Q := by
  split_ifs with h
  · exact hx h
  · exact hy h

protected theorem Yields.step {d₁ : D} (hx : Yields x d fun _ d' => d'=d₁) (hf : ∀ a,Yields (f a) d₁ R) :
    Yields (x >>= f) d R :=
  .bind hx fun a _ hd => hd ▸ hf a

protected theorem Yields.read {P : α → Prop} (hx : Yields x d fun a d' => d'=d∧P a)
    (hf : ∀ a,P a → Yields (f a) d R) : Yields (x >>= f) d R :=
  .bind hx fun a _ hd => hd.1 ▸ hf a hd.2

protected theorem Yields.check {c : Prop} {_ : Decidable c} {x : Routine D E Unit}
    {f : Unit → Routine D E β} (hx : Barren x) (hf : ¬c → Yields (f ()) d R) :
    Yields (onlyIf c x >>= f) d R :=
  .read (.ite (fun _ => hx.yields) fun h => .pure ⟨rfl,h⟩) fun _ => hf

protected theorem Yields.statement {Q : Option α → D → Prop} {f : D → Option (α×D)}
    (hsome : ∀ a d',f d=some (a,d') → Q (some a) d') (hnone : f d=none → Q none d) :
    Yields (statement f : Routine D E (Option α)) d Q := by
  intro s a t hs hd hr
  subst hd
  simp only [statement,hs s.asked] at hr
  cases hf : f s.db with
  | none =>
    rw [hf] at hr
    cases hr
    exact ⟨hs,hnone hf⟩
  | some r =>
    rw [hf] at hr
    cases hr
    exact ⟨hs,hsome r.1 r.2 hf⟩

protected theorem Yields.select (f : D → α) :
    Yields (select f : Routine D E (Option α)) d fun o d' => d'=d∧o=some (f d) := by
  refine .statement (fun a d' hf => ?_) fun hf => nomatch hf
  cases hf
  exact ⟨rfl,rfl⟩

protected theorem Yields.orElse {x : Routine D E (Option α)} (hy : Barren y)
    (hx : Yields x d fun o d' => ∀ a,o=some a → Q a d') : Yields (orElse x y) d Q := by
  refine .bind hx fun o d' ho => ?_
  cases o with
  | none => exact hy.yields
  | some a => exact .pure (ho a rfl)

protected theorem Yields.required {f : D → Option (α×D)} (hy : Barren y) :
    Yields (orElse (statement f) y) d fun a d' => f d=some (a,d') := by
  refine .orElse hy (.statement (fun a d' hf b hb => ?_) fun _ _ hb => nomatch hb)
  cases hb
  exact hf

protected theorem Yields.written {f : D → D} {y : Routine D E Unit} (hy : Barren y) :
    Yields (orElse (write f) y) d fun _ d' => d'=f d := by
  refine (Yields.required hy).mono fun a d' hf => ?_
  cases hf
  rfl

protected theorem Yields.readOnly (hx : ReadOnly x) : Yields x d fun _ d' => d'=d := by
  intro s a t hs hd hr
  obtain ⟨-,⟨hdb,hfaults⟩,-⟩ := hx s
  rw [hr] at hdb hfaults
  refine ⟨fun i => ?_,hdb.trans hd⟩
  rw [hfaults]
  exact hs i

protected theorem Yields.undoing (hx : Yields x d Q) : Yields (undoing x) d Q := by
  intro s a t hs hd hr
  refine hx s a t hs hd ?_
  unfold undoing at hr
  match x s,hr with
  | (.done b,u),hr => exact hr
  | (.failed e,u),hr | (.died,u),hr => cases hr

protected theorem Yields.beginOrDie : Yields (beginOrDie : Routine D E Unit) d fun _ d' => d'=d := by
  intro s a t hs hd hr
  obtain ⟨b,u,hb,hu⟩ := bind_done_iff.mp hr
  cases hb
  have hsame : s.begin.2.Healthy∧s.begin.2.db=s.db := by
    unfold Session.begin
    cases s.saved <;> exact ⟨hs,rfl⟩
  split at hu
  next hok =>
    cases hu
    exact ⟨hsame.1,hsame.2.trans hd⟩
  · cases hu

protected theorem Yields.commit : Yields (commit : Routine D E Bool) d fun _ d' => d'=d := by
  intro s a t hs hd hr
  cases hr
  refine ⟨s.commit_healthy.mpr hs,?_⟩
  unfold Session.commit
  cases s.saved with
  | none => exact hd
  | some d₀ =>
    simpa only [hs s.asked]

end OESS.Transactions
