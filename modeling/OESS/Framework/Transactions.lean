import OESS.Framework.Runs

namespace OESS.Transactions

open List

variable {D E α β ι : Type}

/-- The calls that begin and end transactions. -/
inductive Call where
  | begin | commit | rollback
  deriving DecidableEq

/-- A database session: the data it sees, what a rollback would restore, its calls, the number of
statements so far and (`faults`) which of them fail. -/
structure Session (D : Type) where
  db : D
  saved : Option D
  calls : List Call
  asked : Nat
  faults : Nat → Bool

namespace Session

variable (s : Session D)

/-- `begin` is refused while a transaction is open. -/
def begin : Bool×Session D :=
  let t := {s with calls := s.calls++[.begin]}
  match s.saved with
  | none => (true,{t with saved := some s.db})
  | some _ => (false,t)

/-- If the commit fails nothing is kept. -/
def commit : Bool×Session D :=
  let t := {s with calls := s.calls++[.commit],saved := none}
  match s.saved with
  | none => (true,t)
  | some d =>
    if s.faults s.asked then (false,{t with db := d,asked := s.asked+1})
    else (true,{t with asked := s.asked+1})

def rollback : Session D :=
  {s with calls := s.calls++[.rollback],db := s.saved.getD s.db,saved := none}

/-- The session in a transaction of its own. -/
def opened : Session D := {s with calls := s.calls++[.begin],saved := some s.db}

theorem begin_closed {s : Session D} (h : s.saved=none) : s.begin=(true,s.opened) := by
  simp only [begin,h]
  rfl

theorem commit_spec : s.commit.2.saved=none∧s.commit.2.calls=s.calls++[.commit]∧
    s.commit.2.faults=s.faults := by
  unfold commit
  cases s.saved with
  | none => exact ⟨rfl,rfl,rfl⟩
  | some d => cases s.faults s.asked <;> exact ⟨rfl,rfl,rfl⟩

theorem commit_saved : s.commit.2.saved=none := s.commit_spec.1

theorem commit_failed {s : Session D} {d : D} (hs : s.saved=some d) (h : s.commit.1=false) :
    s.commit.2.db=d := by
  unfold commit at h ⊢
  rw [hs] at h ⊢
  cases hf : s.faults s.asked with
  | true => rfl
  | false => simp [hf] at h

end Session

/-- Whether the calls leave a transaction open, if none was begun inside another. -/
def openAfter : List Call → Option Bool := List.foldl (fun
    | some false,.begin => some true
    | some _,.commit | some _,.rollback => some false
    | _,_ => none) (some false)

def Nested (calls : List Call) : Prop := openAfter calls=none
  deriving Decidable

inductive Outcome (E α : Type) where
  | done (a : α)
  | failed (e : E)
  | died

def Routine (D E α : Type) := Session D → Outcome E α×Session D

namespace Routine

instance : Monad (Routine D E) where
  pure a := fun s => (.done a,s)
  bind x f := fun s =>
    match x s with
    | (.done a,t) => f a t
    | (.failed e,t) => (.failed e,t)
    | (.died,t) => (.died,t)

/-- A statement gives nothing if it fails or is refused. -/
def statement (f : D → Option (α×D)) : Routine D E (Option α) := fun s =>
  let t := {s with asked := s.asked+1}
  if s.faults s.asked then (.done none,t)
  else
    match f s.db with
    | none => (.done none,t)
    | some (a,d) => (.done (some a),{t with db := d})

def select (f : D → α) : Routine D E (Option α) := statement fun d => some (f d,d)

def write (f : D → D) : Routine D E (Option Unit) := statement fun d => some ((),f d)

def begin : Routine D E Bool := fun s => (.done s.begin.1,s.begin.2)

def commit : Routine D E Bool := fun s => (.done s.commit.1,s.commit.2)

def rollback : Routine D E Unit := fun s => (.done (),s.rollback)

def fail (e : E) : Routine D E α := fun s => (.failed e,s)

def die : Routine D E α := fun s => (.died,s)

def abort (e : E) : Routine D E α := do
  rollback
  fail e

/-- A transaction that is refused ends the process. -/
def beginOrDie : Routine D E Unit := do
  if ← begin then pure () else die

/-- A failure of the routine is followed by a rollback. -/
def undoing (x : Routine D E α) : Routine D E α := fun s =>
  match x s with
  | (.failed e,t) => (.failed e,t.rollback)
  | r => r

/-- Its result, or else that of another routine. -/
def orElse (x : Routine D E (Option α)) (otherwise : Routine D E α) : Routine D E α := do
  match ← x with
  | some a => pure a
  | none => otherwise

def onlyIf (c : Prop) [Decidable c] (x : Routine D E Unit) : Routine D E Unit :=
  if c then x else pure ()

def each (body : ι → Routine D E Unit) : List ι → Routine D E Unit
  | [] => pure ()
  | i::is => do
    body i
    each body is

theorem pure_apply (a : α) (s : Session D) : (pure a : Routine D E α) s=(.done a,s) := rfl

variable (x : Routine D E α) (f : α → Routine D E β)

theorem bind_apply (s : Session D) : (x >>= f) s=
      match x s with
      | (.done a,t) => f a t
      | (.failed e,t) => (.failed e,t)
      | (.died,t) => (.died,t) := rfl

theorem bind_assoc {γ : Type} (g : β → Routine D E γ) : x >>= f >>= g=x >>= fun a => f a >>= g := by
  funext s
  simp only [bind_apply]
  cases x s with
  | mk o t => cases o <;> rfl

theorem bind_of_done {x : Routine D E α} {f : α → Routine D E β} {s t : Session D} {a : α}
    (h : x s=(.done a,t)) : (x >>= f) s=f a t := by rw [bind_apply,h]

theorem bind_of_failed {x : Routine D E α} {f : α → Routine D E β} {s t : Session D} {e : E}
    (h : x s=(.failed e,t)) : (x >>= f) s=(.failed e,t) := by rw [bind_apply,h]

end Routine

open Routine

/-- What is returned may depend on whether the commit worked. -/
def transact (body : Routine D E α) (finish : α → Bool → Outcome E β) : Routine D E β := do
  let _ ← begin
  let a ← body
  let ok ← commit
  fun s => (finish a ok,s)

section Keeps

variable (R : Session D → Session D → Prop)

/-- However the routine ends, its session is related by `R` to the first. -/
def Keeps (x : Routine D E α) : Prop := ∀ s,R s (x s).2

class Stable : Prop where
  refl : ∀ s,R s s
  trans : ∀ s t u,R s t → R t u → R s u

variable {R}

protected theorem Keeps.ite {c : Prop} {_ : Decidable c} {x y : Routine D E α} (hx : Keeps R x)
    (hy : Keeps R y) : Keeps R (if c then x else y) := by
  split_ifs
  · exact hx
  · exact hy

variable [Stable R]

@[simp] protected theorem Keeps.pure (a : α) : Keeps R (pure a : Routine D E α) := fun s => Stable.refl s

@[simp] protected theorem Keeps.fail (e : E) : Keeps R (fail e : Routine D E α) := fun s => Stable.refl s

@[simp] protected theorem Keeps.bind {x : Routine D E α} {f : α → Routine D E β} (hx : Keeps R x)
    (hf : ∀ a,Keeps R (f a)) : Keeps R (x >>= f) := by
  intro s
  have hs := hx s
  rw [bind_apply]
  match x s,hs with
  | (.done a,t),hs => exact Stable.trans s t _ hs (hf a t)
  | (.failed e,t),hs | (.died,t),hs => exact hs

@[simp] protected theorem Keeps.orElse {x : Routine D E (Option α)} {y : Routine D E α} (hx : Keeps R x)
    (hy : Keeps R y) : Keeps R (orElse x y) := by
  apply Keeps.bind hx
  intro a
  cases a with
  | none => exact hy
  | some a => exact .pure a

protected theorem Keeps.onlyIf {c : Prop} {_ : Decidable c} {x : Routine D E Unit} (hx : Keeps R x) :
    Keeps R (onlyIf c x) := .ite hx (.pure ())

@[simp] protected theorem Keeps.each {body : ι → Routine D E Unit}
    (h : ∀ i,Keeps R (body i)) (is : List ι) : Keeps R (each body is) := by
  induction is with
  | nil => exact .pure ()
  | cons i is ih => exact .bind (h i) fun _ => ih

end Keeps

/-- No transaction was begun or ended between the two sessions. -/
def SameTransaction (s t : Session D) : Prop := t.saved=s.saved∧t.calls=s.calls

instance : Stable (SameTransaction (D := D)) where
  refl _ := ⟨rfl,rfl⟩
  trans _ _ _ h h' := ⟨h'.1.trans h.1,h'.2.trans h.2⟩

@[simp] theorem statement_inside (f : D → Option (α×D)) :
    Keeps SameTransaction (statement f : Routine D E (Option α)) := by
  intro s
  unfold statement
  cases s.faults s.asked <;> cases f s.db <;> exact ⟨rfl,rfl⟩

@[simp] theorem select_inside (f : D → α) :
    Keeps SameTransaction (select f : Routine D E (Option α)) := statement_inside _

@[simp] theorem write_inside (f : D → D) :
    Keeps SameTransaction (write f : Routine D E (Option Unit)) := statement_inside _

def Quiet (x : Routine D E α) : Prop := ∀ s e,(x s).1≠.failed e

protected theorem Quiet.pure (a : α) : Quiet (pure a : Routine D E α) := fun _ _ h => (by cases h)

protected theorem Quiet.rollback : Quiet (rollback : Routine D E Unit) := fun _ _ h => (by cases h)

protected theorem Quiet.commit : Quiet (commit : Routine D E Bool) := fun _ _ h => (by cases h)

protected theorem Quiet.statement (f : D → Option (α×D)) :
    Quiet (statement f : Routine D E (Option α)) := by
  intro s e
  unfold statement
  cases s.faults s.asked <;> cases f s.db <;> exact fun h => (by cases h)

protected theorem Quiet.bind {x : Routine D E α} {f : α → Routine D E β} (hx : Quiet x)
    (hf : ∀ a,Quiet (f a)) : Quiet (x >>= f) := by
  intro s e
  have hs := hx s
  rw [bind_apply]
  match x s,hs with
  | (.done a,t),hs => exact hf a t e
  | (.failed e',t),hs => exact absurd rfl (hs e')
  | (.died,t),hs => exact fun he => (by cases he)

protected theorem Quiet.onlyIf {c : Prop} {_ : Decidable c} {x : Routine D E Unit} (hx : Quiet x) :
    Quiet (onlyIf c x) := by
  unfold onlyIf
  split_ifs
  · exact hx
  · exact .pure ()

/-- The routine changes no data, begins and ends no transaction and reports no failure. -/
def ReadOnly (x : Routine D E α) : Prop :=
  ∀ s,SameTransaction s (x s).2∧((x s).2.db=s.db∧(x s).2.faults=s.faults)∧∀ e,(x s).1≠.failed e

structure Lookup (D E α : Type) where
  run : Routine D E α
  readOnly : ReadOnly run

section ReadOnly

protected theorem ReadOnly.pure (a : α) : ReadOnly (pure a : Routine D E α) :=
  fun _ => ⟨⟨rfl,rfl⟩,⟨rfl,rfl⟩,fun _ h => (by cases h)⟩

protected theorem ReadOnly.die : ReadOnly (die : Routine D E α) :=
  fun _ => ⟨⟨rfl,rfl⟩,⟨rfl,rfl⟩,fun _ h => (by cases h)⟩

protected theorem ReadOnly.statement {f : D → Option (α×D)} (hf : ∀ d r,f d=some r → r.2=d) :
    ReadOnly (statement f : Routine D E (Option α)) := by
  intro s
  refine ⟨statement_inside f s,?_,Quiet.statement f s⟩
  unfold statement
  cases s.faults s.asked with
  | true => exact ⟨rfl,rfl⟩
  | false =>
    cases hd : f s.db with
    | none => exact ⟨rfl,rfl⟩
    | some r => exact ⟨hf s.db r hd,rfl⟩

protected theorem ReadOnly.select (f : D → α) : ReadOnly (select f : Routine D E (Option α)) := by
  apply ReadOnly.statement
  intro d r h
  cases h
  rfl

variable {x : Routine D E α}

protected theorem ReadOnly.bind {f : α → Routine D E β} (hx : ReadOnly x) (hf : ∀ a,ReadOnly (f a)) :
    ReadOnly (x >>= f) := by
  intro s
  have hs := hx s
  rw [bind_apply]
  cases h : x s with
  | mk o t =>
    rw [h] at hs
    obtain ⟨ht,hdb,hno⟩ := hs
    cases o with
    | done a =>
      obtain ⟨hu,hdb',hno'⟩ := hf a t
      exact ⟨Stable.trans s t _ ht hu,⟨hdb'.1.trans hdb.1,hdb'.2.trans hdb.2⟩,hno'⟩
    | failed e => exact absurd rfl (hno e)
    | died => exact ⟨ht,hdb,fun _ he => (by cases he)⟩

protected theorem ReadOnly.orElse {x : Routine D E (Option α)} {y : Routine D E α} (hx : ReadOnly x)
    (hy : ReadOnly y) : ReadOnly (orElse x y) := by
  refine .bind hx fun a => ?_
  cases a with
  | none => exact hy
  | some a => exact .pure a

theorem ReadOnly.inside (hx : ReadOnly x) : Keeps SameTransaction x := fun s => (hx s).1

end ReadOnly

section Logs

/-- The calls have left this transaction open, and no other. -/
def Logged (s : Session D) : Prop := openAfter s.calls=some s.saved.isSome

theorem openAfter_snoc (calls : List Call) (c : Call) : openAfter (calls++[c])=
    match openAfter calls,c with
    | some false,.begin => some true
    | some _,.commit | some _,.rollback => some false
    | _,_ => none := by
  simp only [openAfter,foldl_append,foldl_cons,foldl_nil]

def Idle (s : Session D) : Prop := s.saved=none∧Logged s

variable {s : Session D}

theorem logged_opened (hs : Idle s) : Logged s.opened := by
  have h : openAfter s.calls=some false := by
    rw [hs.2,hs.1]
    rfl
  simp only [Logged,Session.opened,openAfter_snoc,h]
  rfl

theorem logged_commit (h : Logged s) : Logged s.commit.2 := by
  unfold Logged at ⊢
  rw [s.commit_spec.2.1,s.commit_saved,openAfter_snoc,h]
  cases s.saved <;> rfl

theorem logged_rollback (h : Logged s) : Logged s.rollback := by
  unfold Logged at h ⊢
  simp only [Session.rollback,openAfter_snoc,h]
  rfl

theorem SameTransaction.logged {t : Session D} (h : SameTransaction s t) (hs : Logged s) :
    Logged t := by
  unfold Logged at ⊢
  rwa [h.1,h.2]

end Logs

/-- From `P` the routine ends in `Q`, with a failure in `F`, with a death in `K`. -/
def Ends (P : Session D → Prop) (x : Routine D E α) (Q F K : Session D → Prop) : Prop := ∀ s,P s →
    match x s with
    | (.done _,t) => Q t
    | (.failed _,t) => F t
    | (.died,t) => K t

variable {x : Routine D E α} {s : Session D}

theorem Quiet.ends (hx : Quiet x) {P F : Session D → Prop} :
    Ends P x (fun _ => True) F (fun _ => True) := by
  intro s _
  have hs := hx s
  match x s,hs with
  | (.done a,t),hs => trivial
  | (.failed e,t),hs => exact absurd rfl (hs e)
  | (.died,t),hs => trivial

theorem Ends.mono {P Q Q' F K K' : Session D → Prop} (hx : Ends P x Q F K) (hQ : ∀ s,Q s → Q' s)
    (hK : ∀ s,K s → K' s) : Ends P x Q' F K' := by
  intro s hs
  have hxs := hx s hs
  match x s,hxs with
  | (.done a,t),hxs => exact hQ t hxs
  | (.failed e,t),hxs => exact hxs
  | (.died,t),hxs => exact hK t hxs

theorem Ends.bind {P Q S F K : Session D → Prop} {f : α → Routine D E β} (hx : Ends P x Q F K)
    (hf : ∀ a,Ends Q (f a) S F K) : Ends P (x >>= f) S F K := by
  intro s hs
  have hxs := hx s hs
  rw [bind_apply]
  match x s,hxs with
  | (.done a,t),hxs => exact hf a t hxs
  | (.failed e,t),hxs | (.died,t),hxs => exact hxs

def Within (d : D) (s : Session D) : Prop := s.saved=some d∧Logged s

def Intact (d : D) (s : Session D) : Prop := (s.saved=none∧s.db=d)∧Logged s

theorem Within.rollback {d : D} (h : Within d s) : Intact d s.rollback := by
  have hd : s.saved.getD s.db=d := by rw [h.1]; rfl
  exact ⟨⟨rfl,hd⟩,logged_rollback h.2⟩

theorem Intact.rollback {d : D} (h : Intact d s) : Intact d s.rollback := by
  have hd : s.saved.getD s.db=d := by
    rw [h.1.1]
    exact h.1.2
  exact ⟨⟨rfl,hd⟩,logged_rollback h.2⟩

theorem Within.inside {d : D} {t : Session D} (h : Within d s) (ht : SameTransaction s t) :
    Within d t := ⟨ht.1.trans h.1,ht.logged h.2⟩

/-- In a transaction: a failure has rolled it back, a result leaves it open. -/
def Guarded (x : Routine D E α) : Prop := ∀ d,Ends (Within d) x (Within d) (Intact d) (Within d)

section Guarded

@[simp] protected theorem Guarded.pure (a : α) : Guarded (pure a : Routine D E α) := fun _ _ h => h

@[simp] protected theorem Guarded.die : Guarded (die : Routine D E α) := fun _ _ h => h

@[simp] protected theorem Guarded.abort (e : E) : Guarded (abort e : Routine D E α) :=
  fun _ _ h => h.rollback

variable {x : Routine D E α}

@[simp] protected theorem Guarded.bind {f : α → Routine D E β} (hx : Guarded x) (hf : ∀ a,Guarded (f a)) :
    Guarded (x >>= f) := fun d => (hx d).bind fun a => hf a d

protected theorem Guarded.ite {c : Prop} {_ : Decidable c} {y : Routine D E α} (hx : Guarded x)
    (hy : Guarded y) : Guarded (if c then x else y) := by
  split_ifs
  · exact hx
  · exact hy

protected theorem Guarded.of_quiet (hx : Keeps SameTransaction x) (hno : Quiet x) : Guarded x := by
  intro d s hs
  have ht := hs.inside (hx s)
  have hno := hno s
  match x s,ht,hno with
  | (.done a,t),ht,hno => exact ht
  | (.failed e,t),ht,hno => exact absurd rfl (hno e)
  | (.died,t),ht,hno => exact ht

@[simp] protected theorem Guarded.statement (f : D → Option (α×D)) :
    Guarded (statement f : Routine D E (Option α)) :=
  .of_quiet (statement_inside f) (.statement f)

@[simp] protected theorem Guarded.select (f : D → α) : Guarded (select f : Routine D E (Option α)) :=
  .statement _

@[simp] protected theorem Guarded.write (f : D → D) : Guarded (write f : Routine D E (Option Unit)) :=
  .statement _

@[simp] protected theorem Guarded.orElse {x : Routine D E (Option α)} {y : Routine D E α} (hx : Guarded x)
    (hy : Guarded y) : Guarded (orElse x y) := by
  apply Guarded.bind hx
  intro a
  cases a with
  | none => exact hy
  | some a => exact .pure a

protected theorem Guarded.onlyIf {c : Prop} {_ : Decidable c} {x : Routine D E Unit} (hx : Guarded x) :
    Guarded (onlyIf c x) := .ite hx (.pure ())

@[simp] protected theorem Guarded.each {body : ι → Routine D E Unit} (h : ∀ i,Guarded (body i))
    (is : List ι) : Guarded (each body is) := by
  induction is with
  | nil => exact .pure ()
  | cons i is ih => exact .bind (h i) fun _ => ih

theorem ReadOnly.guarded (hx : ReadOnly x) : Guarded x := .of_quiet hx.inside fun s => (hx s).2.2

protected theorem Guarded.undoing (hx : Keeps SameTransaction x) : Guarded (undoing x) := by
  intro d s hs
  have ht := hs.inside (hx s)
  unfold undoing
  match x s,ht with
  | (.done a,t),ht => exact ht
  | (.failed e,t),ht => exact ht.rollback
  | (.died,t),ht => exact ht

end Guarded

/-- Nothing is open, and a failure leaves the data alone. -/
def Settles (x : Routine D E α) (s : Session D) : Prop :=
  match x s with
  | (.done _,t) => t.saved=none
  | (.failed _,t) => t.saved=none∧t.db=s.db
  | (.died,_) => True

theorem settles_fail (e : E) (hs : s.saved=none) : Settles (fail e : Routine D E α) s := ⟨hs,rfl⟩

/-- A failure leaves nothing open and the data as they were. -/
def Undoes (x : Routine D E α) (s : Session D) : Prop :=
  ∀ e t,x s=(.failed e,t) → t.saved=none∧t.db=s.db

/-- A failure outside a transaction leaves the data alone. -/
def Clean (x : Routine D E α) : Prop :=
  ∀ d,Ends (Intact d) x (fun _ => True) (Intact d) (fun _ => True)

/-- Outside a transaction the data are left alone. -/
def Reads (x : Routine D E α) : Prop := ∀ d,Ends (Intact d) x (Intact d) (Intact d) (fun _ => True)

section Clean

variable {x y : Routine D E α} {f : α → Routine D E β} {c : Prop}

theorem undoes_of_clean (hx : Clean x) (hs : Idle s) : Undoes x s := by
  intro e t h
  have hend := hx s.db s ⟨⟨hs.1,rfl⟩,hs.2⟩
  rw [h] at hend
  exact hend.1

theorem clean_reads (hx : Reads x) (hf : ∀ a,Clean (f a)) :
    Clean (x >>= f) := fun d => (hx d).bind fun a => hf a d

theorem clean_ite {_ : Decidable c} (hx : Clean x) (hy : Clean y) : Clean (if c then x else y) := by
  split_ifs
  · exact hx
  · exact hy

@[simp] protected theorem Reads.pure (a : α) : Reads (pure a : Routine D E α) := fun _ _ h => h

@[simp] protected theorem Reads.fail (e : E) : Reads (fail e : Routine D E α) := fun _ _ h => h

protected theorem Reads.bind (hx : Reads x) (hf : ∀ a,Reads (f a)) :
    Reads (x >>= f) := fun d => (hx d).bind fun a => hf a d

protected theorem Reads.ite {_ : Decidable c} (hx : Reads x) (hy : Reads y) : Reads (if c then x else y) := by
  split_ifs
  · exact hx
  · exact hy

protected theorem Reads.orElse {x : Routine D E (Option α)} (hx : Reads x) (hy : Reads y) :
    Reads (orElse x y) := by
  refine .bind hx fun a => ?_
  cases a with
  | none => exact hy
  | some a => exact .pure a

protected theorem Reads.onlyIf {_ : Decidable c} {x : Routine D E Unit} (hx : Reads x) :
    Reads (onlyIf c x) := .ite hx (.pure ())

theorem Intact.inside {d : D} {s t : Session D} (h : Intact d s) (ht : SameTransaction s t)
    (hdb : t.db=s.db) : Intact d t := ⟨⟨ht.1.trans h.1.1,hdb.trans h.1.2⟩,ht.logged h.2⟩

theorem ReadOnly.reads (hx : ReadOnly x) : Reads x := by
  intro d s hs
  obtain ⟨ht,⟨hdb,-⟩,-⟩ := hx s
  have hend := hs.inside ht hdb
  match x s,hend with
  | (.done a,t),hend | (.failed e,t),hend => exact hend
  | (.died,t),hend => trivial

theorem clean_required (f : D → Option (α×D)) (e : E) : Clean (orElse (statement f) (fail e)) := by
  intro d s hs
  rw [orElse,bind_apply]
  simp only [statement]
  cases s.faults s.asked with
  | true => exact hs
  | false =>
    cases f s.db with
    | none => exact hs
    | some r => trivial

theorem clean_quiet (hx : Clean x) (hf : ∀ a,Quiet (f a)) :
    Clean (x >>= f) := fun d => (hx d).bind fun a => (hf a).ends

/-- In a transaction, a reported failure has rolled it back. -/
def Recovers (x : Routine D E α) : Prop :=
  ∀ d,Ends (Within d) x (fun _ => True) (Intact d) (fun _ => True)

theorem Guarded.recovers (hx : Guarded x) : Recovers x :=
  fun d => (hx d).mono (fun _ _ => trivial) fun _ _ => trivial

theorem recovers_ite {_ : Decidable c} (hx : Recovers x) (hy : Recovers y) :
    Recovers (if c then x else y) := by
  split_ifs
  · exact hx
  · exact hy

theorem recovers_quiet (hx : Recovers x) (hf : ∀ a,Quiet (f a)) :
    Recovers (x >>= f) := fun d => (hx d).bind fun a => (hf a).ends

theorem clean_transaction {body : Routine D E α} (hb : Recovers body) :
    Clean (beginOrDie >>= fun _ => body) := by
  intro d
  have hstart : Ends (Intact d) (beginOrDie : Routine D E Unit) (Within d) (Intact d)
      (fun _ => True) := by
    intro s hs
    have hidle : Idle s := ⟨hs.1.1,hs.2⟩
    simp only [beginOrDie,bind_apply,Routine.begin,Session.begin_closed hs.1.1]
    exact ⟨congrArg some hs.1.2,logged_opened hidle⟩
  exact hstart.bind fun _ => hb d

end Clean

section After

/-- `Q` holds of a result and its session, and else `K` of the session. -/
def After (x : Routine D E α) (Q : α → Session D → Prop) (K : Session D → Prop) (s : Session D) :
    Prop :=
  match x s with
  | (.done a,t) => Q a t
  | (.failed _,t) | (.died,t) => K t

def Session.Healthy (s : Session D) : Prop := ∀ i,s.faults i=false

def Session.put (s : Session D) (d : D) : Session D := {s with db := d,asked := s.asked+1}

variable {s : Session D} {d : D} {Q : α → Session D → Prop} {K : Session D → Prop}

@[simp] theorem Session.put_db : (s.put d).db=d := rfl

@[simp] theorem Session.put_healthy : (s.put d).Healthy ↔ s.Healthy := .rfl

@[simp] protected theorem After.pure (a : α) : After (pure a : Routine D E α) Q K s ↔ Q a s := .rfl

protected theorem After.bind {R : β → Session D → Prop} {f : α → Routine D E β} :
    After (x >>= f) R K s ↔ After x (fun a t => After (f a) R K t) K s := by
  unfold After
  rw [bind_apply]
  cases x s with
  | mk o t => cases o <;> rfl

variable {x : Routine D E α}

theorem After.mono {R : α → Session D → Prop} (hx : After x Q K s) (h : ∀ a t,Q a t → R a t) :
    After x R K s := by
  unfold After at hx ⊢
  match x s,hx with
  | (.done a,t),hx => exact h a t hx
  | (.failed e,t),hx | (.died,t),hx => exact hx

protected theorem After.statement {Q : Option α → Session D → Prop} {f : D → Option (α×D)} {a : α}
    (h : s.Healthy) (hf : f s.db=some (a,d)) (hQ : Q (some a) (s.put d)) :
    After (statement f : Routine D E (Option α)) Q K s := by
  simp only [After,statement,h s.asked,hf]
  exact hQ

protected theorem After.select {Q : Option α → Session D → Prop} {f : D → α} (h : s.Healthy) :
    After (select f : Routine D E (Option α)) Q K s ↔ Q (some (f s.db)) (s.put s.db) := by
  simp only [After,select,statement,h s.asked]
  rfl

protected theorem After.write {Q : Option Unit → Session D → Prop} {f : D → D} (h : s.Healthy) :
    After (write f : Routine D E (Option Unit)) Q K s ↔ Q (some ()) (s.put (f s.db)) := by
  simp only [After,write,statement,h s.asked]
  rfl

protected theorem After.required {f : D → α} {y : Routine D E α} (h : s.Healthy) :
    After (orElse (select f) y) Q K s ↔ Q (f s.db) (s.put s.db) := by
  rw [orElse,After.bind,After.select h]
  rfl

protected theorem After.foldlM {f : α → ι → Routine D E α} {is : List ι}
    (h : ∀ a i s,i∈is → Q a s → After (f a i) Q K s) {a : α} (hs : Q a s) :
    After (is.foldlM f a) Q K s := by
  induction is generalizing a s with
  | nil => exact hs
  | cons i is ih =>
    rw [foldlM_cons,After.bind]
    refine (h a i s mem_cons_self hs).mono fun b t hb => ?_
    exact ih (fun a i s hi => h a i s (mem_cons_of_mem _ hi)) hb

protected theorem After.each {Q : Session D → Prop} {body : ι → Routine D E Unit}
    (h : ∀ i s,Q s → After (body i) (fun _ => Q) K s) (is : List ι) (hs : Q s) :
    After (each body is) (fun _ => Q) K s := by
  induction is generalizing s with
  | nil => exact hs
  | cons i is ih =>
    rw [each,After.bind]
    exact (h i s hs).mono fun _ t ht => ih ht

end After

section Standing

/-- The standing of the last transaction, if each before it was ended once. -/
inductive Standing where
  | unused | running | ended | broken
  deriving DecidableEq

def Standing.after : Standing → Call → Standing
  | .unused,.begin => .running
  | .unused,_ => .unused
  | .running,.begin => .broken
  | .running,_ => .ended
  | .ended,.begin => .running
  | .ended,_ | .broken,_ => .broken

def standing (calls : List Call) : Standing := calls.foldl Standing.after .unused

theorem standing_snoc (calls : List Call) (c : Call) :
    standing (calls++[c])=(standing calls).after c := by
  simp [standing]

variable (s : Session D)

/-- Nothing is open, and each was ended once before the next. -/
def Tidy : Prop := s.saved=none∧(standing s.calls=.unused∨standing s.calls=.ended)

def Rested : Prop := s.Healthy∧Tidy s

def Busy : Prop := s.Healthy∧standing s.calls=.running

variable {s : Session D} {d : D} {K : Session D → Prop}

theorem Rested.put (h : Rested s) : Rested (s.put d) := h

theorem Busy.put (h : Busy s) : Busy (s.put d) := h

protected theorem After.beginOrDie {Q : Unit → Session D → Prop} (hs : Rested s)
    (hQ : Busy s.opened → Q () s.opened) : After (beginOrDie : Routine D E Unit) Q K s := by
  obtain ⟨hh,hsaved,hlast⟩ := hs
  have hrun : standing s.opened.calls=.running := by
    rw [Session.opened,standing_snoc]
    rcases hlast with h | h <;> rw [h] <;> rfl
  simp only [After,beginOrDie,bind_apply,Routine.begin,Session.begin_closed hsaved]
  exact hQ ⟨hh,hrun⟩

theorem Busy.ended (hs : Busy s) {c : Call} (hc : c≠.begin) : standing (s.calls++[c])=.ended := by
  rw [standing_snoc,hs.2]
  cases c with
  | begin => exact absurd rfl hc
  | commit | rollback => rfl

theorem Session.commit_healthy : s.commit.2.Healthy ↔ s.Healthy := by
  rw [Healthy,s.commit_spec.2.2]
  rfl

protected theorem After.commit {Q : Bool → Session D → Prop} (hs : Busy s) (hQ : ∀ b t,Rested t → Q b t) :
    After (commit : Routine D E Bool) Q K s := by
  refine hQ s.commit.1 s.commit.2 ⟨s.commit_healthy.mpr hs.1,s.commit_saved,.inr ?_⟩
  rw [s.commit_spec.2.1]
  exact hs.ended (by simp)

end Standing

section Passes

variable {s : Session D}

def Passes (x : Routine D E α) (s : Session D) : Prop := ∀ e,(x s).1≠.failed e

theorem passes_done (h : x s=(.done a,t)) : Passes x s := by
  intro e he
  rw [h] at he
  cases he

variable {x : Routine D E (Option α)} {a : α} {t : Session D} {e : E} {f : α → Routine D E β}
  {y : Routine D E α}

theorem not_passes_fail (e : E) (s : Session D) : ¬Passes (fail e : Routine D E α) s :=
  fun h => h e rfl

theorem passes_bind_of_done {x : Routine D E α} (h : x s=(.done a,t)) :
    Passes (x >>= f) s ↔ Passes (f a) t := by
  unfold Passes
  rw [bind_apply,h]

/-- Statement `i` from here on does not fail. -/
def Session.works (s : Session D) (i : Nat) : Prop := s.faults (s.asked+i)=false
  deriving Decidable

/-- The session after `n` statements that changed nothing. -/
def Session.advance (s : Session D) (n : Nat) : Session D := {s with asked := s.asked+n}

@[simp] theorem Session.advance_db (s : Session D) (n : Nat) : (s.advance n).db=s.db := rfl

@[simp] theorem Session.advance_works (s : Session D) (n i : Nat) :
    (s.advance n).works i ↔ s.works (n+i) := by
  unfold works advance
  rw [Nat.add_assoc]

@[simp] theorem Session.advance_advance (s : Session D) (m n : Nat) :
    (s.advance m).advance n=s.advance (m+n) := by
  unfold advance
  rw [Nat.add_assoc]

theorem select_apply (f : D → α) (s : Session D) :
    (select f s : Outcome E (Option α)×Session D)=
      (.done (if s.works 0 then some (f s.db) else none),s.advance 1) := by
  by_cases h : s.works 0
  · have hf : s.faults s.asked=false := h
    simp only [select,statement,hf,if_pos h]
    rfl
  · have hf : s.faults s.asked=true := by simpa [Session.works] using h
    simp only [select,statement,hf,if_neg h]
    rfl

theorem passes_bind {x : Routine D E α} : Passes (x >>= f) s ↔
    Passes x s∧∀ a t,x s=(.done a,t) → Passes (f a) t := by
  unfold Passes
  rw [bind_apply]
  cases h : x s with
  | mk o t =>
    cases o with
    | done a => simp
    | failed e =>
      constructor
      · intro hno
        exact absurd rfl (hno e)
      · rintro ⟨hno,-⟩
        exact absurd rfl (hno e)
    | died => simp

theorem orElse_some (h : x s=(.done (some a),t)) : orElse x y s=(.done a,t) := by
  rw [orElse,bind_apply,h]
  rfl

theorem orElse_none (h : x s=(.done none,t)) : orElse x y s=y t := by rw [orElse,bind_apply,h]

theorem bind_done_iff {x : Routine D E α} {b : β} :
    (x >>= f) s=(.done b,t) ↔ ∃ a u,x s=(.done a,u)∧f a u=(.done b,t) := by
  rw [bind_apply]
  cases h : x s with
  | mk o u => cases o <;> simp

theorem pure_done_iff {b : α} : (pure a : Routine D E α) s=(.done b,t) ↔ b=a∧t=s := by
  rw [pure_apply,Prod.mk.injEq,Outcome.done.injEq]
  exact ⟨fun h => ⟨h.1.symm,h.2.symm⟩,fun h => ⟨h.1.symm,h.2.symm⟩⟩

theorem select_done_iff {f : D → α} {r : Option α} :
    (select f : Routine D E (Option α)) s=(.done r,t) ↔
      r=(if s.works 0 then some (f s.db) else none)∧t=s.advance 1 := by
  rw [select_apply,Prod.mk.injEq,Outcome.done.injEq]
  exact ⟨fun h => ⟨h.1.symm,h.2.symm⟩,fun h => ⟨h.1.symm,h.2.symm⟩⟩

theorem orElse_done_iff (hy : ∀ s r,(y s).1≠.done r) :
    orElse x y s=(.done a,t) ↔ x s=(.done (some a),t) := by
  rw [orElse,bind_done_iff]
  constructor
  · rintro ⟨r,u,hx,hr⟩
    cases r with
    | none => exact absurd (congrArg Prod.fst hr) (hy u a)
    | some b =>
      obtain ⟨rfl,rfl⟩ := pure_done_iff.mp hr
      exact hx
  · intro hx
    exact ⟨some a,t,hx,rfl⟩

theorem orElse_fail_done_iff : orElse x (fail e) s=(.done a,t) ↔ x s=(.done (some a),t) := by
  apply orElse_done_iff
  intro s r h
  cases h

theorem onlyIf_fail_done_iff {c : Prop} {_ : Decidable c} {u : Unit} :
    onlyIf c (fail e) s=(.done u,t) ↔ ¬c∧t=s := by
  unfold onlyIf
  split_ifs with h
  · simp [fail,h]
  · rw [pure_done_iff]
    simp [h]

theorem not_passes_bind (h : x s=(.done none,t)) : ¬Passes (orElse x (fail e) >>= f) s := by
  intro hno
  refine hno e ?_
  rw [bind_apply,orElse_none h]
  rfl

variable (f : D → Option (α×D))

theorem passes_required (e : E) (s : Session D) :
    Passes (orElse (statement f) (fail e)) s ↔ s.works 0∧f s.db≠none := by
  rw [Passes,orElse,bind_apply]
  simp only [statement,Session.works]
  cases s.faults s.asked with
  | true => simp [fail]
  | false =>
    cases f s.db with
    | none => simp [fail]
    | some r => simp

theorem passes_write (f : D → D) (e : E) (s : Session D) :
    Passes (orElse (write f) (fail e)) s ↔ s.works 0 := by
  have h := passes_required (fun d => some ((),f d)) e s
  simpa [write] using h

theorem statement_refused (h : f s.db=none) :
    (statement f s : Outcome E (Option α)×Session D)=(.done none,s.advance 1) := by
  simp only [statement,h]
  cases s.faults s.asked <;> rfl

theorem statement_fails (h : ¬s.works 0) :
    (statement f s : Outcome E (Option α)×Session D)=(.done none,s.advance 1) := by
  have hf : s.faults s.asked=true := by simpa [Session.works] using h
  simp only [statement,hf]
  rfl

theorem statement_apply {d : D} (h : s.works 0) (hf : f s.db=some (a,d)) :
    (statement f s : Outcome E (Option α)×Session D)=(.done (some a),{s.advance 1 with db := d}) := by
  have hw : s.faults s.asked=false := h
  simp only [statement,hw,hf]
  rfl

theorem passes_each_write {f : ι → D → D} {g : Unit → Routine D E α} (is : List ι) (s : Session D) :
    Passes (each (fun i => orElse (write (f i)) (fail e)) is >>= g) s ↔ (∀ i < is.length,s.works i)∧
        Passes (g ()) {s.advance is.length with db := is.foldl (fun d i => f i d) s.db} := by
  induction is generalizing s with
  | nil =>
    constructor
    · intro h
      exact ⟨fun i hi => absurd hi (Nat.not_lt_zero i),h⟩
    · exact fun h => h.2
  | cons j is ih =>
    by_cases h : s.works 0
    · let t : Session D := {s.advance 1 with db := f j s.db}
      have hwrite : (write (f j) s : Outcome E (Option Unit)×Session D)=(.done (some ()),t) :=
        statement_apply _ h rfl
      have hbody : orElse (write (f j)) (fail e) s=(.done (),t) := orElse_some hwrite
      have hfirst : Passes (each (fun i => orElse (write (f i)) (fail e)) (j::is) >>= g) s ↔
          Passes (each (fun i => orElse (write (f i)) (fail e)) is >>= g) t := by
        simp only [Passes,each,bind_apply,hbody]
      have hworks : ∀ i,t.works i ↔ s.works (1+i) := s.advance_works 1
      have hlast : {t.advance is.length with db := is.foldl (fun d i => f i d) t.db}=
          {s.advance (j::is).length with db := (j::is).foldl (fun d i => f i d) s.db} := by
        simp only [t,Session.advance,length_cons,foldl_cons,Nat.add_assoc,Nat.add_comm 1]
      rw [hfirst,ih t,hlast]
      simp only [hworks]
      constructor
      · rintro ⟨hrest,hg⟩
        refine ⟨fun i hi => ?_,hg⟩
        cases i with
        | zero => exact h
        | succ i =>
          rw [Nat.add_comm]
          exact hrest i (Nat.lt_of_succ_lt_succ hi)
      · rintro ⟨hall,hg⟩
        refine ⟨fun i hi => ?_,hg⟩
        rw [Nat.add_comm]
        exact hall (i+1) (Nat.succ_lt_succ hi)
    · have hwrite : (write (f j) s : Outcome E (Option Unit)×Session D)=(.done none,s.advance 1) :=
        statement_fails _ h
      have hbody : orElse (write (f j)) (fail e) s=(.failed e,s.advance 1) := orElse_none hwrite
      constructor
      · intro hp
        refine absurd ?_ (hp e)
        simp only [each,bind_apply,hbody]
      · exact fun hp => absurd (hp.1 0 (Nat.succ_pos _)) h

end Passes

section Transact

variable {body : Routine D E α} {finish : α → Bool → Outcome E β} {s : Session D}

theorem transact_eq (hs : s.saved=none) : transact body finish s=
    match body s.opened with
    | (.done a,t) => (finish a t.commit.1,t.commit.2)
    | (.failed e,t) => (.failed e,t)
    | (.died,t) => (.died,t) := by
  simp only [transact,bind_apply,begin,Session.begin_closed hs]
  cases body s.opened with
  | mk o t => cases o <;> rfl

/-- A commit that works is no failure. -/
def Honest (finish : α → Bool → Outcome E β) : Prop := ∀ a e,finish a true≠.failed e

theorem settles_of_commit {a : α} {t : Session D} (hf : Honest finish) (ht : t.saved=some s.db) :
    match (finish a t.commit.1,t.commit.2) with
    | (.done _,u) => u.saved=none
    | (.failed _,u) => u.saved=none∧u.db=s.db
    | (.died,_) => True := by
  have hclosed := t.commit_saved
  cases hok : t.commit.1 with
  | true =>
    have hno := hf a
    cases hr : finish a true with
    | done b => exact hclosed
    | failed e => exact absurd hr (hno e)
    | died => trivial
  | false =>
    have hdb := Session.commit_failed ht hok
    cases finish a false with
    | done b => exact hclosed
    | failed e => exact ⟨hclosed,hdb⟩
    | died => trivial

protected theorem Guarded.opened (hb : Guarded body) (hs : Idle s) :
    match body s.opened with
    | (.done _,t) => Within s.db t
    | (.failed _,t) => Intact s.db t
    | (.died,t) => Within s.db t := hb s.db s.opened ⟨rfl,logged_opened hs⟩

theorem settles_transact_of_guarded (hb : Guarded body) (hf : Honest finish) (hs : Idle s) :
    Settles (transact body finish) s := by
  have hbody := Guarded.opened hb hs
  rw [Settles,transact_eq hs.1]
  match body s.opened,hbody with
  | (.done a,t),hbody => exact settles_of_commit hf hbody.1
  | (.failed e,t),hbody => exact hbody.1
  | (.died,t),hbody => trivial

theorem logged_transact (hs : s.saved=none) (hbody : Logged (body s.opened).2) :
    Logged (transact body finish s).2 := by
  rw [transact_eq hs]
  match body s.opened,hbody with
  | (.done a,t),hbody => exact logged_commit hbody
  | (.failed e,t),hbody | (.died,t),hbody => exact hbody

theorem logged_transact_of_guarded (hb : Guarded body) (hs : Idle s) :
    Logged (transact body finish s).2 := by
  have hbody := Guarded.opened hb hs
  apply logged_transact hs.1
  cases h : body s.opened with
  | mk o t =>
    rw [h] at hbody
    cases o <;> exact hbody.2

theorem logged_transact_of_inside (hb : Keeps SameTransaction body) (hs : Idle s) :
    Logged (transact body finish s).2 :=
  logged_transact hs.1 ((hb s.opened).logged (logged_opened hs))

/-- A transaction without rollbacks is settled exactly if its body passes. -/
theorem settles_transact_iff (hb : Keeps SameTransaction body) (hf : Honest finish)
    (hs : s.saved=none) : Settles (transact body finish) s ↔ Passes body s.opened := by
  have hbody : (body s.opened).2.saved=some s.db := (hb s.opened).1
  rw [Settles,Passes,transact_eq hs]
  match body s.opened,hbody with
  | (.done a,t),hbody => exact ⟨fun _ e he => (by cases he),fun _ => settles_of_commit hf hbody⟩
  | (.failed e,t),hbody =>
    refine ⟨fun hsettled => ?_,fun hno => absurd rfl (hno e)⟩
    exact absurd (hsettled.1.symm.trans hbody) (by simp)
  | (.died,t),hbody => exact ⟨fun _ e he => (by cases he),fun _ => trivial⟩

end Transact

section Turns

variable (serve : ι → Routine D E α)

def connect (db : D) (faults : Nat → Bool) : Session D := ⟨db,none,[],0,faults⟩

/-- The next call. After a death what is open is rolled back. -/
def turn (s : Session D) (c : ι) : Session D :=
  match serve c s with
  | (.died,t) => t.rollback
  | (_,t) => t

variable {serve} {Ready : Session D → ι → Prop} {s : Session D}

theorem turn_idle {c : ι} (h : Settles (serve c) s) (hlog : Logged (serve c s).2) :
    Idle (turn serve s c) := by
  unfold Settles at h
  unfold turn
  match serve c s,h,hlog with
  | (.done a,t),h,hlog => exact ⟨h,hlog⟩
  | (.failed e,t),h,hlog => exact ⟨h.1,hlog⟩
  | (.died,t),h,hlog => exact ⟨rfl,logged_rollback hlog⟩

/-- Calls that settle never begin one inside another. -/
theorem turns_idle (hlog : ∀ s c,Idle s → Logged (serve c s).2) {cs : List ι} (hs : Idle s)
    (hcs : Runs.StepsOk (turn serve) (fun s c => Settles (serve c) s) s cs) :
    Idle (cs.foldl (turn serve) s) := by
  induction cs generalizing s with
  | nil => exact hs
  | cons c cs ih => exact ih (turn_idle hcs.1 (hlog s c hs)) hcs.2

theorem Idle.not_nested (hs : Idle s) : ¬Nested s.calls := by
  rw [Nested,hs.2]
  simp

theorem settled_iff (hlog : ∀ s c,Idle s → Logged (serve c s).2)
    (hready : ∀ s c,Idle s → (Settles (serve c) s ↔ Ready s c)) {cs : List ι} (hs : Idle s) :
    Runs.StepsOk (turn serve) (fun s c => Settles (serve c) s) s cs ↔
      Runs.StepsOk (turn serve) Ready s cs := by
  induction cs generalizing s with
  | nil => rfl
  | cons c cs ih =>
    constructor
    · rintro ⟨hc,hcs⟩
      have hnext := turn_idle hc (hlog s c hs)
      exact ⟨(hready s c hs).mp hc,(ih hnext).mp hcs⟩
    · rintro ⟨hc,hcs⟩
      have hsettled := (hready s c hs).mpr hc
      have hnext := turn_idle hsettled (hlog s c hs)
      exact ⟨hsettled,(ih hnext).mpr hcs⟩

end Turns

end OESS.Transactions
