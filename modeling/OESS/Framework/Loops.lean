import Mathlib.Tactic.Common

namespace OESS.Loops

open List

variable {σ α ε : Type*}

theorem bind_eq_ok {α β : Type*} {ε : Type*} {x : Except ε α} {f : α → Except ε β} {b : β}
    (h : x.bind f=.ok b) : ∃ a,x=.ok a∧f a=.ok b := by
  cases x with
  | error e => cases h
  | ok a => exact ⟨a,rfl,h⟩

variable {β : Type*} {f : α → Option β} {l : List α} {out : List β}

theorem mapM_eq_some_iff : l.mapM f=some out ↔ l.map f=out.map some := by
  induction l generalizing out with
  | nil => cases out <;> simp
  | cons a l ih =>
    simp only [mapM_cons,Option.bind_eq_bind,Option.bind_eq_some_iff,Option.pure_def,
      Option.some.injEq,ih,map_cons]
    cases out <;> simp

theorem mem_of_mapM (h : l.mapM f=some out) {b : β} (hb : b∈out) : ∃ a∈l,f a=some b :=
  mem_map.mp (mapM_eq_some_iff.mp h ▸ mem_map_of_mem hb)

theorem exists_mapM_iff : (∃ out,l.mapM f=some out) ↔ ∀ a∈l,∃ b,f a=some b := by
  induction l with
  | nil => simp
  | cons a l ih => simp [Option.bind_eq_some_iff,← ih,exists_comm (α := List β)]

variable {step : σ → α → Except ε σ}

theorem foldlM_invariant {I : σ → Prop} {s s' : σ}
    (hstep : ∀ a∈l,∀ s s',I s → step s a=.ok s' → I s') (hs : I s) (hrun : l.foldlM step s=.ok s') :
    I s' := by
  induction l generalizing s with
  | nil =>
    cases hrun
    exact hs
  | cons a l ih =>
    obtain ⟨s₁,hfirst,hrun⟩ := bind_eq_ok hrun
    have hs₁ : I s₁ := hstep a mem_cons_self s s₁ hs hfirst
    exact ih (fun b hb => hstep b (mem_cons_of_mem a hb)) hs₁ hrun

theorem foldlM_some_invariant {step : σ → α → Option σ} {I : σ → Prop} {s s' : σ}
    (hstep : ∀ a∈l,∀ s s',I s → step s a=some s' → I s') (hs : I s) (hrun : l.foldlM step s=some s') :
    I s' := by
  induction l generalizing s with
  | nil =>
    cases hrun
    exact hs
  | cons a l ih =>
    obtain ⟨s₁,hfirst,hrun⟩ := Option.bind_eq_some_iff.mp hrun
    have hs₁ : I s₁ := hstep a mem_cons_self s s₁ hs hfirst
    exact ih (fun b hb => hstep b (mem_cons_of_mem a hb)) hs₁ hrun

/-- The invariant knows how far the loop has come. -/
theorem foldlM_progress {I : List α → σ → Prop} {s s' : σ}
    (hstep : ∀ done a rest s s',l=done++a::rest → I done s → step s a=.ok s' → I (done++[a]) s')
    (hs : I [] s) (hrun : l.foldlM step s=.ok s') : I l s' := by
  have hfrom (rest done : List α) (s : σ) (hl : l=done++rest) (hs : I done s)
      (hrun : rest.foldlM step s=.ok s') : I l s' := by
    induction rest generalizing done s with
    | nil =>
      cases hrun
      rwa [hl,append_nil]
    | cons a rest ih =>
      obtain ⟨s₁,hfirst,hrun⟩ := bind_eq_ok hrun
      have hl' : l=(done++[a])++rest := by rw [hl,append_assoc,singleton_append]
      exact ih (done++[a]) s₁ hl' (hstep done a rest s s₁ hl hs hfirst) hrun
  exact hfrom l [] s rfl hs hrun

/-- A loop that can stop half-way; what was done stays. -/
def foldUntil (step : σ → α → σ×Bool) : σ → List α → σ×Bool
  | s,[] => (s,true)
  | s,a::l =>
    match step s a with
    | (s',true) => foldUntil step s' l
    | (s',false) => (s',false)

/-- `R` joins the states and keeps what was reached. At the end all goals are reached, or the last
iteration gave a reason. -/
theorem foldUntil_spec {step : σ → α → σ×Bool} {I stop : σ → Prop} {R : σ → σ → Prop}
    {reached : α → σ → Prop} {l : List α} {s : σ} (hrefl : ∀ s,R s s)
    (htrans : ∀ s u v,R s u → R u v → R s v) (hkeep : ∀ a s u,R s u → reached a s → reached a u)
    (hstep : ∀ a∈l,∀ s,I s → I (step s a).1∧R s (step s a).1∧
      ((step s a).2=true → reached a (step s a).1)∧((step s a).2=false → stop (step s a).1))
    (hs : I s) : I (foldUntil step s l).1∧R s (foldUntil step s l).1∧
      ((foldUntil step s l).2=true → ∀ a∈l,reached a (foldUntil step s l).1)∧
      ((foldUntil step s l).2=false → stop (foldUntil step s l).1) := by
  induction l generalizing s with
  | nil => exact ⟨hs,hrefl s,by simp,by simp [foldUntil]⟩
  | cons a l ih =>
    obtain ⟨hI,hR,hreached,hstop⟩ := hstep a mem_cons_self s hs
    unfold foldUntil
    generalize step s a=x at hI hR hreached hstop
    obtain ⟨u,ok⟩ := x
    cases ok with
    | false => exact ⟨hI,hR,by simp,hstop⟩
    | true =>
      obtain ⟨hI',hR',hall,hstop'⟩ := ih (fun b hb => hstep b (mem_cons_of_mem a hb)) hI
      refine ⟨hI',htrans s u _ hR hR',?_,hstop'⟩
      intro hok b hb
      rcases mem_cons.mp hb with rfl | hb
      · exact hkeep b u _ hR' (hreached rfl)
      · exact hall hok b hb

section Turns

variable {κ : Type*} {step : σ → α → σ} {key : α → κ} {Same : κ → σ → σ → Prop}

theorem foldl_same (hrefl : ∀ k s,Same k s s) (htrans : ∀ k s u v,Same k s u → Same k u v → Same k s v)
    (hframe : ∀ s a k,k≠key a → Same k s (step s a)) {k : κ} {l : List α} (hk : k∉l.map key) (s : σ) :
    Same k s (l.foldl step s) := by
  induction l generalizing s with
  | nil => exact hrefl k s
  | cons a l ih =>
    rw [map_cons,mem_cons,not_or] at hk
    exact htrans k s _ _ (hframe s a k hk.1) (ih hk.2 (step s a))

/-- Iterations with different keys: that of a key finds it as it was, and is the last to touch it.
-/
theorem foldl_turn (hrefl : ∀ k s,Same k s s) (htrans : ∀ k s u v,Same k s u → Same k u v → Same k s v)
    (hframe : ∀ s a k,k≠key a → Same k s (step s a)) {l : List α} (hnodup : (l.map key).Nodup)
    {a : α} (ha : a∈l) (s : σ) :
    ∃ u,Same (key a) s u∧Same (key a) (step u a) (l.foldl step s) := by
  induction l generalizing s with
  | nil => exact absurd ha not_mem_nil
  | cons b l ih =>
    rw [map_cons,nodup_cons] at hnodup
    rcases mem_cons.mp ha with rfl | hrest
    · exact ⟨s,hrefl _ s,foldl_same hrefl htrans hframe hnodup.1 _⟩
    obtain ⟨u,hu,hlast⟩ := ih hnodup.2 hrest (step s b)
    have hne : key a≠key b := by
      intro heq
      exact hnodup.1 (heq ▸ mem_map_of_mem hrest)
    exact ⟨u,htrans _ s _ u (hframe s b _ hne) hu,hlast⟩

end Turns

end OESS.Loops
