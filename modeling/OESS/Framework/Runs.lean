import Mathlib.Tactic.Common

namespace OESS.Runs

open List

variable {S E : Type*} (step : S → E → S)

/-- `P` holds of every state of a run, the first one included. -/
def Always (P : S → Prop) : S → List E → Prop
  | s,[] => P s
  | s,e::es => P s∧Always P (step s e) es

/-- Every step of a run is taken in a state that permits it. -/
def StepsOk (ok : S → E → Prop) : S → List E → Prop
  | _,[] => True
  | s,e::es => ok s e∧StepsOk ok (step s e) es

variable {step} {P Q : S → Prop} {ok : S → E → Prop}

variable {s : S} {es : List E}

theorem Always.mono (h : ∀ s,P s → Q s) (hs : Always step P s es) : Always step Q s es := by
  induction es generalizing s with
  | nil => exact h s hs
  | cons e es ih => exact ⟨h s hs.1,ih hs.2⟩

theorem always_of_step (hstep : ∀ s e,P s → ok s e → P (step s e)) (hs : P s)
    (hes : StepsOk step ok s es) : Always step P s es := by
  induction es generalizing s with
  | nil => exact hs
  | cons e es ih => exact ⟨hs,ih (hstep s e hs hes.1) hes.2⟩

/-- What each permitted step does in a state with `P` is done by all steps of a permitted run. -/
theorem stepsOk_of_step {done : S → E → Prop} (hstep : ∀ s e,P s → ok s e → P (step s e)∧done s e)
    (hs : P s) (hes : StepsOk step ok s es) : StepsOk step done s es := by
  induction es generalizing s with
  | nil => trivial
  | cons e es ih =>
    obtain ⟨hnext,hdone⟩ := hstep s e hs hes.1
    exact ⟨hdone,ih hnext hes.2⟩

theorem stepsOk_snoc {e : E} :
    StepsOk step ok s (es++[e]) ↔ StepsOk step ok s es∧ok (es.foldl step s) e := by
  induction es generalizing s with
  | nil => simp [StepsOk]
  | cons a es ih => simp only [cons_append,StepsOk,foldl_cons,ih,and_assoc]

theorem Always.start (h : Always step P s es) : P s := by
  cases es with
  | nil => exact h
  | cons e es => exact h.1

theorem always_iff_past : Always step P s es ↔ ∀ past,past<+:es → P (past.foldl step s) := by
  induction es generalizing s with
  | nil => simp [Always]
  | cons e es ih =>
    rw [Always,ih]
    constructor
    · intro h past hpast
      rcases prefix_cons_iff.mp hpast with rfl | ⟨rest,rfl,hrest⟩
      · exact h.1
      · exact h.2 rest hrest
    · intro h
      refine ⟨h [] nil_prefix,fun past hpast => ?_⟩
      exact h (e::past) (cons_prefix_cons.mpr ⟨rfl,hpast⟩)

/-- `P` holds throughout exactly if all steps are permitted, where permission is exactly what keeps
`P`. -/
theorem always_iff_stepsOk_of_mem {I : S → Prop} (hI : ∀ s e,I s → I (step s e))
    (hstep : ∀ s,∀ e∈es,I s → P s → (P (step s e) ↔ ok s e)) (hs : P s) (his : I s) :
    Always step P s es ↔ StepsOk step ok s es := by
  induction es generalizing s with
  | nil => exact ⟨fun _ => trivial,fun _ => hs⟩
  | cons e es ih =>
    have hrest : ∀ s,∀ d∈es,I s → P s → (P (step s d) ↔ ok s d) :=
      fun s d hd => hstep s d (mem_cons_of_mem e hd)
    have hfirst := hstep s e mem_cons_self his hs
    constructor
    · intro h
      have hnext : P (step s e) := h.2.start
      exact ⟨hfirst.mp hnext,(ih hrest hnext (hI s e his)).mp h.2⟩
    · intro h
      have hnext : P (step s e) := hfirst.mpr h.1
      exact ⟨hs,(ih hrest hnext (hI s e his)).mpr h.2⟩

theorem always_iff_stepsOk {I : S → Prop} (hI : ∀ s e,I s → I (step s e))
    (hstep : ∀ s e,I s → P s → (P (step s e) ↔ ok s e)) (hs : P s) (his : I s) :
    Always step P s es ↔ StepsOk step ok s es :=
  always_iff_stepsOk_of_mem hI (fun s e _ => hstep s e) hs his

/-- `Q` is met before the end or by the last step. -/
theorem isChain_until {R : S → S → Prop} (hstep : ∀ a b,R a b → P a → P b∨Q b) {a b : S} {l : List S}
    (hl : List.IsChain R (a::l++[b])) (ha : P a) : (∃ c∈l,Q c)∨∃ c,P c∧R c b := by
  induction l generalizing a with
  | nil => exact .inr ⟨a,ha,(isChain_cons_cons.mp hl).1⟩
  | cons c l ih =>
    obtain ⟨hac,hrest⟩ := isChain_cons_cons.mp hl
    rcases hstep a c hac ha with hc | hc
    · rcases ih hrest hc with ⟨d,hd,hq⟩ | hlast
      · exact .inl ⟨d,mem_cons_of_mem c hd,hq⟩
      · exact .inr hlast
    · exact .inl ⟨c,mem_cons_self,hc⟩

variable {α : Type*} {l : List α} {a : α}

theorem mem_snoc {x : α} : x∈l++[a] ↔ x∈l∨x=a := by rw [mem_append,mem_singleton]

theorem forall_mem_snoc {P : α → Prop} (hl : ∀ x∈l,P x) (ha : P a) : ∀ x∈l++[a],P x :=
  forall_mem_append.mpr ⟨hl,forall_mem_singleton.mpr ha⟩

end OESS.Runs
