import Mathlib.Data.List.Basic
import Mathlib.Logic.Function.Iterate

namespace OESS.CondVar

open List

variable {σ ι : Type}

/-- The calls of `begin` without `end`, and the data of the callbacks. -/
structure Group (σ : Type) where
  pending : Int
  data : σ

namespace Group

def begin (g : Group σ) : Group σ := {g with pending := g.pending+1}

variable (done : σ → σ)

/-- The callback runs when the counter comes down to zero. -/
def finish (g : Group σ) : Group σ :=
  if g.pending-1=0 then ⟨0,done g.data⟩ else ⟨g.pending-1,g.data⟩

/-- The callback of an event notes its answer and need not call `end`. -/
def answer (note : ι → σ → σ) (ends : ι → Bool) (g : Group σ) (r : ι) : Group σ :=
  if ends r=true then finish done {g with data := note r g.data} else {g with data := note r g.data}

/-- The group around `n` events, each with a `begin` of its own. -/
def opened (n : Nat) (s : σ) : Group σ := finish done (begin^[n] (begin ⟨0,s⟩))

def run (note : ι → σ → σ) (ends : ι → Bool) (n : Nat) (s : σ) (rs : List ι) :
    Group σ := rs.foldl (answer done note ends) (opened done n s)

end Group

open Group

variable {done : σ → σ} {note : ι → σ → σ} {ends : ι → Bool}

theorem begin_iterate (n : Nat) (g : Group σ) : begin^[n] g=⟨g.pending+n,g.data⟩ := by
  induction n generalizing g with
  | zero => simp
  | succ n ih =>
    rw [Function.iterate_succ_apply,ih]
    simp only [begin,Group.mk.injEq,and_true]
    omega

theorem opened_zero (s : σ) : opened done 0 s=⟨0,done s⟩ := rfl

theorem opened_pos {n : Nat} (hn : 0 < n) (s : σ) : opened done n s=⟨n,s⟩ := by
  have h : begin^[n] (begin ⟨0,s⟩)=(⟨0+1+(n : Int),s⟩ : Group σ) := begin_iterate n _
  rw [opened,finish,h]
  have hne : ¬(0+1+(n : Int)-1=0) := by omega
  simp only [if_neg hne,Group.mk.injEq,and_true]
  omega

variable (rs : List ι)

theorem foldl_answer {g : Group σ} {k : Nat} (hk : 0 < k) (hg : g.pending=(rs.countP ends : Int)+k) :
    rs.foldl (answer done note ends) g=⟨k,rs.foldl (fun s r => note r s) g.data⟩ := by
  induction rs generalizing g with
  | nil =>
    have hp : g.pending=k := by simpa using hg
    simp only [foldl_nil]
    rw [← hp]
  | cons r rs ih =>
    rw [foldl_cons]
    by_cases hr : ends r=true
    · rw [countP_cons_of_pos hr] at hg
      have hne : ¬(g.pending-1=0) := by omega
      have hstep : answer done note ends g r=⟨g.pending-1,note r g.data⟩ := by
        simp only [answer,if_pos hr,finish,if_neg hne]
      rw [hstep]
      apply ih
      simp only
      omega
    · rw [countP_cons_of_neg hr] at hg
      have hstep : answer done note ends g r={g with data := note r g.data} := by
        simp only [answer,if_neg hr]
      rw [hstep]
      exact ih hg

theorem run_all (s : σ) (h : ∀ r∈rs,ends r=true) :
    run done note ends rs.length s rs=⟨0,done (rs.foldl (fun s r => note r s) s)⟩ := by
  unfold run
  obtain rfl | ⟨init,r,rfl⟩ := rs.eq_nil_or_concat'
  · exact opened_zero s
  have hinit : init.countP ends=init.length := by
    apply countP_eq_length.mpr
    intro q hq
    exact h q (mem_append_left _ hq)
  have hr : ends r=true := h r (by simp)
  rw [opened_pos (by simp),foldl_append, foldl_answer init Nat.one_pos (by simp [hinit])]
  simp [answer,hr,finish]

theorem run_some (s : σ) (h : ∃ r∈rs,ends r=false) : run done note ends rs.length s rs=
      ⟨(rs.countP fun r => !ends r : Nat),rs.foldl (fun s r => note r s) s⟩ := by
  obtain ⟨r,hr,he⟩ := h
  have hpos : 0 < rs.countP fun r => !ends r := countP_pos_iff.mpr ⟨r,hr,by simp [he]⟩
  have hlen : 0 < rs.length := length_pos_of_mem hr
  have hsum := rs.length_eq_countP_add_countP ends
  rw [run,opened_pos hlen]
  apply foldl_answer rs hpos
  have hnot : (rs.countP fun r => !ends r)=rs.countP fun r => decide (¬ends r=true) := by
    congr 1
    funext r
    cases ends r <;> rfl
  rw [hnot]
  simp only
  exact_mod_cast hsum

end OESS.CondVar
