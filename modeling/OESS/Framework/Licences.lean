import Mathlib.Data.List.Count

namespace OESS.Licences

open List

variable {α : Type*} (request grant use : α)

/-- After a request there was a grant, and no use since. -/
def Unspent (log : List α) : Prop := ∃ older newer,log=older++grant::newer∧request∈older∧use∉newer

def Licensed (log : List α) : Prop :=
  ∀ past rest,log=past++use::rest → Unspent request grant use past

variable {request grant use} {log : List α} {a : α}

theorem unspent_granted (h : request∈log) : Unspent request grant use (log++[grant]) :=
  ⟨log,[],rfl,h,not_mem_nil⟩

theorem Unspent.snoc (h : Unspent request grant use log) (ha : a≠use) :
    Unspent request grant use (log++[a]) := by
  obtain ⟨older,newer,rfl,hreq,huse⟩ := h
  refine ⟨older,newer++[a],by simp,hreq,?_⟩
  intro hmem
  rcases mem_append.mp hmem with hmem | hmem
  · exact huse hmem
  · exact ha (mem_singleton.mp hmem).symm

theorem licensed_nil : Licensed request grant use [] := by
  intro past rest h
  simp at h

theorem Licensed.snoc (h : Licensed request grant use log)
    (ha : a=use → Unspent request grant use log) : Licensed request grant use (log++[a]) := by
  intro past rest hsplit
  rcases eq_nil_or_concat rest with rfl | ⟨rest,b,rfl⟩
  · obtain ⟨rfl,hlast⟩ := append_inj' hsplit rfl
    exact ha (by simpa using hlast)
  · have hcut : log++[a]=(past++use::rest)++[b] := by simpa using hsplit
    obtain ⟨hlog,-⟩ := append_inj' hcut rfl
    exact h past rest hlog

theorem Licensed.older {older newer : List α} (h : Licensed request grant use (older++newer)) :
    Licensed request grant use older := by
  intro past rest hsplit
  exact h past (rest++newer) (by simp [hsplit])

theorem exists_last (h : a∈log) : ∃ past rest,log=past++a::rest∧a∉rest := by
  obtain ⟨after,before,hrev,hno⟩ := eq_append_cons_of_mem (mem_reverse.mpr h)
  refine ⟨before.reverse,after.reverse,?_,by simpa using hno⟩
  have hlog := congrArg reverse hrev
  simpa using hlog

theorem Licensed.count_le [DecidableEq α] (h : Licensed request grant use log)
    (hne : grant≠use) : log.count use≤log.count grant := by
  -- The last use spends a grant, and what came before that grant is licensed again.
  induction hn : log.length using Nat.strongRecOn generalizing log with
  | ind n ih =>
    by_cases huse : use∈log
    · obtain ⟨past,rest,rfl,hrest⟩ := exists_last huse
      obtain ⟨older,newer,rfl,-,hnewer⟩ := h past rest rfl
      have hbefore : Licensed request grant use older := by
        rw [append_assoc] at h
        exact h.older
      have hlength : older.length < n := by
        rw [← hn]
        simp
      have hcount := ih older.length hlength hbefore rfl
      have hspent : newer.count use=0 := count_eq_zero.mpr hnewer
      have hlast : rest.count use=0 := count_eq_zero.mpr hrest
      simp only [count_append,count_cons_self,count_cons_of_ne hne,hlast]
      omega
    · rw [count_eq_zero.mpr huse]
      exact Nat.zero_le _

end OESS.Licences
