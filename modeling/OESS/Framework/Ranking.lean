import Mathlib.Data.List.Sort
import Mathlib.Data.List.Nodup
import Mathlib.Data.List.Pairwise
import Mathlib.Order.Basic

namespace OESS.Ranking

open List

variable {α β κ : Type*} [LinearOrder κ] (key : α → κ) (l : List α)

def rank : List α := l.insertionSort fun a b => key a ≤ key b

theorem rank_perm : (rank key l).Perm l := perm_insertionSort _ l

@[simp] theorem mem_rank (a : α) : a∈rank key l ↔ a∈l := (rank_perm key l).mem_iff

theorem rank_sorted : (rank key l).Pairwise fun a b => key a ≤ key b := by
  exact pairwise_insertionSort _ l

variable {key} {l : List α}

theorem eq_rank {m : List α} (hperm : m.Perm l) (hsorted : m.Pairwise fun a b => key a<key b) :
    m=rank key l := by
  have hle : m.Pairwise fun a b => key a ≤ key b := hsorted.imp le_of_lt
  apply List.Perm.eq_of_pairwise _ hle (rank_sorted key l) (hperm.trans (rank_perm key l).symm)
  intro a b ha hb hab hba
  have hkeys : (m.map key).Nodup := pairwise_map.mpr (hsorted.imp ne_of_lt)
  have hbm : b∈m := hperm.mem_iff.mpr ((mem_rank key l b).mp hb)
  exact inj_on_of_nodup_map hkeys ha hbm (le_antisymm hab hba)

theorem rank_strict (hl : (l.map key).Nodup) : (rank key l).Pairwise fun a b => key a<key b := by
  have hkeys : ((rank key l).map key).Nodup := ((rank_perm key l).map key).nodup_iff.mpr hl
  have hne : (rank key l).Pairwise fun a b => key a≠key b := pairwise_map.mp hkeys
  exact ((rank_sorted key l).and hne).imp fun h => lt_of_le_of_ne h.1 h.2

theorem rank_filter {p : α → Bool} (hl : ((l.filter p).map key).Nodup) :
    (rank key l).filter p=rank key (l.filter p) := by
  have hperm : ((rank key l).filter p).Perm (l.filter p) := (rank_perm key l).filter p
  have hkeys : (((rank key l).filter p).map key).Nodup := (hperm.map key).nodup_iff.mpr hl
  have hne : ((rank key l).filter p).Pairwise fun a b => key a≠key b := pairwise_map.mp hkeys
  have hle := (rank_sorted key l).filter p
  exact eq_rank hperm ((hle.and hne).imp fun h => lt_of_le_of_ne h.1 h.2)

theorem rank_map {f : α → α} (hl : (l.map key).Nodup)
    (hf : ∀ a∈l,∀ b∈l,key a<key b → key (f a)<key (f b)) :
    rank key (l.map f)=(rank key l).map f := by
  symm
  apply eq_rank ((rank_perm key l).map f)
  rw [pairwise_map]
  refine (rank_strict hl).imp_of_mem ?_
  intro a b ha hb hab
  exact hf a ((mem_rank key l a).mp ha) b ((mem_rank key l b).mp hb) hab

theorem lt_of_pairwise {key' : α → κ} (h : l.Pairwise fun a b => key a<key b)
    (h' : l.Pairwise fun a b => key' a<key' b) {a b : α} (ha : a∈l) (hb : b∈l) (hab : key a<key b) :
    key' a<key' b := by
  have hor := (h.and h').imp
    (S := fun a b => (key a<key b∧key' a<key' b)∨(key b<key a∧key' b<key' a)) Or.inl
  have hsymm : Std.Symm fun a b => (key a<key b∧key' a<key' b)∨(key b<key a∧key' b<key' a) :=
    ⟨fun _ _ h => h.symm⟩
  have hne : a≠b := by
    rintro rfl
    exact lt_irrefl _ hab
  rcases hor.forall ha hb hne with h | h
  · exact h.2
  · exact absurd hab (not_lt_of_gt h.1)

theorem lt_of_rank_map {f : α → α} (hl : (l.map key).Nodup) (hf : ((l.map f).map key).Nodup)
    (h : rank key (l.map f)=(rank key l).map f) {a b : α} (ha : a∈l) (hb : b∈l) (hab : key a<key b) :
    key (f a)<key (f b) := by
  have hafter := rank_strict hf
  rw [h,pairwise_map] at hafter
  exact lt_of_pairwise (rank_strict hl) hafter ((mem_rank key l a).mpr ha) ((mem_rank key l b).mpr hb) hab

end OESS.Ranking
