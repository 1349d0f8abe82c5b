import Mathlib.Data.List.Induction
import Mathlib.Data.List.Nodup
import Mathlib.Data.List.Perm.Basic

namespace OESS.Grouping

open List

variable {K V : Type*}

/-- `g` groups `l`: there is one group for a key, and no value twice in a group. -/
structure Grouped (l : List (K × V)) (g : List (K × List V)) : Prop where
  keys : (g.map Prod.fst).Nodup
  groups : ∀ x∈g,x.2.Nodup∧x.2≠[]
  mem : ∀ k v,(k,v)∈l ↔ ∃ x∈g,x.1=k∧v∈x.2

theorem Grouped.mem_keys {l : List (K × V)} {g : List (K × List V)} (h : Grouped l g) {k : K} :
    k∈g.map Prod.fst ↔ ∃ v,(k,v)∈l := by
  simp only [h.mem,mem_map]
  constructor
  · rintro ⟨x,hx,rfl⟩
    obtain ⟨v,hv⟩ := exists_mem_of_ne_nil _ (h.groups x hx).2
    exact ⟨v,x,hx,rfl,hv⟩
  · rintro ⟨v,x,hx,rfl,-⟩
    exact ⟨x,hx,rfl⟩

theorem Grouped.append {l m : List (K × V)} {g h : List (K × List V)} (hl : Grouped l g)
    (hm : Grouped m h) (hd : ∀ k v w,(k,v)∈l → (k,w)∉m) : Grouped (l++m) (g++h) := by
  refine ⟨?_,?_,?_⟩
  · rw [map_append,nodup_append]
    refine ⟨hl.keys,hm.keys,?_⟩
    intro a ha b hb hab
    subst b
    obtain ⟨v,hv⟩ := hl.mem_keys.mp ha
    obtain ⟨w,hw⟩ := hm.mem_keys.mp hb
    exact hd a v w hv hw
  · intro x hx
    rcases mem_append.mp hx with hx | hx
    · exact hl.groups x hx
    · exact hm.groups x hx
  · intro k v
    rw [mem_append,hl.mem,hm.mem]
    constructor
    · rintro (⟨x,hx,hxv⟩ | ⟨x,hx,hxv⟩)
      · exact ⟨x,mem_append_left _ hx,hxv⟩
      · exact ⟨x,mem_append_right _ hx,hxv⟩
    · intro ⟨x,hx,hxv⟩
      rcases mem_append.mp hx with hx | hx
      · exact .inl ⟨x,hx,hxv⟩
      · exact .inr ⟨x,hx,hxv⟩

section Lookup

variable [DecidableEq K]

def groupAt (g : List (K × List V)) (k : K) : List V := ((g.find? (·.1=k)).map Prod.snd).getD []

variable {g : List (K × List V)} {l : List (K × V)}

theorem groupAt_of_mem (hk : (g.map Prod.fst).Nodup) {x : K × List V} (hx : x∈g) :
    groupAt g x.1=x.2 := by
  have hfind : g.find? (·.1=x.1)=some x := by
    induction g with
    | nil => cases hx
    | cons y g ih =>
      simp only [map_cons,nodup_cons] at hk
      rcases mem_cons.mp hx with rfl | hx
      · simp
      · have hne : y.1≠x.1 := fun h => hk.1 (h ▸ mem_map_of_mem hx)
        simp [hne,ih hk.2 hx]
  simp [groupAt,hfind]

theorem groupAt_of_not_mem {k : K} (hk : k∉g.map Prod.fst) : groupAt g k=[] := by
  have hfind : g.find? (·.1=k)=none := by
    rw [find?_eq_none]
    intro y hy
    simp only [decide_eq_true_eq]
    intro h
    exact hk (h ▸ mem_map_of_mem hy)
  simp [groupAt,hfind]

theorem Grouped.mem_groupAt (h : Grouped l g) {k : K} {v : V} : v∈groupAt g k ↔ (k,v)∈l := by
  rw [h.mem]
  constructor
  · intro hv
    by_cases hk : k∈g.map Prod.fst
    · obtain ⟨x,hx,rfl⟩ := mem_map.mp hk
      rw [groupAt_of_mem h.keys hx] at hv
      exact ⟨x,hx,rfl,hv⟩
    · rw [groupAt_of_not_mem hk] at hv
      cases hv
  · rintro ⟨x,hx,rfl,hv⟩
    rwa [groupAt_of_mem h.keys hx]

theorem Grouped.groupAt_nodup (h : Grouped l g) (k : K) : (groupAt g k).Nodup := by
  by_cases hk : k∈g.map Prod.fst
  · obtain ⟨x,hx,rfl⟩ := mem_map.mp hk
    rw [groupAt_of_mem h.keys hx]
    exact (h.groups x hx).1
  · rw [groupAt_of_not_mem hk]
    exact nodup_nil

theorem Grouped.groupAt_perm (h : Grouped l g) {k : K} {vs : List V} (hvs : vs.Nodup)
    (hmem : ∀ v,(k,v)∈l ↔ v∈vs) : (groupAt g k).Perm vs := by
  rw [perm_ext_iff_of_nodup (h.groupAt_nodup k) hvs]
  intro v
  rw [h.mem_groupAt,hmem]

end Lookup

section Insertion

variable [DecidableEq K] [DecidableEq V]

/-- A value already there is not added again. -/
def insertGroup (k : K) (v : V) : List (K × List V) → List (K × List V)
  | [] => [(k,[v])]
  | (k',vs)::rest =>
      if k'=k then (k',if v∈vs then vs else vs++[v])::rest
      else (k',vs)::insertGroup k v rest

variable (l : List (K × V))

def groupPairs : List (K × List V) := l.foldl (fun g x => insertGroup x.1 x.2 g) []

variable (k : K) (v : V) (g : List (K × List V))

theorem insertGroup_keys : (insertGroup k v g).map Prod.fst=
      if k∈g.map Prod.fst then g.map Prod.fst else g.map Prod.fst++[k] := by
  induction g with
  | nil => rfl
  | cons x g ih =>
    obtain ⟨k',vs⟩ := x
    by_cases h : k'=k
    · simp [insertGroup,h]
    · have h' : ¬k=k' := fun e => h e.symm
      simp only [insertGroup,if_neg h,map_cons,ih,mem_cons,h',false_or]
      split_ifs <;> rfl

theorem insertGroup_of_not_mem (hk : k∉g.map Prod.fst) : insertGroup k v g=g++[(k,[v])] := by
  induction g with
  | nil => rfl
  | cons x g ih =>
    have hne : ¬x.1=k := fun h => hk (by simp [h])
    have hrest : k∉g.map Prod.fst := fun h => hk (by simp [h])
    simp [insertGroup,hne,ih hrest]

theorem insertGroup_groups (hg : ∀ x∈g,x.2.Nodup∧x.2≠[]) :
    ∀ x∈insertGroup k v g,x.2.Nodup∧x.2≠[] := by
  induction g with
  | nil => simp [insertGroup]
  | cons y g ih =>
    obtain ⟨k',vs⟩ := y
    have hvs : vs.Nodup∧vs≠[] := hg (k',vs) (by simp)
    have hrest : ∀ x∈g,x.2.Nodup∧x.2≠[] := fun x hx => hg x (by simp [hx])
    intro x hx
    by_cases h : k'=k
    · simp only [insertGroup,if_pos h,mem_cons] at hx
      rcases hx with rfl | hx
      · split_ifs with hv
        · exact hvs
        have hnew : (vs++[v]).Nodup := by
          simp only [nodup_append,hvs.1,nodup_singleton,mem_singleton,true_and]
          intro a ha b hb hab
          exact hv (hb ▸ hab ▸ ha)
        exact ⟨hnew,by simp⟩
      · exact hrest x hx
    · simp only [insertGroup,if_neg h,mem_cons] at hx
      rcases hx with rfl | hx
      · exact hvs
      · exact ih hrest x hx

theorem insertGroup_mem (hk : (g.map Prod.fst).Nodup) (k' : K) (v' : V) :
    (∃ x∈insertGroup k v g,x.1=k'∧v'∈x.2) ↔
      (∃ x∈g,x.1=k'∧v'∈x.2)∨(k'=k∧v'=v) := by
  induction g with
  | nil => simp [insertGroup,eq_comm]
  | cons y g ih =>
    obtain ⟨j,vs⟩ := y
    simp only [map_cons,nodup_cons] at hk
    by_cases h : j=k
    · subst j
      simp only [insertGroup,if_pos,exists_mem_cons_iff]
      have hvs : v'∈(if v∈vs then vs else vs++[v]) ↔ v'∈vs∨v'=v := by
        split_ifs with hv
        · constructor
          · exact .inl
          · rintro (h | rfl)
            · exact h
            · exact hv
        · simp
      rw [hvs]
      constructor
      · rintro (⟨rfl,h | h⟩ | h)
        · exact .inl (.inl ⟨rfl,h⟩)
        · exact .inr ⟨rfl,h⟩
        · exact .inl (.inr h)
      · rintro ((⟨rfl,h⟩ | h) | ⟨rfl,h⟩)
        · exact .inl ⟨rfl,.inl h⟩
        · exact .inr h
        · exact .inl ⟨rfl,.inr h⟩
    · simp only [insertGroup,if_neg h,exists_mem_cons_iff,ih hk.2,or_assoc]

theorem groupPairs_append (x : K × V) : groupPairs (l++[x])=insertGroup x.1 x.2 (groupPairs l) := by
  simp [groupPairs]

theorem groupPairs_grouped : Grouped l (groupPairs l) := by
  induction l using reverseRecOn with
  | nil => exact ⟨by simp [groupPairs],by simp [groupPairs],by simp [groupPairs]⟩
  | append_singleton l x ih =>
    rw [groupPairs_append]
    refine ⟨?_,insertGroup_groups _ _ _ ih.groups,?_⟩
    · rw [insertGroup_keys]
      split_ifs with h
      · exact ih.keys
      rw [nodup_append]
      refine ⟨ih.keys,by simp,?_⟩
      intro a ha b hb hab
      exact h (mem_singleton.mp hb ▸ hab ▸ ha)
    · intro k v
      rw [insertGroup_mem _ _ _ ih.keys,← ih.mem,mem_append,mem_singleton,Prod.ext_iff]

end Insertion

end OESS.Grouping
