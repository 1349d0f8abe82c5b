import Mathlib.Data.List.Nodup

namespace OESS.Lookup

open List hiding lookup

variable {α K : Type*} [DecidableEq K] (key : α → K)

def lookup (k : K) (l : List α) : Option α := l.find? fun a => decide (key a=k)

variable {key} {k : K} {l : List α} {a : α}

theorem lookup_spec (h : lookup key k l=some a) : a∈l∧key a=k :=
  ⟨mem_of_find?_eq_some h,by simpa using find?_some h⟩

theorem lookup_none (h : lookup key k l=none) : ∀ a∈l,key a≠k := by simpa [lookup] using h

theorem lookup_of_mem (hl : (l.map key).Nodup) (ha : a∈l) : lookup key (key a) l=some a := by
  have hsome : (lookup key (key a) l).isSome=true := find?_isSome.mpr ⟨a,ha,by simp⟩
  obtain ⟨b,hb⟩ := Option.isSome_iff_exists.mp hsome
  obtain ⟨hmem,hkey⟩ := lookup_spec hb
  rw [hb,inj_on_of_nodup_map hl hmem ha hkey]

theorem filter_key (hl : (l.map key).Nodup) (ha : a∈l) : (l.filter fun b => key b=key a)=[a] := by
  have hnodup : (l.filter fun b => key b=key a).Nodup := hl.of_map.filter _
  have hmem (b : α) : b∈(l.filter fun b => key b=key a) ↔ b∈[a] := by
    rw [mem_filter,mem_singleton,decide_eq_true_eq]
    constructor
    · intro ⟨hb,hkey⟩
      exact inj_on_of_nodup_map hl hb ha hkey
    · intro hb
      subst hb
      exact ⟨ha,rfl⟩
  exact perm_singleton.mp ((perm_ext_iff_of_nodup hnodup (by simp)).mpr hmem)

variable {f : α → α}

theorem lookup_map (hf : ∀ a,key (f a)=key a) : lookup key k (l.map f)=(lookup key k l).map f := by
  simp only [lookup,find?_map]
  congr 2
  funext a
  simp [hf]

theorem lookup_append_singleton :
    lookup key k (l++[a])=(lookup key k l).or (if key a=k then some a else none) := by
  by_cases h : key a=k <;> simp [lookup]

omit [DecidableEq K] in
theorem nodup_map_snoc (hl : (l.map key).Nodup) (ha : key a∉l.map key) :
    ((l++[a]).map key).Nodup := by
  rw [map_append,map_singleton,← concat_eq_append]
  exact hl.concat ha

section Fresh

variable {num : α → Nat} {n : Nat} (h : ∀ b∈l,num b<n)
include h

theorem not_mem_of_fresh : n∉l.map num := by
  intro hn
  obtain ⟨b,hb,hid⟩ := mem_map.mp hn
  exact absurd (h b hb) (by omega)

theorem fresh_snoc (ha : num a=n) : ∀ b∈l++[a],num b<n+1 :=
  forall_mem_append.mpr ⟨fun b hb => Nat.lt_succ_of_lt (h b hb),by simp [ha]⟩

end Fresh

theorem mem_modify {i : Nat} {x : α} (h : x∈l.modify i f) : x∈l∨∃ y∈l,x=f y := by
  obtain ⟨j,hj⟩ := mem_iff_getElem?.mp h
  rw [getElem?_modify] at hj
  obtain ⟨y,hy,hx⟩ := Option.map_eq_some_iff.mp hj
  have hmem : y∈l := mem_iff_getElem?.mpr ⟨j,hy⟩
  split_ifs at hx
  · exact .inr ⟨y,hmem,hx.symm⟩
  · exact .inl (hx ▸ hmem)

theorem mem_modify_of_mem {x : α} (i : Nat) (h : x∈l) : x∈l.modify i f∨f x∈l.modify i f := by
  obtain ⟨j,hj⟩ := mem_iff_getElem?.mp h
  have hmodified : (l.modify i f)[j]?=some (if i=j then f x else x) := by
    rw [getElem?_modify,hj]
    rfl
  have hmem : (if i=j then f x else x)∈l.modify i f := mem_iff_getElem?.mpr ⟨j,hmodified⟩
  split_ifs at hmem
  · exact .inr hmem
  · exact .inl hmem

end OESS.Lookup
