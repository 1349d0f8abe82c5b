import Mathlib.Algebra.GroupWithZero.Nat
import OESS.Framework.KeyedTable
import Mathlib.Algebra.Order.BigOperators.Group.List
import Mathlib.Algebra.Order.Group.Nat

namespace OESS.KeyedDiff

open List KeyedTable

variable {α β γ K : Type*} [DecidableEq K] (keyA : α → K) (keyB : β → K) (removed : β → γ)
  (compared : β → α → γ) (added : α → γ)

/-- A block for each reported row without a reference, each pair, each reference not reported. -/
def blocks : List α → List β → List γ
  | index,[] => index.map added
  | index,b::bs =>
    match index.find? fun a => keyA a=keyB b with
    | none => removed b::blocks index bs
    | some a => compared b a::blocks (KeyedTable.deleteKey keyA (keyB b) index) bs

/-- References are filed by key, a later in the place of an earlier one, before they are
compared. -/
def diff (as : List α) (bs : List β) : List γ :=
  blocks keyA keyB removed compared added (KeyedTable.putAll keyA as []) bs

/-- Both sides have the same keys and agree wherever they meet. -/
def Matched (agrees : β → α → Prop) (as : List α) (bs : List β) : Prop :=
  (∀ b∈bs,∃ a∈as,keyA a=keyB b∧agrees b a)∧∀ a∈as,∃ b∈bs,keyB b=keyA a

variable {keyA keyB removed compared added} {index : List α} {bs : List β}

theorem find_key {k : K} {a : α} (hi : (index.map keyA).Nodup) (ha : a∈index) (hk : keyA a=k) :
    (index.find? fun a => keyA a=k)=some a := by
  have hsome : (index.find? fun a => keyA a=k).isSome := by
    rw [find?_isSome]
    exact ⟨a,ha,decide_eq_true hk⟩
  obtain ⟨c,hc⟩ := Option.isSome_iff_exists.mp hsome
  have hck : keyA c=k := by simpa using find?_some hc
  rw [hc,inj_on_of_nodup_map hi (mem_of_find?_eq_some hc) ha (hck.trans hk.symm)]

theorem mem_of_find_key {k : K} {a : α} (h : (index.find? fun a => keyA a=k)=some a) :
    a∈index∧keyA a=k :=
  ⟨mem_of_find?_eq_some h,by simpa using find?_some h⟩

theorem blocks_quiet_iff {quiet : γ → Prop} (hr : ∀ b,¬quiet (removed b))
    (ha : ∀ a,¬quiet (added a)) (hi : (index.map keyA).Nodup) (hb : (bs.map keyB).Nodup) :
    (∀ g∈blocks keyA keyB removed compared added index bs,quiet g) ↔
      Matched keyA keyB (fun b a => quiet (compared b a)) index bs := by
  unfold Matched
  induction bs generalizing index with
  | nil =>
    simp only [blocks,mem_map,not_mem_nil,false_and,exists_false]
    constructor
    · intro h
      exact ⟨fun b hb => hb.elim,fun a hm => ha a (h _ ⟨a,hm,rfl⟩)⟩
    · rintro h g ⟨a,hm,rfl⟩
      exact (h.2 a hm).elim
  | cons b bs ih =>
    rw [map_cons,nodup_cons] at hb
    cases hf : index.find? fun a => keyA a=keyB b with
    | none =>
      simp only [blocks,hf,forall_mem_cons]
      constructor
      · intro h
        exact absurd h.1 (hr b)
      · intro h
        obtain ⟨⟨a,hm,hk,-⟩,-⟩ := h.1
        exact absurd hk (by simpa using find?_eq_none.mp hf a hm)
    | some a =>
      obtain ⟨hm,hk⟩ := mem_of_find_key hf
      have hrest : ((KeyedTable.deleteKey keyA (keyB b) index).map keyA).Nodup :=
        hi.sublist (filter_sublist.map keyA)
      have hsame : ∀ c∈index,keyA c=keyB b → c=a := fun c hc hck =>
        inj_on_of_nodup_map hi hc hm (hck.trans hk.symm)
      have hfresh : ∀ d∈bs,keyB d≠keyB b := fun d hd he => hb.1 (he ▸ mem_map_of_mem hd)
      simp only [blocks,hf,forall_mem_cons]
      rw [ih hrest hb.2]
      simp only [mem_deleteKey]
      constructor
      · intro ⟨hq,hpair,hback⟩
        refine ⟨⟨⟨a,hm,hk,hq⟩,fun d hd => ?_⟩,fun c hc => ?_⟩
        · obtain ⟨c,hc,hck⟩ := hpair d hd
          exact ⟨c,hc.1,hck⟩
        · by_cases hcb : keyA c=keyB b
          · exact ⟨b,mem_cons_self,hcb.symm⟩
          · obtain ⟨d,hd,hdc⟩ := hback c ⟨hc,hcb⟩
            exact ⟨d,mem_cons_of_mem b hd,hdc⟩
      · intro ⟨⟨⟨c,hc,hck,hq⟩,hpair⟩,hback⟩
        refine ⟨hsame c hc hck ▸ hq,fun d hd => ?_,fun c hc => ?_⟩
        · obtain ⟨c,hc,hcd,hq⟩ := hpair d hd
          exact ⟨c,⟨hc,fun he => hfresh d hd (hcd.symm.trans he)⟩,hcd,hq⟩
        · obtain ⟨d,hd,hdc⟩ := hback c hc.1
          rcases mem_cons.mp hd with rfl | hd
          · exact absurd hdc.symm hc.2
          · exact ⟨d,hd,hdc⟩

theorem diff_quiet_iff {quiet : γ → Prop} (hr : ∀ b,¬quiet (removed b)) (ha : ∀ a,¬quiet (added a))
    {as : List α} (hA : (as.map keyA).Nodup) (hB : (bs.map keyB).Nodup) :
    (∀ g∈diff keyA keyB removed compared added as bs,quiet g) ↔
      Matched keyA keyB (fun b a => quiet (compared b a)) as bs := by
  have hfiled : KeyedTable.putAll keyA as []=as :=
    putAll_eq_append keyA as [] (by simpa using hA)
  rw [diff,hfiled,blocks_quiet_iff hr ha hA hB]

theorem mem_blocks {g : γ} (h : g∈blocks keyA keyB removed compared added index bs) :
    (∃ b∈bs,g=removed b)∨(∃ b∈bs,∃ a∈index,keyA a=keyB b∧g=compared b a)∨∃ a∈index,g=added a := by
  induction bs generalizing index with
  | nil =>
    obtain ⟨a,ha,rfl⟩ := mem_map.mp h
    exact .inr (.inr ⟨a,ha,rfl⟩)
  | cons b bs ih =>
    rw [blocks] at h
    cases hf : index.find? fun a => keyA a=keyB b with
    | none =>
      rw [hf] at h
      rcases mem_cons.mp h with rfl | h
      · exact .inl ⟨b,mem_cons_self,rfl⟩
      rcases ih h with ⟨c,hc,rfl⟩ | ⟨c,hc,h⟩ | h
      · exact .inl ⟨c,mem_cons_of_mem b hc,rfl⟩
      · exact .inr (.inl ⟨c,mem_cons_of_mem b hc,h⟩)
      · exact .inr (.inr h)
    | some a =>
      obtain ⟨ha,hk⟩ := mem_of_find_key hf
      rw [hf] at h
      rcases mem_cons.mp h with rfl | h
      · exact .inr (.inl ⟨b,mem_cons_self,a,ha,hk,rfl⟩)
      rcases ih h with ⟨c,hc,rfl⟩ | ⟨c,hc,d,hd,h⟩ | ⟨d,hd,rfl⟩
      · exact .inl ⟨c,mem_cons_of_mem b hc,rfl⟩
      · exact .inr (.inl ⟨c,mem_cons_of_mem b hc,d,((mem_deleteKey _ _ _ _).mp hd).1,h⟩)
      · exact .inr (.inr ⟨d,((mem_deleteKey _ _ _ _).mp hd).1,rfl⟩)

variable {δ : Type*} {f : γ → List δ} {A : α → Prop}

theorem blocks_lines_of_away (haway : ∀ b a,keyA a=keyB b → ¬A a → f (compared b a)=[]∧f (removed b)=[])
    (hadded : ∀ a,¬A a → f (added a)=[])
    (h : ∀ a∈index,¬A a) : (blocks keyA keyB removed compared added index bs).flatMap f=
      bs.flatMap fun b => f (removed b) := by
  induction bs generalizing index with
  | nil =>
    rw [blocks,flatMap_map,flatMap_nil,flatMap_eq_nil_iff]
    exact fun a ha => hadded a (h a ha)
  | cons b bs ih =>
    rw [blocks,flatMap_cons]
    cases hf : index.find? fun a => keyA a=keyB b with
    | none => rw [flatMap_cons,ih h]
    | some a =>
      obtain ⟨ha,hk⟩ := mem_of_find_key hf
      obtain ⟨hcompared,hremoved⟩ := haway b a hk (h a ha)
      rw [flatMap_cons,hcompared,hremoved, ih fun c hc => h c ((mem_deleteKey _ _ _ _).mp hc).1]

/-- The text is no longer than if all reported rows were removed, shorter where a reference is
looked at. -/
theorem blocks_lines_le {loud : δ → Prop}
    (hcompared : ∀ b a,keyA a=keyB b → f (compared b a)=[]∨∃ l∈f (compared b a),loud l)
    (hremoved : ∀ b a,keyA a=keyB b → A a → f (removed b)≠[])
    (hadded : ∀ a,(A a → ∃ l∈f (added a),loud l)∧(¬A a → f (added a)=[]))

    (hquiet : ∀ l∈(blocks keyA keyB removed compared added index bs).flatMap f,¬loud l) :
    ((blocks keyA keyB removed compared added index bs).flatMap f).length ≤
      (bs.flatMap fun b => f (removed b)).length∧
    (((blocks keyA keyB removed compared added index bs).flatMap f).length=
      (bs.flatMap fun b => f (removed b)).length → ∀ a∈index,¬A a) := by
  induction bs generalizing index with
  | nil =>
    have hnone : ∀ a∈index,¬A a := by
      intro a ha hat
      obtain ⟨l,hl,hloud⟩ := (hadded a).1 hat
      exact hquiet l (mem_flatMap.mpr ⟨_,mem_map_of_mem ha,hl⟩) hloud
    have hempty : (blocks keyA keyB removed compared added index []).flatMap f=[] := by
      rw [blocks,flatMap_map,flatMap_eq_nil_iff]
      exact fun a ha => (hadded a).2 (hnone a ha)
    rw [hempty]
    exact ⟨Nat.zero_le _,fun _ => hnone⟩
  | cons b bs ih =>
    rw [blocks] at hquiet ⊢
    cases hf : index.find? fun a => keyA a=keyB b with
    | none =>
      rw [hf] at hquiet
      simp only [flatMap_cons,length_append] at ⊢
      obtain ⟨hle,heq⟩ := ih fun l hl => hquiet l (mem_append_right _ hl)
      exact ⟨by omega,fun h => heq (by omega)⟩
    | some a =>
      obtain ⟨ha,hk⟩ := mem_of_find_key hf
      rw [hf] at hquiet
      simp only [flatMap_cons,length_append] at ⊢
      obtain ⟨hle,heq⟩ := ih fun l hl => hquiet l (mem_append_right _ hl)
      have hnil : f (compared b a)=[] := by
        refine (hcompared b a hk).resolve_right fun h => ?_
        obtain ⟨l,hl,hloud⟩ := h
        exact hquiet l (mem_append_left _ hl) hloud
      rw [hnil,length_nil]
      refine ⟨by omega,fun h c hc hat => ?_⟩
      by_cases hcb : keyA c=keyB b
      · have hpos : 0 < (f (removed b)).length := length_pos_iff.mpr (hremoved b c hcb hat)
        omega
      · exact heq (by omega) c ((mem_deleteKey _ _ _ _).mpr ⟨hc,hcb⟩) hat

variable {ι : Type*}

/-- The same if `good`; else a loud line more, or fewer lines. -/
structure Shortens (loud : δ → Prop) (as bs : List (List δ)) (good : Prop) : Prop where
  same : good → as=bs
  quiet : ∀ l∈bs.flatten,¬loud l
  short : (∀ l∈as.flatten,¬loud l) → as.flatten.length ≤ bs.flatten.length∧
    (as.flatten.length=bs.flatten.length → good)

theorem eq_of_sum_eq {f g : ι → Nat} {cs : List ι} (hle : ∀ c∈cs,f c ≤ g c)
    (hsum : (cs.map f).sum=(cs.map g).sum) : ∀ c∈cs,f c=g c := by
  induction cs with
  | nil => exact fun c hc => (not_mem_nil hc).elim
  | cons c cs ih =>
    have hhead := hle c mem_cons_self
    have htail : (cs.map f).sum ≤ (cs.map g).sum :=
      sum_le_sum fun d hd => hle d (mem_cons_of_mem c hd)
    rw [map_cons,map_cons,sum_cons,sum_cons] at hsum
    refine forall_mem_cons.mpr ⟨by omega,?_⟩
    exact ih (fun d hd => hle d (mem_cons_of_mem c hd)) (by omega)

theorem length_flatMap_flatten (f : ι → List (List δ)) (cs : List ι) :
    (cs.flatMap f).flatten.length=(cs.map fun c => (f c).flatten.length).sum := by
  induction cs with
  | nil => rfl
  | cons c cs ih =>
    rw [flatMap_cons,flatten_append,length_append,ih,map_cons,sum_cons]

theorem flatMap_perm_iff {loud : δ → Prop} {as bs : ι → List (List δ)} {good : ι → Prop}
    {cs : List ι} (h : ∀ c∈cs,Shortens loud (as c) (bs c) (good c)) :
    (cs.flatMap as).Perm (cs.flatMap bs) ↔ ∀ c∈cs,good c := by
  constructor
  · intro hperm
    have hlines := hperm.flatten
    have hquiet : ∀ c∈cs,∀ l∈(as c).flatten,¬loud l := by
      intro c hc l hl
      obtain ⟨part,hpart,hl⟩ := mem_flatten.mp hl
      have hmem : l∈(cs.flatMap bs).flatten := hlines.mem_iff.mp
        (mem_flatten.mpr ⟨part,mem_flatMap.mpr ⟨c,hc,hpart⟩,hl⟩)
      obtain ⟨part',hpart',hl'⟩ := mem_flatten.mp hmem
      obtain ⟨c',hc',hpart'⟩ := mem_flatMap.mp hpart'
      exact (h c' hc').quiet l (mem_flatten.mpr ⟨part',hpart',hl'⟩)
    have hsum : (cs.map fun c => (as c).flatten.length).sum=
        (cs.map fun c => (bs c).flatten.length).sum := by
      rw [← length_flatMap_flatten,← length_flatMap_flatten,hlines.length_eq]
    intro c hc
    have heq := eq_of_sum_eq (fun c hc => ((h c hc).short (hquiet c hc)).1) hsum c hc
    exact ((h c hc).short (hquiet c hc)).2 heq
  · intro hgood
    have hsame : cs.flatMap as=cs.flatMap bs :=
      flatMap_congr fun c hc => (h c hc).same (hgood c hc)
    rw [hsame]

theorem found_perm {ks : List K} (hks : ks.Nodup) (hbs : (bs.map keyB).Nodup) :
    (bs.filter fun b => keyB b∈ks).Perm (ks.filterMap fun k => bs.find? fun b => keyB b=k) := by
  have hfound : (ks.filterMap fun k => bs.find? fun b => keyB b=k).Nodup := by
    refine Nodup.filterMap (fun k k' b hb hb' => ?_) hks
    exact (mem_of_find_key hb).2.symm.trans (mem_of_find_key hb').2
  refine (perm_ext_iff_of_nodup (hbs.of_map.filter _) hfound).mpr fun b => ?_
  rw [mem_filter,decide_eq_true_eq,mem_filterMap]
  constructor
  · intro h
    exact ⟨keyB b,h.2,find_key hbs h.1 rfl⟩
  · intro ⟨k,hk,hb⟩
    obtain ⟨hmem,rfl⟩ := mem_of_find_key hb
    exact ⟨hmem,hk⟩

omit [DecidableEq K] in
/-- Rows are matched and agree in the rest exactly if each has its counterpart by `R`. -/
theorem matched_rest_iff {agrees rest : β → α → Prop} {R : β → β → Prop} {f : α → β} {as : List α}
    (hkeys : (as.map keyA).Nodup)
    (hsame : ∀ a∈as,∀ b∈bs,R (f a) b ↔ keyB b=keyA a∧agrees b a∧rest b a) :
    (Matched keyA keyB agrees as bs∧∀ b∈bs,∀ a∈as,keyB b=keyA a → rest b a) ↔
      (∀ a∈as,∃ b∈bs,R (f a) b)∧∀ b∈bs,∃ a∈as,R (f a) b := by
  constructor
  · intro ⟨⟨hleft,hright⟩,hrest⟩
    refine ⟨?_,?_⟩
    · intro a ha
      obtain ⟨b,hb,hk⟩ := hright a ha
      obtain ⟨a',ha',hk',hagrees⟩ := hleft b hb
      obtain rfl := inj_on_of_nodup_map hkeys ha' ha (hk'.trans hk)
      exact ⟨b,hb,(hsame a' ha b hb).mpr ⟨hk,hagrees,hrest b hb a' ha hk⟩⟩
    · intro b hb
      obtain ⟨a,ha,hk,hagrees⟩ := hleft b hb
      exact ⟨a,ha,(hsame a ha b hb).mpr ⟨hk.symm,hagrees,hrest b hb a ha hk.symm⟩⟩
  · intro ⟨hsent,hheld⟩
    refine ⟨⟨?_,?_⟩,?_⟩
    · intro b hb
      obtain ⟨a,ha,hs⟩ := hheld b hb
      obtain ⟨hk,hagrees,-⟩ := (hsame a ha b hb).mp hs
      exact ⟨a,ha,hk.symm,hagrees⟩
    · intro a ha
      obtain ⟨b,hb,hs⟩ := hsent a ha
      exact ⟨b,hb,((hsame a ha b hb).mp hs).1⟩
    · intro b hb a ha hk
      obtain ⟨a',ha',hs⟩ := hheld b hb
      obtain ⟨hk',-,hrest⟩ := (hsame a' ha' b hb).mp hs
      obtain rfl := inj_on_of_nodup_map hkeys ha' ha (hk'.symm.trans hk)
      exact hrest

end OESS.KeyedDiff
