import Mathlib.Data.List.Induction
import Mathlib.Data.List.Nodup
import Mathlib.Data.List.Perm.Basic

namespace OESS.KeyedTable

open List

variable {α K : Type*} [DecidableEq K] (key : α → K)

def deleteKey (k : K) (t : List α) : List α := t.filter fun r => key r≠k

def put (r : α) (t : List α) : List α := deleteKey key (key r) t++[r]

def deleteAll (rs t : List α) : List α := rs.foldl (fun t r => deleteKey key (key r) t) t

def putAll (rs t : List α) : List α := rs.foldl (fun t r => put key r t) t

theorem mem_deleteKey (k : K) (t : List α) (r : α) : r∈deleteKey key k t ↔ r∈t∧key r≠k := by
  simp [deleteKey]

theorem mem_put (s : α) (t : List α) (r : α) : r∈put key s t ↔ (r∈t∧key r≠key s)∨r=s := by
  simp [put,mem_deleteKey]

variable (rs l t : List α)

theorem mem_deleteAll (r : α) : r∈deleteAll key rs t ↔ r∈t∧key r∉rs.map key := by
  induction rs generalizing t with
  | nil => simp [deleteAll]
  | cons s rs ih =>
    have h := ih (deleteKey key (key s) t)
    rw [deleteAll] at h ⊢
    rw [foldl_cons,h,mem_deleteKey,map_cons,mem_cons,not_or,and_assoc]

theorem mem_putAll (hrs : ∀ a∈rs,∀ b∈rs,key a=key b → a=b) (r : α) :
    r∈putAll key rs t ↔ r∈rs∨(r∈t∧key r∉rs.map key) := by
  induction rs generalizing t with
  | nil => simp [putAll]
  | cons s rs ih =>
    have h := ih (put key s t) fun a ha b hb => hrs a (by simp [ha]) b (by simp [hb])
    rw [putAll] at h ⊢
    rw [foldl_cons,h,mem_put,map_cons,mem_cons,mem_cons,not_or]
    constructor
    · rintro (hr | ⟨⟨hr,hs⟩ | rfl,hk⟩)
      · exact .inl (.inr hr)
      · exact .inr ⟨hr,hs,hk⟩
      · exact .inl (.inl rfl)
    · rintro ((rfl | hr) | ⟨hr,hs,hk⟩)
      · by_cases hk : key r∈rs.map key
        · obtain ⟨b,hb,hkb⟩ := mem_map.mp hk
          rw [hrs r (by simp) b (by simp [hb]) hkb.symm]
          exact .inl hb
        · exact .inr ⟨.inr rfl,hk⟩
      · exact .inl hr
      · exact .inr ⟨.inl ⟨hr,hs⟩,hk⟩

theorem put_keys_nodup (r : α) (t : List α) (ht : (t.map key).Nodup) :
    ((put key r t).map key).Nodup := by
  rw [put,map_append,nodup_append]
  refine ⟨ht.sublist (filter_sublist.map key),by simp,?_⟩
  intro a ha b hb hab
  obtain ⟨s,hs,rfl⟩ := mem_map.mp ha
  simp only [map_cons,map_nil,mem_singleton] at hb
  exact ((mem_deleteKey key _ t s).mp hs).2 (hab.trans hb)

theorem put_perm {r : α} {t : List α} (ht : (t.map key).Nodup) (hr : r∈t) : (put key r t).Perm t := by
  rw [perm_ext_iff_of_nodup (put_keys_nodup key r t ht).of_map ht.of_map]
  intro a
  rw [mem_put]
  constructor
  · rintro (h | rfl)
    · exact h.1
    · exact hr
  · intro ha
    exact or_iff_not_imp_right.mpr fun hne => ⟨ha,fun hk => hne (inj_on_of_nodup_map ht ha hr hk)⟩

theorem deleteAll_keys_nodup (ht : (t.map key).Nodup) : ((deleteAll key rs t).map key).Nodup := by
  induction rs generalizing t with
  | nil => exact ht
  | cons r rs ih => exact ih _ (ht.sublist (filter_sublist.map key))

theorem putAll_keys_nodup (ht : (t.map key).Nodup) : ((putAll key rs t).map key).Nodup := by
  induction rs generalizing t with
  | nil => exact ht
  | cons r rs ih => exact ih _ (put_keys_nodup key r t ht)

/-- Deleting the keys of the undesired visible rows and adding the missing ones leaves the desired
rows and the hidden ones. -/
theorem reconcile_perm (t desired dels adds : List α) (visible : α → Bool)
    (ht : (t.map key).Nodup) (hd : (desired.map key).Nodup)
    (hidden : ∀ c∈desired,∀ r∈t,visible r=false → key r≠key c)
    (hdels : ∀ k,k∈dels.map key ↔ ∃ r∈t,visible r=true∧r∉desired∧key r=k)
    (hadds : ∀ r,r∈adds ↔ r∈desired∧¬(r∈t∧visible r=true)) :
    (putAll key adds (deleteAll key dels t)).Perm (desired++t.filter fun r => !visible r) := by
  have tinj {a b : α} (ha : a∈t) (hb : b∈t) (h : key a=key b) : a=b :=
    inj_on_of_nodup_map ht ha hb h
  have dinj {a b : α} (ha : a∈desired) (hb : b∈desired) (h : key a=key b) : a=b :=
    inj_on_of_nodup_map hd ha hb h
  have hnodup : (putAll key adds (deleteAll key dels t)).Nodup :=
    (putAll_keys_nodup key adds _ (deleteAll_keys_nodup key dels t ht)).of_map
  have hright : (desired++t.filter fun r => !visible r).Nodup := by
    refine nodup_append.mpr ⟨hd.of_map,ht.of_map.filter _,?_⟩
    intro a ha b hb hab
    simp only [mem_filter,Bool.not_eq_true'] at hb
    exact hidden a ha b hb.1 hb.2 (hab ▸ rfl)
  rw [perm_ext_iff_of_nodup hnodup hright]
  intro r
  have hagree : ∀ a∈adds,∀ b∈adds,key a=key b → a=b := by
    intro a ha b hb h
    exact dinj ((hadds a).mp ha).1 ((hadds b).mp hb).1 h
  rw [mem_putAll key adds _ hagree,mem_deleteAll,mem_append,mem_filter]
  constructor
  · rintro (h | ⟨⟨hr,hnd⟩,hna⟩)
    · exact .inl ((hadds r).mp h).1
    cases hv : visible r with
    | false => exact .inr ⟨hr,by simp⟩
    | true =>
      by_contra hnot
      exact hnd ((hdels _).mpr ⟨r,hr,hv,fun h => hnot (.inl h),rfl⟩)
  · rintro (h | ⟨hr,hv⟩)
    · by_cases hr : r∈t∧visible r=true
      · refine .inr ⟨⟨hr.1,?_⟩,?_⟩
        · intro hk
          obtain ⟨s,hs,-,hsd,hsr⟩ := (hdels _).mp hk
          exact hsd (tinj hs hr.1 hsr ▸ h)
        · intro hk
          obtain ⟨s,hs,hsr⟩ := mem_map.mp hk
          have hs' := (hadds s).mp hs
          exact hs'.2 (dinj hs'.1 h hsr ▸ hr)
      · exact .inl ((hadds r).mpr ⟨h,hr⟩)
    · rw [Bool.not_eq_true'] at hv
      refine .inr ⟨⟨hr,?_⟩,?_⟩
      · intro hk
        obtain ⟨s,hs,hsv,-,hsr⟩ := (hdels _).mp hk
        rw [tinj hs hr hsr,hv] at hsv
        exact Bool.false_ne_true hsv
      · intro hk
        obtain ⟨s,hs,hsr⟩ := mem_map.mp hk
        exact hidden s ((hadds s).mp hs).1 r hr hv hsr.symm

theorem putAll_eq_append (h : ((t++rs).map key).Nodup) : putAll key rs t=t++rs := by
  induction rs generalizing t with
  | nil => simp [putAll]
  | cons r rs ih =>
    have hfresh : ∀ a∈t,key a≠key r := by
      intro a ha he
      rw [map_append,nodup_append] at h
      exact h.2.2 _ (mem_map_of_mem ha) _ (mem_map_of_mem mem_cons_self) he
    have hput : put key r t=t++[r] := by
      rw [put,deleteKey,filter_eq_self.mpr]
      exact fun a ha => decide_eq_true (hfresh a ha)
    have hrest := ih (t++[r]) (by rwa [append_assoc])
    rw [append_assoc] at hrest
    rwa [putAll,foldl_cons,hput]

theorem mem_of_mem_putAll {rs t : List α} {r : α} (h : r∈putAll key rs t) : r∈rs∨r∈t := by
  induction rs generalizing t with
  | nil => exact .inr h
  | cons s rs ih =>
    rcases ih h with h | h
    · exact .inl (mem_cons_of_mem s h)
    · rcases (mem_put key s t r).mp h with h | rfl
      · exact .inr h.1
      · exact .inl mem_cons_self

theorem exists_mem_putAll {rs t : List α} {r : α} (h : r∈rs∨r∈t) :
    ∃ a∈putAll key rs t,key a=key r := by
  induction rs generalizing t r with
  | nil => exact ⟨r,h.resolve_left not_mem_nil,rfl⟩
  | cons s rs ih =>
    have hput (hr : r∈put key s t∨r∈rs) : ∃ a∈putAll key rs (put key s t),key a=key r :=
      ih hr.symm
    rcases h with h | h
    · rcases mem_cons.mp h with rfl | h
      · exact hput (.inl ((mem_put key r t r).mpr (.inr rfl)))
      · exact hput (.inr h)
    by_cases hk : key r=key s
    · rw [hk]
      exact ih (.inr ((mem_put key s t s).mpr (.inr rfl)))
    · exact hput (.inl ((mem_put key s t r).mpr (.inl ⟨h,hk⟩)))

/-- The first row with each key, in the order of the list. -/
def firsts (l : List α) : List α :=
  l.foldl (fun acc a => if key a∈acc.map key then acc else acc++[a]) []

theorem firsts_snoc (a : α) : firsts key (l++[a])=
    if key a∈(firsts key l).map key then firsts key l else firsts key l++[a] := by
  rw [firsts,foldl_append]
  rfl

theorem firsts_spec : ((firsts key l).map key).Nodup∧(∀ a∈firsts key l,a∈l)∧
    ∀ a∈l,key a∈(firsts key l).map key := by
  induction l using reverseRecOn with
  | nil => simp [firsts]
  | append_singleton l a ih =>
    obtain ⟨hn,hsub,hall⟩ := ih
    rw [firsts_snoc]
    split_ifs with hk
    · exact ⟨hn,fun b hb => mem_append_left _ (hsub b hb),forall_mem_append.mpr ⟨hall,forall_mem_singleton.mpr hk⟩⟩
    refine ⟨?_,fun b hb => ?_,fun b hb => ?_⟩
    · rw [map_append,nodup_append]
      refine ⟨hn,by simp,?_⟩
      intro k hk' k' hk'' he
      simp only [map_cons,map_nil,mem_singleton] at hk''
      exact hk (hk'' ▸ he ▸ hk')
    · rcases mem_append.mp hb with hb | hb
      · exact mem_append_left _ (hsub b hb)
      · exact mem_append_right _ hb
    · rw [map_append,mem_append]
      rcases mem_append.mp hb with hb | hb
      · exact .inl (hall b hb)
      · exact .inr (mem_map_of_mem hb)

theorem mem_firsts_iff (a : α) :
    a∈firsts key l ↔ ∃ before after,l=before++a::after∧key a∉before.map key := by
  have hcover (l : List α) (k : K) : k∈(firsts key l).map key ↔ k∈l.map key := by
    constructor
    · intro h
      obtain ⟨b,hb,rfl⟩ := mem_map.mp h
      exact mem_map_of_mem ((firsts_spec key l).2.1 b hb)
    · intro h
      obtain ⟨b,hb,rfl⟩ := mem_map.mp h
      exact (firsts_spec key l).2.2 b hb
  induction l using reverseRecOn with
  | nil => simp [firsts]
  | append_singleton l b ih =>
    have hsplit : (∃ before after,l++[b]=before++a::after∧key a∉before.map key) ↔
        (∃ before after,l=before++a::after∧key a∉before.map key)∨(a=b∧key a∉l.map key) := by
      constructor
      · intro ⟨before,after,he,hk⟩
        rcases eq_nil_or_concat' after with rfl | ⟨rest,c,rfl⟩
        · obtain ⟨rfl,hab⟩ := append_inj' he rfl
          exact .inr ⟨(singleton_inj.mp hab).symm,hk⟩
        · rw [← cons_append,← append_assoc] at he
          exact .inl ⟨before,rest,(append_inj' he rfl).1,hk⟩
      · rintro (⟨before,after,rfl,hk⟩ | ⟨rfl,hk⟩)
        · exact ⟨before,after++[b],by simp,hk⟩
        · exact ⟨l,[],rfl,hk⟩
    refine Iff.trans ?_ ((or_congr_left ih).trans hsplit.symm)
    rw [firsts_snoc,← hcover l]
    split_ifs with hb
    · refine ⟨.inl,fun h => h.resolve_right fun h => ?_⟩
      rw [h.1] at h
      exact h.2 hb
    rw [mem_append,mem_singleton]
    refine or_congr_right ⟨fun h => ⟨h,?_⟩,And.left⟩
    rwa [h]

theorem firsts_coarser {L : Type*} [DecidableEq L] {p : K → L} {l : List α} {a : α}
    (h : a∈firsts (fun a => p (key a)) l) : a∈firsts key l := by
  obtain ⟨before,after,hl,hk⟩ := (mem_firsts_iff _ l a).mp h
  refine (mem_firsts_iff key l a).mpr ⟨before,after,hl,fun hmem => hk ?_⟩
  obtain ⟨b,hb,he⟩ := mem_map.mp hmem
  exact mem_map.mpr ⟨b,hb,congrArg p he⟩

theorem firsts_perm {L : Type*} [DecidableEq L] (p : K → L) (l : List α) :
    (firsts key l).Perm (firsts (fun a => p (key a)) l++
      (firsts key l).filter fun a => key a∉(firsts (fun a => p (key a)) l).map key) := by
  have hfine := (firsts_spec key l).1
  have hcoarse : (firsts (fun a => p (key a)) l).Nodup :=
    (firsts_spec (fun a => p (key a)) l).1.of_map
  refine (perm_ext_iff_of_nodup hfine.of_map ?_).mpr fun a => ?_
  · refine nodup_append.mpr ⟨hcoarse,hfine.of_map.filter _,?_⟩
    intro a ha b hb he
    rw [mem_filter,decide_eq_true_eq] at hb
    exact hb.2 (mem_map.mpr ⟨a,ha,congrArg key he⟩)
  · rw [mem_append,mem_filter,decide_eq_true_eq]
    constructor
    · intro ha
      by_cases hk : key a∈(firsts (fun a => p (key a)) l).map key
      · obtain ⟨b,hb,he⟩ := mem_map.mp hk
        rw [← inj_on_of_nodup_map hfine (firsts_coarser key hb) ha he]
        exact .inl hb
      · exact .inr ⟨ha,hk⟩
    · intro ha
      exact ha.elim (firsts_coarser key) And.left

theorem firsts_eq_singleton {l : List α} {a : α} (hl : l≠[]) (h : ∀ b∈l,b=a) :
    firsts key l=[a] := by
  induction l using reverseRecOn with
  | nil => exact absurd rfl hl
  | append_singleton l b ih =>
    obtain rfl := h b (mem_append_right _ (mem_singleton_self _))
    rw [firsts_snoc]
    by_cases hnil : l=[]
    · simp [hnil,firsts]
    · rw [ih hnil fun c hc => h c (mem_append_left _ hc)]
      simp

end OESS.KeyedTable
