import Mathlib.Combinatorics.SimpleGraph.Acyclic

namespace OESS.TreeFlood

open SimpleGraph List

/-- Closed under reversal, without loops and parallel edges. -/
structure DartList (V D : Type*) where
  darts : List D
  (src tgt : D → V)
  rev : D → D
  nodup : darts.Nodup
  rev_mem : ∀ d∈darts,rev d∈darts
  src_rev : ∀ d,src (rev d)=tgt d
  tgt_rev : ∀ d,tgt (rev d)=src d
  loopless : ∀ d∈darts,src d≠tgt d
  simple : ∀ d∈darts,∀ e∈darts,src d=src e → tgt d=tgt e → d=e

namespace DartList

variable {V D : Type*}

def graph (T : DartList V D) : SimpleGraph V where
  Adj x y := ∃ d∈T.darts,T.src d=x∧T.tgt d=y
  symm := ⟨fun _ _ ⟨d,hd,hs,ht⟩ =>
    ⟨T.rev d,T.rev_mem d hd,(T.src_rev d).trans ht,(T.tgt_rev d).trans hs⟩⟩
  loopless := ⟨fun _ ⟨d,hd,hs,ht⟩ => T.loopless d hd (hs.trans ht.symm)⟩

theorem adj_of_mem (T : DartList V D) {d : D} (hd : d∈T.darts) :
    T.graph.Adj (T.src d) (T.tgt d) := ⟨d,hd,rfl,rfl⟩

variable {G : SimpleGraph V}

theorem closer_unique (hG : G.IsAcyclic) {r x y z : V} (hry : G.Reachable r y)
    (hrz : G.Reachable r z) (hy : G.Adj y x) (hz : G.Adj z x) (hdy : G.dist r x=G.dist r y+1)
    (hdz : G.dist r x=G.dist r z+1) : y=z := by
  obtain ⟨p,-,hpl⟩ := hry.exists_path_of_dist
  obtain ⟨q,-,hql⟩ := hrz.exists_path_of_dist
  have hp : (p.concat hy).IsPath :=
    (p.concat hy).isPath_of_length_eq_dist (by rw [Walk.length_concat,hpl,hdy])
  have hq : (q.concat hz).IsPath :=
    (q.concat hz).isPath_of_length_eq_dist (by rw [Walk.length_concat,hql,hdz])
  have h : p.concat hy=q.concat hz :=
    congrArg Subtype.val ((hG.subsingleton_path r x).elim ⟨_,hp⟩ ⟨_,hq⟩)
  simpa using congrArg Walk.penultimate h

theorem exists_closer {r x : V} {n : Nat} (hrx : G.Reachable r x) (hd : G.dist r x=n+1) :
    ∃ y,G.Reachable r y∧G.Adj y x∧G.dist r y=n := by
  obtain ⟨p,hp⟩ := hrx.exists_walk_length_eq_dist
  induction p using Walk.concatRec with
  | Hnil => simp at hd
  | @Hconcat r y x p hyx _ =>
    rw [Walk.length_concat] at hp
    have hle : G.dist r y≤n := by
      have h := dist_le p
      omega
    have hge : G.dist r x≤G.dist r y+1 := by
      obtain ⟨q,hq⟩ := p.reachable.exists_walk_length_eq_dist
      simpa [hq] using dist_le (q.concat hyx)
    exact ⟨y,p.reachable,hyx,by omega⟩

section Waves

variable [DecidableEq V] [DecidableEq D] (T : DartList V D) (root : V)

/-- Every way out of the target of `d` but the way back. -/
def next (d : D) : List D := T.darts.filter fun e => T.src e=T.tgt d∧e≠T.rev d

/-- The darts crossed in round `n` of a flood from `root`. -/
def wave : Nat → List D
  | 0 => T.darts.filter fun e => T.src e=root
  | n+1 => (wave n).flatMap T.next

def flood (n : Nat) : List D := (List.range n).flatMap (T.wave root)

@[simp] theorem mem_next {d e : D} : e∈T.next d ↔ e∈T.darts∧T.src e=T.tgt d∧e≠T.rev d := by
  simp [next]

variable {T} (hG : T.graph.IsAcyclic)
include hG

variable (n : Nat)

theorem mem_wave (d : D) : d∈T.wave root n ↔ d∈T.darts∧T.graph.Reachable root (T.src d)∧
      T.graph.dist root (T.src d)=n∧T.graph.dist root (T.tgt d)=n+1 := by
  induction n generalizing d with
  | zero =>
    simp only [wave,mem_filter,decide_eq_true_eq]
    constructor
    · rintro ⟨hd,rfl⟩
      exact ⟨hd,Reachable.refl _,dist_self,dist_eq_one_iff_adj.mpr (T.adj_of_mem hd)⟩
    · rintro ⟨hd,hr,h0,-⟩
      exact ⟨hd,(hr.dist_eq_zero_iff.mp h0).symm⟩
  | succ n ih =>
    simp only [wave,mem_flatMap,mem_next]
    constructor
    · rintro ⟨e,he,hd,hs,hne⟩
      obtain ⟨he,hr,hn,hn1⟩ := (ih e).mp he
      have hrd : T.graph.Reachable root (T.src d) := by
        rw [hs]
        exact hr.trans (T.adj_of_mem he).reachable
      have hsd : T.graph.dist root (T.src d)=n+1 := by rw [hs,hn1]
      refine ⟨hd,hrd,hsd,?_⟩
      rcases hG.dist_eq_dist_add_one_of_adj_of_reachable root (T.adj_of_mem hd) hrd with h | h
      · -- the only closer neighbour is where the flood came from
        have hadj : T.graph.Adj (T.src e) (T.src d) := hs ▸ T.adj_of_mem he
        have hback : T.tgt d=T.src e := closer_unique hG (hrd.trans (T.adj_of_mem hd).reachable) hr
            (T.adj_of_mem hd).symm hadj h (by rw [hsd,hn])
        exact absurd (T.simple d hd _ (T.rev_mem e he) (by rw [T.src_rev,hs])
          (by rw [T.tgt_rev,hback])) hne
      · rw [h,hsd]
    · rintro ⟨hd,hr,hs,ht⟩
      obtain ⟨y,hry,⟨e,he,rfl,hte⟩,hy⟩ := exists_closer hr hs
      refine ⟨e,(ih e).mpr ⟨he,hry,hy,by rw [hte,hs]⟩,hd,hte.symm,?_⟩
      rintro rfl
      rw [T.tgt_rev] at ht
      omega

theorem wave_inj {m n : Nat} {d e : D} (hd : d∈T.wave root m) (he : e∈T.wave root n)
    (ht : T.tgt d=T.tgt e) : d=e := by
  obtain ⟨hd,hrd,hsd,htd⟩ := (mem_wave root hG m d).mp hd
  obtain ⟨he,hre,hse,hte⟩ := (mem_wave root hG n e).mp he
  have hs : T.src d=T.src e := closer_unique hG hrd hre (T.adj_of_mem hd) (ht ▸ T.adj_of_mem he)
      (by rw [htd,hsd]) (by rw [ht,hte,hse])
  exact T.simple d hd e he hs ht

theorem wave_nodup : (T.wave root n).Nodup := by
  induction n with
  | zero => exact T.nodup.filter _
  | succ n ih =>
    rw [wave,nodup_flatMap]
    refine ⟨fun d _ => T.nodup.filter _,?_⟩
    refine ih.imp_of_mem fun {d e} hd he hne => ?_
    intro x hxd hxe
    have hx := (T.mem_next.mp hxd).2.1.symm.trans (T.mem_next.mp hxe).2.1
    exact hne (wave_inj root hG hd he hx)

theorem flood_nodup : (T.flood root n).Nodup := by
  rw [flood,nodup_flatMap]
  refine ⟨fun m _ => wave_nodup root hG m,?_⟩
  refine nodup_range.imp fun {a b} hne => ?_
  intro d ha hb
  have h := ((mem_wave root hG a d).mp ha).2.2.1.symm.trans ((mem_wave root hG b d).mp hb).2.2.1
  exact hne h

theorem flood_tgt_nodup : ((T.flood root n).map T.tgt).Nodup := by
  refine (flood_nodup root hG n).map_on ?_
  intro d hd e he ht
  obtain ⟨i,-,hi⟩ := mem_flatMap.mp hd
  obtain ⟨j,-,hj⟩ := mem_flatMap.mp he
  exact wave_inj root hG hi hj ht

theorem flood_length_le : (T.flood root n).length≤T.darts.length := by
  refine ((flood_nodup root hG n).subperm ?_).length_le
  intro d hd
  obtain ⟨m,-,hm⟩ := mem_flatMap.mp hd
  exact ((mem_wave root hG m d).mp hm).1

omit hG in
theorem wave_nil_of_le {m n : Nat} (hmn : m≤n) (hm : T.wave root m=[]) : T.wave root n=[] := by
  induction n, hmn using Nat.le_induction with
  | base => exact hm
  | succ n _ ih => simp [wave,ih]

omit hG in
theorem le_flood_length (h : T.wave root n≠[]) : n≤(T.flood root n).length := by
  have hne (m : Nat) (hm : m≤n) : T.wave root m≠[] := fun h0 => h (wave_nil_of_le root hm h0)
  clear h
  induction n with
  | zero => simp
  | succ n ih =>
    have hl := ih fun m hm => hne m (by omega)
    have hn := length_pos_iff.mpr (hne n (by omega))
    simp only [flood,range_succ,flatMap_append,length_append,flatMap_singleton] at hl ⊢
    omega

theorem wave_eq_nil {n : Nat} (hn : T.darts.length<n) : T.wave root n=[] := by
  by_contra h
  have h1 := le_flood_length root n h
  have h2 := flood_length_le root hG n
  omega

theorem mem_flood_tgt {n : Nat} (hn : T.darts.length<n) (u : V) :
    u∈(T.flood root n).map T.tgt ↔ u≠root∧T.graph.Reachable root u := by
  simp only [flood,mem_map,mem_flatMap,mem_range]
  constructor
  · rintro ⟨d,⟨m,-,hm⟩,rfl⟩
    obtain ⟨hd,hr,-,ht⟩ := (mem_wave root hG m d).mp hm
    refine ⟨?_,hr.trans (T.adj_of_mem hd).reachable⟩
    intro hroot
    rw [hroot,dist_self] at ht
    omega
  · rintro ⟨hne,hr⟩
    obtain ⟨m,hm⟩ : ∃ m,T.graph.dist root u=m+1 :=
      Nat.exists_eq_succ_of_ne_zero fun h0 => hne (hr.dist_eq_zero_iff.mp h0).symm
    obtain ⟨y,hry,⟨d,hd,rfl,rfl⟩,hy⟩ := exists_closer hr hm
    have hw : d∈T.wave root m := (mem_wave root hG m d).mpr ⟨hd,hry,hy,hm⟩
    refine ⟨d,⟨m,?_,hw⟩,rfl⟩
    by_contra hlt
    rw [wave_eq_nil root hG (by omega)] at hw
    cases hw

end Waves

end DartList

end OESS.TreeFlood
