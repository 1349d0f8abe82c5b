import Mathlib.Data.Set.Insert
import Mathlib.Logic.Relation

namespace OESS.Multigraphs

open Relation

variable {V E : Type*}

/-- `e` joins `u` and `v` in either direction; edges without ends join nothing. -/
def Joins (ends : E → Option (V×V)) (e : E) (u v : V) : Prop := ends e=some (u,v)∨ends e=some (v,u)

def Connected (ends : E → Option (V×V)) (S : Set E) : V → V → Prop :=
  ReflTransGen fun u v => ∃ e∈S,Joins ends e u v

/-- Every edge is the only way between its ends. -/
def Acyclic (ends : E → Option (V×V)) (S : Set E) : Prop :=
  ∀ e∈S,∀ u v,Joins ends e u v → ¬Connected ends (S \ {e}) u v

variable {ends : E → Option (V×V)} {S T : Set E} {u v x y : V} {e : E}

theorem Joins.symm (h : Joins ends e u v) : Joins ends e v u := Or.symm h

theorem Joins.eq (h : Joins ends e u v) (h' : Joins ends e x y) : x=u∧y=v∨x=v∧y=u := by
  rcases h with h | h <;> rcases h' with h' | h' <;>
    simp only [h,Option.some.injEq,Prod.mk.injEq] at h'
  · exact .inl ⟨h'.1.symm,h'.2.symm⟩
  · exact .inr ⟨h'.2.symm,h'.1.symm⟩
  · exact .inr ⟨h'.1.symm,h'.2.symm⟩
  · exact .inl ⟨h'.2.symm,h'.1.symm⟩

theorem connected_of_joins (he : e∈S) (h : Joins ends e u v) : Connected ends S u v :=
  ReflTransGen.single ⟨e,he,h⟩

theorem Connected.map {F W : Type*} {ends' : F → Option (W×W)} {T : Set F} (f : V → W)
    (hf : ∀ e∈S,∀ x y,Joins ends e x y → Connected ends' T (f x) (f y))
    (h : Connected ends S u v) : Connected ends' T (f u) (f v) := by
  apply ReflTransGen.lift' f _ _ _ h
  intro x y ⟨e,he,hjoins⟩
  exact hf e he x y hjoins

theorem Connected.mono (hST : S⊆T) (h : Connected ends S u v) : Connected ends T u v := by
  apply h.map id
  intro e he x y hj
  exact connected_of_joins (hST he) hj

/-- No two edges join the same vertices. -/
def Simple (ends : E → Option (V×V)) (S : Set E) : Prop :=
  ∀ e∈S,∀ e'∈S,∀ u v,Joins ends e u v → Joins ends e' u v → e=e'

theorem Acyclic.simple (h : Acyclic ends S) : Simple ends S := by
  intro e he e' he' u v hj hj'
  by_contra hne
  exact h e he u v hj (connected_of_joins ⟨he',Ne.symm hne⟩ hj')

/-- A simple graph is acyclic if its edges run beside those of an acyclic one. -/
theorem Simple.acyclic {F : Type*} {ends' : F → Option (V×V)} {T : Set F} (hS : Simple ends S)
    (hcover : ∀ e∈S,∃ e'∈T,∀ u v,Joins ends' e' u v ↔ Joins ends e u v)
    (hT : Acyclic ends' T) : Acyclic ends S := by
  intro e he u v hj hconnected
  obtain ⟨e',he',hsame⟩ := hcover e he
  apply hT e' he' u v ((hsame u v).mpr hj)
  apply hconnected.map id
  intro g hg x y hxy
  obtain ⟨g',hg',hside⟩ := hcover g hg.1
  refine connected_of_joins ⟨hg',?_⟩ ((hside x y).mpr hxy)
  intro heq
  rw [Set.mem_singleton_iff.mp heq] at hside
  exact hg.2 (hS g hg.1 e he x y hxy ((hsame x y).mp ((hside x y).mpr hxy)))

section Subdivision

variable {l a z : E} {n : V}

/-- Two edges over a new vertex replace `l`. -/
structure Subdivision (ends : E → Option (V×V)) (S : Set E) (l a z : E) (u v n : V) : Prop where
  mem : l∈S
  old : Joins ends l u v
  first : Joins ends a u n
  second : Joins ends z n v
  newFirst : n≠u
  newSecond : n≠v
  fresh : ∀ e∈S,∀ x,¬Joins ends e x n

def divided (S : Set E) (l a z : E) : Set E := (S \ {l}) ∪ {a,z}

theorem Subdivision.ne_new (h : Subdivision ends S l a z u v n) (he : e∈S) (hj : Joins ends e x y) :
    x≠n∧y≠n := by
  constructor
  · intro hx
    exact h.fresh e he y (hx ▸ hj.symm)
  · intro hy
    exact h.fresh e he x (hy ▸ hj)

theorem Subdivision.mono (h : Subdivision ends S l a z u v n) (hT : T⊆S) (hl : l∈T) :
    Subdivision ends T l a z u v n :=
  ⟨hl,h.old,h.first,h.second,h.newFirst,h.newSecond,fun e he => h.fresh e (hT he)⟩

variable [DecidableEq V]

/-- The new vertex goes to `w`. -/
def collapse (n w : V) (x : V) : V := if x=n then w else x

theorem collapse_new (n w : V) : collapse n w n=w := if_pos rfl

theorem collapse_old {n w x : V} (h : x≠n) : collapse n w x=x := if_neg h

theorem connected_collapse {w : V} (he : Joins ends e w n) (hw : n≠w)
    (hxy : Joins ends e x y) : Connected ends T (collapse n w x) (collapse n w y) := by
  have hsame : collapse n w x=collapse n w y := by
    rcases he.eq hxy with ⟨rfl,rfl⟩ | ⟨rfl,rfl⟩ <;> rw [collapse_new,collapse_old hw.symm]
  rw [hsame]
  exact ReflTransGen.refl

section

variable (h : Subdivision ends S l a z u v n)
include h

theorem Subdivision.connected_iff (hx : x≠n) (hy : y≠n) :
    Connected ends (divided S l a z) x y ↔ Connected ends S x y := by
  constructor
  · intro hxy
    have hmap : Connected ends S (collapse n u x) (collapse n u y) := by
      apply hxy.map
      intro e he p q hj
      rcases he with ⟨he,-⟩ | rfl | rfl
      · obtain ⟨hp,hq⟩ := h.ne_new he hj
        rw [collapse_old hp,collapse_old hq]
        exact connected_of_joins he hj
      · exact connected_collapse h.first h.newFirst hj
      · -- the second edge becomes the old one
        rcases h.second.eq hj with ⟨rfl,rfl⟩ | ⟨rfl,rfl⟩ <;>
          rw [collapse_new,collapse_old h.newSecond.symm]
        · exact connected_of_joins h.mem h.old
        · exact connected_of_joins h.mem h.old.symm
    rwa [collapse_old hx,collapse_old hy] at hmap
  · intro hxy
    apply hxy.map id
    intro e he p q hj
    have hfirst : a∈divided S l a z := .inr (.inl rfl)
    have hsecond : z∈divided S l a z := .inr (.inr rfl)
    by_cases hl : e=l
    · subst hl
      have huv : Connected ends (divided S e a z) u v :=
        (connected_of_joins hfirst h.first).trans (connected_of_joins hsecond h.second)
      have hvu : Connected ends (divided S e a z) v u :=
        (connected_of_joins hsecond h.second.symm).trans (connected_of_joins hfirst h.first.symm)
      rcases h.old.eq hj with ⟨rfl,rfl⟩ | ⟨rfl,rfl⟩
      · exact huv
      · exact hvu
    · exact connected_of_joins (.inl ⟨he,hl⟩) hj

/-- The new vertex hangs on the other edge. -/
theorem Subdivision.connected_cut {w : V} (hT : T⊆(S \ {l}) ∪ {e}) (he : Joins ends e w n)
    (hw : n≠w) (hxy : Connected ends T x y) :
    Connected ends (S \ {l}) (collapse n w x) (collapse n w y) := by
  apply hxy.map
  intro k hk p q hj
  rcases hT hk with hk | rfl
  · obtain ⟨hp,hq⟩ := h.ne_new hk.1 hj
    rw [collapse_old hp,collapse_old hq]
    exact connected_of_joins hk hj
  · exact connected_collapse he hw hj

theorem Subdivision.acyclic (hS : Acyclic ends S) : Acyclic ends (divided S l a z) := by
  have hbridge : ¬Connected ends (S \ {l}) u v := hS l h.mem u v h.old
  have hbridge' : ¬Connected ends (S \ {l}) v u := hS l h.mem v u h.old.symm
  intro e he p q hj hpq
  rcases he with ⟨he,hl⟩ | rfl | rfl
  · -- an edge that was kept: the rest is a subdivision of the rest before
    have hrest : Subdivision ends (S \ {e}) l a z u v n :=
      h.mono (fun _ hk => hk.1) ⟨h.mem,fun heq => hl heq.symm⟩
    have hsub : divided S l a z \ {e}⊆divided (S \ {e}) l a z := by
      rintro k (⟨⟨hk,hkl⟩ | hk,hke⟩)
      · exact .inl ⟨⟨hk,hke⟩,hkl⟩
      · exact .inr hk
    obtain ⟨hp,hq⟩ := h.ne_new he hj
    have hdivided : Connected ends (divided (S \ {e}) l a z) p q :=
      hpq.mono hsub
    exact hS e he p q hj ((hrest.connected_iff hp hq).mp hdivided)
  · have hsub : divided S l e z \ {e}⊆(S \ {l}) ∪ {z} := by
      rintro k (⟨hk | rfl | rfl,hke⟩)
      · exact .inl hk
      · exact absurd rfl hke
      · exact .inr rfl
    have hcut := h.connected_cut hsub h.second.symm h.newSecond hpq
    rcases h.first.eq hj with ⟨rfl,rfl⟩ | ⟨rfl,rfl⟩
    · rw [collapse_new,collapse_old h.newFirst.symm] at hcut
      exact hbridge hcut
    · rw [collapse_new,collapse_old h.newFirst.symm] at hcut
      exact hbridge' hcut
  · have hsub : divided S l a e \ {e}⊆(S \ {l}) ∪ {a} := by
      rintro k (⟨hk | rfl | rfl,hke⟩)
      · exact .inl hk
      · exact .inr rfl
      · exact absurd rfl hke
    have hcut := h.connected_cut hsub h.first h.newFirst hpq
    rcases h.second.eq hj with ⟨rfl,rfl⟩ | ⟨rfl,rfl⟩
    · rw [collapse_new,collapse_old h.newSecond.symm] at hcut
      exact hbridge hcut
    · rw [collapse_new,collapse_old h.newSecond.symm] at hcut
      exact hbridge' hcut

end

end Subdivision

end OESS.Multigraphs
