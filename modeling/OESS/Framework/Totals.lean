import Mathlib.Algebra.Order.BigOperators.Group.List

namespace OESS.Totals

open List

variable {α M : Type*} [AddCommMonoid M]

def total (p : α → Bool) (f : α → M) (l : List α) : M := ((l.filter p).map f).sum

variable (p : α → Bool) (f : α → M)

theorem total_append (l l' : List α) : total p f (l++l')=total p f l+total p f l' := by simp [total]

theorem total_singleton (a : α) : total p f [a]=if p a=true then f a else 0 := by
  cases hp : p a <;> simp [total,hp]

theorem total_map (g : α → α) (l : List α) :
    total p f (l.map g)=total (fun a => p (g a)) (fun a => f (g a)) l := by
  simp only [total,filter_map,map_map]
  rfl

theorem total_filter (p q : α → Bool) (f : α → M) (l : List α) :
    total p f (l.filter q)=total (fun a => p a && q a) f l := by
  simp only [total,filter_filter]

theorem total_cons (a : α) (l : List α) :
    total p f (a::l)=(if p a=true then f a else 0)+total p f l := by
  rw [← total_singleton,← total_append,singleton_append]

variable {l : List α}

theorem total_congr {p q : α → Bool} {f g : α → M} (hp : ∀ a∈l,p a=q a)
    (hf : ∀ a∈l,f a=g a) : total p f l=total q g l := by
  rw [total,filter_congr hp]
  exact congrArg sum (map_congr_left fun a ha => hf a (mem_filter.mp ha).1)

theorem total_modify (g : α → α) {i : Nat} {a : α} (h : l[i]?=some a) :
    total p f (l.modify i g)+(if p a=true then f a else 0)=
      total p f l+(if p (g a)=true then f (g a) else 0) := by
  induction l generalizing i with
  | nil => simp at h
  | cons b l ih =>
    cases i with
    | zero =>
      have hb : b=a := by simpa using h
      rw [modify_zero_cons,total_cons,total_cons,hb]
      ac_rfl
    | succ i =>
      have hrest := ih (by simpa using h)
      rw [modify_succ_cons,total_cons,total_cons,add_assoc,hrest,← add_assoc]

omit [AddCommMonoid M] in
theorem countP_lt_countP {p q : α → Bool} {a : α} (h : ∀ b∈l,p b=true → q b=true)
    (ha : a∈l) (hp : p a=false) (hq : q a=true) : l.countP p<l.countP q := by
  induction l with
  | nil => exact absurd ha not_mem_nil
  | cons b l ih =>
    have htail : ∀ b∈l,p b=true → q b=true := fun c hc => h c (mem_cons_of_mem b hc)
    rw [countP_cons,countP_cons]
    rcases mem_cons.mp ha with rfl | ha
    · have hle := countP_mono_left htail
      simp only [hp,hq,if_true]
      simp only [Bool.false_eq_true,if_false]
      omega
    · have hlt := ih htail ha
      have hhead : (if p b=true then 1 else 0)≤ if q b=true then 1 else 0 := by
        split_ifs with hpb hqb
        · exact le_refl 1
        · exact absurd (h b mem_cons_self hpb) hqb
        · exact Nat.zero_le 1
        · exact le_refl 0
      omega

variable [PartialOrder M] [IsOrderedAddMonoid M]

theorem total_le_total {p q : α → Bool} {f g : α → M}
    (hp : ∀ a∈l,p a=true → q a=true) (hf : ∀ a∈l,p a=true → f a ≤ g a)
    (hg : ∀ a∈l,q a=true → 0 ≤ g a) : total p f l ≤ total q g l := by
  induction l with
  | nil => exact le_refl _
  | cons a l ih =>
    have hrest := ih (fun b hb => hp b (mem_cons_of_mem a hb))
      (fun b hb => hf b (mem_cons_of_mem a hb)) (fun b hb => hg b (mem_cons_of_mem a hb))
    have hhead : (if p a=true then f a else 0) ≤ if q a=true then g a else 0 := by
      split_ifs with hpa hqa hqa
      · exact hf a mem_cons_self hpa
      · exact absurd (hp a mem_cons_self hpa) hqa
      · exact hg a mem_cons_self hqa
      · exact le_refl 0
    rw [total_cons,total_cons]
    exact add_le_add hhead hrest

end OESS.Totals
