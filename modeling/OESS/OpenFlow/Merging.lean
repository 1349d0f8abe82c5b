import OESS.OpenFlow.CircuitFlows
import OESS.Framework.Lookup
import Mathlib.Data.List.Induction

namespace OESS.OpenFlow

open List hiding lookup

namespace FlowRule

variable {other l m : List Action} {j : Nat}

@[simp] theorem equivilentScan_nil : equivilentScan other j []=false := by cases j <;> rfl

theorem equivilentScan_hit {a : Action} (h : other[j]?=some a) :
    equivilentScan other j (a::l)=(decide (j+1=other.length) || equivilentScan other (j+1) l) := by
  rw [equivilentScan,h]
  by_cases hend : j+1=other.length <;> simp [sameValue_eq]

theorem equivilentScan_miss {a : Action} (h : other[j]?≠some a) :
    equivilentScan other j (a::l)=equivilentScan other 0 l := by
  rw [equivilentScan]
  cases hb : other[j]? with
  | none => rfl
  | some b =>
    have hne : ¬a=b := fun hab => h (by rw [hb,hab])
    simp [sameValue_eq,hne]

theorem equivilentScan_take (hj : j<other.length) :
    equivilentScan other 0 (other.take j++l)=equivilentScan other j l := by
  induction j generalizing l with
  | zero => rfl
  | succ j ih =>
    have hget := getElem?_eq_getElem (Nat.lt_of_succ_lt hj)
    have hend : ¬j+1=other.length := by omega
    rw [take_add_one,hget,append_assoc,ih (Nat.lt_of_succ_lt hj),Option.toList_some,
      singleton_append,equivilentScan_hit hget]
    simp [hend]

/-- Attempts that fail: a beginning of the list, then an action that does not go on with it. -/
inductive Missed (other : List Action) : List Action → Prop
  | nil : Missed other []
  | attempt {j : Nat} {a : Action} {l : List Action} (hj : j<other.length) (ha : other[j]?≠some a)
      (hl : Missed other l) : Missed other (other.take j++a::l)

theorem Missed.scan (h : Missed other l) (hne : other≠[]) :
    equivilentScan other 0 (l++(other++m))=true := by
  induction h with
  | nil =>
    obtain ⟨first,last,rfl⟩ := (eq_nil_or_concat' other).resolve_left hne
    have htake := @equivilentScan_take (first++[last]) (last::m) first.length (by simp)
    rw [take_left] at htake
    rw [nil_append,append_assoc,singleton_append,htake,equivilentScan_hit (by simp)]
    simp
  | attempt hj ha _ ih =>
    rwa [append_assoc,cons_append,equivilentScan_take hj,equivilentScan_miss ha]

theorem missed_of_scan (hj : j<other.length) (h : equivilentScan other j l=true) :
    ∃ missed rest,Missed other missed∧other.take j++l=missed++(other++rest) := by
  induction l generalizing j with
  | nil => simp at h
  | cons a l ih =>
    by_cases ha : other[j]?=some a
    · have hnext : other.take (j+1)++l=other.take j++a::l := by simp [take_add_one,ha]
      rw [equivilentScan_hit ha,Bool.or_eq_true,decide_eq_true_eq] at h
      rw [← hnext]
      by_cases hend : j+1=other.length
      · exact ⟨[],l,.nil,by rw [hend,take_length,nil_append]⟩
      · exact ih (by omega) (h.resolve_left hend)
    · rw [equivilentScan_miss ha] at h
      obtain ⟨missed,rest,hmissed,heq⟩ := ih (Nat.zero_lt_of_lt hj) h
      rw [take_zero,nil_append] at heq
      exact ⟨_,rest,.attempt hj ha hmissed,by rw [heq,append_assoc,cons_append]⟩

theorem infix_of_scan (h : equivilentScan other 0 l=true) : other<:+:l := by
  by_cases hne : other=[]
  · rw [hne]
    exact nil_infix
  obtain ⟨missed,rest,-,heq⟩ := missed_of_scan (length_pos_iff.mpr hne) h
  exact ⟨missed,rest,by simpa using heq.symm⟩

/-- How many the scan has matched at the end. -/
def matchedAtEnd (other : List Action) : Nat → List Action → Nat
  | j,[] => j
  | j,a::actions => matchedAtEnd other (if other[j]?=some a then j+1 else 0) actions

theorem equivilentScan_append : equivilentScan other j (l++m)=
      (equivilentScan other j l || equivilentScan other (matchedAtEnd other j l) m) := by
  induction l generalizing j with
  | nil => simp [matchedAtEnd]
  | cons a l ih =>
    rw [cons_append,matchedAtEnd]
    by_cases ha : other[j]?=some a
    · rw [equivilentScan_hit ha,equivilentScan_hit ha,ih,if_pos ha,Bool.or_assoc]
    · rw [equivilentScan_miss ha,equivilentScan_miss ha,ih,if_neg ha]

theorem matchedAtEnd_lt (hj : j<other.length) (h : equivilentScan other j l=false) :
    matchedAtEnd other j l<other.length := by
  induction l generalizing j with
  | nil => exact hj
  | cons a l ih =>
    rw [matchedAtEnd]
    by_cases ha : other[j]?=some a
    · rw [equivilentScan_hit ha,Bool.or_eq_false_iff,decide_eq_false_iff_not] at h
      rw [if_pos ha]
      exact ih (by omega) h.2
    · rw [equivilentScan_miss ha] at h
      rw [if_neg ha]
      exact ih (by omega) h

/-- On a list not longer, one miss is final. -/
theorem equivilentScan_iff_drop (hj : j<other.length) (hl : l.length≤other.length) :
    equivilentScan other j l=true ↔ other.drop j<+:l := by
  induction l generalizing j with
  | nil =>
    have hne : other.drop j≠[] := by simp; omega
    simp [hne]
  | cons a l ih =>
    have hdrop := drop_eq_getElem_cons hj
    have hget := getElem?_eq_getElem hj
    simp only [length_cons] at hl
    by_cases ha : other[j]=a
    · rw [equivilentScan_hit (hget.trans (by rw [ha])),hdrop,ha,cons_prefix_cons]
      by_cases hend : j+1=other.length
      · simp [hend]
      · simp only [hend,true_and]
        exact ih (by omega) (by omega)
    · have hmiss : other[j]?≠some a := by rw [hget]; simpa using ha
      rw [equivilentScan_miss hmiss,hdrop,cons_prefix_cons]
      constructor
      · intro h
        have hlen := (infix_of_scan h).length_le
        omega
      · intro h
        exact absurd h.1 ha

variable {r s : FlowRule}

theorem hasEquivilentActions_eq :
    hasEquivilentActions r s=equivilentScan s.actions 0 r.actions := by
  rw [hasEquivilentActions]
  split_ifs with hshort
  · cases hscan : equivilentScan s.actions 0 r.actions with
    | false => rfl
    | true =>
      have hlen := (infix_of_scan hscan).length_le
      omega
  · rfl

/-- The scan finds the actions wherever they occur, unless each occurrence begins within a failed
attempt. -/
theorem hasEquivilentActions_iff_occurs (r s : FlowRule) (hs : s.actions≠[]) :
    (hasEquivilentActions r s=true ↔ s.actions<:+:r.actions) ↔
      (s.actions<:+:r.actions → ∃ missed rest,Missed s.actions missed∧
        r.actions=missed++(s.actions++rest)) := by
  rw [hasEquivilentActions_eq]
  constructor
  · intro h hoccurs
    simpa using missed_of_scan (length_pos_iff.mpr hs) (h.mpr hoccurs)
  · intro h
    refine ⟨infix_of_scan,fun hoccurs => ?_⟩
    obtain ⟨missed,rest,hmissed,heq⟩ := h hoccurs
    rw [heq]
    exact hmissed.scan hs

theorem equivilent_repeated_output :
    hasEquivilentActions { actions := [.output 1,.output 1,.output 2],dpid := 1 }
        { actions := [.output 1,.output 2],dpid := 1 }=false∧
      [Action.output 1,.output 2]<:+:[.output 1,.output 1,.output 2] := by
  decide

theorem equivilent_after_miss :
    hasEquivilentActions { actions := [.output 3,.output 1,.output 2],dpid := 1 }
        { actions := [.output 1,.output 2],dpid := 1 }=true ↔
      [Action.output 1,.output 2]<:+:[.output 3,.output 1,.output 2] :=
  (hasEquivilentActions_iff_occurs { actions := [.output 3,.output 1,.output 2],dpid := 1 }
    { actions := [.output 1,.output 2],dpid := 1 } (by decide)).mpr fun _ =>
      ⟨[.output 3],[],.attempt (j := 0) (by decide) (by decide) .nil,rfl⟩

/-- `merge_actions` finds the other's actions there. -/
def Covered (r s : FlowRule) : Prop := compareActions r s=true∨hasEquivilentActions r s=true
  deriving Decidable

theorem covered_iff (hs : s.actions≠[]) :
    Covered r s ↔ equivilentScan s.actions 0 r.actions=true := by
  rw [Covered,compareActions_iff,hasEquivilentActions_eq,or_iff_right_iff_imp]
  intro h
  rw [h,equivilentScan_iff_drop (length_pos_iff.mpr hs) (Nat.le_refl _)]
  simp

theorem Covered.infix (h : Covered r s) : s.actions<:+:r.actions := by
  rcases h with h | h
  · exact (compareActions_iff r s).mp h ▸ infix_refl _
  · rw [hasEquivilentActions_eq] at h
    exact infix_of_scan h

/-- The rule with the actions of another one merged into it. -/
def merged (r s : FlowRule) : FlowRule :=
  if Covered r s then r else { r with actions := r.actions++s.actions }

/-- It leaves the actions or adds the others at the end. -/
theorem mergeActions_eq (r s : FlowRule) : mergeActions r s=
      if hasSetAction r.actions=hasSetAction s.actions then some (merged r s,true) else none := by
  simp only [mergeActions,merged,Covered]
  cases hasSetAction r.actions <;> cases hasSetAction s.actions
  all_goals split_ifs <;> simp_all

theorem hasSetAction_append (l m : List Action) :
    hasSetAction (l++m)=(hasSetAction l || hasSetAction m) := by
  simp [hasSetAction]

theorem mergeActions_fixed_iff (hset : hasSetAction r.actions=hasSetAction s.actions) :
    (∃ b,mergeActions r s=some (r,b)) ↔ s.actions=[]∨Covered r s := by
  rw [mergeActions_eq,if_pos hset,merged]
  by_cases hcov : Covered r s
  · simp [hcov]
  · simp [hcov,FlowRule.ext_iff]

/-- What a merge is to do, by its return value. -/
def Absorbs (r s : FlowRule) : Prop :=
  (∀ r',mergeActions r s=some (r',true) →
    s.actions<:+:r'.actions∧r.actions<:+:r'.actions∧∃ b,mergeActions r' s=some (r',b))∧
  ∀ r',mergeActions r s=some (r',false) → r'=r

theorem absorbs_of_fixed (hset : hasSetAction r.actions=hasSetAction s.actions)
    (h : s.actions=[]∨Covered r s) : Absorbs r s := by
  obtain ⟨b,hmerge⟩ := (mergeActions_fixed_iff hset).mpr h
  have hfound : s.actions<:+:r.actions := h.elim (fun h => by simp [h]) Covered.infix
  constructor
  · intro r' hr
    rw [hmerge,Option.some.injEq,Prod.mk.injEq] at hr
    rw [← hr.1]
    exact ⟨hfound,infix_refl _,b,hmerge⟩
  · intro r' hr
    rw [hmerge,Option.some.injEq,Prod.mk.injEq] at hr
    exact hr.1.symm

theorem absorbs_append_iff (hset : hasSetAction r.actions=hasSetAction s.actions)
    (hs : s.actions≠[]) (hcov : ¬Covered r s) :
    Absorbs r s ↔ s.actions.drop (matchedAtEnd s.actions 0 r.actions)<+:s.actions := by
  have hmerge : mergeActions r s=some ({ r with actions := r.actions++s.actions },true) := by
    simp [mergeActions_eq,merged,hset,hcov]
  have hscan : equivilentScan s.actions 0 r.actions=false := by simpa [covered_iff hs] using hcov
  have hagain := mergeActions_fixed_iff (r := { r with actions := r.actions++s.actions }) (s := s)
    (by simp [hasSetAction_append,hset])
  simp only [Absorbs,hmerge,Option.some.injEq,Prod.mk.injEq,and_true,forall_eq',hagain,hs,covered_iff hs,equivilentScan_append,hscan,Bool.false_or,
    equivilentScan_iff_drop (matchedAtEnd_lt (length_pos_iff.mpr hs) hscan) (Nat.le_refl _)]
  have hother := (suffix_append r.actions s.actions).isInfix
  have hown := (prefix_append r.actions s.actions).isInfix
  simp [hother,hown]

/-- A merge absorbs the other rule iff the two differ in having set actions, its actions are there
already, or what is awaited of them at the seam begins them. -/
theorem absorbs_iff (r s : FlowRule) :
    Absorbs r s ↔ hasSetAction r.actions≠hasSetAction s.actions∨s.actions=[]∨
      hasEquivilentActions r s=true∨
      s.actions.drop (matchedAtEnd s.actions 0 r.actions)<+:s.actions := by
  by_cases hset : hasSetAction r.actions=hasSetAction s.actions
  swap
  · simp [Absorbs,mergeActions_eq,hset]
  by_cases hs : s.actions=[]
  · simp [absorbs_of_fixed hset (.inl hs),hs]
  by_cases hcov : Covered r s
  · have hequiv : hasEquivilentActions r s=true := by
      rw [hasEquivilentActions_eq]
      exact (covered_iff hs).mp hcov
    simp [absorbs_of_fixed hset (.inr hcov),hequiv]
  · have hequiv : ¬hasEquivilentActions r s=true := fun h => hcov (.inr h)
    rw [absorbs_append_iff hset hs hcov]
    simp [hset,hs,hequiv]

/-- The own set action is matched at the seam. -/
theorem merge_again_appends : ¬Absorbs { actions := [.setVlanId 2],dpid := 1 }
      { actions := [.setVlanId 2,.output 2],dpid := 1 } := by
  intro h
  obtain ⟨-,-,b,hb⟩ := h.1 { actions := [.setVlanId 2,.setVlanId 2,.output 2],dpid := 1 } (by decide)
  revert hb
  cases b <;> decide

/-- Where a rule belongs: rules of one site are merged. -/
def site (r : FlowRule) : Nat × Nat × Match := (r.dpid,r.priority,r.fields)

/-- Each port with the VLAN rewrite in force. -/
def outputs : Option Int → List Action → List (Option Int × Nat)
  | _,[] => []
  | v,.output port::actions => (v,port)::outputs v actions
  | _,.setVlanId vlan::actions => outputs (some vlan) actions

def inForce : Option Int → List Action → Option Int
  | v,[] => v
  | v,.output _::actions => inForce v actions
  | _,.setVlanId vlan::actions => inForce (some vlan) actions

def sends (r : FlowRule) : List (Option Int × Nat) := outputs none r.actions

theorem outputs_append (v : Option Int) (l m : List Action) :
    outputs v (l++m)=outputs v l++outputs (inForce v l) m := by
  induction l generalizing v with
  | nil => rfl
  | cons a l ih => cases a <;> simp [outputs,inForce,ih]

variable {port : Nat} {x : Option Int × Nat}

theorem mem_outputs_some {v : Option Int} {vlan : Int} (h : (some vlan,port)∈outputs none l) :
    (some vlan,port)∈outputs v l := by
  induction l with
  | nil => simp [outputs] at h
  | cons a l ih =>
    cases a with
    | output p =>
      simp only [outputs,mem_cons] at h ⊢
      exact .inr (ih (by simpa using h))
    | setVlanId w => exact h

theorem outputs_some_not_none {vlan : Int} : (none,port)∉outputs (some vlan) l := by
  induction l generalizing vlan with
  | nil => simp [outputs]
  | cons a l ih => cases a <;> simp [outputs,ih]

theorem inForce_none (h : hasSetAction l=false) : inForce none l=none := by
  induction l with
  | nil => rfl
  | cons a l ih => cases a <;> simp_all [hasSetAction,inForce]

theorem inForce_some {v : Option Int} (h : hasSetAction l=true∨v.isSome) :
    ∃ vlan,inForce v l=some vlan := by
  induction l generalizing v with
  | nil => simpa [hasSetAction,inForce,Option.isSome_iff_exists] using h
  | cons a l ih => cases a <;> simp_all [hasSetAction,inForce]

@[simp] theorem site_merged (r s : FlowRule) : (merged r s).site=r.site := by
  unfold merged
  split_ifs <;> rfl

theorem sends_subset_merged (h : x∈r.sends) : x∈(merged r s).sends := by
  unfold merged
  split_ifs
  · exact h
  · simp only [sends,outputs_append,mem_append]
    exact .inl h

theorem infix_merged (r s : FlowRule) : s.actions<:+:(merged r s).actions := by
  unfold merged
  split_ifs with h
  · exact h.infix
  · exact (suffix_append _ _).isInfix

theorem hasSetAction_merged (hset : hasSetAction r.actions=hasSetAction s.actions) :
    hasSetAction (merged r s).actions=hasSetAction r.actions := by
  unfold merged
  split_ifs <;> simp [hasSetAction_append,hset]

/-- What the other rule sends is kept, but for what it sends before its first rewrite. -/
theorem other_sends_merged (hset : hasSetAction r.actions=hasSetAction s.actions) (hx : x∈s.sends)
    (hfree : hasSetAction s.actions=true → x.1≠none) : x∈(merged r s).sends := by
  obtain ⟨before,after,hm⟩ := infix_merged r s
  have hmid : x∈outputs (inForce none before) s.actions := by
    obtain ⟨v,port⟩ := x
    cases v with
    | some vlan => exact mem_outputs_some hx
    | none =>
      have hnone : hasSetAction s.actions=false := by
        by_contra h
        exact hfree (by simpa using h) rfl
      have hbefore : hasSetAction before=false := by
        have h := hasSetAction_merged hset
        rw [hset,hnone,← hm] at h
        simp only [hasSetAction_append,Bool.or_eq_false_iff] at h
        exact h.1.1
      rwa [inForce_none hbefore]
  simp only [sends,← hm,outputs_append,mem_append]
  exact .inl (.inr hmid)

theorem unset_sends_merged (hr : hasSetAction r.actions=true) :
    (none,port)∈(merged r s).sends ↔ (none,port)∈r.sends := by
  unfold merged
  split_ifs
  · rfl
  · obtain ⟨vlan,hv⟩ := inForce_some (v := none) (.inl hr)
    simp [sends,outputs_append,hv,outputs_some_not_none]

end FlowRule

open FlowRule Lookup

theorem sameSite_iff (r s : FlowRule) :
    (r.dpid=s.dpid && r.compareMatch s)=true ↔ r.site=s.site := by
  rw [Bool.and_eq_true,compareMatch_iff]
  simp [site]

variable {flow : FlowRule} {l : List FlowRule}

theorem mergeInto_skip (rest : Rules) (h : flow.site∉l.map site) :
    mergeInto flow (l.map some++rest)=
      (mergeInto flow rest).map fun x => (l.map some++x.1,x.2) := by
  induction l with
  | nil => simp
  | cons r l ih =>
    simp only [map_cons,mem_cons,not_or] at h
    have hr : ¬(r.dpid=flow.dpid && r.compareMatch flow)=true := fun hs =>
      h.1 ((sameSite_iff r flow).mp hs).symm
    rw [map_cons,cons_append,mergeInto,if_neg hr,ih h.2]
    cases mergeInto flow rest <;> rfl

theorem mergeInto_absent (h : flow.site∉l.map site) :
    mergeInto flow (l.map some)=some (l.map some,false) := by
  simpa [mergeInto] using mergeInto_skip [] h

theorem mergeInto_present {m : FlowRule} {l' : List FlowRule} (hkeys : ((l++m::l').map site).Nodup)
    (hm : m.site=flow.site) : mergeInto flow ((l++m::l').map some)=
      if hasSetAction m.actions=hasSetAction flow.actions then
        some ((l++merged m flow::l').map some,true)
      else none := by
  simp only [map_append,map_cons,nodup_append,nodup_cons,mem_cons] at hkeys
  have hl : flow.site∉l.map site := fun h => hkeys.2.2 _ h _ (.inl rfl) hm.symm
  have hl' : flow.site∉l'.map site := hm ▸ hkeys.2.1.1
  rw [map_append,map_cons,mergeInto_skip _ hl,mergeInto,
    if_pos ((sameSite_iff m flow).mpr hm),mergeInto_absent hl',mergeActions_eq]
  split_ifs <;> simp

/-- The kept rules once a list has gone through. -/
structure Collected (flows out : List FlowRule) : Prop where
  sites : (out.map site).Nodup
  kept : ∀ b∈flows,∃ m∈out,m.site=b.site∧hasSetAction m.actions=hasSetAction b.actions∧
    ∀ x∈b.sends,(hasSetAction b.actions=true → x.1≠none) → x∈m.sends
  first : ∀ m∈out,∃ a,lookup site m.site flows=some a∧
    hasSetAction m.actions=hasSetAction a.actions∧
    (hasSetAction a.actions=true → ∀ port,(none,port)∈m.sends ↔ (none,port)∈a.sends)

variable {flows out : List FlowRule} {b : FlowRule}

theorem Collected.snoc (h : Collected flows out) (hb : b.site∉out.map site) :
    Collected (flows++[b]) (out++[b]) := by
  obtain ⟨hsites,hkept,hfirst⟩ := h
  have hnew : lookup site b.site flows=none := by
    rw [lookup]
    grind
  refine ⟨nodup_map_snoc hsites hb,by grind,?_⟩
  intro m hm
  rw [lookup_append_singleton]
  by_cases hold : m∈out
  · obtain ⟨a,ha,hrest⟩ := hfirst m hold
    exact ⟨a,by simp [ha],hrest⟩
  · have hmb : m=b := by grind
    exact ⟨b,by simp [hmb,hnew],by simp [hmb]⟩

theorem Collected.merge {m : FlowRule} {l' : List FlowRule} (h : Collected flows (l++m::l'))
    (hm : m.site=b.site) (hset : hasSetAction m.actions=hasSetAction b.actions) :
    Collected (flows++[b]) (l++merged m b::l') := by
  obtain ⟨hsites,hkept,hfirst⟩ := h
  have hsite := site_merged m b
  have hmset := hasSetAction_merged hset
  refine ⟨by simpa using hsites,?_,?_⟩
  · intro c hc
    rcases mem_append.mp hc with hc | hc
    · obtain ⟨n,hn,hrest⟩ := hkept c hc
      by_cases hnm : n=m
      · exact ⟨merged m b,by simp,by grind [sends_subset_merged]⟩
      · exact ⟨n,by grind,hrest⟩
    · exact ⟨merged m b,by simp,by grind [other_sends_merged]⟩
  · intro n hn
    rw [lookup_append_singleton]
    by_cases hnm : n=merged m b
    · obtain ⟨a,ha,haset,hsends⟩ := hfirst m (by simp)
      refine ⟨a,by simp [hnm,ha],by grind,?_⟩
      intro haset' port
      rw [hnm,unset_sends_merged (haset.trans haset'),hsends haset']
    · obtain ⟨a,ha,hrest⟩ := hfirst n (by grind)
      exact ⟨a,by simp [ha],hrest⟩

/-- Before a rewrite the first rule of the site decides. -/
theorem Collected.sends_iff (h : Collected flows out) (hb : b∈flows) :
    ∃ m∈out,∃ a,m.site=b.site∧lookup site b.site flows=some a∧
      hasSetAction a.actions=hasSetAction b.actions∧∀ x∈b.sends,
        x∈m.sends ↔ (hasSetAction b.actions=true → x.1=none → x∈a.sends) := by
  obtain ⟨m,hm,hsite,hset,hsends⟩ := h.kept b hb
  obtain ⟨a,ha,haset,hnone⟩ := h.first m hm
  refine ⟨m,hm,a,hsite,hsite ▸ ha,haset.symm.trans hset,?_⟩
  intro x hx
  by_cases hfree : hasSetAction b.actions=true∧x.1=none
  · obtain ⟨v,port⟩ := x
    obtain ⟨hbset,rfl⟩ := hfree
    simpa [hbset] using hnone (by rw [← haset,hset,hbset]) port
  have hx := hsends x hx fun hbset hv => hfree ⟨hbset,hv⟩
  simp only [hx,true_iff]
  intro hbset hv
  exact absurd ⟨hbset,hv⟩ hfree

variable (flows : List FlowRule)

/-- Each rule has rewrites exactly if the first of its site has. -/
def Uniform : Prop :=
  ∀ b∈flows,∀ a,lookup site b.site flows=some a → hasSetAction a.actions=hasSetAction b.actions

theorem dedupFlows_collected :
    (∃ out : List FlowRule,dedupFlows (flows.map some)=some (out.map some)∧Collected flows out)∨
      dedupFlows (flows.map some)=none∧¬Uniform flows := by
  induction flows using reverseRecOn with
  | nil => exact .inl ⟨[],rfl,by simp,by simp,by simp⟩
  | append_singleton flows b ih =>
    have hsnoc : dedupFlows ((flows++[b]).map some)=
        (dedupFlows (flows.map some)).bind fun l => dedupStep l (some b) := by
      simp [dedupFlows]
    rcases ih with ⟨out,hout,hcol⟩ | ⟨hnone,hmixed⟩
    · rw [hsnoc,hout,Option.bind_some,dedupStep]
      by_cases hb : b.site∈out.map site
      · obtain ⟨m,hm,hsite⟩ := mem_map.mp hb
        obtain ⟨l,l',rfl⟩ := append_of_mem hm
        rw [mergeInto_present hcol.sites hsite]
        split_ifs with hset
        · exact .inl ⟨_,by simp,hcol.merge hsite hset⟩
        right
        refine ⟨rfl,?_⟩
        intro huni
        obtain ⟨a,ha,haset,-⟩ := hcol.first m hm
        have hfirst := huni b (by simp) a (by simp [lookup_append_singleton,← hsite,ha])
        exact hset (haset.trans hfirst)
      · rw [mergeInto_absent hb]
        exact .inl ⟨out++[b],by simp,hcol.snoc hb⟩
    · right
      rw [hsnoc,hnone]
      refine ⟨rfl,?_⟩
      intro huni
      apply hmixed
      intro c hc a ha
      exact huni c (by simp [hc]) a (by simp [lookup_append_singleton,ha])

/-- `_dedup_flows` is to keep what each rule sends. -/
def KeepsOutputs : Prop :=
  ∃ out : List FlowRule,dedupFlows (flows.map some)=some (out.map some)∧(out.map site).Nodup∧
    ∀ b∈flows,∃ m∈out,m.site=b.site∧∀ x∈b.sends,x∈m.sends

/-- Exactly if rules of one site agree about rewrites, and what one sends before its first the first
one sends before its own. -/
theorem dedupFlows_keepsOutputs_iff (flows : List FlowRule) :
    KeepsOutputs flows ↔ ∀ b∈flows,∀ a,lookup site b.site flows=some a →
      hasSetAction a.actions=hasSetAction b.actions∧
      (hasSetAction b.actions=true → ∀ port,(none,port)∈b.sends → (none,port)∈a.sends) := by
  rcases dedupFlows_collected flows with ⟨out,hout,hcol⟩ | ⟨hnone,hmixed⟩
  · constructor
    · intro ⟨out',hout',hsites,hkeeps⟩ b hb a ha
      have hsame : out'=out := by
        rw [hout,Option.some.injEq] at hout'
        exact (map_inj_right fun _ _ => Option.some.inj).mp hout'.symm
      subst hsame
      obtain ⟨m,hm,a',hsite,ha',hset,hiff⟩ := hcol.sends_iff hb
      obtain ⟨m',hm',hsite',hsends⟩ := hkeeps b hb
      have hmm : m'=m := inj_on_of_nodup_map hsites hm' hm (hsite'.trans hsite.symm)
      rw [ha,Option.some.injEq] at ha'
      subst hmm ha'
      exact ⟨hset,fun hbset port hp => (hiff _ hp).mp (hsends _ hp) hbset rfl⟩
    · intro hcond
      refine ⟨out,hout,hcol.sites,?_⟩
      intro b hb
      obtain ⟨m,hm,a,hsite,ha,hset,hiff⟩ := hcol.sends_iff hb
      refine ⟨m,hm,hsite,?_⟩
      intro ⟨v,port⟩ hx
      rw [hiff _ hx]
      intro hbset hv
      subst hv
      exact (hcond b hb a ha).2 hbset port hx
  · constructor
    · intro ⟨out,hout,hrest⟩
      simp [hnone] at hout
    · intro h
      exact absurd (fun b hb a ha => (h b hb a ha).1) hmixed

/-- The untagged copy gets the tag of the first rule. -/
theorem dedupFlows_changes_tag : ¬KeepsOutputs [{ actions := [.setVlanId 7,.output 1],dpid := 1 },
      { actions := [.output 2,.setVlanId 8,.output 3],dpid := 1 }] := by
  intro ⟨out,hout,_,hkeeps⟩
  have hdedup : out.map some=[some
      { actions := [.setVlanId 7,.output 1,.output 2,.setVlanId 8,.output 3],dpid := 1 }] := by
    rw [← Option.some.injEq,← hout]
    decide
  obtain ⟨m,hm,-,hsends⟩ := hkeeps { actions := [.output 2,.setVlanId 8,.output 3],dpid := 1 } (by simp)
  have hin := mem_map_of_mem (f := some) hm
  rw [hdedup,mem_singleton,Option.some.injEq] at hin
  subst hin
  exact absurd (hsends (none,2) (by decide)) (by decide)

end OESS.OpenFlow
