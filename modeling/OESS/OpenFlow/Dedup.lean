import OESS.OpenFlow.CircuitFlows
import OESS.Framework.Grouping

namespace OESS.OpenFlow

open Grouping List

@[ext] structure PortFrame (Node : Type) where
  node : Node
  vlan : Int
  port : Nat
  deriving DecidableEq

variable {Node : Type} [DecidableEq Node] (env : Env Node)

/-- The rule that sends a copy from one port and VLAN to each of `outs`. -/
def hopRule (k : PortFrame Node) (outs : List (Int × Nat)) : FlowRule :=
  { fields := { dlVlan := some k.vlan, inPort := some k.port }
    actions := FlowRule.pairActions outs
    dpid := env.dpidLookup k.node }

def groupRules (g : List (PortFrame Node × List (Int × Nat))) : Rules :=
  g.map fun x => some (hopRule env x.1 x.2)

@[simp] theorem groupRules_nil : groupRules env []=[] := rfl

@[simp] theorem groupRules_cons (x : PortFrame Node × List (Int × Nat))
    (g : List (PortFrame Node × List (Int × Nat))) :
    groupRules env (x::g)=some (hopRule env x.1 x.2)::groupRules env g := rfl

theorem groupRules_append (g h : List (PortFrame Node × List (Int × Nat))) :
    groupRules env (g++h)=groupRules env g++groupRules env h := by
  simp [groupRules]

theorem hopRule_sameKey (k l : PortFrame Node) (xs ys : List (Int × Nat)) :
    ((hopRule env k xs).dpid=(hopRule env l ys).dpid &&
      (hopRule env k xs).compareMatch (hopRule env l ys))=decide (k=l) := by
  rw [Bool.eq_iff_iff,Bool.and_eq_true,decide_eq_true_eq,decide_eq_true_eq,
    FlowRule.compareMatch_iff,PortFrame.ext_iff]
  simp [hopRule,env.dpidLookup_injective.eq_iff]
  tauto

variable (k : PortFrame Node) {g : List (PortFrame Node × List (Int × Nat))} (v : Int × Nat)

theorem mergeInto_of_not_mem (outs : List (Int × Nat)) (hk : k∉g.map Prod.fst) :
    mergeInto (hopRule env k outs) (groupRules env g)=some (groupRules env g,false) := by
  induction g with
  | nil => rfl
  | cons x g ih =>
    have hne : ¬x.1=k := fun h => hk (by simp [h])
    have hrest : k∉g.map Prod.fst := fun h => hk (by simp [h])
    rw [groupRules_cons,mergeInto,hopRule_sameKey,ih hrest]
    simp [hne]

theorem mergeInto_of_mem (hnd : (g.map Prod.fst).Nodup) (hne : ∀ x∈g,x.2≠[])
    (hk : k∈g.map Prod.fst) :
    mergeInto (hopRule env k [v]) (groupRules env g)=
      some (groupRules env (insertGroup k v g),true) := by
  induction g with
  | nil => cases hk
  | cons x g ih =>
    obtain ⟨l,vs⟩ := x
    simp only [map_cons,nodup_cons] at hnd
    by_cases h : l=k
    · have hvs : vs≠[] := hne (l,vs) (by simp)
      have hmerge : (hopRule env l vs).mergeActions (hopRule env k [v])=
          some (hopRule env l (if v∈vs then vs else vs++[v]),true) :=
        FlowRule.mergeActions_pair _ _ v vs hvs rfl rfl
      rw [groupRules_cons,mergeInto,hopRule_sameKey,hmerge,
        mergeInto_of_not_mem env k [v] (h ▸ hnd.1)]
      by_cases hv : v∈vs <;> simp [h,hv,insertGroup]
    · have hg : k∈g.map Prod.fst := by
        rcases mem_cons.mp hk with hk | hk
        · exact absurd hk.symm h
        · exact hk
      rw [groupRules_cons,mergeInto,hopRule_sameKey,ih hnd.2 (fun x hx => hne x (by simp [hx])) hg]
      simp [h,insertGroup]

theorem dedupStep_hop (hnd : (g.map Prod.fst).Nodup) (hne : ∀ x∈g,x.2≠[]) :
    dedupStep (groupRules env g) (some (hopRule env k [v]))=
      some (groupRules env (insertGroup k v g)) := by
  by_cases hk : k∈g.map Prod.fst
  · simp [dedupStep,mergeInto_of_mem env k v hnd hne hk]
  · rw [insertGroup_of_not_mem k v g hk,groupRules_append]
    simp [dedupStep,mergeInto_of_not_mem env k [v] hk]

/-- For each port and VLAN, the copies of the rules. -/
theorem dedupFlows_hops (l : List (PortFrame Node × (Int × Nat))) :
    dedupFlows (l.map fun x => some (hopRule env x.1 [x.2]))=
      some (groupRules env (groupPairs l)) := by
  induction l using reverseRecOn with
  | nil => rfl
  | append_singleton l x ih =>
    have hg := groupPairs_grouped l
    have hstep := dedupStep_hop env x.1 x.2 hg.keys fun y hy => (hg.groups y hy).2
    rw [dedupFlows] at ih ⊢
    rw [map_append,foldlM_append,ih,groupPairs_append]
    simpa using hstep

theorem dedupFlows_groups (hnd : (g.map Prod.fst).Nodup) :
    dedupFlows (groupRules env g)=some (groupRules env g) := by
  induction g using reverseRecOn with
  | nil => rfl
  | append_singleton g x ih =>
    simp only [map_append,nodup_append,map_cons,map_nil,mem_singleton] at hnd
    have hx : x.1∉g.map Prod.fst := fun h => hnd.2.2 x.1 h x.1 rfl rfl
    have hg := ih hnd.1
    rw [dedupFlows] at hg ⊢
    rw [groupRules_append,foldlM_append,hg]
    simp [dedupStep,mergeInto_of_not_mem env x.1 x.2 hx]

end OESS.OpenFlow
