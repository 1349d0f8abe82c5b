import OESS.OpenFlow.Dedup

namespace OESS.OpenFlow

open Grouping List

/-- What a rule may match besides port and VLAN. -/
structure Header where
  (dlType dlDst : Nat)

/-- Every key that is sent has the frame's value. -/
def Match.admits (m : Match) (hdr : Header) (vlan : Int) (port : Nat) : Bool :=
  m.inPort.all (·=port) && m.sent.dlVlan.all (·=vlan) &&
    m.dlType.all (·=hdr.dlType) && m.dlDst.all (·=hdr.dlDst)

/-- The first rule of the highest priority. -/
def highest : List FlowRule → Option FlowRule
  | [] => none
  | r::rs =>
      match highest rs with
      | none => some r
      | some s => if r.priority<s.priority then some s else some r

/-- A VLAN of -1 or 65535 strips the tag. -/
def runActions : Int → List Action → List (Int × Nat)
  | _,[] => []
  | _,.setVlanId v::actions => runActions (FlowRule.standardVlan v) actions
  | vlan,.output port::actions => (vlan,port)::runActions vlan actions

section Network

variable {Node : Type} [DecidableEq Node] (env : Env Node) (rules : Rules)

/-- `undef` rules are never installed. -/
def matching (hdr : Header) (k : PortFrame Node) : List FlowRule :=
  (rules.filterMap id).filter fun r =>
    r.dpid=env.dpidLookup k.node && r.fields.admits hdr k.vlan k.port

def switchOutput (hdr : Header) (k : PortFrame Node) : List (PortFrame Node) :=
  match highest (matching env rules hdr k) with
  | none => []
  | some r => (runActions k.vlan r.actions).map fun x => ⟨k.node,x.1,x.2⟩

variable (links : List (Link Node))

def farEnd (node : Node) (port : Nat) : Option (Node × Nat) :=
  links.findSome? fun l =>
    if l.nodeA=node && l.portNoA=port then some (l.nodeZ,l.portNoZ)
    else if l.nodeZ=node && l.portNoZ=port then some (l.nodeA,l.portNoA)
    else none

def arrive (f : PortFrame Node) : Option (PortFrame Node) :=
  (farEnd links f.node f.port).map fun x => ⟨x.1,f.vlan,x.2⟩

/-- Copies about to enter a switch, and those gone. -/
structure Traffic (Node : Type) where
  (inFlight left : List (PortFrame Node))
  deriving DecidableEq

/-- Each copy passes a switch and the link behind it. -/
def Traffic.step (hdr : Header) (t : Traffic Node) : Traffic Node :=
  let sent := t.inFlight.flatMap (switchOutput env rules hdr)
  ⟨sent.filterMap (arrive links),t.left++sent.filter fun f => (arrive links f).isNone⟩

theorem runActions_pairs (vlan : Int) (ps : List (Int × Nat)) :
    runActions vlan (FlowRule.pairActions ps)=ps.map fun x => (FlowRule.standardVlan x.1,x.2) := by
  induction ps generalizing vlan with
  | nil => rfl
  | cons x ps ih => simp [runActions,ih]

variable (hdr : Header) (k : PortFrame Node) (g : List (PortFrame Node × List (Int × Nat)))

theorem hopRule_admits (k l : PortFrame Node) (outs : List (Int × Nat)) (hl : l.vlan≠vlanWildcard) :
    ((hopRule env l outs).dpid=env.dpidLookup k.node &&
      (hopRule env l outs).fields.admits hdr k.vlan k.port)=decide (l=k) := by
  rw [Bool.eq_iff_iff,Bool.and_eq_true,decide_eq_true_eq,decide_eq_true_eq,PortFrame.ext_iff]
  simp [hopRule,Match.admits,Match.sent,hl,env.dpidLookup_injective.eq_iff]
  tauto

theorem matching_groups (hv : ∀ x∈g,x.1.vlan≠vlanWildcard) : matching env (groupRules env g) hdr k=
      (g.filter (·.1=k)).map fun x => hopRule env x.1 x.2 := by
  have hid : (groupRules env g).filterMap id=g.map fun x => hopRule env x.1 x.2 := by
    simp [groupRules]
  rw [matching,hid,filter_map]
  congr 1
  apply filter_congr
  intro x hx
  exact hopRule_admits env hdr k x.1 x.2 (hv x hx)

theorem filter_key_eq {K V : Type} [DecidableEq K] (g : List (K × V)) (k : K)
    (hk : (g.map Prod.fst).Nodup) : (g.filter (·.1=k))=(g.find? (·.1=k)).toList := by
  induction g with
  | nil => rfl
  | cons x g ih =>
    simp only [map_cons,nodup_cons] at hk
    by_cases hx : x.1=k
    · have hrest : (g.filter (·.1=k))=[] := by
        rw [filter_eq_nil_iff]
        intro y hy
        simp only [decide_eq_true_eq]
        intro h
        exact hk.1 (hx.trans h.symm ▸ mem_map_of_mem hy)
      simp [hx,hrest]
    · simp [hx,ih hk.2]

theorem switchOutput_groups (hk : (g.map Prod.fst).Nodup) (hv : ∀ x∈g,x.1.vlan≠vlanWildcard)
    (ho : ∀ x∈g,∀ y∈x.2,y.1≠ofUntagged) : switchOutput env (groupRules env g) hdr k=
      (groupAt g k).map fun x => ⟨k.node,x.1,x.2⟩ := by
  rw [switchOutput,matching_groups env hdr k g hv,filter_key_eq g k hk,groupAt]
  cases hf : g.find? (·.1=k) with
  | none => simp [highest]
  | some x =>
    have hx : x∈g := mem_of_find?_eq_some hf
    have hstd : ∀ y∈x.2,FlowRule.standardVlan y.1=y.1 := by
      intro y hy
      exact if_neg (ho x hx y hy)
    have hmap : (x.2.map fun y => (FlowRule.standardVlan y.1,y.2))=x.2 := by
      conv_rhs => rw [← map_id x.2]
      apply map_congr_left
      intro y hy
      rw [hstd y hy]
      rfl
    simp only [Option.toList_some,map_cons,map_nil,highest,hopRule,runActions_pairs,hmap,
      Option.map_some,Option.getD_some]

theorem Traffic.step_perm (links : List (Link Node)) (hdr : Header)
    (t : Traffic Node) (fs : List (PortFrame Node)) (h : t.inFlight.Perm fs) :
    (t.step env rules links hdr).inFlight.Perm
        ((fs.flatMap (switchOutput env rules hdr)).filterMap (arrive links))∧
      (t.step env rules links hdr).left.Perm
        (t.left++(fs.flatMap (switchOutput env rules hdr)).filter fun f => (arrive links f).isNone) := by
  have hsent := h.flatMap_right (switchOutput env rules hdr)
  exact ⟨hsent.filterMap _,(hsent.filter _).append_left _⟩

end Network

end OESS.OpenFlow
