import OESS.OpenFlow.SwitchDiff

namespace OESS.OpenFlow

open List Option Function

/-- Not a rule that matches on an Ethernet type. -/
def NoType (x : Option FlowRule) : Prop := ∀ r∈x,r.fields.dlType=none

def Untyped (rules : Rules) : Prop := ∀ x∈rules,NoType x

variable {α : Type} {l : List α}

@[simp] theorem untyped_nil : Untyped [] := forall_mem_nil _

@[simp] theorem untyped_cons {x : Option FlowRule} {a : Rules} :
    Untyped (x::a) ↔ NoType x∧Untyped a := forall_mem_cons

@[simp] theorem untyped_append {a b : Rules} : Untyped (a++b) ↔ Untyped a∧Untyped b :=
  forall_mem_append

@[simp] theorem untyped_map {f : α → Option FlowRule} :
    Untyped (l.map f) ↔ ∀ a∈l,NoType (f a) := forall_mem_map

@[simp] theorem untyped_flatMap {f : α → Rules} :
    Untyped (l.flatMap f) ↔ ∀ a∈l,Untyped (f a) := forall_mem_flatMap

theorem noType_new {logged : Bool} {r : FlowRule} (hr : r.fields.dlType=none) :
    NoType (FlowRule.new logged r) := by
  intro s hs
  rwa [FlowRule.new_eq_some hs]

theorem mergeActions_fields {r s t : FlowRule} {b : Bool} (h : r.mergeActions s=some (t,b)) :
    t.fields=r.fields := by
  simp only [FlowRule.mergeActions] at h
  split_ifs at h <;> simp only [some.injEq,Prod.mk.injEq] at h <;> rw [← h.1]

theorem mergeInto_fields {flow : FlowRule} {l l' : Rules} {b : Bool}
    (h : mergeInto flow l=some (l',b)) :
    l'.map (Option.map FlowRule.fields)=l.map (Option.map FlowRule.fields) := by
  induction l generalizing l' b with
  | nil =>
    cases h
    rfl
  | cons s l ih =>
    cases s with
    | none =>
      obtain ⟨m,hm,h⟩ := Option.bind_eq_some_iff.mp h
      cases h
      simp [ih hm]
    | some k =>
      rw [mergeInto] at h
      split_ifs at h
      · obtain ⟨k',hk,h⟩ := Option.bind_eq_some_iff.mp h
        obtain ⟨m,hm,h⟩ := Option.bind_eq_some_iff.mp h
        cases h
        simp [ih hm,mergeActions_fields hk]
      · obtain ⟨m,hm,h⟩ := Option.bind_eq_some_iff.mp h
        cases h
        simp [ih hm]

theorem Untyped.of_fields {l l' : Rules} (hl : Untyped l)
    (h : l'.map (Option.map FlowRule.fields)=l.map (Option.map FlowRule.fields)) : Untyped l' := by
  intro x hx r hr
  have hmem : some r.fields∈l.map (Option.map FlowRule.fields) :=
    h ▸ mem_map.mpr ⟨x,hx,by rw [hr,map_some]⟩
  obtain ⟨s,hs,hsr⟩ := mem_map.mp hmem
  obtain ⟨s,rfl,hfields⟩ := map_eq_some_iff.mp hsr
  exact hfields ▸ hl _ hs s rfl

theorem dedupFlows_untyped {l l' : Rules} (h : dedupFlows l=some l') (hl : Untyped l) :
    Untyped l' := by
  refine Loops.foldlM_some_invariant (I := Untyped) ?_ untyped_nil h
  intro s hs m m' hm hstep
  have hsU : Untyped [s] := by simpa using hl s hs
  cases s with
  | none =>
    cases hstep
    exact untyped_append.mpr ⟨hm,hsU⟩
  | some flow =>
    obtain ⟨⟨n,b⟩,hn,hstep⟩ := Option.bind_eq_some_iff.mp hstep
    cases hstep
    have hnU := hm.of_fields (mergeInto_fields hn)
    split_ifs
    · exact hnU
    · exact untyped_append.mpr ⟨hnU,hsU⟩

section Produced

variable {Node : Type} [DecidableEq Node] (env : Env Node)

/-- The circuit's rules on one switch; an undefined one stops the writer. -/
def cachedFlows (dpid : Nat) (d : Details Node) : Option (List FlowRule) := do
  let rules ← circuitFlows env d
  let rules ← rules.mapM id
  some (rules.filter (·.dpid=dpid))

def isDeployed (state : CircuitState) : Bool := state=.active || state=.looped || state=.deploying

def discoveryRule (dpid dlType : Nat) (discoveryVlan : Option Int) : Option FlowRule :=
  FlowRule.new env.logged
    { fields := { dlType := some dlType, dlVlan := some (discoveryVlan.getD untagged) }
      actions := [.output 65533]
      dpid := dpid }

/-- The command list of `_do_diff`. -/
def allCommands (dpid : Nat) (discoveryVlan : Option Int) (defaultForward : Bool)
    (ckts : List (Details Node)) : Option (List FlowRule) := do
  let flows ← (ckts.filter fun d => isDeployed d.state).mapM (cachedFlows env dpid)
  if defaultForward then do
    let lldp ← discoveryRule env dpid 35020 discoveryVlan
    let fvd ← discoveryRule env dpid 34998 discoveryVlan
    some (flows.flatten++[lldp,fvd])
  else some flows.flatten

/-- Every list the generators fill is free of Ethernet types. -/
def Flows.AllUntyped (f : Flows) : Prop :=
  ∀ path,Untyped (f.path path)∧Untyped (f.endpoint path)∧Untyped (f.staticPath path)∧
    Untyped (f.staticEndpoint path)

variable {rules : Rules} {f : Flows}

theorem untyped_update {lists : PathType → Rules} (hl : ∀ p,Untyped (lists p)) (path : PathType)
    (hr : Untyped rules) : ∀ p,Untyped (update lists path rules p) := by
  intro p
  by_cases hp : p=path
  · subst p
    rwa [update_self]
  · rw [update_of_ne hp]
    exact hl p

theorem Flows.AllUntyped.pushPath (hf : f.AllUntyped) (path : PathType) (hr : Untyped rules) :
    (f.pushPath path rules).AllUntyped := by
  intro p
  have h := untyped_update (fun p => (hf p).1) path (untyped_append.mpr ⟨(hf path).1,hr⟩) p
  exact ⟨h,(hf p).2⟩

theorem Flows.AllUntyped.pushEndpoint (hf : f.AllUntyped) (path : PathType) (hr : Untyped rules) :
    (f.pushEndpoint path rules).AllUntyped := by
  intro p
  have h := untyped_update (fun p => (hf p).2.1) path (untyped_append.mpr ⟨(hf path).2.1,hr⟩) p
  exact ⟨(hf p).1,h,(hf p).2.2⟩

variable (d : Details Node)

@[simp] theorem noType_forwardRule (node : Node) (vlan outVlan : Int) (port outPort : Nat) :
    NoType (forwardRule env node vlan port outVlan outPort) := noType_new rfl

variable (path : PathType)

theorem generatePathFlows_untyped : Untyped (generatePathFlows env d path) := by
  simp only [generatePathFlows,untyped_append,untyped_flatMap]
  refine ⟨fun node _ => ?_,by simp⟩
  split_ifs <;> simp

theorem generateLoopbackEndpointFlows_untyped (hf : f.AllUntyped) :
    (generateLoopbackEndpointFlows env d path f).AllUntyped := by
  unfold generateLoopbackEndpointFlows
  dsimp only
  split_ifs
  · exact hf.pushEndpoint path (untyped_map.mpr fun _ _ => noType_new rfl)
  · split
    · exact hf
    refine foldlRecOn (motive := fun f : Flows => f.AllUntyped) _ _ hf ?_
    intro f hf x _
    have hout {g : PathEntry → Option FlowRule} (hg : ∀ y,NoType (g y)) : Untyped [x.2.bind g] := by
      cases x.2 with
      | none => simp [NoType]
      | some y => simpa using hg y
    exact ((hf.pushEndpoint _ (hout (by simp))).pushEndpoint _ (hout (by simp))).pushEndpoint _
      (hout (by simp))

theorem generateEndpointFlows_untyped (hf : f.AllUntyped) :
    (generateEndpointFlows env d path f).AllUntyped := by
  unfold generateEndpointFlows
  split_ifs
  · exact generateLoopbackEndpointFlows_untyped env d path hf
  · exact hf.pushEndpoint path (by simp [generateEndpointRules])

theorem staticMacRules_untyped (node : Node) (e : Endpoint Node) :
    ∀ x∈staticMacRules env d path node e,NoType x.2 := by
  unfold staticMacRules
  dsimp only
  split
  · split
    · simp
    · simp only [forall_mem_flatMap,List.forall_mem_map]
      exact fun _ _ _ _ => noType_new rfl
  · simp only [forall_mem_flatMap,List.forall_mem_map]
    exact fun _ _ _ _ => noType_new rfl

theorem generateStaticMacPathFlows_untyped (hf : f.AllUntyped) :
    (generateStaticMacPathFlows env d path f).AllUntyped := by
  intro p
  refine ⟨(hf p).1,(hf p).2.1,
    untyped_update (fun p => (hf p).2.2.1) path (untyped_append.mpr ⟨(hf path).2.2.1,?_⟩) p,
    untyped_update (fun p => (hf p).2.2.2) path (untyped_append.mpr ⟨(hf path).2.2.2,?_⟩) p⟩
  all_goals
    rw [untyped_map]
    intro x hx
    simp only [mem_filter,mem_flatMap] at hx
    obtain ⟨⟨node,-,_,-,e,-,hx⟩,-⟩ := hx
    exact staticMacRules_untyped env d path node e x hx

omit [DecidableEq Node] in
theorem onPaths_untyped {gen : PathType → Flows → Flows}
    (hgen : ∀ path f,f.AllUntyped → (gen path f).AllUntyped) (hf : f.AllUntyped) :
    (onPaths d gen f).AllUntyped := by
  unfold onPaths
  split_ifs
  · exact hgen _ _ (hgen _ _ hf)
  · exact hgen _ _ hf

theorem generateFlows_untyped : (generateFlows env d).AllUntyped := by
  have hempty : ({} : Flows).AllUntyped := by simp [Flows.AllUntyped]
  refine onPaths_untyped d (fun path f => generateEndpointFlows_untyped env d path) ?_
  refine onPaths_untyped d (fun path f hf => hf.pushPath path (generatePathFlows_untyped env d path)) ?_
  split_ifs
  · exact onPaths_untyped d (fun path f => generateStaticMacPathFlows_untyped env d path) hempty
  · exact hempty

theorem dedupLists_untyped {lists out : PathType → Rules} (h : dedupLists lists=some out)
    (hl : ∀ p,Untyped (lists p)) : ∀ p,Untyped (out p) := by
  simp only [dedupLists,bind_eq_bind,bind_eq_some_iff,some.injEq] at h
  obtain ⟨primary,hp,backup,hb,rfl⟩ := h
  exact untyped_update (untyped_update hl _ (dedupFlows_untyped hp (hl _))) _
    (dedupFlows_untyped hb (hl _))

theorem dedup_untyped {g : Flows} (h : f.dedup=some g) (hf : f.AllUntyped) : g.AllUntyped := by
  simp only [Flows.dedup,bind_eq_bind,bind_eq_some_iff,some.injEq] at h
  obtain ⟨path,hp,endpoint,he,staticPath,hsp,staticEndpoint,hse,rfl⟩ := h
  intro p
  exact ⟨dedupLists_untyped hp (fun p => (hf p).1) p,dedupLists_untyped he (fun p => (hf p).2.1) p,
    dedupLists_untyped hsp (fun p => (hf p).2.2.1) p,
    dedupLists_untyped hse (fun p => (hf p).2.2.2) p⟩

theorem generateLoopNodeFlows_untyped (loopNode : Nat) (hf : f.AllUntyped) :
    (generateLoopNodeFlows env d path loopNode f).AllUntyped := by
  refine Flows.AllUntyped.pushEndpoint (hf.pushPath path ?_) path ?_
  · simp only [untyped_flatMap,untyped_map]
    exact fun _ _ _ _ => noType_new rfl
  · exact untyped_map.mpr fun _ _ => noType_new rfl

theorem circuitFlows_untyped (h : circuitFlows env d=some rules) : Untyped rules := by
  have hcreate {f : Flows} (hf : createFlows env d=some f) : f.AllUntyped := by
    unfold createFlows at hf
    split_ifs at hf
    · rw [← some.inj hf]
      simp [Flows.AllUntyped]
    simp only [bind_eq_bind,bind_eq_some_iff,some.injEq] at hf
    obtain ⟨g,hg,rfl⟩ := hf
    have hgU := dedup_untyped hg (generateFlows_untyped env d)
    unfold addLoop
    split
    · split_ifs
      · exact generateLoopNodeFlows_untyped env d _ _ (generateLoopNodeFlows_untyped env d _ _ hgU)
      · exact generateLoopNodeFlows_untyped env d _ _ hgU
    · exact hgU
  obtain ⟨f,hf,hget⟩ := bind_eq_some_iff.mp h
  have hfU := hcreate hf
  rw [getFlows] at hget
  split at hget
  · cases hget
    exact untyped_nil
  apply dedupFlows_untyped hget
  simp [(hfU _).1,(hfU _).2.1,(hfU _).2.2.1,(hfU _).2.2.2]

theorem allCommands_not_traceroute {dpid : Nat} {discoveryVlan : Option Int} {defaultForward : Bool}
    {ckts : List (Details Node)} {commands : List FlowRule}
    (h : allCommands env dpid discoveryVlan defaultForward ckts=some commands) :
    ∀ c∈commands,c.isTraceroute=false := by
  have hcached {flows : List (List FlowRule)}
      (hf : (ckts.filter fun d => isDeployed d.state).mapM (cachedFlows env dpid)=some flows) :
      ∀ c∈flows.flatten,c.isTraceroute=false := by
    intro c hc
    obtain ⟨rules,hrules,hcr⟩ := mem_flatten.mp hc
    obtain ⟨d,-,hd⟩ := Loops.mem_of_mapM hf hrules
    simp only [cachedFlows,bind_eq_bind,bind_eq_some_iff,some.injEq] at hd
    obtain ⟨all,hall,defined,hdef,rfl⟩ := hd
    obtain ⟨o,ho,hoc⟩ := Loops.mem_of_mapM hdef (mem_filter.mp hcr).1
    have hnone := circuitFlows_untyped env d hall o ho c hoc
    simp [FlowRule.isTraceroute,hnone]
  have hdiscovery {dlType : Nat} {c : FlowRule} (hne : dlType≠tracerouteType)
      (hd : discoveryRule env dpid dlType discoveryVlan=some c) : c.isTraceroute=false := by
    rw [FlowRule.isTraceroute,FlowRule.new_eq_some hd]
    simp [hne]
  simp only [allCommands,bind_eq_bind,bind_eq_some_iff] at h
  obtain ⟨flows,hf,h⟩ := h
  intro c hc
  split_ifs at h
  · simp only [bind_eq_some_iff,some.injEq] at h
    obtain ⟨lldp,hlldp,fvd,hfvd,rfl⟩ := h
    simp only [mem_append,mem_cons,not_mem_nil,or_false] at hc
    rcases hc with hc | rfl | rfl
    · exact hcached hf c hc
    · exact hdiscovery (by decide) hlldp
    · exact hdiscovery (by decide) hfvd
  · rw [← some.inj h] at hc
    exact hcached hf c hc

end Produced

end OESS.OpenFlow
