import OESS.OpenFlow.RuleSpecs

namespace OESS.OpenFlow

open Grouping List Function

variable {Node : Type} [DecidableEq Node] (env : Env Node) (d : Details Node)

namespace Details

def active : PathType := if d.activePath=.primary then .primary else .backup

def standby : PathType := if d.activePath=.primary then .backup else .primary

def activeLinks : List (Link Node) := d.pathLinks d.active

end Details

def InPortRange (port : Nat) : Prop := 0<port∧port≤65535

def InVlanRange (vlan : Int) : Prop := 0<vlan∧vlan<4096

/-- No static MACs, and the active path is a tree that joins the endpoints. Two paths on an
interface use different internal VLANs there. -/
structure TreeCircuit : Prop where
  notLoopback : isLoopback d.endpoints=false
  noStaticMac : d.staticMac=false
  forest : IsForest d.activeLinks
  connected : ∀ e∈d.endpoints,∀ f∈d.endpoints,(linkGraph d.activeLinks).Reachable e.node f.node
  endpointPorts : (d.endpoints.map fun e => (e.node,e.portNo)).Nodup
  notTrunk : ∀ e∈d.endpoints,(e.node,e.portNo)∉linkPorts d.activeLinks
  ownVlan : ∀ x∈d.pathDarts .primary,∀ y∈d.pathDarts .backup,x.inbound≠y.inbound
  linkRange : ∀ path,path≠.tertiary → ∀ x∈d.pathDarts path,InPortRange x.srcPort∧InVlanRange x.srcVlan
  endpointRange : ∀ e∈d.endpoints,InPortRange e.portNo∧(e.tag=untagged∨InVlanRange e.tag)

/-- The circuit has rules, it is not looped at a node of its paths or endpoints, it runs on a path it
has, endpoints on one node are local, and none uses a port and VLAN of the standby path. -/
structure InService : Prop where
  deployed : d.state≠.reserved∧d.state≠.provisioned
  notLooped : d.state=.looped → ∀ n∈d.loopNode,
    (∀ path,∀ node∈(d.pathDict path).nodes,env.nodeIdLookup node≠n)∧
      ∀ e∈d.endpoints,e.isLocal=true → env.nodeIdLookup e.node≠n
  hasActive : d.activePath=.primary∨d.backupLinks≠[]
  localPeers : ∀ e∈d.endpoints,∀ f∈d.endpoints,e.node=f.node → e≠f → e.isLocal=true
  offStandby : ∀ e∈d.endpoints,∀ y∈d.pathDarts d.standby,e.frame≠y.inbound

structure ValidSpec (x : RuleSpec Node) : Prop where
  vlan : x.1.vlan=untagged∨InVlanRange x.1.vlan
  port : InPortRange x.1.port
  outVlan : x.2.1=untagged∨InVlanRange x.2.1
  outPort : InPortRange x.2.2

def circuitSpecs : List (RuleSpec Node) :=
  pathSpecs env d .primary++pathSpecs env d .backup++endpointSpecs d d.active

def circuitGroups : List (PortFrame Node × List (Int × Nat)) :=
  groupPairs (pathSpecs env d .primary)++groupPairs (pathSpecs env d .backup)++
    groupPairs (endpointSpecs d d.active)

theorem specRule_valid {x : RuleSpec Node} (hx : ValidSpec x) :
    specRule env x=some (hopRule env x.1 [x.2]) := by
  obtain ⟨⟨node,vlan,port⟩,out,outPort⟩ := x
  obtain ⟨hv,hp,-,ho⟩ := hx
  dsimp only [InPortRange,InVlanRange,untagged] at hv hp ho
  have hvlan : FlowRule.validateVlanId vlan=true := by
    rcases hv with rfl | hv
    · rfl
    · simp [FlowRule.validateVlanId,hv]
  have hport : FlowRule.validatePort env.logged port=true := by simp [FlowRule.validatePort,hp]
  have houtPort : FlowRule.validatePort env.logged outPort=true := by
    simp [FlowRule.validatePort,ho]
  have hstd : FlowRule.standardVlan vlan=vlan := by
    apply if_neg
    simp only [ofUntagged]
    omega
  simp [specRule,forwardRule,FlowRule.new,FlowRule.validateFlow,FlowRule.validateMatch,
    FlowRule.validateActions,FlowRule.validatePriority,hvlan,hport,houtPort,hstd,hopRule]

theorem dedup_specs (specs : List (RuleSpec Node)) (hs : ∀ x∈specs,ValidSpec x) :
    dedupFlows (specs.map (specRule env))=some (groupRules env (groupPairs specs)) := by
  rw [← dedupFlows_hops]
  congr 1
  apply map_congr_left
  intro x hx
  exact specRule_valid env (hs x hx)

variable {d}

variable {path : PathType} {x : Dart Node} {e : Endpoint Node}

theorem TreeCircuit.dartRange (h : TreeCircuit d) (hp : path≠.tertiary) (hx : x∈d.pathDarts path) :
    InPortRange x.srcPort∧InVlanRange x.tgtVlan :=
  ⟨(h.linkRange path hp x hx).1,(h.linkRange path hp x.rev (rev_mem_darts hx)).2⟩

theorem TreeCircuit.pathSpecs_valid (h : TreeCircuit d) (hp : path≠.tertiary) :
    ∀ x∈pathSpecs env d path,ValidSpec x := by
  intro s hs
  obtain ⟨k,v⟩ := s
  obtain ⟨x,hx,rfl,hv⟩ := (mem_pathSpecs env d path k v).mp hs
  have hin := h.linkRange path hp x hx
  rcases hv with ⟨y,hy,-,-,rfl⟩ | ⟨e,he,-,rfl⟩
  · have hout := h.dartRange hp hy
    exact ⟨.inr hin.2,hin.1,.inr hout.2,hout.1⟩
  · have hout := h.endpointRange e he
    exact ⟨.inr hin.2,hin.1,hout.2,hout.1⟩

theorem TreeCircuit.endpointSpecs_valid (h : TreeCircuit d) (hp : path≠.tertiary) :
    ∀ x∈endpointSpecs d path,ValidSpec x := by
  intro s hs
  obtain ⟨k,v⟩ := s
  obtain ⟨e,he,rfl,hv⟩ := (mem_endpointSpecs d path k v).mp hs
  have hin := h.endpointRange e he
  rcases hv with ⟨o,ho,rfl⟩ | ⟨y,hy,-,rfl⟩
  · have hout := h.endpointRange o ((mem_interswitchPeers d e o).mp ho).1
    exact ⟨hin.2,hin.1,hout.2,hout.1⟩
  · have hout := h.dartRange hp hy
    exact ⟨hin.2,hin.1,.inr hout.2,hout.1⟩

omit [DecidableEq Node] in
theorem active_ne_tertiary (d : Details Node) : d.active≠.tertiary := by
  unfold Details.active
  split_ifs <;> decide

theorem pathSpecs_backup_nil (hb : d.backupLinks=[]) : pathSpecs env d .backup=[] := by
  rw [eq_nil_iff_forall_not_mem]
  intro x hx
  obtain ⟨y,hy,-⟩ := (mem_pathSpecs env d .backup x.1 x.2).mp hx
  simp [Details.pathDarts,Details.pathLinks,hb,darts] at hy

theorem TreeCircuit.generateFlows_eq (h : TreeCircuit d) : generateFlows env d=
    ⟨fun path => if path=.tertiary then [] else (pathSpecs env d path).map (specRule env),
      fun path => if path=.primary∨(path=.backup∧d.backupLinks≠[]) then
        (endpointSpecs d path).map (specRule env) else [],fun _ => [],fun _ => []⟩ := by
  have hP (path : PathType) := generatePathFlows_eq env d path h.notLoopback
  have hE := generateEndpointRules_eq env d
  have hnil := pathSpecs_backup_nil env (d := d)
  by_cases hb : d.backupLinks=[]
  all_goals
    simp [generateFlows,onPaths,h.noStaticMac,Details.hasBackupPath,hb,generateEndpointFlows,
      h.notLoopback,Flows.pushPath,Flows.pushEndpoint,hP,hE]
    constructor <;> funext path <;> cases path <;> simp_all

theorem dedupLists_eq {lists : PathType → Rules} {primary backup : Rules}
    (hp : dedupFlows (lists .primary)=some primary) (hb : dedupFlows (lists .backup)=some backup) :
    dedupLists lists=some (update (update lists .primary primary) .backup backup) := by
  simp [dedupLists,hp,hb]

theorem Flows.dedup_eq {f : Flows} {path endpoint staticPath staticEndpoint : PathType → Rules}
    (hp : dedupLists f.path=some path) (he : dedupLists f.endpoint=some endpoint)
    (hsp : dedupLists f.staticPath=some staticPath)
    (hse : dedupLists f.staticEndpoint=some staticEndpoint) :
    f.dedup=some ⟨path,endpoint,staticPath,staticEndpoint⟩ := by
  simp [Flows.dedup,hp,he,hsp,hse]

theorem TreeCircuit.dedup_eq (h : TreeCircuit d) (hs : InService env d) :
    ∃ f,(generateFlows env d).dedup=some f∧
      f.path .primary=groupRules env (groupPairs (pathSpecs env d .primary))∧
      f.path .backup=groupRules env (groupPairs (pathSpecs env d .backup))∧
      f.endpoint d.active=groupRules env (groupPairs (endpointSpecs d d.active))∧
      (∀ path,f.staticPath path=[])∧(∀ path,f.staticEndpoint path=[]) := by
  have hpath {path : PathType} (hp : path≠.tertiary) :=
    dedup_specs env _ (h.pathSpecs_valid env hp)
  have hend {path : PathType} (hp : path≠.tertiary) :=
    dedup_specs env _ (h.endpointSpecs_valid hp)
  have hbackup : dedupFlows (if d.backupLinks≠[] then (endpointSpecs d .backup).map (specRule env)
      else [])=some (if d.backupLinks≠[] then groupRules env (groupPairs (endpointSpecs d .backup))
        else []) := by
    split_ifs
    · exact hend (by decide)
    · rfl
  rw [h.generateFlows_eq env]
  refine ⟨_,Flows.dedup_eq (dedupLists_eq (hpath (by decide)) (hpath (by decide)))
    (dedupLists_eq (hend (by decide)) (by simpa using hbackup)) (dedupLists_eq rfl rfl)
    (dedupLists_eq rfl rfl),?_,?_,?_,?_,?_⟩
  · simp
  · simp
  · by_cases ha : d.activePath=.primary
    · simp [Details.active,ha]
    · simp [Details.active,ha,hs.hasActive.resolve_left ha]
  · simp
  · simp

theorem InService.addLoop_eq (hs : InService env d) (f : Flows) : addLoop env d f=f := by
  unfold addLoop
  split
  · rename_i n hl hn
    obtain ⟨hpaths,hends⟩ := hs.notLooped hl n hn
    have hnone (path : PathType) (f : Flows) : generateLoopNodeFlows env d path n f=f := by
      have htrunk : ((env.keys (d.pathDict path).nodes).filter fun node =>
          env.nodeIdLookup node=n)=[] := by
        simpa [(env.keys_perm _).mem_iff] using hpaths path
      have hlocal : (d.endpoints.filter fun e => env.nodeIdLookup e.node=n && e.isLocal)=[] := by
        simpa only [filter_eq_nil_iff,Bool.and_eq_true,decide_eq_true_eq,not_and'] using hends
      simp [generateLoopNodeFlows,htrunk,hlocal,Flows.pushPath,Flows.pushEndpoint]
    split <;> simp [hnone]
  · rfl

omit [DecidableEq Node] in
theorem eq_active_or_standby (d : Details Node) (hp : path≠.tertiary) :
    path=d.active∨path=d.standby := by
  unfold Details.active Details.standby
  cases path <;> by_cases ha : d.activePath=.primary <;> simp_all

theorem TreeCircuit.port_mem (_ : TreeCircuit d) (hx : x∈d.pathDarts d.active) :
    (x.src,x.srcPort)∈linkPorts d.activeLinks := by
  rw [← darts_ports d.activeLinks (d.internalIds d.active)]
  exact mem_map_of_mem hx

theorem TreeCircuit.endpoint_inj (h : TreeCircuit d) {f : Endpoint Node} (he : e∈d.endpoints)
    (hf : f∈d.endpoints) (hn : e.node=f.node) (hp : e.portNo=f.portNo) : e=f :=
  inj_on_of_nodup_map h.endpointPorts he hf (Prod.ext hn hp)

theorem TreeCircuit.dart_inj (h : TreeCircuit d) {y : Dart Node} (hx : x∈d.pathDarts d.active)
    (hy : y∈d.pathDarts d.active) (hs : x.src=y.src) (hp : x.srcPort=y.srcPort) : x=y :=
  h.forest.port_inj _ hx hy hs hp

theorem TreeCircuit.endpoint_ne_dart (h : TreeCircuit d) (he : e∈d.endpoints)
    (hx : x∈d.pathDarts d.active) (hn : x.src=e.node) : x.srcPort≠e.portNo := by
  intro hp
  have hmem := h.port_mem hx
  rw [hn,hp] at hmem
  exact h.notTrunk e he hmem

theorem InService.frame_ne_inbound (hs : InService env d) (h : TreeCircuit d) (hp : path≠.tertiary)
    (he : e∈d.endpoints) (hx : x∈d.pathDarts path) : e.frame≠x.inbound := by
  rcases eq_active_or_standby d hp with rfl | rfl
  · intro heq
    exact h.endpoint_ne_dart he hx (congrArg PortFrame.node heq).symm (congrArg PortFrame.port heq).symm
  · exact hs.offStandby e he x hx

theorem TreeCircuit.pathSpecs_disjoint (h : TreeCircuit d) (k : PortFrame Node) (v w : Int × Nat)
    (hv : (k,v)∈pathSpecs env d .primary) : (k,w)∉pathSpecs env d .backup := by
  intro hw
  obtain ⟨x,hx,hkx,-⟩ := (mem_pathSpecs env d _ k v).mp hv
  obtain ⟨y,hy,hky,-⟩ := (mem_pathSpecs env d _ k w).mp hw
  exact h.ownVlan x hx y hy (hkx.symm.trans hky)

theorem InService.endpointSpecs_disjoint (hs : InService env d) (h : TreeCircuit d)
    (hp : path≠.tertiary) {k : PortFrame Node} {v w : Int × Nat} (hv : (k,v)∈pathSpecs env d path) :
    (k,w)∉endpointSpecs d d.active := by
  intro hw
  obtain ⟨x,hx,hkx,-⟩ := (mem_pathSpecs env d _ k v).mp hv
  obtain ⟨e,he,hke,-⟩ := (mem_endpointSpecs d _ k w).mp hw
  exact hs.frame_ne_inbound env h hp he hx (hke.symm.trans hkx)

theorem circuitSpecs_grouped (h : TreeCircuit d) (hs : InService env d) :
    Grouped (circuitSpecs env d) (circuitGroups env d) := by
  have hpaths := (groupPairs_grouped (pathSpecs env d .primary)).append
    (groupPairs_grouped (pathSpecs env d .backup)) (h.pathSpecs_disjoint env)
  apply hpaths.append (groupPairs_grouped (endpointSpecs d d.active))
  intro k v w hv
  rcases mem_append.mp hv with hv | hv
  all_goals exact hs.endpointSpecs_disjoint env h (by decide) hv

/-- The flows of the circuit are one rule for each port and VLAN. -/
theorem circuitFlows_eq (h : TreeCircuit d) (hs : InService env d) :
    circuitFlows env d=some (groupRules env (circuitGroups env d)) := by
  obtain ⟨f,hf,hP,hB,hE,hsp,hse⟩ := h.dedup_eq env hs
  have hkeys := (circuitSpecs_grouped env h hs).keys
  have hactive : (if d.activePath=.primary then PathType.primary else .backup)=d.active := rfl
  have hcreate : createFlows env d=some f := by
    simp [createFlows,hs.deployed,hf,hs.addLoop_eq env f]
  rw [circuitFlows,hcreate,Option.bind_some,getFlows,if_neg hs.deployed.1]
  simp only [hactive,hP,hB,hE,hsp,hse,append_nil,← groupRules_append]
  exact dedupFlows_groups env hkeys

/-- The copies sent at a node, none through the port of arrival. -/
def nodeOuts (d : Details Node) (node : Node) (port : Nat) : List (Int × Nat) :=
  (d.endpoints.filter fun e => e.node=node && e.portNo≠port).map Endpoint.copy++
    ((d.pathDarts d.active).filter fun x => x.src=node && x.srcPort≠port).map Dart.copy

theorem mem_nodeOuts (node : Node) (port : Nat) (v : Int × Nat) :
    v∈nodeOuts d node port ↔ (∃ e∈d.endpoints,e.node=node∧e.portNo≠port∧v=e.copy)∨
      (∃ x∈d.pathDarts d.active,x.src=node∧x.srcPort≠port∧v=x.copy) := by
  simp [nodeOuts,and_assoc,@eq_comm _ v]

theorem mem_circuitSpecs (k : PortFrame Node) (v : Int × Nat) :
    (k,v)∈circuitSpecs env d ↔ (k,v)∈pathSpecs env d d.active∨(k,v)∈pathSpecs env d d.standby∨
      (k,v)∈endpointSpecs d d.active := by
  unfold circuitSpecs Details.active Details.standby
  split_ifs <;> simp only [mem_append] <;> tauto

theorem InService.mem_specs_frame (hs : InService env d) (h : TreeCircuit d) (he : e∈d.endpoints)
    (v : Int × Nat) : (e.frame,v)∈circuitSpecs env d ↔ v∈nodeOuts d e.node e.portNo := by
  have hpath {path : PathType} (hp : path≠.tertiary) : (e.frame,v)∉pathSpecs env d path := by
    intro hv
    obtain ⟨x,hx,heq,-⟩ := (mem_pathSpecs env d _ _ v).mp hv
    exact hs.frame_ne_inbound env h hp he hx heq
  have hstandby : d.standby≠.tertiary := by
    unfold Details.standby
    split_ifs <;> decide
  rw [mem_circuitSpecs,mem_nodeOuts,mem_endpointSpecs]
  simp only [hpath (active_ne_tertiary d),hpath hstandby,false_or]
  constructor
  · intro ⟨f,hf,hframe,hv⟩
    have hef : e=f := h.endpoint_inj he hf (congrArg PortFrame.node hframe) (congrArg PortFrame.port hframe)
    subst f
    rcases hv with ⟨o,ho,rfl⟩ | ⟨y,hy,hys,rfl⟩
    · obtain ⟨ho,hn,-,hp⟩ := (mem_interswitchPeers d e o).mp ho
      exact .inl ⟨o,ho,hn.symm,hp.symm,rfl⟩
    · exact .inr ⟨y,hy,hys,h.endpoint_ne_dart he hy hys,rfl⟩
  · intro hv
    refine ⟨e,he,rfl,?_⟩
    rcases hv with ⟨o,ho,hn,hp,rfl⟩ | ⟨y,hy,hys,-,rfl⟩
    · have hne : e≠o := fun heq => hp (heq ▸ rfl)
      have hle := hs.localPeers e he o ho hn.symm hne
      have hlo := hs.localPeers o ho e he hn hne.symm
      exact .inl ⟨o,(mem_interswitchPeers d e o).mpr ⟨ho,hn.symm,⟨hle,hlo⟩,hp.symm⟩,rfl⟩
    · exact .inr ⟨y,hy,hys,rfl⟩

theorem InService.mem_specs_inbound (hs : InService env d) (h : TreeCircuit d)
    (hx : x∈d.pathDarts d.active) (v : Int × Nat) :
    (x.inbound,v)∈circuitSpecs env d ↔ v∈nodeOuts d x.src x.srcPort := by
  have hstandby : (x.inbound,v)∉pathSpecs env d d.standby := by
    intro hv
    obtain ⟨y,hy,heq,-⟩ := (mem_pathSpecs env d _ _ v).mp hv
    unfold Details.active at hx
    unfold Details.standby at hy
    split_ifs at hx hy
    · exact h.ownVlan x hx y hy heq
    · exact h.ownVlan y hy x hx heq.symm
  have hend : (x.inbound,v)∉endpointSpecs d d.active := by
    intro hv
    obtain ⟨e,he,heq,-⟩ := (mem_endpointSpecs d _ _ v).mp hv
    exact hs.frame_ne_inbound env h (active_ne_tertiary d) he hx heq.symm
  rw [mem_circuitSpecs,mem_nodeOuts,mem_pathSpecs]
  simp only [hstandby,hend,or_false]
  constructor
  · intro ⟨y,hy,hin,hv⟩
    have hxy : x=y := h.dart_inj hx hy (congrArg PortFrame.node hin) (congrArg PortFrame.port hin)
    subst y
    rcases hv with ⟨z,hz,hzs,hzp,rfl⟩ | ⟨e,he,hen,rfl⟩
    · exact .inr ⟨z,hz,hzs,hzp,rfl⟩
    · exact .inl ⟨e,he,hen,(h.endpoint_ne_dart he hx hen.symm).symm,rfl⟩
  · intro hv
    refine ⟨x,hx,rfl,?_⟩
    rcases hv with ⟨e,he,hen,-,rfl⟩ | ⟨z,hz,hzs,hzp,rfl⟩
    · exact .inr ⟨e,he,hen,rfl⟩
    · exact .inl ⟨z,hz,hzs,hzp,rfl⟩

end OESS.OpenFlow
