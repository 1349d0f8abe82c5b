import OESS.OpenFlow.CircuitRules

namespace OESS.OpenFlow

open Grouping TreeFlood List Function

variable {Node : Type} [DecidableEq Node] (env : Env Node) {d : Details Node}

/-- Frames in flight and gone after `n` rounds from `e`. -/
def elanRun (d : Details Node) (rules : Rules) (hdr : Header) (e : Endpoint Node) (n : Nat) :
    Traffic Node :=
  (Traffic.step env rules d.activeLinks hdr)^[n] ⟨[e.frame],[]⟩

/-- A frame stops after finitely many rounds, when one copy has left for each other endpoint, with
its port and tag. -/
def ForwardsAsElan (d : Details Node) : Prop :=
  ∃ rules,circuitFlows env d=some rules∧∀ e∈d.endpoints,∀ hdr,∃ N,∀ n≥N,
    (elanRun env d rules hdr e n).inFlight=[]∧
    (elanRun env d rules hdr e n).left.Perm ((d.endpoints.erase e).map Endpoint.frame)

theorem farEnd_dart (h : TreeCircuit d) {x : Dart Node} (hx : x∈d.pathDarts d.active) :
    farEnd d.activeLinks x.src x.srcPort=some (x.tgt,x.tgtPort) := by
  have hlink (l : Link Node) (hl : l∈d.activeLinks) (r : Node × Nat)
      (hr : (if l.nodeA=x.src && l.portNoA=x.srcPort then some (l.nodeZ,l.portNoZ)
        else if l.nodeZ=x.src && l.portNoZ=x.srcPort then some (l.nodeA,l.portNoA) else none)=some r) :
      r=(x.tgt,x.tgtPort) := by
    -- the end of `l` that was found is a dart with the node and port of `x`
    have hfound : ∃ y∈linkDarts (d.internalIds d.active) l,
        y.src=x.src∧y.srcPort=x.srcPort∧r=(y.tgt,y.tgtPort) := by
      split_ifs at hr with h1 h2
      · simp only [Bool.and_eq_true,decide_eq_true_eq] at h1
        exact ⟨_,mem_cons_self,h1.1,h1.2,(Option.some.inj hr).symm⟩
      · simp only [Bool.and_eq_true,decide_eq_true_eq] at h2
        exact ⟨_,mem_cons_of_mem _ mem_cons_self,h2.1,h2.2,(Option.some.inj hr).symm⟩
    obtain ⟨y,hy,hs,hp,rfl⟩ := hfound
    have hxy : y=x := h.dart_inj (mem_flatMap.mpr ⟨l,hl,hy⟩) hx hs hp
    rw [hxy]
  obtain ⟨l,hl,hxl⟩ := mem_flatMap.mp hx
  cases hf : farEnd d.activeLinks x.src x.srcPort with
  | some r =>
    obtain ⟨m,hm,hr⟩ := exists_of_findSome?_eq_some hf
    rw [hlink m hm r hr]
  | none =>
    have hnone := findSome?_eq_none_iff.mp hf l hl
    simp only [linkDarts,mem_cons,not_mem_nil,or_false] at hxl
    rcases hxl with rfl | rfl
    · simp at hnone
    · have hne := h.forest.noLoop l hl
      simp [hne] at hnone

theorem farEnd_none {links : List (Link Node)} {node : Node} {port : Nat}
    (hp : (node,port)∉linkPorts links) : farEnd links node port=none := by
  rw [farEnd,findSome?_eq_none_iff]
  intro l hl
  have hends : (node,port)∉[(l.nodeA,l.portNoA),(l.nodeZ,l.portNoZ)] :=
    fun h => hp (mem_flatMap.mpr ⟨l,hl,h⟩)
  grind

theorem arrive_outbound (h : TreeCircuit d) {x : Dart Node} (hx : x∈d.pathDarts d.active) :
    arrive d.activeLinks x.outbound=some x.rev.inbound := by
  have hfar : farEnd d.activeLinks x.outbound.node x.outbound.port=some (x.tgt,x.tgtPort) :=
    farEnd_dart h hx
  rw [arrive,hfar]
  rfl

variable {e : Endpoint Node} {k : PortFrame Node}

theorem arrive_frame (h : TreeCircuit d) (he : e∈d.endpoints) :
    arrive d.activeLinks e.frame=none := by
  have hfar : farEnd d.activeLinks e.frame.node e.frame.port=none := farEnd_none (h.notTrunk e he)
  rw [arrive,hfar]
  rfl

theorem nodeOuts_nodup (h : TreeCircuit d) (node : Node) (port : Nat) :
    (nodeOuts d node port).Nodup := by
  have hends : ((d.endpoints.filter fun e => e.node=node && e.portNo≠port).map Endpoint.copy).Nodup := by
    apply (h.endpointPorts.of_map.filter _).map_on
    intro e he f hf hef
    simp only [mem_filter,Bool.and_eq_true,decide_eq_true_eq] at he hf
    exact h.endpoint_inj he.1 hf.1 (he.2.1.trans hf.2.1.symm) (congrArg Prod.snd hef)
  have hdarts : (((d.pathDarts d.active).filter fun x => x.src=node && x.srcPort≠port).map
      Dart.copy).Nodup := by
    apply ((h.forest.darts_nodup _).filter _).map_on
    intro x hx y hy hxy
    simp only [mem_filter,Bool.and_eq_true,decide_eq_true_eq] at hx hy
    exact h.dart_inj hx.1 hy.1 (hx.2.1.trans hy.2.1.symm) (congrArg Prod.snd hxy)
  refine nodup_append.mpr ⟨hends,hdarts,?_⟩
  intro a ha b hb hab
  obtain ⟨e,he,rfl⟩ := mem_map.mp ha
  obtain ⟨x,hx,rfl⟩ := mem_map.mp hb
  simp only [mem_filter,Bool.and_eq_true,decide_eq_true_eq] at he hx
  exact h.endpoint_ne_dart he.1 hx.1 (hx.2.1.trans he.2.1.symm) (congrArg Prod.snd hab).symm

inductive Enters (d : Details Node) : PortFrame Node → Prop
  | endpoint {e : Endpoint Node} (he : e∈d.endpoints) : Enters d e.frame
  | link {x : Dart Node} (hx : x∈d.pathDarts d.active) : Enters d x.inbound

theorem circuitGroups_range (h : TreeCircuit d) (hs : InService env d) :
    (∀ x∈circuitGroups env d,x.1.vlan≠vlanWildcard)∧
      ∀ x∈circuitGroups env d,∀ y∈x.2,y.1≠ofUntagged := by
  have hg := circuitSpecs_grouped env h hs
  have hvalid (x : RuleSpec Node) (hx : x∈circuitSpecs env d) : ValidSpec x := by
    simp only [circuitSpecs,mem_append] at hx
    rcases hx with (hx | hx) | hx
    · exact h.pathSpecs_valid env (by decide) x hx
    · exact h.pathSpecs_valid env (by decide) x hx
    · exact h.endpointSpecs_valid (active_ne_tertiary d) x hx
  have hmem (x : PortFrame Node × List (Int × Nat)) (hx : x∈circuitGroups env d) (y : Int × Nat)
      (hy : y∈x.2) : ValidSpec (x.1,y) := hvalid _ ((hg.mem _ _).mpr ⟨x,hx,rfl,hy⟩)
  constructor
  · intro x hx
    obtain ⟨y,hy⟩ := exists_mem_of_ne_nil _ (hg.groups x hx).2
    have hv := (hmem x hx y hy).vlan
    simp only [InVlanRange,untagged,vlanWildcard] at hv ⊢
    omega
  · intro x hx y hy
    have hv := (hmem x hx y hy).outVlan
    simp only [InVlanRange,untagged,ofUntagged] at hv ⊢
    omega

def rulesOf (d : Details Node) : Rules := groupRules env (circuitGroups env d)

theorem switchOutput_perm (h : TreeCircuit d) (hs : InService env d) (hdr : Header) (hk : Enters d k) :
    (switchOutput env (rulesOf env d) hdr k).Perm
      ((nodeOuts d k.node k.port).map fun x => ⟨k.node,x.1,x.2⟩) := by
  have hg := circuitSpecs_grouped env h hs
  obtain ⟨hvlan,hout⟩ := circuitGroups_range env h hs
  rw [rulesOf,switchOutput_groups env hdr k _ hg.keys hvlan hout]
  apply Perm.map
  apply hg.groupAt_perm (nodeOuts_nodup h k.node k.port)
  cases hk with
  | endpoint he => exact hs.mem_specs_frame env h he
  | link hx => exact hs.mem_specs_inbound env h hx

theorem switchOutput_split (h : TreeCircuit d) (hs : InService env d) (hdr : Header) (hk : Enters d k) :
    ((switchOutput env (rulesOf env d) hdr k).filterMap (arrive d.activeLinks)).Perm
      (((d.pathDarts d.active).filter fun x => x.src=k.node && x.srcPort≠k.port).map
        (·.rev.inbound))∧
    ((switchOutput env (rulesOf env d) hdr k).filter
        fun f => (arrive d.activeLinks f).isNone).Perm
      ((d.endpoints.filter fun e => e.node=k.node && e.portNo≠k.port).map Endpoint.frame) := by
  let es := d.endpoints.filter fun e => e.node=k.node && e.portNo≠k.port
  let xs := (d.pathDarts d.active).filter fun x => x.src=k.node && x.srcPort≠k.port
  have hes : ∀ e∈es,e∈d.endpoints∧e.node=k.node := by
    intro e he
    simp only [es,mem_filter,Bool.and_eq_true,decide_eq_true_eq] at he
    exact ⟨he.1,he.2.1⟩
  have hxs : ∀ x∈xs,x∈d.pathDarts d.active∧x.src=k.node := by
    intro x hx
    simp only [xs,mem_filter,Bool.and_eq_true,decide_eq_true_eq] at hx
    exact ⟨hx.1,hx.2.1⟩
  have hsent : (nodeOuts d k.node k.port).map (fun x => (⟨k.node,x.1,x.2⟩ : PortFrame Node))=
      es.map Endpoint.frame++xs.map Dart.outbound := by
    rw [nodeOuts,map_append,map_map,map_map]
    congr 1
    · apply map_congr_left
      intro e he
      simp [Endpoint.copy,Endpoint.frame,(hes e he).2]
    · apply map_congr_left
      intro x hx
      simp [Dart.copy,Dart.outbound,(hxs x hx).2]
  have hperm := switchOutput_perm env h hs hdr hk
  rw [hsent] at hperm
  have hnone : (es.map Endpoint.frame).filterMap (arrive d.activeLinks)=[] := by
    rw [filterMap_map,filterMap_eq_nil_iff]
    intro e he
    exact arrive_frame h (hes e he).1
  have hsome : (xs.map Dart.outbound).filterMap (arrive d.activeLinks)=xs.map fun x => x.rev.inbound := by
    rw [filterMap_map,← filterMap_eq_map]
    apply filterMap_congr
    intro x hx
    exact arrive_outbound h (hxs x hx).1
  have hleft : (es.map Endpoint.frame).filter (fun f => (arrive d.activeLinks f).isNone)=
      es.map Endpoint.frame := by
    rw [filter_eq_self]
    intro f hf
    obtain ⟨e,he,rfl⟩ := mem_map.mp hf
    rw [arrive_frame h (hes e he).1]
    rfl
  have hgone : (xs.map Dart.outbound).filter (fun f => (arrive d.activeLinks f).isNone)=[] := by
    rw [filter_eq_nil_iff]
    intro f hf
    obtain ⟨x,hx,rfl⟩ := mem_map.mp hf
    rw [arrive_outbound h (hxs x hx).1]
    simp
  constructor
  · have hp := hperm.filterMap (arrive d.activeLinks)
    rwa [filterMap_append,hnone,hsome] at hp
  · have hp := hperm.filter fun f => (arrive d.activeLinks f).isNone
    rwa [filter_append,hleft,hgone,append_nil] at hp

section Run

variable (h : TreeCircuit d) (hs : InService env d) (hdr : Header) (e : Endpoint Node)

def endpointsAt (d : Details Node) (node : Node) : List (Endpoint Node) :=
  d.endpoints.filter fun e => e.node=node

def TreeCircuit.flooding (h : TreeCircuit d) : DartList Node (Dart Node) :=
  h.forest.dartList (d.internalIds d.active)

theorem TreeCircuit.flooding_acyclic (h : TreeCircuit d) : h.flooding.graph.IsAcyclic := by
  rw [TreeCircuit.flooding,h.forest.dartList_graph]
  exact h.forest.acyclic

variable {x : Dart Node}

theorem TreeCircuit.wave_mem (h : TreeCircuit d) {root : Node} {n : Nat}
    (hx : x∈h.flooding.wave root n) : x∈d.pathDarts d.active :=
  ((DartList.mem_wave root h.flooding_acyclic n x).mp hx).1

theorem TreeCircuit.next_eq (h : TreeCircuit d) (hx : x∈d.pathDarts d.active) : h.flooding.next x=
      (d.pathDarts d.active).filter fun y => y.src=x.rev.inbound.node && y.srcPort≠x.rev.inbound.port := by
  apply filter_congr
  intro y hy
  rw [Bool.eq_iff_iff,Bool.and_eq_true]
  simp only [decide_eq_true_eq]
  refine and_congr_right fun hsrc => not_congr ⟨congrArg Dart.srcPort,?_⟩
  exact h.dart_inj hy (rev_mem_darts hx) hsrc

theorem TreeCircuit.endpointsAt_eq (h : TreeCircuit d) (hx : x∈d.pathDarts d.active) :
    (d.endpoints.filter fun e => e.node=x.rev.inbound.node && e.portNo≠x.rev.inbound.port)=
      endpointsAt d x.tgt := by
  apply filter_congr
  intro e he
  rw [Bool.eq_iff_iff,Bool.and_eq_true]
  simp only [decide_eq_true_eq]
  exact and_iff_left_of_imp fun hex => (h.endpoint_ne_dart he (rev_mem_darts hx) hex.symm).symm

include hs

/-- What crossed `xs` crosses the next darts and reaches endpoints. -/
theorem step_wave (xs : List (Dart Node)) (hxs : ∀ x∈xs,x∈d.pathDarts d.active) (t : Traffic Node)
    (ht : t.inFlight.Perm (xs.map (·.rev.inbound))) :
    (t.step env (rulesOf env d) d.activeLinks hdr).inFlight.Perm
        ((xs.flatMap h.flooding.next).map (·.rev.inbound))∧
      (t.step env (rulesOf env d) d.activeLinks hdr).left.Perm
        (t.left++(xs.flatMap fun x => endpointsAt d x.tgt).map Endpoint.frame) := by
  have hsplit (x : Dart Node) (hx : x∈xs) :=
    switchOutput_split env h hs hdr (Enters.link (rev_mem_darts (hxs x hx)))
  obtain ⟨hin,hleft⟩ := t.step_perm env _ d.activeLinks hdr _ ht
  rw [flatMap_map,filterMap_flatMap] at hin
  rw [flatMap_map,filter_flatMap] at hleft
  constructor
  · refine hin.trans ?_
    rw [map_flatMap]
    apply Perm.flatMap_left
    intro x hx
    rw [h.next_eq (hxs x hx)]
    exact (hsplit x hx).1
  · refine hleft.trans (Perm.append_left _ ?_)
    rw [map_flatMap]
    apply Perm.flatMap_left
    intro x hx
    rw [← h.endpointsAt_eq (hxs x hx)]
    exact (hsplit x hx).2

theorem step_enter (he : e∈d.endpoints) : (elanRun env d (rulesOf env d) hdr e 1).inFlight.Perm
        ((h.flooding.wave e.node 0).map (·.rev.inbound))∧
      (elanRun env d (rulesOf env d) hdr e 1).left.Perm
        ((d.endpoints.filter fun o => o.node=e.node && o.portNo≠e.portNo).map Endpoint.frame) := by
  obtain ⟨hin,hleft⟩ := switchOutput_split env h hs hdr (Enters.endpoint he)
  have hwave : h.flooding.wave e.node 0=
      (d.pathDarts d.active).filter fun x => x.src=e.frame.node && x.srcPort≠e.frame.port := by
    apply filter_congr
    intro x hx
    rw [Bool.eq_iff_iff,Bool.and_eq_true]
    simp only [decide_eq_true_eq]
    exact (and_iff_left_of_imp (h.endpoint_ne_dart he hx)).symm
  rw [hwave]
  have hrun : elanRun env d (rulesOf env d) hdr e 1=
      ⟨(switchOutput env (rulesOf env d) hdr e.frame).filterMap (arrive d.activeLinks),
        (switchOutput env (rulesOf env d) hdr e.frame).filter
          fun f => (arrive d.activeLinks f).isNone⟩ := by
    simp [elanRun,Traffic.step]
  rw [hrun]
  exact ⟨hin,hleft⟩

/-- After `n+1` rounds those of the flood's round `n` fly. -/
theorem elanRun_wave (he : e∈d.endpoints) (n : Nat) :
    (elanRun env d (rulesOf env d) hdr e (n+1)).inFlight.Perm
        ((h.flooding.wave e.node n).map (·.rev.inbound))∧
      (elanRun env d (rulesOf env d) hdr e (n+1)).left.Perm
        (((d.endpoints.filter fun o => o.node=e.node && o.portNo≠e.portNo)++
          (h.flooding.flood e.node n).flatMap fun x => endpointsAt d x.tgt).map Endpoint.frame) := by
  induction n with
  | zero => simpa [DartList.flood] using step_enter env h hs hdr e he
  | succ n ih =>
    have hxs : ∀ x∈h.flooding.wave e.node n,x∈d.pathDarts d.active := fun x hx => h.wave_mem hx
    obtain ⟨hin,hleft⟩ := step_wave env h hs hdr _ hxs _ ih.1
    have hrun : elanRun env d (rulesOf env d) hdr e (n+1+1)=
        (elanRun env d (rulesOf env d) hdr e (n+1)).step env _ d.activeLinks hdr :=
      iterate_succ_apply' _ _ _
    rw [hrun]
    refine ⟨hin,hleft.trans ?_⟩
    have hflood : h.flooding.flood e.node (n+1)=
        h.flooding.flood e.node n++h.flooding.wave e.node n := by
      simp [DartList.flood,range_succ]
    rw [hflood,flatMap_append,← append_assoc,map_append]
    exact ih.2.append_right _

end Run

theorem mem_endpointsAt (d : Details Node) (node : Node) (o : Endpoint Node) :
    o∈endpointsAt d node ↔ o∈d.endpoints∧o.node=node := by
  simp [endpointsAt]

theorem TreeCircuit.endpoints_nodup (h : TreeCircuit d) : d.endpoints.Nodup :=
  h.endpointPorts.of_map

/-- A frame has left once through every endpoint but the one it entered by. -/
theorem TreeCircuit.reached_perm (h : TreeCircuit d) (he : e∈d.endpoints) {n : Nat}
    (hn : h.flooding.darts.length<n) :
    ((d.endpoints.filter fun o => o.node=e.node && o.portNo≠e.portNo)++
      (h.flooding.flood e.node n).flatMap fun x => endpointsAt d x.tgt).Perm (d.endpoints.erase e) := by
  have hacyclic := h.flooding_acyclic
  have htgt (u : Node) : u∈(h.flooding.flood e.node n).map Dart.tgt ↔
      u≠e.node∧(linkGraph d.activeLinks).Reachable e.node u := by
    have hu := DartList.mem_flood_tgt e.node hacyclic hn u
    rwa [TreeCircuit.flooding,h.forest.dartList_graph] at hu
  have hflat : ((h.flooding.flood e.node n).flatMap fun x => endpointsAt d x.tgt)=
      ((h.flooding.flood e.node n).map Dart.tgt).flatMap (endpointsAt d) := by
    rw [flatMap_map]
  have hnodup : (((h.flooding.flood e.node n).map Dart.tgt).flatMap (endpointsAt d)).Nodup := by
    rw [nodup_flatMap]
    refine ⟨fun u _ => h.endpoints_nodup.filter _,?_⟩
    refine (DartList.flood_tgt_nodup e.node hacyclic n).imp ?_
    intro u w huw o hou how
    exact huw (((mem_endpointsAt d u o).mp hou).2.symm.trans ((mem_endpointsAt d w o).mp how).2)
  have hmem (o : Endpoint Node) : o∈((h.flooding.flood e.node n).map Dart.tgt).flatMap (endpointsAt d) ↔
      o∈d.endpoints∧o.node≠e.node := by
    simp only [mem_flatMap,htgt,mem_endpointsAt]
    constructor
    · rintro ⟨u,⟨hu,-⟩,ho,rfl⟩
      exact ⟨ho,hu⟩
    · intro ho
      exact ⟨o.node,⟨ho.2,h.connected e he o ho.1⟩,ho.1,rfl⟩
  rw [hflat,perm_ext_iff_of_nodup _ (h.endpoints_nodup.erase e)]
  · intro o
    rw [mem_append,hmem,h.endpoints_nodup.mem_erase_iff]
    simp only [mem_filter,Bool.and_eq_true,decide_eq_true_eq]
    constructor
    · rintro (⟨ho,hn,hp⟩ | ⟨ho,hn⟩)
      · exact ⟨fun heq => hp (congrArg Endpoint.portNo heq),ho⟩
      · exact ⟨fun heq => hn (congrArg Endpoint.node heq),ho⟩
    · rintro ⟨hne,ho⟩
      by_cases hn : o.node=e.node
      · exact .inl ⟨ho,hn,fun hp => hne (h.endpoint_inj ho he hn hp)⟩
      · exact .inr ⟨ho,hn⟩
  · refine nodup_append.mpr ⟨h.endpoints_nodup.filter _,hnodup,?_⟩
    intro o ho p hp hop
    simp only [mem_filter,Bool.and_eq_true,decide_eq_true_eq] at ho
    rw [hmem,← hop] at hp
    exact hp.2 ho.2.1

def twoNodes : Env Bool where
  logged := false
  dpidLookup := Bool.toNat
  dpidLookup_injective := by decide
  nodeIdLookup := Bool.toNat
  keys := List.dedup
  keys_perm := fun _ => List.Perm.refl _
  spDijkstra := fun _ _ _ => []

def trunk : Link Bool := ⟨"trunk",false,true,1,1,1,2⟩

def joined : Details Bool where
  state := .active
  links := [trunk]
  internalIds := fun _ _ i => 100+i
  endpoints := [⟨false,"e2",2,200,true,[]⟩,⟨false,"e3",3,-1,true,[]⟩,⟨true,"e2",2,200,true,[]⟩]

private theorem bool_acyclic (G : SimpleGraph Bool) : G.IsAcyclic :=
  SimpleGraph.IsAcyclic.of_card_le_two (by simp)

theorem joined_tree : TreeCircuit joined where
  notLoopback := rfl
  noStaticMac := rfl
  forest := ⟨by decide,pairwise_singleton _ _,bool_acyclic _,by decide⟩
  connected := by
    have hadj : (linkGraph joined.activeLinks).Adj false true := by
      exact ⟨⟨trunk,mem_singleton.mpr rfl,rfl⟩,by decide⟩
    intro e _ f _
    cases e.node <;> cases f.node
    · exact SimpleGraph.Reachable.refl _
    · exact hadj.reachable
    · exact hadj.reachable.symm
    · exact SimpleGraph.Reachable.refl _
  endpointPorts := by decide
  notTrunk := by decide
  ownVlan := by decide
  linkRange := by
    intro path _
    unfold InPortRange InVlanRange
    cases path <;> decide
  endpointRange := by
    unfold InPortRange InVlanRange
    decide

theorem joined_inService : InService twoNodes joined :=
  ⟨by decide,nofun,by decide,by decide,by decide⟩

def onePair (state : CircuitState) (activePath : PathType) (isLocal : Bool)
    (backupLinks : List (Link Bool)) : Details Bool where
  state := state
  loopNode := some 0
  activePath := activePath
  backupLinks := backupLinks
  internalIds := fun _ _ _ => 200
  endpoints := [⟨false,"e1",1,200,true,[]⟩,⟨false,"e2",2,300,isLocal,[]⟩]

theorem onePair_tree (state : CircuitState) (activePath : PathType) (isLocal : Bool)
    (backupLinks : List (Link Bool)) (hactive : activePath=.primary∨backupLinks=[])
    (hports : ∀ x∈darts backupLinks (fun _ _ => 200),InPortRange x.srcPort) :
    TreeCircuit (onePair state activePath isLocal backupLinks) := by
  have hlinks : (onePair state activePath isLocal backupLinks).activeLinks=[] := by
    rcases hactive with rfl | rfl
    · rfl
    · cases activePath <;> rfl
  refine ⟨rfl,rfl,?_,?_,by simp [onePair],?_,?_,?_,?_⟩
  · rw [hlinks]
    exact ⟨by simp,Pairwise.nil,bool_acyclic _,nodup_nil⟩
  · intro e he f hf
    have hnode : ∀ o∈(onePair state activePath isLocal backupLinks).endpoints,o.node=false := by
      simp [onePair]
    rw [hnode e he,hnode f hf]
  · rw [hlinks]
    simp [linkPorts]
  · simp [Details.pathDarts,Details.pathLinks,onePair,darts]
  · intro path hp x hx
    have hvlan : ∀ y∈darts backupLinks (fun _ _ => (200 : Int)),y.srcVlan=200 := by
      intro y hy
      obtain ⟨l,-,hyl⟩ := mem_flatMap.mp hy
      simp only [linkDarts,mem_cons,not_mem_nil,or_false] at hyl
      rcases hyl with rfl | rfl <;> rfl
    cases path with
    | primary => cases hx
    | backup =>
      refine ⟨hports x hx,?_⟩
      rw [hvlan x hx]
      exact ⟨by decide,by decide⟩
    | tertiary => exact absurd rfl hp
  · simp [InPortRange,InVlanRange,onePair]

theorem not_elan_of_step {rules : Rules} {hdr : Header}
    {left : List (PortFrame Node)} (hflows : circuitFlows env d=some rules) (he : e∈d.endpoints)
    (hstep : Traffic.step env rules d.activeLinks hdr ⟨[e.frame],[]⟩=⟨[],left⟩)
    (hleft : ¬left.Perm ((d.endpoints.erase e).map Endpoint.frame)) : ¬ForwardsAsElan env d := by
  intro ⟨rules',hrules,hall⟩
  obtain rfl : rules=rules' := Option.some.inj (hflows.symm.trans hrules)
  obtain ⟨N,hN⟩ := hall e he hdr
  have hstay (n : Nat) : (Traffic.step env rules d.activeLinks hdr)^[n] ⟨[],left⟩=⟨[],left⟩ := by
    apply iterate_fixed
    simp [Traffic.step]
  have hrun : elanRun env d rules hdr e (N+1)=⟨[],left⟩ := by
    rw [elanRun,iterate_succ_apply,hstep,hstay]
  have hperm := (hN (N+1) (by omega)).2
  rw [hrun] at hperm
  exact hleft hperm

end OESS.OpenFlow
