import OESS.OpenFlow.PathTree

namespace OESS.OpenFlow

open Grouping List Function

def Endpoint.frame {Node : Type} (e : Endpoint Node) : PortFrame Node := ⟨e.node,e.tag,e.portNo⟩

def Endpoint.copy {Node : Type} (e : Endpoint Node) : Int × Nat := (e.tag,e.portNo)

/-- A port and VLAN of a node, and one copy sent. -/
abbrev RuleSpec (Node : Type) := PortFrame Node × (Int × Nat)

variable {Node : Type} [DecidableEq Node] (env : Env Node) (d : Details Node)

def Details.pathDarts (d : Details Node) (path : PathType) : List (Dart Node) :=
  darts (d.pathLinks path) (d.internalIds path)

def specRule (x : RuleSpec Node) : Option FlowRule :=
  forwardRule env x.1.node x.1.vlan x.1.port x.2.1 x.2.2

def pathSpecs (path : PathType) : List (RuleSpec Node) :=
  let dict := d.pathDict path
  (env.keys dict.nodes).flatMap (fun node =>
    (dict.entries node).flatMap fun enter =>
      ((dict.entries node).filter fun exit => enter.port≠exit.port).map fun exit =>
        (⟨node,enter.portVlan,enter.port⟩,(exit.remotePortVlan,exit.port)))++
  d.endpoints.flatMap fun e =>
    (dict.entries e.node).map fun nodeExit => (⟨e.node,nodeExit.portVlan,nodeExit.port⟩,e.copy)

def endpointSpecs (path : PathType) : List (RuleSpec Node) :=
  d.endpoints.flatMap fun e =>
    (interswitchPeers d e).flatMap (fun other =>
      [(e.frame,other.copy),(⟨e.node,other.tag,other.portNo⟩,e.copy)])++
    ((d.pathDict path).entries e.node).map fun nodeExit =>
      (e.frame,(nodeExit.remotePortVlan,nodeExit.port))

variable (path : PathType) (k : PortFrame Node)

theorem generatePathFlows_eq (hl : isLoopback d.endpoints=false) :
    generatePathFlows env d path=(pathSpecs env d path).map (specRule env) := by
  simp [generatePathFlows,pathSpecs,hl,specRule,map_flatMap,Endpoint.copy,comp_def]

theorem generateEndpointRules_eq :
    generateEndpointRules env d path=(endpointSpecs d path).map (specRule env) := by
  simp [generateEndpointRules,endpointSpecs,specRule,map_flatMap,Endpoint.copy,Endpoint.frame,
    comp_def]

theorem mem_pathSpecs (v : Int × Nat) :
    (k,v)∈pathSpecs env d path ↔ ∃ x∈d.pathDarts path,k=x.inbound∧
      ((∃ y∈d.pathDarts path,y.src=x.src∧y.srcPort≠x.srcPort∧v=y.copy)∨
       (∃ e∈d.endpoints,e.node=x.src∧v=e.copy)) := by
  have hkeys (node : Node) : node∈env.keys (d.pathDict path).nodes ↔
      ∃ x∈d.pathDarts path,x.src=node := by
    rw [(env.keys_perm _).mem_iff,mem_dedup]
    exact mem_nodes _ _ _
  have hent (node : Node) (y : PathEntry) : y∈(d.pathDict path).entries node ↔
      ∃ x∈d.pathDarts path,x.src=node∧x.entry=y := mem_entries _ _ _ _
  simp only [pathSpecs,mem_append,mem_flatMap,mem_map,mem_filter,hkeys,hent,
    decide_eq_true_eq,Prod.mk.injEq]
  constructor
  · intro h
    rcases h with ⟨_,-,_,⟨x,hx,rfl,rfl⟩,_,⟨⟨y,hy,hys,rfl⟩,hp⟩,rfl,rfl⟩ |
      ⟨e,he,_,⟨x,hx,hxe,rfl⟩,rfl,rfl⟩
    · exact ⟨x,hx,rfl,.inl ⟨y,hy,hys,hp.symm,rfl⟩⟩
    · refine ⟨x,hx,?_,.inr ⟨e,he,hxe.symm,rfl⟩⟩
      rw [← hxe]
      rfl
  · intro h
    obtain ⟨x,hx,rfl,h⟩ := h
    rcases h with ⟨y,hy,hys,hp,rfl⟩ | ⟨e,he,hex,rfl⟩
    · exact .inl ⟨x.src,⟨x,hx,rfl⟩,x.entry,⟨x,hx,rfl,rfl⟩,y.entry,⟨⟨y,hy,hys,rfl⟩,hp.symm⟩,rfl,rfl⟩
    · refine .inr ⟨e,he,x.entry,⟨x,hx,hex.symm,rfl⟩,?_,rfl⟩
      rw [hex]
      rfl

theorem mem_interswitchPeers (e o : Endpoint Node) :
    o∈interswitchPeers d e ↔ o∈d.endpoints∧e.node=o.node∧
      (e.isLocal=true∧o.isLocal=true)∧e.portNo≠o.portNo := by
  simp [interswitchPeers,and_assoc]

theorem mem_endpointSpecs (v : Int × Nat) : (k,v)∈endpointSpecs d path ↔ ∃ e∈d.endpoints,k=e.frame∧
      ((∃ o∈interswitchPeers d e,v=o.copy)∨(∃ y∈d.pathDarts path,y.src=e.node∧v=y.copy)) := by
  have hent (node : Node) (y : PathEntry) : y∈(d.pathDict path).entries node ↔
      ∃ x∈d.pathDarts path,x.src=node∧x.entry=y := mem_entries _ _ _ _
  simp only [endpointSpecs,mem_append,mem_flatMap,mem_map,hent,mem_cons,
    not_mem_nil,or_false,Prod.mk.injEq]
  constructor
  · intro ⟨e,he,h⟩
    rcases h with ⟨o,ho,⟨rfl,rfl⟩ | ⟨rfl,rfl⟩⟩ | ⟨_,⟨y,hy,hys,rfl⟩,rfl,rfl⟩
    · exact ⟨e,he,rfl,.inl ⟨o,ho,rfl⟩⟩
    · -- the rule for the way back is the other endpoint's own
      obtain ⟨hod,hn,hloc,hp⟩ := (mem_interswitchPeers d e o).mp ho
      refine ⟨o,hod,?_,.inl ⟨e,(mem_interswitchPeers d o e).mpr ⟨he,hn.symm,hloc.symm,hp.symm⟩,rfl⟩⟩
      rw [hn]
      rfl
    · exact ⟨e,he,rfl,.inr ⟨y,hy,hys,rfl⟩⟩
  · rintro ⟨e,he,rfl,h⟩
    rcases h with ⟨o,ho,rfl⟩ | ⟨y,hy,hys,rfl⟩
    · exact ⟨e,he,.inl ⟨o,ho,.inl ⟨rfl,rfl⟩⟩⟩
    · exact ⟨e,he,.inr ⟨y.entry,⟨y,hy,hys,rfl⟩,rfl,rfl⟩⟩

end OESS.OpenFlow
