import OESS.OpenFlow.Forwarding
import OESS.Framework.TreeFlood

namespace OESS.OpenFlow

open TreeFlood List

@[ext] structure Dart (Node : Type) where
  src : Node
  srcPort : Nat
  srcVlan : Int
  tgt : Node
  tgtPort : Nat
  tgtVlan : Int
  deriving DecidableEq

variable {Node : Type}

namespace Dart

variable (x : Dart Node)

def rev : Dart Node := ⟨x.tgt,x.tgtPort,x.tgtVlan,x.src,x.srcPort,x.srcVlan⟩

def entry : PathEntry := ⟨x.srcPort,x.srcVlan,x.tgtVlan⟩

def inbound : PortFrame Node := ⟨x.src,x.srcVlan,x.srcPort⟩

def outbound : PortFrame Node := ⟨x.src,x.tgtVlan,x.srcPort⟩

def copy : Int × Nat := (x.tgtVlan,x.srcPort)

variable (x : Dart Node)

@[simp] theorem rev_rev : x.rev.rev=x := rfl
@[simp] theorem rev_src : x.rev.src=x.tgt := rfl
@[simp] theorem rev_tgt : x.rev.tgt=x.src := rfl
@[simp] theorem rev_srcPort : x.rev.srcPort=x.tgtPort := rfl

end Dart

def linkDarts (ids : Node → Nat → Int) (l : Link Node) : List (Dart Node) :=
  let vlanA := ids l.nodeA l.interfaceAId
  let vlanZ := ids l.nodeZ l.interfaceZId
  [⟨l.nodeA,l.portNoA,vlanA,l.nodeZ,l.portNoZ,vlanZ⟩,
   ⟨l.nodeZ,l.portNoZ,vlanZ,l.nodeA,l.portNoA,vlanA⟩]

variable (links : List (Link Node))

def darts (ids : Node → Nat → Int) : List (Dart Node) := links.flatMap (linkDarts ids)

def linkPorts : List (Node × Nat) :=
  links.flatMap fun l => [(l.nodeA,l.portNoA),(l.nodeZ,l.portNoZ)]

def linkGraph : SimpleGraph Node := SimpleGraph.fromEdgeSet {x | ∃ l∈links,x=s(l.nodeA,l.nodeZ)}

/-- Parallel links are a cycle, and no port is used twice. -/
structure IsForest (links : List (Link Node)) : Prop where
  noLoop : ∀ l∈links,l.nodeA≠l.nodeZ
  noParallel : links.Pairwise fun l m => s(l.nodeA,l.nodeZ)≠s(m.nodeA,m.nodeZ)
  acyclic : (linkGraph links).IsAcyclic
  ports : (linkPorts links).Nodup

variable (links : List (Link Node)) (ids : Node → Nat → Int)

theorem processLinks_eq :
    processLinks links ids=(darts links ids).map fun x => (x.src,x.entry) := by
  simp [processLinks,darts,map_flatMap,linkDarts,Dart.entry]

theorem mem_entries [DecidableEq Node] (node : Node) (y : PathEntry) :
    y∈(processLinks links ids).entries node ↔ ∃ x∈darts links ids,x.src=node∧x.entry=y := by
  rw [PathDict.entries,processLinks_eq]
  simp only [mem_map,mem_filter,decide_eq_true_eq]
  constructor
  · rintro ⟨z,⟨⟨x,hx,rfl⟩,hn⟩,rfl⟩
    exact ⟨x,hx,hn,rfl⟩
  · rintro ⟨x,hx,hn,rfl⟩
    exact ⟨(x.src,x.entry),⟨⟨x,hx,rfl⟩,hn⟩,rfl⟩

theorem mem_nodes (node : Node) :
    node∈(processLinks links ids).nodes ↔ ∃ x∈darts links ids,x.src=node := by
  rw [PathDict.nodes,processLinks_eq]
  simp

theorem darts_ports : (darts links ids).map (fun x => (x.src,x.srcPort))=linkPorts links := by
  simp [darts,linkPorts,map_flatMap,linkDarts]

theorem rev_mem_darts {links : List (Link Node)} {ids : Node → Nat → Int} {x : Dart Node}
    (hx : x∈darts links ids) : x.rev∈darts links ids := by
  obtain ⟨l,hl,hx⟩ := mem_flatMap.mp hx
  refine mem_flatMap.mpr ⟨l,hl,?_⟩
  simp only [linkDarts,mem_cons,not_mem_nil,or_false] at hx ⊢
  rcases hx with rfl | rfl
  · exact .inr rfl
  · exact .inl rfl

theorem mem_darts_ends {links : List (Link Node)} {ids : Node → Nat → Int} {x : Dart Node}
    (hx : x∈darts links ids) : ∃ l∈links,x∈linkDarts ids l∧s(x.src,x.tgt)=s(l.nodeA,l.nodeZ) := by
  obtain ⟨l,hl,hx⟩ := mem_flatMap.mp hx
  refine ⟨l,hl,hx,?_⟩
  simp only [linkDarts,mem_cons,not_mem_nil,or_false] at hx
  rcases hx with rfl | rfl
  · rfl
  · exact Sym2.eq_swap

namespace IsForest

variable {links : List (Link Node)} (h : IsForest links) (ids : Node → Nat → Int)
include h

theorem port_inj {x y : Dart Node} (hx : x∈darts links ids) (hy : y∈darts links ids)
    (hs : x.src=y.src) (hp : x.srcPort=y.srcPort) : x=y := by
  have hnd : ((darts links ids).map fun x => (x.src,x.srcPort)).Nodup := by
    rw [darts_ports]
    exact h.ports
  exact inj_on_of_nodup_map hnd hx hy (Prod.ext hs hp)

theorem darts_nodup : (darts links ids).Nodup := by
  apply Nodup.of_map fun x => (x.src,x.srcPort)
  rw [darts_ports]
  exact h.ports

theorem src_ne_tgt {x : Dart Node} (hx : x∈darts links ids) : x.src≠x.tgt := by
  obtain ⟨l,hl,-,he⟩ := mem_darts_ends hx
  have hne := h.noLoop l hl
  intro hst
  rw [hst,Sym2.eq_iff] at he
  rcases he with ⟨h1,h2⟩ | ⟨h1,h2⟩
  · exact hne (h1.symm.trans h2)
  · exact hne (h2.symm.trans h1)

theorem darts_simple {x y : Dart Node} (hx : x∈darts links ids) (hy : y∈darts links ids)
    (hs : x.src=y.src) (ht : x.tgt=y.tgt) : x=y := by
  obtain ⟨l,hl,hxl,hle⟩ := mem_darts_ends hx
  obtain ⟨m,hm,hym,hme⟩ := mem_darts_ends hy
  have hlm : l=m := by
    by_contra hne
    have hsym : Std.Symm fun l m : Link Node => s(l.nodeA,l.nodeZ)≠s(m.nodeA,m.nodeZ) :=
      ⟨fun _ _ h => h.symm⟩
    have hends := h.noParallel.forall hl hm hne
    exact hends (hle.symm.trans ((by rw [hs,ht] : s(x.src,x.tgt)=s(y.src,y.tgt)).trans hme))
  subst m
  have hne := h.noLoop l hl
  simp only [linkDarts,mem_cons,not_mem_nil,or_false] at hxl hym
  rcases hxl with rfl | rfl <;> rcases hym with rfl | rfl
  · rfl
  · exact absurd hs hne
  · exact absurd hs.symm hne
  · rfl

/-- The darts of a forest of links. -/
def dartList : DartList Node (Dart Node) where
  darts := darts links ids
  src := Dart.src
  tgt := Dart.tgt
  rev := Dart.rev
  nodup := h.darts_nodup ids
  rev_mem := fun _ hx => rev_mem_darts hx
  src_rev := fun _ => rfl
  tgt_rev := fun _ => rfl
  loopless := fun _ hx => h.src_ne_tgt ids hx
  simple := fun _ hx _ hy => h.darts_simple ids hx hy

theorem dartList_graph : (h.dartList ids).graph=linkGraph links := by
  ext a b
  constructor
  · rintro ⟨x,hx,rfl,rfl⟩
    obtain ⟨l,hl,-,he⟩ := mem_darts_ends hx
    exact ⟨⟨l,hl,he⟩,h.src_ne_tgt ids hx⟩
  · intro hadj
    obtain ⟨⟨l,hl,he⟩,-⟩ := hadj
    have hmem (x : Dart Node) (hx : x∈linkDarts ids l) : x∈darts links ids :=
      mem_flatMap.mpr ⟨l,hl,hx⟩
    rcases Sym2.eq_iff.mp he with ⟨rfl,rfl⟩ | ⟨rfl,rfl⟩
    · exact ⟨_,hmem _ (mem_cons_self ..),rfl,rfl⟩
    · exact ⟨_,hmem _ (mem_cons_of_mem _ (mem_singleton_self _)),rfl,rfl⟩

end IsForest

end OESS.OpenFlow
