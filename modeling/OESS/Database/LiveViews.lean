import OESS.Database.Ownership

namespace OESS.Database

open List

structure LiveEnd where
  interface : Nat
  vlan : Int
  innerTag : Option Int
  macs : List Nat

def Layout.isRemove : Layout → Bool
  | remove _ => true
  | _ => false

namespace Tables

variable (d : Tables)

def linkId (name : String) : Option Nat := (d.links.find? (·.name=name)).map Link.id

def port (p : Endpoint) : Option Nat :=
  p.interface.bind fun i => (d.interfaceRow p.node i).map fun r => r.1.id

def IsLocal (interface : Nat) : Prop :=
  ∃ i∈d.interfaces,i.id=interface∧∃ n∈d.nodes,n.id=i.node∧n.isLocal
  deriving Decidable

def macsOf (edge : Nat) : List Nat := (d.edgeMacs.filter (·.edge=edge)).map EdgeMac.mac

variable (circuit : Nat)

def liveEnds : List LiveEnd :=
  (d.edges.filter fun e => e.circuit=circuit∧e.endEpoch=forever).map fun e =>
    ⟨e.interface,e.vlan,e.innerTag,d.macsOf e.id⟩

def pathOf (circuit path : Nat) : Option Path := d.paths.find? fun p => p.id=path∧p.circuit=circuit

def liveLinks : List (PathType×Nat) :=
  d.linkMemberships.filterMap fun m =>
    if m.endEpoch=forever then (d.pathOf circuit m.path).map fun p => (p.type,m.link) else none

def circuitStates : List CircuitState×List CircuitState :=
  ((d.circuits.filter (·.id=circuit)).map Circuit.state,
    (d.circuitInstantiations.filter fun i => i.circuit=circuit∧i.endEpoch=forever).map
      CircuitInstantiation.state)

def pendingRemovals : Nat :=
  (d.scheduledActions.filter fun a =>
    a.circuit=circuit∧a.completionEpoch=forever∧a.layout.isRemove).length

def MacsKeyed : Prop := ∀ m∈d.edgeMacs,m.edge∈d.edges.map Edge.id

end Tables

/-- The keys of the path tables hold, and the circuit has no tertiary path, which is the
network's. -/
structure PathsKeyed (k : Nat) (d : Tables) : Prop where
  ids : (d.paths.map Path.id).Nodup
  memberships : ∀ m∈d.linkMemberships,m.path∈d.paths.map Path.id
  types : ∀ p∈d.paths,p.circuit=k → p.type≠.tertiary

section Ends

variable {k : Nat} {d : Tables}

def Tables.withEnd (d : Tables) (k : Nat) (x : LiveEnd) (unit now : Int) : Tables :=
  let id := nextId (d.edges.map Edge.id)
  {d with
    edges := d.edges++[⟨id,x.interface,k,x.vlan,x.innerTag,unit,forever,now⟩]
    edgeMacs := d.edgeMacs++x.macs.map (⟨id,·⟩)}

theorem macsOf_withEnd_old (x : LiveEnd) (unit now : Int) {edge : Nat}
    (hedge : edge∈d.edges.map Edge.id) : (d.withEnd k x unit now).macsOf edge=d.macsOf edge := by
  have hne : nextId (d.edges.map Edge.id)≠edge := fun h => not_mem_nextId _ (h ▸ hedge)
  simp [Tables.macsOf,Tables.withEnd,hne]

theorem macsOf_withEnd_new (hmacs : d.MacsKeyed) (x : LiveEnd) (unit now : Int) :
    (d.withEnd k x unit now).macsOf (nextId (d.edges.map Edge.id))=x.macs := by
  have hold : (d.edgeMacs.filter (·.edge=nextId (d.edges.map Edge.id)))=[] := by
    rw [filter_eq_nil_iff]
    intro m hm hid
    exact not_mem_nextId _ (of_decide_eq_true hid ▸ hmacs m hm)
  simp [Tables.macsOf,Tables.withEnd,hold,filter_map,Function.comp_def]

theorem liveEnds_withEnd (hmacs : d.MacsKeyed) (x : LiveEnd) (unit now : Int) :
    (d.withEnd k x unit now).liveEnds k=d.liveEnds k++[x] := by
  have hnew : ((d.withEnd k x unit now).edges.filter fun e => e.circuit=k∧e.endEpoch=forever)=
      (d.edges.filter fun e => e.circuit=k∧e.endEpoch=forever)++
        [⟨nextId (d.edges.map Edge.id),x.interface,k,x.vlan,x.innerTag,unit,forever,now⟩] := by
    unfold Tables.withEnd
    simp
  rw [Tables.liveEnds,hnew,map_append,map_singleton,macsOf_withEnd_new hmacs]
  congr 1
  refine map_congr_left fun e he => ?_
  rw [macsOf_withEnd_old x unit now (mem_map_of_mem (mem_filter.mp he).1)]

theorem macsKeyed_withEnd (hmacs : d.MacsKeyed) (x : LiveEnd) (unit now : Int) :
    (d.withEnd k x unit now).MacsKeyed := by
  intro m hm
  rw [Tables.withEnd,map_append]
  rcases mem_append.mp hm with hm | hm
  · exact mem_append_left _ (hmacs m hm)
  · obtain ⟨mac,-,rfl⟩ := mem_map.mp hm
    exact mem_append_right _ (mem_singleton.mpr rfl)

/-- Only edges and addresses are new, the ends being the circuit's. -/
structure Connected (k : Nat) (d : Tables) (ends : List LiveEnd) (d' : Tables) : Prop where
  frame : d'={d with edges := d'.edges,edgeMacs := d'.edgeMacs}
  macs : d'.MacsKeyed
  ends : d'.liveEnds k=d.liveEnds k++ends

theorem connected_refl (hmacs : d.MacsKeyed) : Connected k d [] d := ⟨rfl,hmacs,(append_nil _).symm⟩

theorem connected_withEnd (hmacs : d.MacsKeyed) (x : LiveEnd) (unit now : Int) :
    Connected k d [x] (d.withEnd k x unit now) :=
  ⟨rfl,macsKeyed_withEnd hmacs x unit now,liveEnds_withEnd hmacs x unit now⟩

theorem Connected.trans {d' d'' : Tables} {xs ys : List LiveEnd} (h : Connected k d xs d')
    (h' : Connected k d' ys d'') : Connected k d (xs++ys) d'' := by
  refine ⟨?_,h'.macs,?_⟩
  · rw [h'.frame,h.frame]
  · rw [h'.ends,h.ends,append_assoc]

end Ends

section Links

variable {k : Nat} {d : Tables}

theorem pathOf_of_mem (h : PathsKeyed k d) {p : Path} (hp : p∈d.paths) (hc : p.circuit=k) :
    d.pathOf k p.id=some p := by
  unfold Tables.pathOf
  cases hf : d.paths.find? fun q => q.id=p.id∧q.circuit=k with
  | none =>
    have hno := find?_eq_none.mp hf p hp
    simp [hc] at hno
  | some q =>
    have hid : q.id=p.id∧q.circuit=k := by simpa using find?_some hf
    rw [inj_on_of_nodup_map h.ids (mem_of_find?_eq_some hf) hp hid.1]

theorem liveLinks_insert {path link vlanA vlanZ : Nat} {now : Int} {p : Path}
    (hp : d.pathOf k path=some p) : Tables.liveLinks {d with linkMemberships := d.linkMemberships++
      [⟨link,path,vlanA,vlanZ,forever,now⟩]} k=d.liveLinks k++[(p.type,link)] := by
  rw [Tables.liveLinks,filterMap_append]
  congr 1
  have hnew : Tables.pathOf {d with linkMemberships := d.linkMemberships++
      [⟨link,path,vlanA,vlanZ,forever,now⟩]} k path=some p := hp
  simp [hnew]

theorem liveLinks_insertPath (h : PathsKeyed k d) (type : PathType) (state : PathState)
    (mpls : MplsPathType) : (d.insertPath type k state mpls).2.liveLinks k=d.liveLinks k := by
  refine filterMap_congr fun m hm => ?_
  have hne : nextId (d.paths.map Path.id)≠m.path :=
    fun heq => not_mem_nextId _ (heq ▸ h.memberships m hm)
  have hpath : (d.insertPath type k state mpls).2.pathOf k m.path=d.pathOf k m.path := by
    simp [Tables.pathOf,Tables.insertPath,hne]
  rw [hpath]

theorem pathsKeyed_insertPath (h : PathsKeyed k d) {type : PathType} (htype : type≠.tertiary)
    (state : PathState) (mpls : MplsPathType) :
    PathsKeyed k (d.insertPath type k state mpls).2 := by
  refine ⟨OESS.Lookup.nodup_map_snoc h.ids (not_mem_nextId _),fun m hm => ?_,
    OESS.Runs.forall_mem_snoc h.types fun _ => htype⟩
  rw [Tables.insertPath,map_append]
  exact mem_append_left _ (h.memberships m hm)

theorem pathOf_setPathState (path : Nat) (state : PathState) (id : Nat) :
    ((d.setPathState path state).pathOf k id).map Path.type=(d.pathOf k id).map Path.type := by
  have hsame (p : Path) : (if p.id=path then {p with state := state} else p).id=p.id∧
      (if p.id=path then {p with state := state} else p).circuit=p.circuit∧
      (if p.id=path then {p with state := state} else p).type=p.type := by
    split_ifs <;> exact ⟨rfl,rfl,rfl⟩
  simp [Tables.pathOf,Tables.setPathState,find?_map,Function.comp_def,hsame]

theorem liveLinks_setPathState (path : Nat) (state : PathState) :
    (d.setPathState path state).liveLinks k=d.liveLinks k := by
  refine filterMap_congr fun m _ => ?_
  have htype := pathOf_setPathState (k := k) (d := d) path state m.path
  have hmap (o : Option Path) : (o.map fun p => (p.type,m.link))=
      (o.map Path.type).map fun t => (t,m.link) := by cases o <;> rfl
  rw [hmap,hmap,htype]

theorem pathsKeyed_setPathState (h : PathsKeyed k d) (path : Nat) (state : PathState) :
    PathsKeyed k (d.setPathState path state) := by
  have hids := setPathState_ids d path state
  refine ⟨hids ▸ h.ids,fun m hm => hids ▸ h.memberships m hm,fun p hp hc => ?_⟩
  obtain ⟨q,hq,rfl⟩ := mem_map.mp hp
  split_ifs at hc ⊢
  all_goals exact h.types q hq hc

/-- Only paths and links are new, the links being the circuit's. -/
structure Linked (k : Nat) (d : Tables) (links : List (PathType×Nat)) (d' : Tables) : Prop where
  frame : d'={d with
    paths := d'.paths
    pathInstantiations := d'.pathInstantiations
    linkMemberships := d'.linkMemberships}
  keyed : PathsKeyed k d'
  links : d'.liveLinks k=d.liveLinks k++links

theorem linked_refl (h : PathsKeyed k d) : Linked k d [] d := ⟨rfl,h,(append_nil _).symm⟩

theorem Linked.trans {d' d'' : Tables} {xs ys : List (PathType×Nat)} (h : Linked k d xs d')
    (h' : Linked k d' ys d'') : Linked k d (xs++ys) d'' := by
  refine ⟨?_,h'.keyed,?_⟩
  · rw [h'.frame,h.frame]
  · rw [h'.links,h.links,append_assoc]

end Links

section Endings

variable {k : Nat} {d : Tables} {now : Int}

theorem filter_ended {α : Type} {p q : α → Prop} [DecidablePred p] [DecidablePred q] {f : α → α}
    (hf : ∀ a,¬p (f a)) (l : List α) :
    (l.map fun a => if q a then f a else a).filter (fun a => p a)=
      (l.filter fun a => p a).filter fun a => ¬q a := by
  induction l with
  | nil => rfl
  | cons a l ih =>
    rw [map_cons,filter_cons,ih,filter_filter,filter_filter,filter_cons]
    by_cases hq : q a
    · simp [hq,hf]
    · simp [hq]

theorem liveEnds_endEdges (hnow : now≠forever) :
    (d.endEdges k false now).liveEnds k=(d.liveEnds k).filter fun x => ¬d.IsLocal x.interface := by
  have hedges : ((d.endEdges k false now).edges.filter fun e => e.circuit=k∧e.endEpoch=forever)=
      (d.edges.filter fun e => e.circuit=k∧e.endEpoch=forever).filter
        fun e => ¬d.IsLocal e.interface := by
    have hf (e : Edge) : ¬({e with endEpoch := now}.circuit=k∧
        {e with endEpoch := now}.endEpoch=forever) := fun h => hnow h.2
    refine (filter_ended hf _).trans (filter_congr fun e he => ?_)
    obtain ⟨hcircuit,hlive⟩ := of_decide_eq_true (mem_filter.mp he).2
    simp [Tables.IsLocal,hcircuit,hlive]
  unfold Tables.liveEnds
  rw [hedges,filter_map]
  rfl

end Endings

end OESS.Database
