import OESS.Database.Guards
import OESS.Database.Scheduler
import OESS.Framework.Lookup

namespace OESS.Database

open Transactions Transactions.Routine List

structure Records where
  circuits : List Circuit
  instantiations : List CircuitInstantiation
  edges : List Edge
  macs : List EdgeMac
  paths : List Path
  pathInstantiations : List PathInstantiation
  memberships : List LinkMembership

def Tables.records (d : Tables) (circuit : Nat) : Records where
  circuits := d.circuits.filter fun c => c.id=circuit
  instantiations := d.circuitInstantiations.filter fun i => i.circuit=circuit
  edges := d.edges.filter fun e => e.circuit=circuit
  macs := d.edgeMacs.filter fun m =>
    m.edge∈(d.edges.filter (·.circuit=circuit)).map Edge.id
  paths := d.pathsOf circuit
  pathInstantiations := d.pathInstantiations.filter fun i => i.path∈(d.pathsOf circuit).map Path.id
  memberships := d.linkMemberships.filter fun m => m.path∈(d.pathsOf circuit).map Path.id

/-- The rows of circuit `x` are those of `r`, and a path id is that of one path. -/
structure Owned (x : Nat) (r : Records) (d : Tables) : Prop where
  circuits : (d.circuits.filter (·.id=x))=r.circuits
  instantiations : (d.circuitInstantiations.filter (·.circuit=x))=r.instantiations
  edges : (d.edges.filter (·.circuit=x))=r.edges
  macs : (d.edgeMacs.filter (·.edge∈r.edges.map Edge.id))=r.macs
  paths : (d.paths.filter (·.circuit=x))=r.paths
  pathInstantiations :
    (d.pathInstantiations.filter (·.path∈r.paths.map Path.id))=r.pathInstantiations
  memberships : (d.linkMemberships.filter (·.path∈r.paths.map Path.id))=r.memberships
  keys : (d.paths.map Path.id).Nodup

theorem owned_records {d : Tables} (h : (d.paths.map Path.id).Nodup) (x : Nat) :
    Owned x (d.records x) d := ⟨rfl,rfl,rfl,rfl,rfl,rfl,rfl,h⟩

namespace Records

variable (r : Records)

/-- The live rows of the circuit in its records. -/
def circuitRows : List (Circuit×CircuitInstantiation) :=
  r.circuits.flatMap fun c => (r.instantiations.filter (·.endEpoch=forever)).map fun i => (c,i)

def pathsIn (state : PathState) : List Nat :=
  r.paths.flatMap fun p =>
    (r.pathInstantiations.filter fun i => i.path=p.id∧i.state=state∧i.endEpoch=forever).map
      fun _ => p.id

end Records

theorem Owned.records_eq {x : Nat} {r : Records} {d : Tables} (h : Owned x r d) :
    d.records x=r := by
  rw [Tables.records,Tables.pathsOf,h.circuits,h.instantiations,h.edges,h.macs,h.paths,h.pathInstantiations,h.memberships]

section Rows

variable {α : Type} {p : α → Bool} {l out : List α} (hl : l.filter p=out)

include hl

theorem filter_update {C : α → Prop} [DecidablePred C] {f : α → α} (hf : ∀ a,p (f a)=p a)
    (hC : ∀ a∈l,C a → p a=false) : (l.map fun a => if C a then f a else a).filter p=out := by
  rw [← hl]
  clear hl
  induction l with
  | nil => rfl
  | cons a l ih =>
    have hrest := ih fun b hb => hC b (mem_cons_of_mem a hb)
    rw [map_cons]
    split_ifs with ha
    · have hp := hC a mem_cons_self ha
      rw [filter_cons_of_neg (by simp [hf,hp]),filter_cons_of_neg (by simp [hp]),hrest]
    · rw [filter_cons,filter_cons,hrest]

theorem filter_snoc_other {a : α} (ha : p a=false) : (l++[a]).filter p=out := by
  rw [filter_append,filter_cons_of_neg (by simp [ha]),filter_nil,append_nil,hl]

omit hl

theorem lt_nextId {ids : List Nat} {k : Nat} (h : k∈ids) : k<nextId ids := by
  have hle (l : List Nat) (m : Nat) : m≤l.foldl max m∧∀ k∈l,k≤l.foldl max m := by
    induction l generalizing m with
    | nil => simp
    | cons a l ih =>
      obtain ⟨hm,hl⟩ := ih (max m a)
      refine ⟨Nat.le_trans (Nat.le_max_left m a) hm,fun k hk => ?_⟩
      rcases mem_cons.mp hk with rfl | hk
      · exact Nat.le_trans (Nat.le_max_right m k) hm
      · exact hl k hk
  exact Nat.lt_succ_of_le ((hle ids 0).2 k h)

theorem not_mem_nextId (ids : List Nat) : nextId ids∉ids := fun h => Nat.lt_irrefl _ (lt_nextId h)

theorem setPathState_ids (d : Tables) (path : Nat) (state : PathState) :
    (d.setPathState path state).paths.map Path.id=d.paths.map Path.id := by
  rw [Tables.setPathState,map_map]
  refine map_congr_left fun p _ => ?_
  rw [Function.comp_apply]
  split_ifs <;> rfl

end Rows

section Owned

variable {x y : Nat} {r : Records} {d : Tables} (h : Owned x r d) (now : Int)

include h

variable {p : Path} {user : Option Nat} {u : Unit} {d' : Tables} {id : Nat}

theorem Owned.path_mem (hp : p∈r.paths) : p∈d.paths∧p.circuit=x := by
  rw [← h.paths] at hp
  simpa using mem_filter.mp hp

theorem Owned.path_other (hp : p∈d.paths) (hc : p.circuit≠x) : p.id∉r.paths.map Path.id := by
  intro hmem
  obtain ⟨q,hq,hid⟩ := mem_map.mp hmem
  obtain ⟨hqd,hqx⟩ := h.path_mem hq
  have hqp : q=p := inj_on_of_nodup_map h.keys hqd hp hid
  rw [hqp] at hqx
  exact hc hqx

theorem Owned.nextPath : nextId (d.paths.map Path.id)∉r.paths.map Path.id := by
  intro hmem
  obtain ⟨q,hq,hid⟩ := mem_map.mp hmem
  apply not_mem_nextId (d.paths.map Path.id)
  rw [← hid]
  exact mem_map_of_mem (h.path_mem hq).1

theorem Owned.nextEdge : nextId (d.edges.map Edge.id)∉r.edges.map Edge.id := by
  intro hmem
  obtain ⟨e,he,hid⟩ := mem_map.mp hmem
  rw [← h.edges] at he
  apply not_mem_nextId (d.edges.map Edge.id)
  rw [← hid]
  exact mem_map_of_mem (mem_filter.mp he).1

section

variable (hy : y≠x)
include hy

theorem Owned.updateCircuit (a : CircuitArgs) (state : CircuitState) (type : CircuitType) :
    Owned x r (d.updateCircuit y a state type) := by
  refine {h with circuits := filter_update h.circuits (fun _ => rfl) ?_}
  intro c _ hc
  simp [hc,hy]

theorem Owned.setCircuitState (state : CircuitState) : Owned x r (d.setCircuitState y state) := by
  refine {h with circuits := filter_update h.circuits (fun _ => rfl) ?_}
  intro c _ hc
  simp [hc,hy]

theorem Owned.endInstantiations : Owned x r (d.endInstantiations y now) := by
  refine {h with instantiations := filter_update h.instantiations (fun _ => rfl) ?_}
  intro i _ hi
  simp [hi.1,hy]

theorem Owned.insertInstantiation {bandwidth : Nat} {state : CircuitState} {loopNode : Option Nat}
    {reason : String}
    (hd : d.insertInstantiation y bandwidth state user now loopNode reason=some (u,d')) :
    Owned x r d' := by
  obtain ⟨user,-,hd⟩ := Option.map_eq_some_iff.mp hd
  cases hd
  exact {h with instantiations := filter_snoc_other h.instantiations (by simp [hy])}

theorem Owned.endEdges (external : Bool) : Owned x r (d.endEdges y external now) := by
  refine {h with edges := filter_update h.edges (fun _ => rfl) ?_}
  intro e _ he
  simp [he.1,hy]

theorem Owned.endCircuitEdges : Owned x r (d.endCircuitEdges y now) := by
  refine {h with edges := filter_update h.edges (fun _ => rfl) ?_}
  intro e _ he
  simp [he.1,hy]

theorem Owned.insertEdge {interface : Option Nat} {vlan innerTag unit : Option Int}
    (hd : d.insertEdge interface y vlan innerTag unit now=some (id,d')) :
    Owned x r d'∧id∉r.edges.map Edge.id := by
  cases interface <;> cases vlan <;> cases unit <;> cases hd
  exact ⟨{h with edges := filter_snoc_other h.edges (by simp [hy])},h.nextEdge⟩

end

theorem Owned.insertMac {edge : Nat} (hedge : edge∉r.edges.map Edge.id) (mac : Nat) :
    Owned x r (d.insertMac edge mac) :=
  {h with macs := filter_snoc_other h.macs (by simpa using hedge)}

theorem Owned.insertPath (hy : y≠x) (type : PathType) (state : PathState) (mpls : MplsPathType) :
    Owned x r (d.insertPath type y state mpls).2∧
      (d.insertPath type y state mpls).1∉r.paths.map Path.id := by
  have hkeys : ((d.insertPath type y state mpls).2.paths.map Path.id).Nodup :=
    OESS.Lookup.nodup_map_snoc h.keys (not_mem_nextId _)
  exact ⟨{h with paths := filter_snoc_other h.paths (by simp [hy]),keys := hkeys},h.nextPath⟩

theorem Owned.endPaths (hy : y≠x) : Owned x r (d.endPaths y now) := by
  refine {h with pathInstantiations := filter_update h.pathInstantiations (fun _ => rfl) ?_}
  intro i _ ⟨_,p,hp,hid,hc⟩
  rw [← hid]
  exact decide_eq_false (h.path_other hp (hc ▸ hy))

theorem Owned.endLinks (hy : y≠x) : Owned x r (d.endLinks y now) := by
  refine {h with memberships := filter_update h.memberships (fun _ => rfl) ?_}
  intro m _ ⟨_,p,hp,hid,hc⟩
  rw [← hid]
  exact decide_eq_false (h.path_other hp (hc ▸ hy))

section Path

variable {path : Nat} (hpath : path∉r.paths.map Path.id)

include hpath

variable (state : PathState)

theorem Owned.insertPathInstantiation : Owned x r (d.insertPathInstantiation path state now) := by
  exact {h with pathInstantiations := filter_snoc_other h.pathInstantiations (by simpa using hpath)}

theorem Owned.endPathInstantiations : Owned x r (d.endPathInstantiations path now) := by
  refine {h with pathInstantiations := filter_update h.pathInstantiations (fun _ => rfl) ?_}
  intro i _ hi
  rw [hi.1]
  exact decide_eq_false hpath

theorem Owned.endLinkMemberships : Owned x r (d.endLinkMemberships path now) := by
  refine {h with memberships := filter_update h.memberships (fun _ => rfl) ?_}
  intro m _ hm
  rw [hm.1]
  exact decide_eq_false hpath

theorem Owned.insertLinkMembership {link vlanA vlanZ : Option Nat}
    (hd : d.insertLinkMembership link path vlanA vlanZ now=some (u,d')) : Owned x r d' := by
  cases link <;> cases vlanA <;> cases vlanZ <;> cases hd
  exact {h with memberships := filter_snoc_other h.memberships (by simpa using hpath)}

theorem Owned.setPathState : Owned x r (d.setPathState path state) := by
  refine {h with
    paths := filter_update h.paths (fun _ => rfl) ?_
    keys := (setPathState_ids d path state) ▸ h.keys}
  intro p hp hid
  refine decide_eq_false fun hc => hpath ?_
  rw [← hid,← h.paths]
  exact mem_map_of_mem (mem_filter.mpr ⟨hp,decide_eq_true hc⟩)

theorem Owned.retirePath (hd : d.retirePath path now=some (u,d')) :
    Owned x r d' := by
  unfold Tables.retirePath at hd
  split_ifs at hd
  cases hd
  exact h.endPathInstantiations now hpath

end Path

theorem Owned.activatePath {path : Option Nat} (hpath : ∀ p∈path,p∉r.paths.map Path.id)
    (hd : d.activatePath path=some (u,d')) : Owned x r d' := by
  unfold Tables.activatePath at hd
  split_ifs at hd
  cases hd
  refine {h with pathInstantiations := filter_update h.pathInstantiations (fun _ => rfl) ?_}
  intro i _ hi
  exact decide_eq_false (hpath i.path hi.1)

theorem Owned.insertAction {workgroup circuit : Nat} {activation : Int} {layout : Layout}
    (hd : d.insertAction user workgroup circuit now activation layout=some (u,d')) :
    Owned x r d' := by
  obtain ⟨user,-,hd⟩ := Option.map_eq_some_iff.mp hd
  cases hd
  exact {h with}

theorem Owned.completeAction (id : Nat) : Owned x r (d.completeAction id now) := {h with}

theorem Owned.circuitRows : d.circuitRows x=r.circuitRows := by
  rw [Tables.circuitRows,Records.circuitRows,← h.circuits,← h.instantiations,filter_filter]
  induction d.circuits with
  | nil => rfl
  | cons c cs ih =>
    rw [flatMap_cons,ih]
    by_cases hc : c.id=x
    · simp [hc,Bool.and_comm]
    · simp [hc]

theorem Owned.pathsIn (state : PathState) : d.pathsIn x state=r.pathsIn state := by
  rw [Tables.pathsIn,Records.pathsIn,Tables.pathsOf,h.paths,← h.pathInstantiations]
  refine flatMap_congr fun p hp => ?_
  rw [filter_filter]
  congr 2
  funext i
  by_cases hi : i.path=p.id
  · have hmem : p.id∈r.paths.map Path.id := mem_map_of_mem hp
    rw [hi,decide_eq_true hmem,Bool.and_true]
  · simp [hi]

theorem Owned.pathsOf_other (hy : y≠x) (hp : p∈d.pathsOf y) : p.id∉r.paths.map Path.id := by
  obtain ⟨hmem,hc⟩ := mem_filter.mp hp
  exact h.path_other hmem (of_decide_eq_true hc ▸ hy)

theorem Owned.pathId_other (hy : y≠x) {type : PathType} (hid : id∈d.pathId y type) :
    id∉r.paths.map Path.id := by
  obtain ⟨p,hp,rfl⟩ := Option.map_eq_some_iff.mp hid
  have hc : p.circuit=y∧p.type=type := by simpa using find?_some hp
  exact h.path_other (mem_of_find?_eq_some hp) (hc.1 ▸ hy)

theorem Owned.pathsIn_other (hy : y≠x) {state : PathState} (hid : id∈d.pathsIn y state) :
    id∉r.paths.map Path.id := by
  obtain ⟨p,hp,hmem⟩ := mem_flatMap.mp hid
  obtain ⟨i,-,rfl⟩ := mem_map.mp hmem
  exact h.pathsOf_other hy hp

end Owned

end OESS.Database
