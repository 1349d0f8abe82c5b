import OESS.Framework.Lookup
import OESS.Master.ChangePath

namespace OESS.Paths

open OESS.Lookup List Function
open OESS.OpenFlow (PathType)
open OESS.Master (PathState)

/-- Live while its end epoch is -1. -/
structure Instantiation where
  state : PathState
  live : Bool
  deriving DecidableEq

/-- A path, with its instantiations in the order of their ids. -/
structure Path where
  (id circuit : Nat)
  type : PathType
  state : PathState
  instantiations : List Instantiation
  deriving DecidableEq

namespace Path

variable (p : Path)

def key : Nat×Nat×PathType := (p.id,p.circuit,p.type)

def liveOnes : List Instantiation := p.instantiations.filter Instantiation.live

/-- The last instantiation, live or not. -/
def current : Option Instantiation := p.instantiations.getLast?

def inState (s : PathState) : Bool := p.instantiations.any fun i => i.live && i.state==s

def close : Path := {p with instantiations := p.instantiations.map fun i => {i with live := false}}

def instantiate (s : PathState) (p : Path) : Path :=
  {p with instantiations := p.instantiations++[⟨s,true⟩]}

/-- Both copies of the state are written. -/
def restate (s : PathState) (p : Path) : Path := ({p with state := s}.close).instantiate s

/-- Live instantiations change their state in place. -/
def switchLive (change : PathState → PathState) (p : Path) : Path :=
  {p with instantiations := p.instantiations.map fun i =>
    if i.live=true then {i with state := change i.state} else i}

/-- The path is in use by one of the two copies of its state. -/
def Live : Prop := p.state≠.decom∨∃ i∈p.liveOnes,i.state≠.decom
  deriving Decidable

def Active : Prop := ∃ i∈p.liveOnes,i.state=.active
  deriving Decidable

/-- The path is in use, with one live instantiation in its state. -/
def Sound : Prop := p.Live → ∃ i,p.liveOnes=[i]∧i.state=p.state

variable {p : Path} {s : PathState}

theorem inState_iff : p.inState s=true ↔ ∃ i∈p.liveOnes,i.state=s := by
  simp [inState,liveOnes,and_assoc]

@[simp]
theorem liveOnes_close : p.close.liveOnes=[] := by simp [liveOnes,close]

@[simp]
theorem liveOnes_instantiate : (p.instantiate s).liveOnes=p.liveOnes++[⟨s,true⟩] := by
  simp [liveOnes,instantiate]

@[simp]
theorem liveOnes_restate : (p.restate s).liveOnes=[⟨s,true⟩] := by simp [restate]

theorem switchLive_eq_self {change : PathState → PathState}
    (h : ∀ i∈p.liveOnes,change i.state=i.state) : p.switchLive change=p := by
  have hsame : ∀ i∈p.instantiations,
      (if i.live=true then {i with state := change i.state} else i)=i := by
    intro i hi
    split_ifs with hlive
    · rw [h i (mem_filter.mpr ⟨hi,hlive⟩)]
    · rfl
  rw [switchLive,map_congr_left hsame,map_id']

theorem active_of_single (h : p.liveOnes=[⟨s,true⟩]) : p.Active ↔ s=.active := by simp [Active,h]

theorem sound_of_single (h : p.liveOnes=[⟨s,true⟩]) (hs : p.state=s) : p.Sound :=
  fun _ => ⟨_,h,hs.symm⟩

theorem not_active_of_closed (h : p.liveOnes=[]) : ¬p.Active := by simp [Active,h]

theorem sound_of_closed (h : p.liveOnes=[]) (hs : p.state=.decom) : p.Sound := by
  intro hlive
  simp [Live,h,hs] at hlive

theorem sound_restate : (p.restate s).Sound := sound_of_single liveOnes_restate rfl

theorem active_restate : (p.restate s).Active ↔ s=.active := active_of_single liveOnes_restate

end Path

/-- A circuit has one path of each type. -/
structure PathTable where
  rows : List Path
  nextId : Nat
  fresh : ∀ p∈rows,p.id<nextId
  ordered : (rows.map Path.id).Pairwise (·<·)
  types : (rows.map fun p => (p.circuit,p.type)).Nodup

namespace PathTable

variable (t : PathTable) (circuit : Nat)

/-- `get_path_id`, with the row. -/
def row (type : PathType) : Option Path :=
  lookup (fun p : Path => (p.circuit,p.type)) (circuit,type) t.rows

def mapRows (f : Path → Path) (hf : ∀ p,(f p).key=p.key) : PathTable where
  rows := t.rows.map f
  nextId := t.nextId
  fresh := by
    intro q hq
    obtain ⟨p,hp,rfl⟩ := List.mem_map.mp hq
    have hid : (f p).id=p.id := congrArg Prod.fst (hf p)
    rw [hid]
    exact t.fresh p hp
  ordered := by
    have hid : Path.id∘f=Path.id := funext fun p => congrArg Prod.fst (hf p)
    rw [List.map_map,hid]
    exact t.ordered
  types := by
    have htype : (fun p : Path => (p.circuit,p.type))∘f=fun p => (p.circuit,p.type) :=
      funext fun p => congrArg Prod.snd (hf p)
    rw [List.map_map,htype]
    exact t.types

def modify (x : Nat) (f : Path → Path) (hf : ∀ p,(f p).key=p.key := by intro p; rfl) : PathTable :=
  t.mapRows (fun p => if p.id=x then f p else p) fun p => by
    split_ifs
    · exact hf p
    · rfl

def insert (type : PathType) (state : PathState)
    (instantiations : List Instantiation) (h : t.row circuit type=none) : PathTable where
  rows := t.rows++[⟨t.nextId,circuit,type,state,instantiations⟩]
  nextId := t.nextId+1
  fresh := fresh_snoc t.fresh rfl
  ordered := by
    rw [List.map_append,List.pairwise_append]
    refine ⟨t.ordered,List.pairwise_singleton _ _,?_⟩
    intro x hx y hy
    obtain ⟨p,hp,rfl⟩ := List.mem_map.mp hx
    rw [List.mem_singleton.mp hy]
    exact t.fresh p hp
  types := by
    apply nodup_map_snoc t.types
    intro hmem
    obtain ⟨p,hp,hkey⟩ := List.mem_map.mp hmem
    exact lookup_none h p hp hkey

variable {t} {circuit : Nat} {type : PathType} {p : Path}

theorem row_spec (h : t.row circuit type=some p) : p∈t.rows∧p.circuit=circuit∧p.type=type := by
  obtain ⟨hmem,hkey⟩ := lookup_spec h
  exact ⟨hmem,congrArg Prod.fst hkey,congrArg Prod.snd hkey⟩

theorem row_of_mem (hp : p∈t.rows) : t.row p.circuit p.type=some p := lookup_of_mem t.types hp

theorem row_mapRows (f : Path → Path) (hf : ∀ p,(f p).key=p.key) :
    (t.mapRows f hf).row circuit type=(t.row circuit type).map f :=
  lookup_map fun p => congrArg Prod.snd (hf p)

/-- The rows with another entry at one place. -/
def setRow (rows : Nat → PathType → Option Path) (circuit : Nat) (type : PathType)
    (r : Option Path) : Nat → PathType → Option Path :=
  Function.update rows circuit (Function.update (rows circuit) type r)

variable (rows : Nat → PathType → Option Path) {state : PathState}
  {instantiations : List Instantiation}

@[simp]
theorem setRow_same (type : PathType) (r : Option Path) :
    setRow rows circuit type r circuit=update (rows circuit) type r :=
  update_self ..

theorem setRow_other {rows : Nat → PathType → Option Path} {circuit k : Nat} (h : k≠circuit)
    (type : PathType) (r : Option Path) : setRow rows circuit type r k=rows k :=
  update_of_ne h ..

theorem setRow_apply (type : PathType) (r : Option Path) (circuit' : Nat)
    (type' : PathType) : setRow rows circuit type r circuit' type'=
      if circuit'=circuit∧type'=type then r else rows circuit' type' := by
  by_cases hc : circuit'=circuit
  · subst hc
    simp [update_apply]
  · simp [setRow_other hc,hc]

@[simp]
theorem setRow_self (type : PathType) :
    setRow rows circuit type (rows circuit type)=rows := by simp [setRow]

theorem ids_nodup : (t.rows.map Path.id).Nodup := t.ordered.imp Nat.ne_of_lt

theorem row_modify_absent {x : Nat} (h : ∀ p∈t.rows,p.id≠x) (f : Path → Path)
    (hf : ∀ p,(f p).key=p.key) : (t.modify x f hf).row=t.row := by
  funext circuit type
  rw [modify,row_mapRows]
  cases hp : t.row circuit type with
  | none => rfl
  | some p => simp [h p (row_spec hp).1]

theorem row_modify (h : t.row circuit type=some p) (f : Path → Path) (hf : ∀ p,(f p).key=p.key) :
    (t.modify p.id f hf).row=setRow t.row circuit type (some (f p)) := by
  obtain ⟨hp,hc,ht⟩ := row_spec h
  have hother : ∀ q∈t.rows,¬(q.circuit=circuit∧q.type=type) → q.id≠p.id := by
    intro q hq hne hid
    have hqp : q=p := inj_on_of_nodup_map ids_nodup hq hp hid
    exact hne (hqp ▸ ⟨hc,ht⟩)
  funext circuit' type'
  rw [modify,row_mapRows,setRow_apply]
  split_ifs with hsame
  · obtain ⟨rfl,rfl⟩ := hsame
    simp [h]
  cases hrow : t.row circuit' type' with
  | none => rfl
  | some q =>
    obtain ⟨hq,rfl,rfl⟩ := row_spec hrow
    simp [hother q hq hsame]

theorem row_insert (h : t.row circuit type=none) :
    (t.insert circuit type state instantiations h).row=
      setRow t.row circuit type (some ⟨t.nextId,circuit,type,state,instantiations⟩) := by
  funext circuit' type'
  rw [row,insert,lookup_append_singleton,setRow_apply]
  by_cases hsame : circuit'=circuit∧type'=type
  · obtain ⟨rfl,rfl⟩ := hsame
    rw [row] at h
    simp [h]
  have hkey : (circuit,type)≠(circuit',type') := by
    intro he
    exact hsame ⟨(congrArg Prod.fst he).symm,(congrArg Prod.snd he).symm⟩
  rw [if_neg hsame,if_neg hkey,Option.or_none]
  rfl

theorem row_modify_apply (h : t.row circuit type=some p) (f : Path → Path)
    (hf : ∀ p,(f p).key=p.key) (k : Nat) (type' : PathType) : (t.modify p.id f hf).row k type'=
      if k=circuit∧type'=type then some (f p) else t.row k type' := by
  rw [row_modify h,setRow_apply]

theorem row_insert_apply (h : t.row circuit type=none) (k : Nat) (type' : PathType) :
    (t.insert circuit type state instantiations h).row k type'=
      if k=circuit∧type'=type then some ⟨t.nextId,circuit,type,state,instantiations⟩
      else t.row k type' := by
  rw [row_insert h,setRow_apply]

end PathTable

end OESS.Paths
