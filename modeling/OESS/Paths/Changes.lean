import OESS.Paths.Table

namespace OESS.Paths

open OESS.OpenFlow (PathType CircuitState)
open OESS.Master (Circuit CircuitType PathState)

/-- The tables, the circuits' states, and the memory. -/
structure Store where
  paths : PathTable
  circuitState : Nat → Option CircuitState
  memory : Nat → Circuit

def Store.empty : Store where
  paths := ⟨[],0,by simp,List.Pairwise.nil,List.nodup_nil⟩
  circuitState := fun _ => none
  memory := fun circuit => ⟨circuit,.openflow,[],[],[],.primary,0⟩

namespace Path

/-- A path whose last instantiation has ended gets a decommissioned one. -/
def corrected (p : Path) : Path :=
  match p.current with
  | none => p
  | some i => if i.live=true then p else p.instantiate .decom

/-- A decommissioned path stays so. -/
def nextState (target : PathState) (p : Path) : PathState :=
  match p.current with
  | none => target
  | some i => if i.live=true∧i.state≠.decom then target else .decom

def settle (target : PathState) (p : Path) : Path := p.corrected.restate (p.nextState target)

variable (target : PathState) (p : Path)

theorem corrected_key : p.corrected.key=p.key := by
  unfold corrected
  cases p.current with
  | none => rfl
  | some i =>
    dsimp only
    split_ifs <;> rfl

theorem settle_key : (p.settle target).key=p.key := p.corrected_key

theorem sound_settle : (p.settle target).Sound := sound_restate

theorem nextState_of_ready {target : PathState} {p : Path}
    (h : ∀ i∈p.current,i.live=true∧i.state≠.decom) : p.nextState target=target := by
  unfold nextState
  cases hcurrent : p.current with
  | none => rfl
  | some i => exact if_pos (h i hcurrent)

theorem not_active_parked : ¬(p.settle .available).Active := by
  rw [settle,active_restate,nextState]
  cases p.current with
  | none => simp
  | some i =>
    dsimp only
    split_ifs <;> simp

end Path

/-- A request, with the outcome of its other statements. -/
structure Request where
  (links backupLinks : List Nat)
  type : CircuitType
  state : CircuitState
  restoreToPrimary : Nat
  (scheduled completes : Bool)

namespace PathTable

variable (t : PathTable) (circuit : Nat)

/-- The first with a live instantiation in the state. -/
def pathIn (s : PathState) : Option Path := t.rows.find? fun p => p.circuit==circuit && p.inState s

def setPathState (x : Nat) (s : PathState) : PathTable := t.modify x (Path.restate s)

def updatePath (x : Nat) (s : PathState) : PathTable := t.modify x (Path.restate s)

def updateCircuitPathState (old new : PathState) : PathTable :=
  t.mapRows (fun p => if p.circuit=circuit then
      p.switchLive fun s => if s=old then new else s
    else p) fun p => by split_ifs <;> rfl

variable (type : PathType)

/-- A path that is there keeps its own state. -/
def createPath : PathTable :=
  match h : t.row circuit type with
  | none => t.insert circuit type .active [⟨.active,true⟩] h
  | some p => t.modify p.id fun p => p.close.instantiate .active

/-- A second path of a type violates a key. -/
def create (s : PathState) : PathTable :=
  match h : t.row circuit type with
  | none => t.insert circuit type s [⟨s,true⟩] h
  | some _ => t

/-- The instantiations of the primary and the backup path end. -/
def closeManual : PathTable :=
  t.mapRows (fun p => if p.circuit=circuit∧p.type≠.tertiary then p.close else p) fun p => by
    split_ifs <;> rfl

def editState : PathType → PathState
  | .backup => .available
  | _ => .active

/-- A path row is inserted with the default state. -/
def editPath (links : List Nat) (circuitType : CircuitType) : PathTable :=
  if links=[] then
    match t.row circuit type with
    | none => t
    | some p => t.setPathState p.id .decom
  else if type=.backup∧circuitType=.mpls then t
  else
    match h : t.row circuit type with
    | none => t.insert circuit type .active [⟨editState type,true⟩] h
    | some p => t.modify p.id (Path.instantiate (editState type))

def provision (r : Request) : PathTable :=
  let primary := if r.links=[] then t else t.create circuit .primary .active
  if r.backupLinks=[]∨r.type=.mpls then primary else primary.create circuit .backup .available

def edit (r : Request) : PathTable :=
  let primary := (t.closeManual circuit).editPath circuit .primary r.links r.type
  primary.editPath circuit .backup r.backupLinks r.type

section Rows

variable {t} {circuit : Nat} {type : PathType}

theorem row_modify_cases (x : Nat) (f : Path → Path) (hf : ∀ p,(f p).key=p.key) :
    (t.modify x f hf).row=t.row∨
      ∃ p∈t.rows,p.id=x∧(t.modify x f hf).row=setRow t.row p.circuit p.type (some (f p)) := by
  by_cases h : ∃ p∈t.rows,p.id=x
  · obtain ⟨p,hp,rfl⟩ := h
    exact .inr ⟨p,hp,rfl,row_modify (row_of_mem hp) f hf⟩
  · refine .inl (row_modify_absent ?_ f hf)
    intro p hp hid
    exact h ⟨p,hp,hid⟩

theorem row_createPath (t : PathTable) (circuit : Nat) (type : PathType) : ∃ q : Path,
    (t.createPath circuit type).row=setRow t.row circuit type (some q)∧
    q.liveOnes=[⟨.active,true⟩]∧q.current=some ⟨.active,true⟩∧
    q.state=(t.row circuit type).elim .active Path.state := by
  unfold createPath
  split
  case h_1 h =>
    refine ⟨_,row_insert h,rfl,rfl,?_⟩
    rw [h]
    rfl
  case h_2 p h =>
    refine ⟨_,row_modify h _ _,by simp,by simp [Path.current,Path.instantiate],?_⟩
    rw [h]
    rfl

variable (s : PathState)

theorem create_of_some {p : Path} (h : t.row circuit type=some p) : t.create circuit type s=t := by
  unfold create
  split
  · simp_all
  · rfl

theorem row_create (h : t.row circuit type=none) : (t.create circuit type s).row=
      setRow t.row circuit type (some ⟨t.nextId,circuit,type,s,[⟨s,true⟩]⟩) := by
  unfold create
  split
  · exact row_insert h
  · simp_all

theorem row_create_unless {P : Prop} [Decidable P] (h : t.row circuit type=none) :
    (if P then t else t.create circuit type s).row=setRow t.row circuit type
      (if P then none else some ⟨t.nextId,circuit,type,s,[⟨s,true⟩]⟩) := by
  split_ifs
  · rw [← h,setRow_self]
  · exact row_create s h

theorem row_provision (r : Request) (hnew : ∀ p∈t.rows,p.circuit≠circuit) :
    ∃ x,(t.provision circuit r).row=setRow (setRow t.row circuit .primary
        (if r.links=[] then none else some ⟨t.nextId,circuit,.primary,.active,[⟨.active,true⟩]⟩))
      circuit .backup (if r.backupLinks=[]∨r.type=.mpls then none
        else some ⟨x,circuit,.backup,.available,[⟨.available,true⟩]⟩) := by
  have hnone : ∀ type,t.row circuit type=none := by
    intro type
    cases hp : t.row circuit type with
    | none => rfl
    | some p =>
      obtain ⟨hmem,hcircuit,-⟩ := row_spec hp
      exact absurd hcircuit (hnew p hmem)
  have hpaths₁ := row_create_unless (P := r.links=[]) .active (hnone .primary)
  have hrow₂ : (if r.links=[] then t else t.create circuit .primary .active).row circuit
      .backup=none := by
    rw [hpaths₁,setRow_same,Function.update_of_ne (by decide),hnone]
  have hpaths₂ := row_create_unless (P := r.backupLinks=[]∨r.type=.mpls) .available hrow₂
  rw [hpaths₁] at hpaths₂
  exact ⟨_,hpaths₂⟩

theorem row_closeManual (k : Nat) (type : PathType) : (t.closeManual circuit).row k type=
    (t.row k type).map fun p => if k=circuit∧type≠.tertiary then p.close else p := by
  rw [closeManual,row_mapRows]
  cases h : t.row k type with
  | none => rfl
  | some p =>
    obtain ⟨-,rfl,rfl⟩ := row_spec h
    rfl

end Rows

/-- The last one with an active instantiation. -/
def loadedPath (circuitType : CircuitType) : PathType :=
  match (t.rows.filter fun p => p.circuit==circuit && p.inState .active).getLast? with
  | some p => p.type
  | none => match circuitType with
    | .openflow => .primary
    | .mpls => .tertiary

theorem loadedPath_spec {t : PathTable} {circuit : Nat} (circuitType : CircuitType) {type : PathType}
    {p : Path} (hp : t.row circuit type=some p) (hactive : p.Active) :
    ∃ q,t.row circuit (t.loadedPath circuit circuitType)=some q∧q.Active := by
  obtain ⟨hmem,hcircuit,-⟩ := row_spec hp
  have hin : p∈t.rows.filter fun p => p.circuit==circuit && p.inState .active := by
    refine List.mem_filter.mpr ⟨hmem,?_⟩
    simpa [hcircuit] using Path.inState_iff.mpr hactive
  unfold loadedPath
  split
  case h_1 q hlast =>
    obtain ⟨hq,hkey⟩ := List.mem_filter.mp (List.mem_of_getLast? hlast)
    rw [Bool.and_eq_true,beq_iff_eq] at hkey
    obtain ⟨rfl,hstate⟩ := hkey
    exact ⟨q,row_of_mem hq,Path.inState_iff.mp hstate⟩
  case h_2 hnone =>
    rw [List.getLast?_eq_none_iff.mp hnone] at hin
    cases hin

end PathTable

namespace Store

variable (s : Store) (circuit : Nat)

def remember (c : Circuit) : Store := {s with memory := Function.update s.memory circuit c}

@[simp]
theorem remember_same (c : Circuit) : (s.remember circuit c).memory circuit=c :=
  Function.update_self ..

theorem remember_other {circuit k : Nat} (c : Circuit) (h : k≠circuit) :
    (s.remember circuit c).memory k=s.memory k :=
  Function.update_of_ne h ..

/-- A change that is refused or rolled back has no result. -/
def changePath : Option Store :=
  let c := s.memory circuit
  if c.type≠.openflow then none
  else if c.hasBackupPath=false then none
  else
    match s.paths.pathIn circuit .active with
    | none => none
    | some old =>
      match s.paths.pathIn circuit .available with
      | none => none
      | some new =>
        if (s.circuitState circuit).isNone=true then none
        else
          let parked := s.paths.modify old.id fun p => p.close.instantiate .available
          let moved := parked.modify new.id (Path.switchLive fun _ => .active)
          some ({s with paths := moved}.remember circuit c.switched)

theorem changePath_cases {s s' : Store} {circuit : Nat} (h : s.changePath circuit=some s') :
    ∃ old new,s.paths.pathIn circuit .active=some old∧s.paths.pathIn circuit .available=some new∧
      s'=Store.remember {s with
        paths := (s.paths.modify old.id (·.close.instantiate .available)).modify new.id
          (Path.switchLive fun _ => .active)} circuit (s.memory circuit).switched := by
  unfold changePath at h
  dsimp only at h
  split_ifs at h
  · split at h
    · cases h
    · split at h <;> cases h
  split at h
  · cases h
  case h_2 old hold =>
    split at h
    · cases h
    case h_2 new hnew =>
      cases h
      exact ⟨old,new,hold,hnew,rfl⟩

/-- Without a result the caller rolls back. -/
def changeActivePath (new : PathType) : Option Store :=
  let c := s.memory circuit
  if c.activePath=new then some s
  else
    match s.paths.row circuit c.activePath,s.paths.row circuit new with
    | some cur,some next =>
      let parked := s.paths.modify cur.id (Path.settle .available) (Path.settle_key .available)
      let moved := parked.modify next.id (Path.settle .active) (Path.settle_key .active)
      some ({s with paths := moved}.remember circuit {c with activePath := new})
    | _,_ => none

/-- `_compare_links`; the name of a link is a key. -/
def compareLinks (a z : List Nat) : Bool := a.length==z.length && a.all fun l => z.contains l

/-- A rollback of the creation leaves links in memory. -/
def updateMplsPath (links : List Nat) : Option Store :=
  let c := s.memory circuit
  if links=[] then none
  else if c.type≠.mpls then none
  else if (!c.links.isEmpty && compareLinks c.links links)=true then
    s.changeActivePath circuit .primary
  else if (!c.backupLinks.isEmpty && compareLinks c.backupLinks links)=true then
    s.changeActivePath circuit .backup
  else if ((s.paths.row circuit .tertiary).any (!·.liveOnes.isEmpty))=true then
    s.changeActivePath circuit .tertiary
  else
    let known := s.remember circuit {c with tertiaryLinks := links}
    let created := {known with paths := s.paths.createPath circuit .tertiary}
    some ((created.changeActivePath circuit .tertiary).getD known)

/-- The circuit is loaded from the tables after a provisioning or an edit. -/
def load (r : Request) (paths : PathTable) (tertiaryLinks : List Nat) : Store :=
  let written : Store := {s with
    paths
    circuitState := Function.update s.circuitState circuit (some r.state)}
  written.remember circuit {
    circuitId := circuit
    type := r.type
    links := r.links
    backupLinks := if r.type=.mpls then [] else r.backupLinks
    tertiaryLinks
    activePath := paths.loadedPath circuit r.type
    restoreToPrimary := r.restoreToPrimary}

/-- The id of a new circuit has not been used. -/
def provisionCircuit (r : Request) : Option Store :=
  if (s.circuitState circuit).isSome=true∨(∃ p∈s.paths.rows,p.circuit=circuit)∨r.completes=false then
    none
  else some (s.load circuit r (s.paths.provision circuit r) [])

/-- With a later provision time it is only scheduled. -/
def editCircuit (r : Request) (tertiaryLinks : List Nat) : Option Store :=
  if r.scheduled=true∨r.completes=false then none
  else some (s.load circuit r (s.paths.edit circuit r) tertiaryLinks)

end Store

inductive Event where
  | changePath (circuit : Nat)
  | changeActivePath (circuit : Nat) (new : PathType)
  | updateMplsPath (circuit : Nat) (links : List Nat)
  | setPathState (path : Nat) (state : PathState)
  | updatePath (path : Nat) (state : PathState)
  | updateCircuitPathState (circuit : Nat) (old new : PathState)
  | provisionCircuit (circuit : Nat) (r : Request)
  | editCircuit (circuit : Nat) (r : Request) (tertiaryLinks : List Nat)
  | createPath (circuit : Nat) (type : PathType)
  | create (circuit : Nat) (type : PathType) (state : PathState)

def Store.step (s : Store) : Event → Store
  | .changePath circuit => (s.changePath circuit).getD s
  | .changeActivePath circuit new => (s.changeActivePath circuit new).getD s
  | .updateMplsPath circuit links => (s.updateMplsPath circuit links).getD s
  | .setPathState path state => {s with paths := s.paths.setPathState path state}
  | .updatePath path state => {s with paths := s.paths.updatePath path state}
  | .updateCircuitPathState circuit old new =>
    {s with paths := s.paths.updateCircuitPathState circuit old new}
  | .provisionCircuit circuit r => (s.provisionCircuit circuit r).getD s
  | .editCircuit circuit r tertiaryLinks => (s.editCircuit circuit r tertiaryLinks).getD s
  | .createPath circuit type => {s with paths := s.paths.createPath circuit type}
  | .create circuit type state => {s with paths := s.paths.create circuit type state}

end OESS.Paths
