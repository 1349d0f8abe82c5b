import Mathlib.Algebra.Group.Nat.Defs
import OESS.Framework.Transactions
import OESS.Master.PortStatus

namespace OESS.MasterEvents

open Master (Circuit CircuitRow LinkRow LinkStatus PathRow PathState PortEvent Tables
  getAffectedCircuitsByLinkId getCircuitsOnLink getLinkByDpidAndPort)
open OpenFlow (PathType)
open Transactions Transactions.Routine

/-- A node has no datapath before its first instantiation. -/
structure NodeRow where
  nodeId : Nat
  dpid : Option Nat
  (planned up : Bool)

/-- A path without a live instantiation is in state decom; `named` are the links under the name
generated from two ports. -/
structure Site where
  tables : Tables
  nodes : List NodeRow
  interfaces : List (Nat×Nat)
  named : List (((Nat×Nat)×(Nat×Nat))×Nat)
  pathIds : (tables.paths.map PathRow.pathId).Nodup

namespace Site

variable (d : Site)

/-- A write to the tables that leaves the paths alone. -/
def modify (f : Tables → Tables) (hf : ∀ t,(f t).paths=t.paths) : Site :=
  {d with
    tables := f d.tables
    pathIds := by
      rw [hf]
      exact d.pathIds}

def setPathState (pathId : Nat) (s : PathState) : Site :=
  {d with
    tables := d.tables.setPathState pathId s
    pathIds := by
      have hsame : ∀ p : PathRow,
          (if p.pathId=pathId then {p with state := s} else p).pathId=p.pathId := by
        intro p
        split_ifs <;> rfl
      simpa [Tables.setPathState,Function.comp_def,hsame] using d.pathIds}

def getNodeByDpid (dpid : Nat) : Option NodeRow := d.nodes.find? fun n => n.dpid=some dpid

def newNodeId : Nat := (d.nodes.map NodeRow.nodeId).foldr max 0+1

def newLinkId : Nat := (d.named.map Prod.snd++d.tables.links.map LinkRow.linkId).foldr max 0+1

/-- The links at port `a` whose other end is on the node of `z`. -/
def linksToward (a z : Nat×Nat) : List LinkRow :=
  d.tables.links.filter fun r =>
    (r.endA=a∨r.endZ=a)∧(if r.endA=a then r.endZ else r.endA).1=z.1

def linked (a z : Nat×Nat) : Bool :=
  d.tables.links.any fun r => (r.endA=a∧r.endZ=z)∨(r.endA=z∧r.endZ=a)

end Site

structure Memory where
  linkStatus : Nat → LinkStatus
  circuit : Nat → Option Circuit
  linkMaintenance : Nat → Bool

/-- No handler reports a failure. -/
abbrev Handler (α : Type) := Routine Site Empty α

def discard (x : Handler (Option Unit)) : Handler Unit := do
  let _ ← x
  pure ()

/-- Without a result the transaction is rolled back. -/
def orRollback {α β : Type} (x : Handler (Option α)) (next : α → Handler (Option β)) :
    Handler (Option β) := do
  match ← x with
  | some a => next a
  | none => do
    rollback
    pure none

/-- It runs in the caller's transaction, which it rolls back. Its last two statements fail without a
rollback, and without the circuit's instantiation it dies. -/
def changePath (c : Circuit) : Handler (Option Circuit) :=
  if c.type≠.openflow then pure none
  else if !c.hasBackupPath then pure none
  else do
    let new ← select fun d => d.tables.pathIn c.circuitId .available
    let old ← select fun d => d.tables.pathIn c.circuitId .active
    orRollback (pure old.join) fun old =>
      orRollback (write (·.setPathState old.pathId .decom)) fun _ =>
      orRollback (write (·.setPathState old.pathId .available)) fun _ =>
      orRollback (statement fun d => new.join.map fun p => ((),d.setPathState p.pathId .active))
        fun _ => do
      let row ← orElse (select fun d => d.tables.circuits.find? (·.circuitId=c.circuitId)) die
      orRollback (pure row) fun row => do
      match ← write (fun d => d.modify (fun t => {t with
          circuits := t.circuits.filter (·.circuitId≠c.circuitId)}) fun _ => rfl) with
      | none => pure none
      | some _ =>
        match ← write (fun d => d.modify (fun t => {t with circuits := t.circuits++[row]})
            fun _ => rfl) with
        | none => pure none
        | some _ => pure (some c.switched)

variable (m : Memory) (id : Nat)

/-- The circuit object changes only if the database did. -/
def move (c : Circuit) : Handler Memory := do
  match ← changePath c with
  | none => pure m
  | some c' => pure {m with circuit := Function.update m.circuit id (some c')}

/-- One turn, without the notifications. -/
def failOverCircuit : Handler Memory :=
  match m.circuit id with
  | none => pure m
  | some c =>
    if c.hasBackupPath∧(c.pathStatus m.linkStatus c.alternatePath).truthy then move m id c
    else pure m

def failOverCircuits (ids : List Nat) : Handler Memory := do
  beginOrDie
  let m ← ids.foldlM failOverCircuit m
  let _ ← commit
  pure m

def schedulePathChange : Handler Unit :=
  discard (write fun d => d.modify (fun t => {t with restorations := t.restorations++[id]})
    fun _ => rfl)

/-- One turn, without the notifications. -/
def restoreCircuit (row : Nat×PathType) : Handler Memory :=
  match m.circuit row.1 with
  | none => pure m
  | some c =>
    if c.hasBackupPath then
      if row.2=.backup then
        if c.pathStatus m.linkStatus .primary=.down∧(c.pathStatus m.linkStatus .backup).truthy∧
            c.activePath≠.backup then move m row.1 c
        else pure m
      else
        if c.activePath≠.primary∧(c.pathStatus m.linkStatus .primary).truthy then
          if (c.pathStatus m.linkStatus .backup).truthy then do
            onlyIf (c.restoreToPrimary>0) (schedulePathChange c.circuitId)
            pure m
          else move m row.1 c
        else pure m
    else pure m

/-- Without a list it dies before its transaction. -/
def restoreDownCircuits (rows : Option (List (Nat×PathType))) : Handler Memory :=
  match rows with
  | none => die
  | some rows => do
    beginOrDie
    let m ← rows.foldlM restoreCircuit m
    let _ ← commit
    pure m

/-- It dies if the events of a circuit cannot be read. -/
def cancelRestorations (l : Nat) : Handler Unit := do
  let rows ← select fun d => getCircuitsOnLink d.tables l
  beginOrDie
  each (fun row => do
    let pending ← orElse (select fun d => d.tables.restorations.filter fun id => id=row.1) die
    each (fun id => discard (write fun d =>
      d.modify (fun t => {t with restorations := t.restorations.erase id}) fun _ => rfl)) pending)
    (rows.getD [])
  let _ ← commit
  pure ()

def updateLinkState (l : Nat) (s : LinkStatus) : Handler Unit :=
  discard (write fun d => d.modify (fun t => {t with
    linkState := Function.update t.linkState l s}) fun _ => rfl)

def addOrUpdateInterface (place : Nat×Nat) (stateDown configDown : Bool) : Handler Unit :=
  discard (write fun d =>
    {d.modify (fun t => {t with
      operationalState := Function.update t.operationalState place (if stateDown then .down else .up)
      adminState := Function.update t.adminState place (if configDown then .down else .up)})
      fun _ => rfl with interfaces := d.interfaces.insert place})

def updatePortStatus (e : PortEvent) : Handler Unit :=
  if e.reason=.delete then pure ()
  else do
    beginOrDie
    let node ← select fun d => d.getNodeByDpid e.dpid
    onlyIf (node.join≠none) (addOrUpdateInterface e.place e.stateDown e.configDown)
    let _ ← commit
    pure ()

/-- What a modified port of trunk `l` leads to. -/
def trunkModified (l : Nat) (up : Bool) : Handler Memory :=
  if up then do
    let m ← (if m.linkMaintenance l then pure m else do
        let rows ← select fun d => getCircuitsOnLink d.tables l
        restoreDownCircuits {m with linkStatus := Function.update m.linkStatus l .up} rows)
    updateLinkState l .up
    pure m
  else do
    match ← select fun d => getAffectedCircuitsByLinkId d.tables l with
    | none => pure m
    | some ids => do
      let m ← (if m.linkMaintenance l then pure m else do
          let m ← failOverCircuits {m with linkStatus := Function.update m.linkStatus l .down} ids
          cancelRestorations l
          pure m)
      updateLinkState l .down
      pure m

/-- An unknown datapath ends the process. -/
def portStatus (e : PortEvent) : Handler Memory := do
  let node ← select fun d => d.getNodeByDpid e.dpid
  if node.join=none then die
  else
    match e.reason with
    | .modify => do
      let link ← select fun d => getLinkByDpidAndPort d.tables e.place
      let m ← (match link.join with
        | none => pure m
        | some l => trunkModified m l e.link)
      updatePortStatus e
      pure m
    | .delete => do
      let link ← select fun d => getLinkByDpidAndPort d.tables e.place
      onlyIf (link.join≠none) (updatePortStatus e)
      pure m
    | .add => do
      updatePortStatus e
      pure m

/-- It commits before it does anything else. -/
def updateNodeOperationalState (nodeId : Option Nat) (up : Bool) : Handler Bool := do
  let _ ← commit
  let r ← write fun d => {d with
    nodes := d.nodes.map fun n => if nodeId=some n.nodeId then {n with up := up} else n}
  pure r.isSome

/-- The INSERT has no value for the NOT NULL column `controller`; it is taken to go through if no
fault is injected. -/
def createNodeInstance (nodeId dpid : Nat) : Handler Unit :=
  discard (write fun d => {d with
    nodes := d.nodes.map fun n =>
      if n.nodeId=nodeId then {n with dpid := some dpid,planned := false} else n})

def addNode : Handler (Option Nat) :=
  statement fun d => some (d.newNodeId,{d with nodes := d.nodes++[⟨d.newNodeId,none,false,true⟩]})

/-- Skipped for a large value of its own, not its number. -/
structure JoinPort where
  portNo : Nat
  portNoHash : Option Nat
  (stateDown configDown : Bool)

variable (dpid : Nat)

def JoinPort.event (p : JoinPort) : PortEvent :=
  ⟨dpid,p.portNo,.modify,!p.stateDown,p.stateDown,p.configDown⟩

def joinPort (m : Memory) (p : JoinPort) : Handler Memory :=
  if p.portNoHash.any fun n => 2^12 < n then pure m
  else do
    addOrUpdateInterface (dpid,p.portNo) p.stateDown p.configDown
    let link ← orElse (select fun d => getLinkByDpidAndPort d.tables (dpid,p.portNo)) die
    match link with
    | none => pure m
    | some l =>
      if m.linkStatus l=(if p.stateDown then .down else .up) then pure m
      else portStatus m (p.event dpid)

def joinPorts (ports : List JoinPort) : Handler Memory := do
  let m ← ports.foldlM (joinPort dpid) m
  let _ ← commit
  pure m

/-- What `datapath_join_handler` does to the database. -/
def datapathJoin (ports : List JoinPort) : Handler Memory := do
  beginOrDie
  let node ← select fun d => d.getNodeByDpid dpid
  match node.join with
  | some node => do
    let _ ← updateNodeOperationalState (some node.nodeId) true
    onlyIf (node.planned=true) (createNodeInstance node.nodeId dpid)
    joinPorts m dpid ports
  | none => do
    match ← addNode with
    | none => do
      rollback
      pure m
    | some nodeId => do
      createNodeInstance nodeId dpid
      joinPorts m dpid ports

def datapathLeave : Handler Unit := do
  let node ← select fun d => d.getNodeByDpid dpid
  beginOrDie
  let ok ← updateNodeOperationalState (node.join.map NodeRow.nodeId) false
  onlyIf (ok=false) rollback
  let _ ← commit
  pure ()

def createLinkInstantiation (a z : Nat×Nat) : Handler Unit :=
  discard (write fun d => d.modify (fun t => {t with links := t.links++[⟨id,a,z⟩]}) fun _ => rfl)

def decomLinkInstantiation : Handler Unit :=
  discard (write fun d => d.modify (fun t => {t with
    links := t.links.filter (·.linkId≠id)}) fun _ => rfl)

/-- It dies if the generated name cannot be looked up. -/
def newLink (a z : Nat×Nat) : Handler Unit := do
  let found ← orElse (select fun d => (d.named.find? (·.1=(a,z))).map Prod.snd) die
  let id ← (match found with
    | some id => pure (some id)
    | none => statement fun d =>
      some (d.newLinkId,{d with named := d.named++[((a,z),d.newLinkId)]}))
  match id with
  | none => rollback
  | some id => do
    createLinkInstantiation id a z
    let _ ← commit
    pure ()

/-- A link of `a` to the node of `z`, or else of `z` to that of `a`, is taken for one that has
moved. -/
def linkAdded (a z : Nat×Nat) : Handler Unit := do
  let interfaceA ← orElse (select (·.interfaces.contains a)) die
  let interfaceZ ← orElse (select (·.interfaces.contains z)) die
  if ¬(interfaceA∧interfaceZ) then rollback
  else do
    let known ← select fun d => d.linked a z
    if known=some true then pure ()
    else do
      let aLinks ← select fun d => d.linksToward a z
      let zLinks ← select fun d => d.linksToward z a
      beginOrDie
      match (aLinks.getD []++zLinks.getD []).head? with
      | some r => do
        decomLinkInstantiation r.linkId
        createLinkInstantiation r.linkId a z
        let _ ← commit
        pure ()
      | none => newLink a z

inductive Event where
  | join (dpid : Nat) (ports : List JoinPort)
  | leave (dpid : Nat)
  | portStatus (e : PortEvent)
  | linkAdded (a z : Nat×Nat)
  | linkRemoved (a z : Nat×Nat)

def handle : Event → Handler Memory
  | .join dpid ports => datapathJoin m dpid ports
  | .leave dpid => do
    datapathLeave dpid
    pure m
  | .portStatus e => portStatus m e
  | .linkAdded a z => do
    linkAdded a z
    pure m
  | .linkRemoved _ _ => pure m

/-- The session has the calls of the last handler. -/
structure State where
  memory : Memory
  session : Transactions.Session Site
  alive : Bool

/-- An event, and the statements that fail meanwhile. -/
structure Input where
  event : Event
  faults : Nat → Bool

/-- A handler that dies is the last one. -/
def step (s : State) (i : Input) : State :=
  if s.alive then
    match handle s.memory i.event {s.session with calls := [],asked := 0,faults := i.faults} with
    | (.done m,t) => ⟨m,t,true⟩
    | (.failed e,_) => nomatch e
    | (.died,t) => ⟨s.memory,t,false⟩
  else s

end OESS.MasterEvents
