import OESS.Database.Circuits
import OESS.Framework.Invariants

namespace OESS.Database

open Transactions Transactions.Routine

namespace Tables

variable (d : Tables)

def circuitState (circuit : Nat) : Option CircuitState :=
  (d.circuitRows circuit).head?.map fun r => r.2.state

def pathsIn (circuit : Nat) (state : PathState) : List Nat :=
  (d.pathsOf circuit).flatMap fun p =>
    (d.pathInstantiations.filter fun i => i.path=p.id∧i.state=state∧i.endEpoch=forever).map
      fun _ => p.id

/-- The path's instantiation is ended; the caller looks whether a row has changed. -/
def retirePath (path : Nat) (now : Int) : Option (Unit×Tables) :=
  if ∃ i∈d.pathInstantiations,i.path=path∧i.endEpoch=forever then
    some ((),d.endPathInstantiations path now)
  else none

def activatePath (path : Option Nat) : Option (Unit×Tables) :=
  if ∃ i∈d.pathInstantiations,i.path∈path∧i.endEpoch=forever then
    some ((),{d with pathInstantiations := d.pathInstantiations.map fun i =>
      if i.path∈path∧i.endEpoch=forever then {i with state := .active} else i})
  else none

def currentInstantiation (circuit : Nat) : Option CircuitInstantiation :=
  d.circuitInstantiations.find? fun i => i.circuit=circuit∧i.endEpoch=forever

def completeAction (id : Nat) (now : Int) : Tables :=
  {d with scheduledActions := d.scheduledActions.map fun a =>
    if a.id=id then {a with completionEpoch := now} else a}

def currentActions (now : Int) : List ScheduledAction :=
  d.scheduledActions.filter fun a => a.activationEpoch<now∧a.completionEpoch=forever

end Tables

structure CircuitObject where
  type : Option CircuitType
  activePath : Option PathType
  hasBackupPath : Bool

/-- The arguments of the scheduler's call of `edit_circuit`. -/
def CircuitLayout.editArgs (l : CircuitLayout) (a : ScheduledAction) (now : Int)
    (userName description : String) (state : Option CircuitState) (type : Option CircuitType) :
    EditArgs where
  name := l.name
  description := description
  bandwidth := l.bandwidth
  provisionTime := now
  removeTime := l.removeTime
  links := l.links
  backupLinks := l.backupLinks
  nodes := l.nodes
  interfaces := l.interfaces
  tags := l.tags
  innerTags := []
  macAddresses := l.macAddresses
  endpointMacAddressNums := l.endpointMacAddressNums
  userName := userName
  workgroupId := a.workgroup
  externalId := none
  remoteEndpoints := []
  remoteTags := []
  restoreToPrimary := l.restoreToPrimary
  staticMac := l.staticMac
  state := state
  remoteUrl := none
  remoteRequester := none
  circuitId := a.circuit
  loopNode := none
  doCommit := true
  doSanityCheck := true
  reason := none
  type := type
  doExternal := false

variable (c : Checks) (object : Nat → Lookup Tables String (Option CircuitObject)) (e : Env)

def changePath (circuit : Nat) (o : CircuitObject) (reason : String) : Query Unit := do
  onlyIf (o.type≠some .openflow) (fail "Change path can only be called for OpenFlow circuits")
  onlyIf (¬o.hasBackupPath)
    (fail "Circuit  has no alternate path, refusing to try to switch to alternate.")
  let available ← select fun d => d.pathsIn circuit .available
  startTransaction
  let active ← select fun d => d.pathsIn circuit .active
  let old ← orElse (pure (active.getD []).head?) (abort "Unable to find path_id for current path.")
  orElse (statement (·.retirePath old e.now))
    (abort "Unable to change path_instantiation of current path to inactive.")
  orElse (write (·.insertPathInstantiation old .available e.now))
    (abort "Unable to create new available path based on old instantiation.")
  orElse (statement (·.activatePath (available.getD []).head?))
    (abort "Unable to change state to active in alternate path.")
  let current ← rowsOf fun d => d.currentInstantiation circuit
  let i ← orElse (pure current) (abort "Unable to fetch current circuit instantiation")
  orElse (write (·.endInstantiations circuit e.now))
    (abort "Unable to decom old circuit instantiation.")
  orElse (statement fun d =>
      d.insertInstantiation circuit i.bandwidth i.state (some 1) e.now i.loopNode reason)
    (abort "Unable to create new circuit instantiation.")
  let _ ← commit

def updateActionCompleteEpoch (id : Nat) : Query (Option Unit) :=
  write fun d => d.completeAction id e.now

def userNameOf (user : Nat) : Query String := do
  let row ← rowsOf fun d => d.users.find? fun u => u.id=user
  pure ((row.map User.authName).getD "")

/-- A circuit that is edited need not be there. -/
def descriptionOf (ckt : Option (Circuit×CircuitInstantiation)) : String :=
  (ckt.map (·.1.description)).getD ""

variable (a : ScheduledAction) (ckt : Option (Circuit×CircuitInstantiation)) (l : CircuitLayout)

/-- The result of the edit is only logged. -/
def editAndComplete (state : Option CircuitState) (type : Option CircuitType) : Query Unit := do
  let user ← userNameOf a.user
  let _ ← attempt (editCircuit c e (l.editArgs a e.now user (descriptionOf ckt) state type))
  let _ ← updateActionCompleteEpoch e a.id

def provisionAction : Query Unit :=
  if ckt.map (·.2.state)=some .reserved then pure ()
  else if ckt.map (·.2.state)=some .decom then do
    let _ ← updateActionCompleteEpoch e a.id
  else editAndComplete c e a ckt l (some .active) (ckt.bind (·.1.type))

/-- It does not stop at a decommissioned circuit. -/
def editAction (state : Option CircuitState) : Query Unit :=
  if ckt.map (·.2.state)=some .reserved then pure ()
  else do
    onlyIf (ckt.map (·.2.state)=some .decom) (do let _ ← updateActionCompleteEpoch e a.id)
    editAndComplete c e a ckt l state none

def removeAction (name : Option String) : Query Unit := do
  let user ← userNameOf a.user
  let removed ← attempt (removeCircuit c e ⟨name,a.circuit,e.now,user,a.workgroup⟩)
  match removed with
  | none => do
    rollback
    die
  | some _ => orElse (updateActionCompleteEpoch e a.id) rollback

/-- The path is changed on the loaded circuit; without one there is no method to call. -/
def changePathAction (path : PathType) (reason : String) : Query Unit := do
  let loaded ← (object a.circuit).run
  let o ← orElse (pure loaded) die
  onlyIf (o.activePath≠some path) (do let _ ← attempt (changePath e a.circuit o reason))
  orElse (updateActionCompleteEpoch e a.id) rollback

def runAction : Query Unit := do
  let rows ← rowsOf fun d => d.circuitRows a.circuit
  match a.layout with
  | .provision l => provisionAction c e a rows.head? l
  | .edit l state => editAction c e a rows.head? l state
  | .remove name => removeAction c e a name
  | .changePath path reason => changePathAction object e a path reason

end OESS.Database
