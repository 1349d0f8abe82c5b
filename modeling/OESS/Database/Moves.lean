import OESS.Database.Circuits

namespace OESS.Database

open Transactions Transactions.Routine

variable (e : Env) (interface : Nat)

/-- The node of an interface by two queries: what cannot be read is not found. -/
def getNodeByInterfaceId : Query (Option Node) := do
  let row ← select fun d => d.interfaces.find? fun i => i.id=interface
  match row.join with
  | none => pure none
  | some i => do
    let node ← select fun d => d.nodes.find? fun n => n.id=i.node∧n.live
    pure node.join

def noRecords : String := "No records for interface_id "++toString interface++" were found."

/-- An empty list of circuits makes a query that is refused. -/
def getCircuitEdgeInterfaceMemberships (circuits : Option (List Nat)) :
    Query (Option (List Edge)) :=
  statement fun d => if circuits=some [] then none else some (d.edgesOn interface circuits,d)

structure MoveResult where
  (moved unmoved : List Nat)
  dpid : String

/-- The edges are moved to the other interface, unless their tag is used there. -/
def moveEdges (new : Nat) (used : List Int) : List Edge → Query (List Nat×List Nat)
  | [] => pure ([],[])
  | r::rs =>
    if r.vlan∈used then do
      let m ← moveEdges new used rs
      pure (m.1,r.circuit::m.2)
    else do
      let count ← statement fun d => some (d.endEdge r.id e.now)
      onlyIf (count.getD 0=0) (fail queryError)
      let _ ← orElse (statement fun d => d.insertEdge (some new) r.circuit (some r.vlan) none
          (some r.unit) e.now) (fail queryError)
      let m ← moveEdges new used rs
      pure (r.circuit::m.1,m.2)

def moveEdgeInterfaceCircuits (orig new : Option Nat) (circuits : Option (List Nat)) :
    Query MoveResult := do
  let orig ← orElse (pure orig) (fail "Must pass in orig_interface_id.")
  let new ← orElse (pure new) (fail "Must pass in new_interface_id.")
  onlyIf (orig=new) (fail "Original interface and new interface must be different.")
  let origNode ← orElse (getNodeByInterfaceId orig) (fail (noRecords orig))
  let newNode ← orElse (getNodeByInterfaceId new) (fail (noRecords new))
  onlyIf (origNode.name≠newNode.name)
    (fail "You can only move circuits between edge interfaces on the same node.")
  let src ← orElse (getCircuitEdgeInterfaceMemberships orig circuits) (fail queryError)
  onlyIf (src.isEmpty) (fail "No circuits on original interface, nothing to do.")
  let dst ← orElse (getCircuitEdgeInterfaceMemberships new none) (fail queryError)
  let m ← moveEdges e new (dst.map Edge.vlan) src
  pure ⟨m.1.dedup,m.2.dedup,origNode.dpid⟩

/-- The test whether there are any settings is never true. -/
def migrateCloudSettings (orig new : Nat) : Query (Option Unit) := do
  match ← select fun d => d.cloudSettings orig with
  | none => pure none
  | some settings =>
    match ← write fun d => d.setCloudSettings new settings with
    | none => pure none
    | some _ => write fun d => d.setCloudSettings orig (none,none)

variable (own : Bool)

structure MoveArgs where
  name : Option String
  (origInterfaceId tempInterfaceId : Option Nat)
  circuitIds : Option (List Nat)
  doCommit : Bool

def recordMove (a : MoveArgs) (name : String) : Query (Nat×MoveResult) := do
  let id ← orElse (statement (·.insertMove name a.origInterfaceId a.tempInterfaceId e.now))
    (withdraw a.doCommit "Unable to add edge_interface_move_maintenance.")
  let r ← undoingIf a.doCommit
    (moveEdgeInterfaceCircuits e a.origInterfaceId a.tempInterfaceId a.circuitIds)
  each (fun circuit => orElse (write (·.insertMovedCircuit id circuit))
      (withdraw a.doCommit "Unable to add edge_interface_move_maintenance_circuit_membership."))
    r.moved
  pure (id,r)

/-- After a rollback for the settings it goes on. -/
def settle (own : Bool) (orig new : Nat) : Query Unit := do
  match ← migrateCloudSettings orig new with
  | none => onlyIf own rollback
  | some _ => pure ()

def addEdgeInterfaceMoveMaintenance (a : MoveArgs) : Query Reply := do
  let name ← orElse (pure a.name) (fail "Must pass in name for maintenance.")
  onlyIf a.doCommit startTransaction
  let r ← recordMove e a name
  settle a.doCommit (a.origInterfaceId.getD 0) (a.tempInterfaceId.getD 0)
  onlyIf a.doCommit (do let _ ← commit)
  pure (.moved r.1 r.2.moved r.2.unmoved r.2.dpid)

def getMove (move : Nat) : Query (Option (Move×List Nat)) := do
  let row ← select fun d => d.currentMove move
  match row.join with
  | none => pure none
  | some m => do
    let circuits ← select fun d => d.circuitsMoved m.id
    pure (circuits.map fun cs => (m,cs))

/-- The end of a move. No row that matches is a failure. -/
def endMove (move : Nat) : Query Unit := do
  let count ← statement fun d => some (d.endMove move e.now)
  onlyIf (count.getD 0=0) (withdraw own queryError)

/-- A move without circuits only ends. -/
def revertEmpty (id : Nat) (m : Move) : Query Reply := do
  endMove e own id
  let node ← orElse (getNodeByInterfaceId m.origInterface)
    (withdraw own (noRecords m.origInterface))
  pure (.moved id [] [] node.dpid)

def revertMoved (id : Nat) (m : Move) (circuits : List Nat) : Query Reply := do
  let r ← undoingIf own
    (moveEdgeInterfaceCircuits e (some m.tempInterface) (some m.origInterface) (some circuits))
  settle own m.tempInterface m.origInterface
  endMove e own id
  pure (.moved id r.moved r.unmoved r.dpid)

def revertEdgeInterfaceMoveMaintenance (move : Option Nat) : Query Reply := do
  let id ← orElse (pure move) (fail "maintenance_id must be defined")
  let found ← orElse (getMove id)
    (fail ("Error retrieving maintenance with maintenance_id "++toString id))
  onlyIf own startTransaction
  let reply ← (if found.2=[] then revertEmpty e own id found.1
    else revertMoved e own id found.1 found.2)
  onlyIf own (do let _ ← commit)
  pure reply

end OESS.Database
