import OESS.Framework.Scripts
import OESS.Provision.Request

namespace OESS.Provision.Exits

open Endpoint (Kind Fields)
open Scripts

inductive Table where
  | circuit | circuitInstantiation | circuitEdgeInterfaceMembership | cloudConnectionVrfEp | path
  | pathInstantiation | linkPathMembership | vrf | vrfEp | vrfEpPeer | history | vrfHistory
  | interface | interfaceInstantiation | interfaceAcl
  deriving DecidableEq

def endpointTable : Kind → Table
  | .circuit => .circuitEdgeInterfaceMembership
  | .vrf => .vrfEp

/-- Whether the endpoint has an id, and the answers. Without an account nothing is inserted. -/
structure CloudWrite where
  identified : Bool
  delete : Answer
  insert : Option Answer

def updateCloud (w : CloudWrite) : Call Table := .refusing (if w.identified=true then none
      else some ("Argument `endpoint->circuit_ep_id` or `endpoint->vrf_endpoint_id` is "++
        "required but both are missing.")) (statements ((Table.cloudConnectionVrfEp,w.delete)::
      w.insert.toList.map fun a => (Table.cloudConnectionVrfEp,a)))

/-- The fields, the unit, and the answers. -/
structure EndpointWrite where
  fields : Fields
  unit : Bool
  row : Answer
  cloud : CloudWrite

variable (kind : Kind)

/-- A failed write of a VRF endpoint rolls back; the cloud connection is written all the same. -/
def updateDb (w : EndpointWrite) : Call Table :=
  .refusing (Endpoint.validate w.fields) (.refusing (if w.unit=true then none
        else some "Couldn't update Endpoint: Couldn't find an available Unit.")
      ⟨.write (endpointTable kind) w.row (kind==.vrf)::(updateCloud w.cloud).steps,
        (updateCloud w.cloud).error.or w.row.error⟩)

/-- With a cloud connection there is one insert more. -/
structure NewEndpoint extends EndpointWrite where
  connection : Option Answer

def create (w : NewEndpoint) : Call Table := .leading "Couldn't create Endpoint: "
    (.refusing (if w.unit=true then none else some "Couldn't find an available Unit.")
      (.refusing (Endpoint.validate w.fields) ((statements ((endpointTable kind,w.row)::
          match kind with
          | .circuit => []
          | .vrf => w.connection.toList.map fun a => (Table.cloudConnectionVrfEp,a))).andThen
            (updateCloud w.cloud))))

/-- `stale` is the error of an earlier statement, returned too if there is no row to delete. -/
structure Removal where
  (peers row : Answer)
  stale : Option String

def remove (r : Removal) : Call Table :=
  match kind with
  | .circuit => statements [(.circuitEdgeInterfaceMembership,r.row)]
  | .vrf => (statements [(.vrfEpPeer,r.peers)]).andThen
      ⟨[.write .vrfEp r.row false],if r.row=.unchanged then r.stale else r.row.error⟩

structure Addition where
  entity : String
  interface : Selection
  (bandwidthValid exceeds : Bool)
  endpoint : NewEndpoint

/-- The circuit edit leaves it open without an interface. -/
def admission (a : Adding) (x : Addition) : List (Step Table) := (match x.interface with
    | .refused reason =>
      [.check (.need false ("Cannot find a valid Interface for "++x.entity++": "++reason)) true]
    | .unknown => [.check (.need false (a.noInterface x.entity)) a.strict]
    | .found _ => [])++
  [.check (.need x.bandwidthValid (a.invalidBandwidth x.entity)) true,
    .check (.need (!x.exceeds) (exceedsText x.entity)) true]

def addEndpoint (a : Adding) (x : Addition) : List (Step Table) := admission a x++
    if a.strict=true then (create a.kind x.endpoint).required a.lead true
    else (create a.kind x.endpoint).steps

def decode (error : Option String) : List (Step Table) :=
  [.check (.need error.isNone ("Cannot decode endpoint: "++error.getD "")) false]

/-- `failure`: the error with which a call dies. -/
structure CloudRound where
  skip : Bool
  failure : Option String
  endpoints : List EndpointWrite

/-- The texts of Perl also say where it died. -/
def setupEndpoints (lead : String) (r : CloudRound) : List (Step Table) :=
  if r.skip=true then []
  else
    .check (.need r.failure.isNone (lead++r.failure.getD "")) true::
      r.endpoints.flatMap fun w => (updateDb kind w).required lead true

structure Topics where
  (pending previous : Option String)

def chooseTopics (t : Topics) : List (Step Table) :=
  [.check (.need (t.pending.isNone && t.previous.isNone)
    (t.pending.getD ""++" "++t.previous.getD "")) false]

structure Access where
  username : String
  known : Bool
  denied : Option String

def Access.checks (a : Access) : List Check :=
  [.need a.known ("User '"++a.username++"' is invalid."),.need a.denied.isNone (a.denied.getD "")]

structure StaticPath where
  unknownLink : Option String
  connects : Bool
  (row instantiation : Answer)
  links : List Answer

def createPath (p : StaticPath) : Call Table :=
  statements ((.path,p.row)::(.pathInstantiation,p.instantiation)::
    p.links.map fun a => (.linkPathMembership,a))

structure Entry (α : Type) where
  undecodable : Option String
  content : α

structure Creation where
  access : Access
  (row instantiation : Answer)
  endpoints : List (Entry Addition)
  path : Option StaticPath
  cloud : CloudRound
  commits : Bool

def staticPath (n : Nat) (p : StaticPath) : List (Step Table) :=
  [.check (.need (n ≤ 2) ("Couldn't create Circuit: Static path are unsupported on Circuits with "++
      "more than two Endpoints.")) true,
    .check (.need p.unknownLink.isNone ("Couldn't create Circuit: Unknown link "++
      p.unknownLink.getD ""++" used in static Path.")) true,.check (.must (2 ≤ n)) false,
    .check (.need p.connects
      "Couldn't create Circuit: Static Path doesn't connect selected Endpoints.") true]++
  (createPath p).required "Couldn't create Circuit: " true

def provision (r : Creation) : Script Table where
  before := r.access.checks
  body := (statements [(.circuit,r.row),(.circuitInstantiation,r.instantiation)]).required
      "Couldn't create Circuit: " true++
    (r.endpoints.flatMap fun e => decode e.undecodable++addEndpoint provisionAdding e.content)++
    (r.path.toList.flatMap (staticPath r.endpoints.length))++
    setupEndpoints .circuit "Couldn't create Circuit: " r.cloud
  commits := r.commits
  late := []

/-- A new endpoint, or one written again if found. -/
inductive CircuitEdit where
  | add (x : Addition)
  | edit (found : Bool) (w : EndpointWrite)

def editCircuitEndpoint : CircuitEdit → List (Step Table)
  | .add x => addEndpoint updateAdding x
  | .edit found w =>
    .check (.must found) false::(updateDb .circuit w).required "Couldn't update Endpoint: " true

/-- The handler of a new circuit loads the circuit first. `missing` names an argument not given. -/
structure Update where
  access : Access
  (loaded known loadedAgain : Bool)
  missing : Option String
  (row closed instantiation : Answer)
  endpoints : List (Entry CircuitEdit)
  removals : List Removal
  cloud : CloudRound
  topics : Topics
  commits : Bool

def updateCircuit (r : Update) : Call Table :=
  .refusing r.missing (statements [(.circuit,r.row),(.circuitInstantiation,r.closed),
    (.circuitInstantiation,r.instantiation)])

def update (r : Update) : Script Table where
  before := r.access.checks++[.need r.loaded "Couldn't load Circuit from database."]
  body := [.check (.need r.known ("User '"++r.access.username++"' is invalid.")) false,
      .check (.need r.loadedAgain "Couldn't load Circuit from database.") false]++
    (updateCircuit r).required "Couldn't update Circuit: " false++
    (r.endpoints.flatMap fun e => decode e.undecodable++editCircuitEndpoint e.content)++
    (r.removals.flatMap fun x => (remove .circuit x).required "" true)++
    setupEndpoints .circuit "" r.cloud++chooseTopics r.topics
  commits := r.commits
  late := []

/-- It has another's local address, is created or written once its addresses have passed, is left
out, or its addresses cannot be made. -/
inductive PeerEdit where
  | duplicate
  | create (invalid : Option String) (row : Answer)
  | update (invalid : Option String) (row : Answer)
  | skip
  | die

def editPeer (rollsBack : Bool) : PeerEdit → List (Step Table)
  | .duplicate =>
    [.check (.need false "Cannot have duplicate local addresses on an interface.") rollsBack]
  | .create invalid row => (Call.refusing invalid (statements [(.vrfEpPeer,row)])).required "" true
  | .update invalid row => (Call.refusing invalid (statements [(.vrfEpPeer,row)])).required "" true
  | .skip => []
  | .die => [.check (.must false) false]

/-- Peers not named are decommissioned. -/
inductive VrfEdit where
  | add (x : Addition) (peers : List PeerEdit)
  | edit (found : Bool) (w : EndpointWrite) (peers : List PeerEdit) (decoms : List Answer)

/-- Writes of the endpoint and of its old peers may fail unnoticed. Two peers with one address end
an edit without a rollback. -/
def editVrfEndpoint : VrfEdit → List (Step Table)
  | .add x peers => addEndpoint vrfAdding x++peers.flatMap (editPeer true)
  | .edit found w peers decoms =>
    .check (.must found) false::(updateDb .vrf w).steps++peers.flatMap (editPeer false)++
      decoms.map fun a => .write .vrfEpPeer a false

/-- The VRF of a request is new, or it is loaded and written. -/
inductive VrfTarget where
  | new (row : Answer)
  | old (loaded : Bool) (row : Answer) (topics : Topics)

structure ProvisionVrf where
  networkType : Bool
  access : Access
  target : VrfTarget
  endpoints : List (Entry VrfEdit)
  removals : List Removal
  cloud : CloudRound
  numbered : Bool
  error : String
  history : List Answer
  commits : Bool

def writeVrf : VrfTarget → List (Step Table)
  | .new row => (statements [(.vrf,row)]).required "Couldn't create VRF: " true
  | .old loaded row _ => [.check (.must loaded) false,.write .vrf row false]

def vrfTopics : VrfTarget → List (Step Table)
  | .new _ => []
  | .old _ _ topics => chooseTopics topics

def provisionVrf (r : ProvisionVrf) : Script Table where
  before :=
    .need r.networkType ("Support for Layer 3 Connections is currently disabled. Please contact "++
      "your OESS administrator for more information.")::r.access.checks
  body := writeVrf r.target++
    (r.endpoints.flatMap fun e => decode e.undecodable++editVrfEndpoint e.content)++
    (r.removals.flatMap fun x => (remove .vrf x).required "" true)++setupEndpoints .vrf "" r.cloud++
    [.check (.need r.numbered ("error creating VRF: "++r.error)) false]++vrfTopics r.target++
    (statements (List.zip [Table.history,.vrfHistory] r.history)).steps
  commits := r.commits
  late := []

structure Review where
  (user denied : Option String)
  (endpointGiven approveGiven : Bool)
  kind : Kind
  (found approve : Bool)
  denial : EndpointWrite
  connection : Bool
  cloud : CloudRound
  commits : Bool

def reviewEndpoint (r : Review) : Script Table where
  before := [.need r.user.isNone (r.user.getD ""),.need r.denied.isNone (r.denied.getD ""),
      .need r.endpointGiven "circuit_ep_id or vrf_ep_id must be specified",
      .need r.approveGiven "approve must be 0 or 1"]
  body := .check (.must r.found) false::
      if r.approve=true then
        .check (.must r.connection) false::setupEndpoints r.kind "" r.cloud
      else (updateDb r.kind r.denial).steps
  commits := r.commits
  late := []

/-- The controllers of the two nodes, the topic, the client and the answer to `update_cache`. -/
structure Notification where
  (nodes sameController : Bool)
  topic : Option String
  (client answered : Bool)
  error : Option String

def Notification.checks (n : Notification) : List Check := [.must n.nodes,
    .need n.sameController ("Interfaces cannot be migrated between controllers, as this would "++
      "result in Connections with Endpoints on multiple controllers."),
    .need n.topic.isNone (n.topic.getD ""),.need n.client "Couldn't create RabbitMQ client.",
    .need n.answered "Error while calling `update_cache` via RabbitMQ.",
    .need n.error.isNone ("Error while calling `update_cache`: "++n.error.getD "")]

/-- Its row, a query and, after a change, two more. -/
structure InterfaceWrite where
  row : Answer
  instantiation : List Answer

def updateInterface (w : InterfaceWrite) : Call Table :=
  statements ((.interface,w.row)::w.instantiation.map fun a => (.interfaceInstantiation,a))

/-- With unit and inner tag taken the search dies. -/
structure MovedEndpoint where
  kind : Kind
  unit : Bool
  write : EndpointWrite

/-- The tags may be such that they cannot be collected. -/
structure Migration where
  (user denied : Option String)
  (sourceId destinationId : String)
  (source destination : Bool)
  (destinationWrite sourceWrite : InterfaceWrite)
  collected : Bool
  endpoints : List MovedEndpoint
  acls : List Answer
  commits : Bool
  notification : Notification

/-- The errors of the single endpoints are dropped. -/
def moveEndpoints (r : Migration) : List (Step Table) := .check (.must r.collected) false::
    r.endpoints.flatMap fun e => .check (.must e.unit) false::(updateDb e.kind e.write).steps

/-- The text names the error of the user, which is none. -/
def moveAcls (acls : List Answer) : List (Step Table) := acls.flatMap fun a =>
    [.write .interfaceAcl a false,.check (.need a.error.isNone "Couldn't move ACLs: ") true]

def migrateInterface (r : Migration) : Script Table where
  before := [.need r.user.isNone (r.user.getD ""),.need r.denied.isNone (r.denied.getD "")]
  body := [.check (.need r.source ("Couldn't find source interface "++r.sourceId++".")) false,
      .check (.need r.destination ("Couldn't find destination interface "++r.destinationId++"."))
        false]++
    (updateInterface r.destinationWrite).required "Couldn't update destination interface: " true++
    (updateInterface r.sourceWrite).required "Couldn't update source interface: " true++
    moveEndpoints r++moveAcls r.acls
  commits := r.commits
  late := r.notification.checks

/-- It dies when it writes a missing interface. -/
def moveInterfaceConfiguration (r : Migration) : Script Table where
  before := [.need r.denied.isNone (r.denied.getD "")]
  body := .check (.must r.destination) false::
    (updateInterface r.destinationWrite).required "Couldn't update new interface: " true++
    .check (.must r.source) false::
    (updateInterface r.sourceWrite).required "Couldn't update original interface: " true++
    moveEndpoints r++
    moveAcls r.acls
  commits := r.commits
  late := r.notification.checks

inductive Request where
  | provision (r : Creation)
  | update (r : Update)
  | provisionVrf (r : ProvisionVrf)
  | reviewEndpoint (r : Review)
  | migrateInterface (r : Migration)
  | moveInterfaceConfiguration (r : Migration)

def Request.script : Request → Script Table
  | .provision r => Exits.provision r
  | .update r => Exits.update r
  | .provisionVrf r => Exits.provisionVrf r
  | .reviewEndpoint r => Exits.reviewEndpoint r
  | .migrateInterface r => Exits.migrateInterface r
  | .moveInterfaceConfiguration r => Exits.moveInterfaceConfiguration r

end OESS.Provision.Exits
