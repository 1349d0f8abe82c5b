import OESS.Framework.Transactions
import OESS.Vlans.Ranges

namespace OESS.Database

open Transactions Transactions.Routine Vlans

inductive CircuitType where
  | openflow | mpls
  deriving DecidableEq

inductive CircuitState where
  | scheduled | deploying | active | decom | looped | reserved | provisioned
  deriving DecidableEq

inductive PathType where
  | primary | backup | tertiary
  deriving DecidableEq

inductive PathState where
  | active | available | deploying | decom
  deriving DecidableEq

def PathState.text : PathState → String
  | active => "active"
  | available => "available"
  | deploying => "deploying"
  | decom => "decom"

inductive MplsPathType where
  | strict | loose | none

inductive InterfaceRole where
  | unknown | trunk | customer
  deriving DecidableEq

/-- A row of `user` with one of its usernames. -/
structure User where
  id : Nat
  authName : String

structure Workgroup where
  id : Nat
  name : String
  admin : Bool
  (maxCircuits maxCircuitEndpoints : Option Nat)

structure Member where
  (workgroup user : Nat)

/-- A node with its instantiation, and whether its network is the own one. -/
structure Node where
  id : Nat
  (name dpid : String)
  vlanTagRange : Option (List RangeElement)
  (isLocal live : Bool)

structure Interface where
  id : Nat
  name : String
  node : Nat
  role : InterfaceRole
  (interconnectType interconnectId : Option String)

structure Urn where
  urn : String
  interface : Nat

structure Link where
  id : Nat
  name : String

structure LinkInstantiation where
  (link interfaceA interfaceZ : Nat)
  endEpoch : Int

structure Circuit where
  id : Nat
  (name description : String)
  workgroup : Nat
  externalId : Option String
  restoreToPrimary : Nat
  staticMac : Bool
  state : CircuitState
  (remoteUrl remoteRequester : Option String)
  type : Option CircuitType

structure CircuitInstantiation where
  (circuit bandwidth : Nat)
  state : CircuitState
  user : Nat
  (endEpoch startEpoch : Int)
  loopNode : Option Nat
  reason : String

/-- A row of `circuit_edge_interface_membership`. -/
structure Edge where
  (id interface circuit : Nat)
  vlan : Int
  innerTag : Option Int
  (unit endEpoch startEpoch : Int)

structure EdgeMac where
  (edge mac : Nat)

structure Path where
  id : Nat
  type : PathType
  circuit : Nat
  state : PathState
  mplsType : MplsPathType

structure PathInstantiation where
  path : Nat
  state : PathState
  (endEpoch startEpoch : Int)

structure LinkMembership where
  (link path vlanA vlanZ : Nat)
  (endEpoch startEpoch : Int)

/-- A row of `edge_interface_move_maintenance`. -/
structure Move where
  id : Nat
  name : String
  (origInterface tempInterface : Nat)
  (startEpoch endEpoch : Int)

structure MovedCircuit where
  (move circuit : Nat)

/-- The arguments of a circuit call; nodes, interfaces and tags run in parallel. -/
structure CircuitArgs where
  name : Option String
  description : String
  bandwidth : Nat
  (provisionTime removeTime : Int)
  (links backupLinks nodes interfaces : List String)
  tags : List Int
  innerTags : List (Option Int)
  macAddresses : List String
  endpointMacAddressNums : List Nat
  userName : String
  workgroupId : Nat
  externalId : Option String
  remoteEndpoints : List String
  remoteTags : List Int
  restoreToPrimary : Nat
  staticMac : Bool
  state : Option CircuitState
  (remoteUrl remoteRequester : Option String)

/-- What `_add_event` stores of the arguments. -/
structure CircuitLayout where
  name : Option String
  staticMac : Bool
  endpointMacAddressNums : List Nat
  macAddresses : List String
  bandwidth : Nat
  removeTime : Int
  restoreToPrimary : Nat
  (links backupLinks nodes interfaces : List String)
  tags : List Int
  deriving DecidableEq

def CircuitArgs.layout (a : CircuitArgs) : CircuitLayout where
  name := a.name
  staticMac := a.staticMac
  endpointMacAddressNums := a.endpointMacAddressNums
  macAddresses := a.macAddresses
  bandwidth := a.bandwidth
  removeTime := a.removeTime
  restoreToPrimary := a.restoreToPrimary
  links := a.links
  backupLinks := a.backupLinks
  nodes := a.nodes
  interfaces := a.interfaces
  tags := a.tags

inductive Layout where
  | provision (l : CircuitLayout)
  | edit (l : CircuitLayout) (state : Option CircuitState)
  | remove (name : Option String)
  | changePath (path : PathType) (reason : String)
  deriving DecidableEq

structure ScheduledAction where
  (id user workgroup circuit : Nat)
  (registrationEpoch activationEpoch completionEpoch : Int)
  layout : Layout
  deriving DecidableEq

/-- The tables that the circuit calls read or write. -/
structure Tables where
  users : List User
  workgroups : List Workgroup
  members : List Member
  nodes : List Node
  interfaces : List Interface
  urns : List Urn
  links : List Link
  linkInstantiations : List LinkInstantiation
  circuits : List Circuit
  circuitInstantiations : List CircuitInstantiation
  scheduledActions : List ScheduledAction
  edges : List Edge
  edgeMacs : List EdgeMac
  paths : List Path
  pathInstantiations : List PathInstantiation
  linkMemberships : List LinkMembership
  moves : List Move
  movedCircuits : List MovedCircuit

abbrev Query (α : Type) := Routine Tables String α

def forever : Int := -1

def nextId (ids : List Nat) : Nat := ids.foldl max 0+1

/-- An endpoint of a link as `get_link_endpoints` lists it. -/
structure LinkEnd where
  node : Nat
  nodeName : String
  (interface interfaceA interfaceZ : Nat)

namespace Tables

variable (d : Tables)

def userId (authName : String) : Option Nat := (d.users.find? (·.authName=authName)).map User.id

def workgroup (id : Nat) : Option Workgroup := d.workgroups.find? fun w => w.id=id

def isAdmin (user : Nat) : Bool :=
  d.members.any fun m => m.user=user&&d.workgroups.any fun w => w.id=m.workgroup&&w.admin

def isMember (user workgroup : Nat) : Bool :=
  d.members.any fun m => m.workgroup=workgroup&&m.user=user

/-- The number of the workgroup's circuits that are not decommissioned. -/
def circuitNum (workgroup : Nat) : Nat :=
  (d.circuitInstantiations.filter fun i => i.endEpoch=forever∧i.state≠.decom∧
    ∃ c∈d.circuits,c.id=i.circuit∧c.workgroup=workgroup).length

def interfaceRow (node interface : String) : Option (Interface×Node) :=
  d.interfaces.findSome? fun i =>
    (d.nodes.find? fun n => n.id=i.node∧n.name=node∧i.name=interface).map fun n => (i,n)

def urnInterface (urn : String) : Option Nat :=
  (d.urns.find? fun u => u.urn=urn∧∃ i∈d.interfaces,i.id=u.interface).map Urn.interface

def linkEnds (link : Nat) : List LinkEnd :=
  d.linkInstantiations.flatMap fun l =>
    if l.link=link∧l.endEpoch=forever then
      (d.interfaces.filter fun i => i.id=l.interfaceA∨i.id=l.interfaceZ).flatMap fun i =>
        (d.nodes.filter (·.id=i.node)).map fun n =>
          ⟨n.id,n.name,i.id,l.interfaceA,l.interfaceZ⟩
    else []

def insertCircuit (name : String) (a : CircuitArgs) (state : CircuitState)
    (type : Option CircuitType) : Nat×Tables :=
  let id := nextId (d.circuits.map Circuit.id)
  (id,{d with circuits := d.circuits++[⟨id,name,a.description,a.workgroupId,a.externalId,
    a.restoreToPrimary,a.staticMac,state,a.remoteUrl,a.remoteRequester,type⟩]})

/-- The user must not be null. -/
def insertInstantiation (circuit bandwidth : Nat) (state : CircuitState) (user : Option Nat)
    (now : Int) (loopNode : Option Nat) (reason : String) : Option (Unit×Tables) :=
  user.map fun user => ((),{d with circuitInstantiations := d.circuitInstantiations++
    [⟨circuit,bandwidth,state,user,forever,now,loopNode,reason⟩]})

/-- The user must not be null. -/
def insertAction (user : Option Nat) (workgroup circuit : Nat) (now activation : Int)
    (layout : Layout) : Option (Unit×Tables) :=
  user.map fun user => ((),{d with scheduledActions := d.scheduledActions++
    [⟨nextId (d.scheduledActions.map ScheduledAction.id),user,workgroup,circuit,now,activation,
      forever,layout⟩]})

variable (circuit : Nat)

def circuitRows : List (Circuit×CircuitInstantiation) :=
  d.circuits.flatMap fun c =>
    (d.circuitInstantiations.filter fun i =>
      c.id=circuit∧i.circuit=circuit∧i.endEpoch=forever).map fun i => (c,i)

/-- An edge is inserted if its interface, tag and unit are not null. The key of the table that keeps
two edges of one circuit apart is not modelled. -/
def insertEdge (interface : Option Nat) (circuit : Nat) (vlan innerTag unit : Option Int)
    (now : Int) : Option (Nat×Tables) :=
  match interface,vlan,unit with
  | some interface,some vlan,some unit =>
    let id := nextId (d.edges.map Edge.id)
    some (id,{d with edges := d.edges++[⟨id,interface,circuit,vlan,innerTag,unit,forever,now⟩]})
  | _,_,_ => none

def insertMac (edge mac : Nat) : Tables := {d with edgeMacs := d.edgeMacs++[⟨edge,mac⟩]}

def insertPath (type : PathType) (circuit : Nat) (state : PathState) (mplsType : MplsPathType) :
    Nat×Tables :=
  let id := nextId (d.paths.map Path.id)
  (id,{d with paths := d.paths++[⟨id,type,circuit,state,mplsType⟩]})

variable (path : Nat)

def insertPathInstantiation (state : PathState) (now : Int) : Tables :=
  {d with pathInstantiations := d.pathInstantiations++[⟨path,state,forever,now⟩]}

/-- None of the columns may be null. -/
def insertLinkMembership (link : Option Nat) (path : Nat) (vlanA vlanZ : Option Nat) (now : Int) :
    Option (Unit×Tables) :=
  match link,vlanA,vlanZ with
  | some link,some vlanA,some vlanZ =>
    some ((),{d with linkMemberships := d.linkMemberships++[⟨link,path,vlanA,vlanZ,forever,now⟩]})
  | _,_,_ => none

variable (now : Int)

def endInstantiations : Tables :=
  {d with circuitInstantiations := d.circuitInstantiations.map fun i =>
    if i.circuit=circuit∧i.endEpoch=forever then {i with endEpoch := now} else i}

/-- The circuit's edges are ended, except external ones that are to stay. -/
def endEdges (external : Bool) (now : Int) : Tables :=
  {d with edges := d.edges.map fun e =>
    if e.circuit=circuit∧e.endEpoch=forever∧(external∨∃ i∈d.interfaces,i.id=e.interface∧
        ∃ n∈d.nodes,n.id=i.node∧n.isLocal) then {e with endEpoch := now} else e}

def endPathInstantiations : Tables :=
  {d with pathInstantiations := d.pathInstantiations.map fun i =>
    if i.path=path∧i.endEpoch=forever then {i with endEpoch := now} else i}

def endLinkMemberships : Tables :=
  {d with linkMemberships := d.linkMemberships.map fun m =>
    if m.path=path∧m.endEpoch=forever then {m with endEpoch := now} else m}

def pathsOf : List Path := d.paths.filter fun p => p.circuit=circuit

def pathId (type : PathType) : Option Nat :=
  (d.paths.find? fun p => p.circuit=circuit∧p.type=type).map Path.id

def setPathState (state : PathState) : Tables :=
  {d with paths := d.paths.map fun p => if p.id=path then {p with state := state} else p}

def setCircuitState (state : CircuitState) : Tables :=
  {d with circuits := d.circuits.map fun c => if c.id=circuit then {c with state := state} else c}

def updateCircuit (a : CircuitArgs) (state : CircuitState) (type : CircuitType) : Tables :=
  {d with circuits := d.circuits.map fun c =>
    if c.id=circuit then
      {c with
        description := a.description
        restoreToPrimary := a.restoreToPrimary
        staticMac := a.staticMac
        state := state
        type := some type}
    else c}

def endPaths : Tables :=
  {d with pathInstantiations := d.pathInstantiations.map fun i =>
    if i.endEpoch=forever∧∃ p∈d.paths,p.id=i.path∧p.circuit=circuit then {i with endEpoch := now}
    else i}

def endLinks : Tables :=
  {d with linkMemberships := d.linkMemberships.map fun m =>
    if m.endEpoch=forever∧∃ p∈d.paths,p.id=m.path∧p.circuit=circuit then {m with endEpoch := now}
    else m}

def endCircuitEdges : Tables :=
  {d with edges := d.edges.map fun e =>
    if e.circuit=circuit∧e.endEpoch=forever then {e with endEpoch := now} else e}

/-- Both interfaces must not be null. -/
def insertMove (name : String) (orig temp : Option Nat) (now : Int) : Option (Nat×Tables) :=
  match orig,temp with
  | some orig,some temp =>
    let id := nextId (d.moves.map Move.id)
    some (id,{d with moves := d.moves++[⟨id,name,orig,temp,now,forever⟩]})
  | _,_ => none

def insertMovedCircuit (move circuit : Nat) : Tables :=
  {d with movedCircuits := d.movedCircuits++[⟨move,circuit⟩]}

/-- The number of matching rows, and the rows with the end set. -/
def endMove (move : Nat) (now : Int) : Nat×Tables :=
  ((d.moves.filter (·.id=move)).length,{d with moves := d.moves.map fun m =>
    if m.id=move then {m with endEpoch := now} else m})

/-- The id 0 counts as none given. -/
def currentMove (move : Nat) : Option Move :=
  d.moves.find? fun m => (move=0∨m.id=move)∧m.endEpoch=forever∧
    (∃ i∈d.interfaces,i.id=m.origInterface)∧∃ i∈d.interfaces,i.id=m.tempInterface

def circuitsMoved (move : Nat) : List Nat :=
  (d.movedCircuits.filter fun m => m.move=move∧∃ c∈d.circuits,c.id=m.circuit).map
    MovedCircuit.circuit

variable (interface : Nat)

def edgesOn (circuits : Option (List Nat)) : List Edge :=
  d.edges.filter fun e => e.interface=interface∧e.endEpoch=forever∧ ∀ ids∈circuits,e.circuit∈ids

def endEdge (edge : Nat) (now : Int) : Nat×Tables :=
  ((d.edges.filter (·.id=edge)).length,{d with edges := d.edges.map fun e =>
    if e.id=edge then {e with endEpoch := now} else e})

def cloudSettings : Option String×Option String :=
  ((d.interfaces.find? (·.id=interface)).map fun i =>
    (i.interconnectType,i.interconnectId)).getD (none,none)

def setCloudSettings (settings : Option String×Option String) : Tables :=
  {d with interfaces := d.interfaces.map fun i =>
    if i.id=interface then
      {i with interconnectType := settings.1,interconnectId := settings.2}
    else i}

end Tables

end OESS.Database
