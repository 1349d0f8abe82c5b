import OESS.Database.Tables

namespace OESS.Database

open Transactions Transactions.Routine Vlans

/-- The checks of `OESS::Database` that only read: a check without an error has passed. -/
structure Checks where
  isExternalVlanAvailableOnInterface : Option Int → Nat →
    Lookup Tables String (Option (Bool×CircuitType))
  validateEndpoint : Nat → Nat → Option Int → Lookup Tables String Bool
  findAvailableUnit : Option Nat → Option Int → Option Int → Lookup Tables String (Option Int)
  isWithinMacLimit : List (Option String) → Option String → String → Nat →
    Lookup Tables String (Option String)
  getAvailableInternalVlanId : Nat → Nat → Lookup Tables String (Option Nat)
  validatePaths : Nat → Lookup Tables String (Option String)
  circuitSanityCheck : Nat → CircuitArgs → Option CircuitType → Lookup Tables String Bool
  getCircuitDetails : Nat → Lookup Tables String (Option Nat)
  macValidate : Option String → Bool
  macHex2num : Option String → Nat

/-- The clock and the unique name that the database makes. -/
structure Env where
  now : Int
  uuid : String

inductive Reply where
  | circuit (id : Nat) (loopNode : Option Nat)
  | scheduled
  | moved (maintenance : Nat) (moved unmoved : List Nat) (dpid : String)

def queryError : String := "Unable to execute query"

/-- A failure is followed by a rollback if the transaction is the caller's own. -/
def undoingIf {α : Type} (own : Bool) (x : Query α) : Query α := if own then undoing x else x

/-- Fails, with a rollback if the transaction is the function's own. -/
def withdraw {α : Type} (own : Bool) (error : String) : Query α := do
  onlyIf own rollback
  fail error

def startTransaction : Query Unit := beginOrDie

/-- A query whose result is dereferenced at once, so that the process dies if it fails. -/
def rowsOf {α : Type} (f : Tables → α) : Query α := orElse (select f) die

def getUserIdByAuthName (authName : String) : Query (Option Nat) := rowsOf fun d => d.userId authName

def truthy (id : Option Nat) : Option Nat := id.filter (·≠0)

def getWorkgroupDetails (id : Nat) : Query (Option Workgroup) := do
  let row ← select fun d => d.workgroup id
  pure row.join

def getUserAdminStatus (user : Nat) : Query Bool := rowsOf fun d => d.isAdmin user

def isUserInWorkgroup (user workgroup : Nat) : Query Bool := rowsOf fun d => d.isMember user workgroup

/-- A number that could not be read counts as zero. -/
def isWithinCircuitLimit (workgroup : Nat) : Query Bool := do
  let num ← select fun d => d.circuitNum workgroup
  let limit ← select fun d => (d.workgroup workgroup).bind Workgroup.maxCircuits
  pure (num.getD 0 < limit.join.getD 0)

def isWithinCircuitEndpointLimit (workgroup endpoints : Nat) : Query Bool := do
  let limit ← select fun d => (d.workgroup workgroup).bind Workgroup.maxCircuitEndpoints
  pure (endpoints ≤ limit.join.getD 0)

def getInterfaceIdByNames (node interface : Option String) : Query (Option Nat) := do
  let row ← select fun d => do
    let (i,_) ← d.interfaceRow (← node) (← interface)
    pure i.id
  pure row.join

section Events

variable (e : Env)

def addRemoveEvent (name : Option String) (workgroup : Nat) (removeTime : Int)
    (user : Option Nat) (circuit : Nat) : Query Unit :=
  orElse (statement (·.insertAction user workgroup circuit e.now removeTime (.remove name)))
    (fail "Error creating scheduled removal.")

def addEvent (a : CircuitArgs) (user : Option Nat) (circuit : Nat) : Query Unit := do
  orElse (statement fun d =>
      d.insertAction user a.workgroupId circuit e.now a.provisionTime (.provision a.layout))
    (fail "Error creating scheduled addition.")
  onlyIf (a.removeTime≠forever) (addRemoveEvent e a.name a.workgroupId a.removeTime user circuit)

end Events

/-- The other lists may be shorter than that of the nodes. -/
structure Endpoint where
  node : String
  interface : Option String
  (vlan innerVlan : Option Int)
  macNum : Nat

def CircuitArgs.endpoints (a : CircuitArgs) : List Endpoint := a.nodes.zipIdx.map fun (node,i) =>
    ⟨node,a.interfaces[i]?,a.tags[i]?,a.innerTags[i]?.join,a.endpointMacAddressNums[i]?.getD 0⟩

def CircuitArgs.remotes (a : CircuitArgs) : List (String×Option Int) :=
  a.remoteEndpoints.zipIdx.map fun (urn,i) => (urn,a.remoteTags[i]?)

/-- Addresses that are missing are undefined. -/
def shiftMacs (n : Nat) (macs : List String) : List (Option String) :=
  (List.range n).map fun i => macs[i]?

variable (c : Checks) (e : Env) (own : Bool)

/-- The internal VLANs of a link's two ends; an interface seen before gets none. -/
def linkVlans (error : LinkEnd → String) : List Nat → Option Nat → Option Nat → List LinkEnd →
    Query (List Nat×Option Nat×Option Nat)
  | seen,a,z,[] => pure (seen,a,z)
  | seen,a,z,p::ps =>
    if p.interface∈seen then linkVlans error seen a z ps
    else do
      let vlan ← orElse (c.getAvailableInternalVlanId p.node p.interface).run
        (withdraw own (error p))
      if p.interfaceA=p.interface then linkVlans error (p.interface::seen) (some vlan) z ps
      else if p.interfaceZ=p.interface then linkVlans error (p.interface::seen) a (some vlan) ps
      else linkVlans error (p.interface::seen) a z ps

def getLinkEndpoints (link : Option Nat) : Query (List LinkEnd) := do
  let ends ← select fun d => (link.map d.linkEnds).getD []
  pure (ends.getD [])

def getLinkByName (name : String) : Query (Option Nat) :=
  rowsOf fun d => (d.links.find? (·.name=name)).map Link.id

/-- Only provisioning checks that a link exists (`required`). -/
def addLinks (required : Bool) (error : LinkEnd → String) (path : Nat) : List Nat → List String →
    Query Unit
  | _,[] => pure ()
  | seen,link::links => do
    let id ← getLinkByName link
    onlyIf (required∧id=none) (withdraw own ("Unable to determine link with name \""++link++"\""))
    let ends ← getLinkEndpoints id
    let r ← linkVlans c own error seen none none ends
    orElse (statement (·.insertLinkMembership id path r.2.1 r.2.2 e.now))
      (withdraw own ("Error adding link '"++link++"' into path."))
    addLinks required error path r.1 links

def instantiatePath (path : Nat) (type : PathType) : Query Unit :=
  orElse (write fun d => d.insertPathInstantiation path
      (if type=.backup then .available else .active) e.now)
    (withdraw own "Error while instantiating path record.")

variable (a : CircuitArgs)

def permission : Query (Nat×Workgroup) := do
  let user ← getUserIdByAuthName a.userName
  let user ← orElse (pure (truthy user)) (fail ("Unknown user '"++a.userName++"'"))
  let workgroup ← orElse (getWorkgroupDetails a.workgroupId) (fail "Unknown workgroup.")
  let admin ← getUserAdminStatus user
  let allowed ← (if admin then pure true else isUserInWorkgroup user a.workgroupId)
  onlyIf (¬allowed) (fail "Permission denied: user is not a part of the requested workgroup.")
  pure (user,workgroup)

def checkLimits : Query Unit := do
  let within ← isWithinCircuitLimit a.workgroupId
  onlyIf (¬within) (fail "Permission denied: workgroup is already at circuit limit.")
  let within ← isWithinCircuitEndpointLimit a.workgroupId a.nodes.length
  onlyIf (¬within) (fail ("Permission denied: "++toString a.nodes.length++
    " endpoints exceeds the limit of endpoints per circuit placed on this workgroup."))

def admission : Query (Nat×Workgroup) := do
  onlyIf (a.interfaces.length < 2) (fail "Need at least 2 endpoints")
  let r ← permission a
  checkLimits a
  pure r

def provisionState : CircuitState :=
  let state := a.state.getD .active
  if a.provisionTime≠forever∧a.provisionTime > e.now∧state=.active then .scheduled else state

def addMacs (p : Endpoint) (edge : Nat) (macs : List (Option String)) : Query Unit := do
  let limit ← (c.isWithinMacLimit macs p.interface p.node a.workgroupId).run
  match limit with
  | some explanation => abort explanation
  | none =>
    each (fun mac => do
      onlyIf (¬c.macValidate mac) (abort (mac.getD ""++" is not a valid mac address."))
      orElse (write (·.insertMac edge (c.macHex2num mac)))
        (abort ("Unable to create mac address edge to interface '"++p.interface.getD ""++
          "' on endpoint '"++p.node++"'"))) macs

def notAllowed (p : Endpoint) (what : String) : String :=
  what++" \""++p.interface.getD ""++"\" on endpoint \""++p.node++"\" with VLAN tag \""++
    (p.vlan.map toString).getD ""++"\" is not allowed for this workgroup."

def checkEndpoint (type : Option CircuitType) (p : Endpoint) : Query (Nat×Int) := do
  let row ← rowsOf fun d => p.interface.bind fun i => d.interfaceRow p.node i
  let r ← orElse (pure row) (abort ("Unable to find interface '"++p.interface.getD ""++
    "' on node '"++p.node++"'"))
  onlyIf (r.1.role=.trunk∧∃ ts∈r.2.vlanTagRange.bind processTagString,∃ v∈p.vlan,v∈ts)
    (abort (notAllowed p "Trunk interface"))
  let valid ← (c.validateEndpoint r.1.id a.workgroupId p.vlan).run
  onlyIf (¬valid) (abort (notAllowed p "Interface"))
  let unit ← orElse (c.findAvailableUnit (some r.1.id) p.vlan p.innerVlan).run
    (abort "Unable to calculate unit name to use for interface")
  let avail ← (c.isExternalVlanAvailableOnInterface p.vlan r.1.id).run
  onlyIf (¬∃ r∈avail,r.1) (abort ("Vlan '"++(p.vlan.map toString).getD ""++
    "' is currently in use by another circuit on interface '"++p.interface.getD ""++
    "' on endpoint '"++p.node++"'"))
  onlyIf (type≠avail.map Prod.snd)
    (abort "Interface types do not match!  Unable to provision circuit from OpenFlow to MPLS")
  pure (r.1.id,unit)

/-- The endpoints are stored in turn, with the interfaces so far and the addresses left. -/
def provisionEndpoints (circuit : Nat) (type : Option CircuitType) : List String → List String →
    List Endpoint → Query Unit
  | _,_,[] => pure ()
  | seen,macs,p::ps => do
    let name := p.node++"."++p.interface.getD ""
    onlyIf (type=some .mpls∧name∈seen)
      (abort "Can't use the same interface more than once per MPLS circuit.")
    let r ← checkEndpoint c a type p
    let edge ← orElse (statement fun d =>
        d.insertEdge (some r.1) circuit p.vlan p.innerVlan (some r.2) e.now)
      (abort ("Unable to create circuit edge to interface '"++p.interface.getD ""++
        "' on endpoint '"++p.node++"'"))
    onlyIf a.staticMac (addMacs c a p edge (shiftMacs p.macNum macs))
    provisionEndpoints circuit type (name::seen) (if a.staticMac then macs.drop p.macNum else macs) ps

def remoteInterface (urn : String) : Query Nat := do
  let interface ← rowsOf fun d => d.urnInterface urn
  orElse (pure (truthy interface)) (abort ("Unable to find interface associated with URN: "++urn))

def remoteEdgeError (r : String×Option Int) : String :=
  "Unable to create circuit edge to interface \""++r.1++"\" with tag "++
    (r.2.map toString).getD ""++"."

def provisionRemote (circuit : Nat) (r : String×Option Int) : Query Unit := do
  let interface ← remoteInterface r.1
  let unit ← (c.findAvailableUnit (some interface) r.2 none).run
  let _ ← orElse (statement (·.insertEdge (some interface) circuit r.2 none unit e.now))
    (abort (remoteEdgeError r))

def provisionPath (circuit : Nat) (type : Option CircuitType) (pathType : PathType)
    (links : List String) : Query Unit :=
  if links=[]∨pathType=.backup∧type=some .mpls then pure ()
  else do
    let path ← orElse (statement fun d => some (d.insertPath pathType circuit
        (if pathType=.backup then .available else .active)
        (if type=some .mpls then .strict else .none))) (abort "Error while creating path record.")
    instantiatePath e true path pathType
    addLinks c e true true
      (fun p => "Internal error finding available internal id for node "++p.nodeName++".") path []
      links

def createCircuit (user : Nat) (name : String) (interface : Nat) : Query Nat := do
  let avail ← (c.isExternalVlanAvailableOnInterface a.tags.head? interface).run
  let type := avail.map Prod.snd
  let state := provisionState e a
  let circuit ← orElse (statement fun d => some (d.insertCircuit name a state type))
    (abort "Unable to create circuit record.")
  -- the result of this insert is not looked at
  let _ ← statement fun d =>
    d.insertInstantiation circuit a.bandwidth state (some user) e.now none "Circuit Creation"
  onlyIf (state=.scheduled∨state=.reserved) (undoing (addEvent e a (some user) circuit))
  onlyIf (a.removeTime≠forever)
    (undoing (addRemoveEvent e a.name a.workgroupId a.removeTime (some user) circuit))
  provisionEndpoints c e a circuit type [] a.macAddresses a.endpoints
  each (provisionRemote c e circuit) a.remotes
  provisionPath c e circuit type .primary a.links
  provisionPath c e circuit type .backup (if type=some .mpls then [] else a.backupLinks)
  let invalid ← (c.validatePaths circuit).run
  match invalid with
  | some error => abort error
  | none => pure circuit

/-- The first two failures are not rolled back. -/
def provisionCircuit : Query Reply := do
  let r ← admission a
  startTransaction
  let uuid ← orElse (select fun _ => e.uuid) (fail "Internal error generating UUID.")
  let interface ← orElse (getInterfaceIdByNames a.nodes.head? a.interfaces.head?)
    (fail "Unable to find interface for endpoint")
  let circuit ← createCircuit c e a r.1 (r.2.name++"-"++uuid) interface
  let _ ← commit
  pure (.circuit circuit none)

def updateCircuitState (circuit : Nat) (state : CircuitState) (user : Nat) (reason : String) :
    Query Unit := do
  let bandwidth ← orElse (c.getCircuitDetails circuit).run
    (fail ("Unable to find circuit information for circuit "++toString circuit))
  orElse (write (·.endInstantiations circuit e.now))
    (fail "Unable to decom old circuit instantiation.")
  orElse (statement fun d =>
      d.insertInstantiation circuit bandwidth state (some user) e.now none reason)
    (fail "Unable to create new circuit instantiation record.")
  orElse (write (·.setCircuitState circuit state))
    (fail "Unable to set state of new circuit record.")

structure RemoveArgs where
  name : Option String
  circuitId : Nat
  removeTime : Int
  userName : String
  workgroupId : Nat

def endCircuit (circuit user : Nat) : Query Unit := do
  undoing (updateCircuitState c e circuit .decom user "User requested remove of circuit")
  orElse (write (·.endPaths circuit e.now)) (abort "Unable to decom path instantiations.")
  orElse (write (·.endLinks circuit e.now)) (abort "Unable to decom link membership.")
  orElse (write (·.endCircuitEdges circuit e.now)) (abort "Unable to decom edge membership.")

def removeCircuit (a : RemoveArgs) : Query Reply := do
  let user ← getUserIdByAuthName a.userName
  let user ← orElse (pure (truthy user)) (fail ("Unknown user \""++a.userName++"\""))
  if a.removeTime > e.now then
    addRemoveEvent e a.name a.workgroupId a.removeTime (some user) a.circuitId
    pure .scheduled
  else
    startTransaction
    endCircuit c e a.circuitId user
    let _ ← commit
    pure (.circuit a.circuitId none)

section Edit

/-- `doCommit`: the transaction is its own. -/
structure EditArgs extends CircuitArgs where
  circuitId : Nat
  loopNode : Option Nat
  (doCommit doSanityCheck : Bool)
  reason : Option String
  type : Option CircuitType
  doExternal : Bool

variable (a : EditArgs)

/-- Only a query that fails gives no list. -/
def getCircuitById (circuit : Nat) : Query (Option (List (Circuit×CircuitInstantiation))) :=
  select fun d => d.circuitRows circuit

def endRecords (user : Option Nat) : Query Unit := do
  let state := a.state.getD .active
  orElse (write (·.updateCircuit a.circuitId a.toCircuitArgs state (a.type.getD .openflow)))
    (withdraw a.doCommit "Unable to update circuit description.")
  orElse (write (·.endInstantiations a.circuitId e.now))
    (withdraw a.doCommit "Unable to decom old circuit instantiation.")
  orElse (statement fun d => d.insertInstantiation a.circuitId a.bandwidth state user e.now
      a.loopNode (a.reason.getD "User requested circuit edit")) (withdraw a.doCommit queryError)
  orElse (write (·.endEdges a.circuitId a.doExternal e.now))
    (withdraw a.doCommit "Unable to decom circuit_edge_interface_membership.")
  let paths ← select fun d => d.pathsOf a.circuitId
  each (fun p =>
      -- the network defines the tertiary paths
      if p.type=.tertiary then pure ()
      else do
        orElse (write (·.endPathInstantiations p.id e.now))
          (withdraw a.doCommit "Unable to decom path_instantiations")
        orElse (write (·.endLinkMemberships p.id e.now))
          (withdraw a.doCommit "Unable to decom link_path_membership"))
    (paths.getD [])

def editMacs (p : Endpoint) (edge : Nat) (macs : List (Option String)) : Query Unit :=
  each (fun mac => orElse (write (·.insertMac edge (c.macHex2num mac)))
      (withdraw a.doCommit ("Unable to create mac address edge to interface '"++
        p.interface.getD ""++"' on endpoint '"++p.node++"'"))) macs

/-- Without a unit it rolls back in any case. -/
def editEndpoints : List String → List Endpoint → Query Unit
  | _,[] => pure ()
  | macs,p::ps => do
    let interface ← rowsOf fun d => p.interface.bind fun i =>
      (d.interfaceRow p.node i).map fun r => r.1.id
    let unit ← orElse (c.findAvailableUnit interface p.vlan p.innerVlan).run
      (abort "Unable to calculate unit name to use for interface")
    let edge ← orElse (statement fun d =>
        d.insertEdge interface a.circuitId p.vlan p.innerVlan (some unit) e.now)
      (withdraw a.doCommit ("Unable to create circuit edge to interface '"++
        p.interface.getD ""++"'"))
    onlyIf a.staticMac (editMacs c a p edge (shiftMacs p.macNum macs))
    editEndpoints (if a.staticMac then macs.drop p.macNum else macs) ps

/-- The edge gets the default unit of the database. -/
def editRemote (r : String×Option Int) : Query Unit := do
  let interface ← rowsOf fun d => d.urnInterface r.1
  let interface ← orElse (pure (truthy interface))
    (withdraw a.doCommit ("Unable to find interface associated with URN: "++r.1))
  let _ ← orElse (statement (·.insertEdge (some interface) a.circuitId r.2 none (some 0) e.now))
    (withdraw a.doCommit (remoteEdgeError r))

def setPathState (path : Nat) (state : PathState) : Query Unit := do
  orElse (write (·.setPathState path state))
    (fail ("Unable to set state of "++state.text++" on path "++toString path++"."))
  orElse (write (·.endPathInstantiations path e.now))
    (fail ("Unable to set end_epoch on path_instantiation "++toString path++"."))
  orElse (write (·.insertPathInstantiation path state e.now))
    (fail ("Unable to create path_instantiation of state "++state.text++" on "++toString path++"."))

def getPathId (circuit : Nat) (type : PathType) : Query (Option Nat) := do
  let id ← select fun d => d.pathId circuit type
  pure id.join

def editPath (pathType : PathType) (links : List String) : Query Unit :=
  if links=[] then do
    match ← getPathId a.circuitId pathType with
    | none => pure ()
    | some path =>
      undoingIf a.doCommit (setPathState e path .decom)
  else if pathType=.backup∧a.type=some .mpls then pure ()
  else do
    let found ← getPathId a.circuitId pathType
    let path ← orElse (pure found)
      (orElse (statement fun d => some (d.insertPath pathType a.circuitId .active .none))
        (withdraw a.doCommit "Error while creating path record."))
    instantiatePath e a.doCommit path pathType
    addLinks c e a.doCommit false (fun _ => "Internal error finding available internal id.") path []
      links

def editRecords (user : Option Nat) : Query Unit := do
  endRecords e a user
  editEndpoints c e a a.macAddresses a.endpoints
  each (editRemote e a) a.remotes
  editPath c e a .primary a.links
  editPath c e a .backup a.backupLinks

/-- The steps in the transaction, which give the node that the reply names. -/
def editSteps : Query (Option Nat) := do
  let _ ← orElse (getCircuitById a.circuitId)
    (withdraw a.doCommit ("Unable to find circuit by id "++toString a.circuitId))
  let user ← getUserIdByAuthName a.userName
  if a.provisionTime > e.now then do
    undoingIf a.doCommit (addEvent e a.toCircuitArgs user a.circuitId)
    pure none
  else do
    editRecords c e a user
    pure a.loopNode

def editCircuit : Query Reply := do
  let sane ← (if a.doSanityCheck then
      (c.circuitSanityCheck a.circuitId a.toCircuitArgs a.type).run
    else pure true)
  onlyIf (¬sane) (fail "Could not perform circuit sanity check.")
  onlyIf a.doCommit startTransaction
  let loopNode ← editSteps c e a
  onlyIf a.doCommit (do let _ ← commit)
  pure (.circuit a.circuitId loopNode)

end Edit

end OESS.Database
