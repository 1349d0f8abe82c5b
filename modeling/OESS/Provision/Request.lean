import Mathlib.Algebra.Ring.Int.Defs
import OESS.Endpoint.Lifecycle
import OESS.Provision.Interface

namespace OESS.Provision

open Endpoint (Kind State Row Tables Fields)

/-- The tables, with bandwidth by the key of the row. -/
structure Store where
  tables : Tables
  bandwidth : Kind×Nat → Int
  interfaces : Nat → Interface

/-- It reports an error, an endpoint operation fails, Perl dies, or an unmodelled part fails. -/
inductive Failure where
  | message (text : String)
  | endpoint (lead : String) (failure : Endpoint.Failure)
  | died
  | incomplete

/-- The interface is chosen by name, or among the entity's. -/
inductive Selection where
  | found (interface : Nat)
  | unknown
  | refused (reason : String)

/-- `existing`: one to edit; `id`: that of a new one. -/
structure Entry where
  entity : String
  existing : Option Nat
  id : Nat
  interface : Selection
  bandwidth : Option Int
  (tag innerTag : Option Nat)

/-- Cloud providers answer for a new endpoint's id with tags they choose; without an answer function
a call dies. `completes`: unmodelled steps succeed. -/
structure Request where
  owner : Nat
  entries : List Entry
  (isAdmin skipCloudProvisioning : Bool)
  cloud : Option (Nat → Option (Nat×Nat))
  completes : Bool

/-- Without an id it is not stored; `added`: new and active. -/
structure Ep where
  id : Option Nat
  (interface tag : Nat)
  innerTag : Option Nat
  bandwidth : Int
  state : State
  added : Bool

def Ep.fields (ep : Ep) : Fields := ⟨ep.interface,ep.tag,ep.innerTag,ep.state⟩

namespace Store

variable (s : Store)

def counted (interface : Nat) (r : Row) : Bool :=
  r.interface==interface && ((r.kind==.circuit && r.endEpoch==-1) ||
      (r.kind==.vrf && (r.state==some .active || r.state==some .inReview)))

/-- Each table has its own idea of the rows that count. -/
def utilizedBandwidth (interface : Nat) : Int :=
  ((s.tables.rows.filter (counted interface)).map fun r => s.bandwidth r.key).sum

variable (kind : Kind)

def loadEndpoints (owner : Nat) : List Row :=
  s.tables.rows.filter fun r => r.kind==kind && r.owner==owner &&
    (kind==.vrf || r.endEpoch==-1) && Endpoint.stateNotDecom r.state

def toEp (r : Row) : Ep :=
  ⟨some r.id,r.interface,r.tag,r.innerTag,s.bandwidth r.key,r.state.getD .active,false⟩

def controllers (owner : Nat) : List Controller :=
  (s.loadEndpoints kind owner).map fun r => (s.interfaces r.interface).controller

/-- The connection gets a number that nothing else has. -/
def openConnection (owner : Nat) : Except Failure Store :=
  if (kind,owner)∈s.tables.connections∨(∃ r∈s.tables.rows,r.kind=kind∧r.owner=owner) then
    .error (.endpoint "" .database)
  else
    .ok {s with tables := {s.tables with connections := (kind,owner)::s.tables.connections}}

def create (id owner : Nat) (f : Fields) (bandwidth : Int) : Except Endpoint.Failure Store :=
  match s.tables.create kind id owner f with
  | .error failure => .error failure
  | .ok t => .ok {s with tables := t,bandwidth := Function.update s.bandwidth (kind,id) bandwidth}

/-- An object without an id fails at the latest there. -/
def updateDb (ep : Ep) : Except Endpoint.Failure Store :=
  match ep.id with
  | none => .error (.message ("Argument endpoint->circuit_ep_id or endpoint->vrf_endpoint_id is "++
      "required but both are missing."))
  | some id =>
    match s.tables.updateDb kind id ep.fields with
    | .error failure => .error failure
    | .ok t =>
      .ok {s with tables := t,bandwidth := Function.update s.bandwidth (kind,id) ep.bandwidth}

def remove (id : Nat) : Store := {s with tables := s.tables.remove kind id}

end Store

/-- What was written, and the connection's objects. -/
structure Session where
  store : Store
  endpoints : List Ep

namespace Session

variable (s : Session)

def getEndpoint (id : Nat) : Option Ep := s.endpoints.find? fun ep => ep.id==some id

def put (ep : Ep) (store : Store) : Session :=
  ⟨store,s.endpoints.map fun ep' => if ep'.id=ep.id then ep else ep'⟩

end Session

/-- Where the handlers differ: the kind, the texts, and whether a failure ends the request. -/
structure Adding where
  kind : Kind
  (noInterface invalidBandwidth : String → String)
  lead : String
  strict : Bool

def exceedsText (entity : String) : String :=
  "Couldn't create Connnection: Specified bandwidth exceeds provisionable bandwidth for '"++entity++
    "'."

def provisionAdding : Adding where
  kind := .circuit
  noInterface entity := "Couldn't create Circuit: Cannot find a valid Interface for "++entity++"."
  invalidBandwidth entity :=
    "Couldn't create Connection: Specified bandwidth is invalid for "++entity++"."
  lead := "Couldn't create Circuit: "
  strict := true

def updateAdding : Adding where
  kind := .circuit
  noInterface entity := "Cannot find a valid Interface for "++entity++"."
  invalidBandwidth entity :=
    "Couldn't edit Connection: Specified bandwidth is invalid for "++entity++"."
  lead := ""
  strict := false

def vrfAdding : Adding where
  kind := .vrf
  noInterface entity := "Cannot find a valid Interface for "++entity++"."
  invalidBandwidth entity :=
    "Requested bandwidth reservation is invalid for Endpoint terminating on '"++entity++"'."
  lead := "Couldn't create VRF: "
  strict := true

section Handlers

variable (selectors : List Selector) (req : Request) (s : Store)

def exceeds (interface : Nat) (bandwidth : Int) : Bool :=
  match (s.interfaces interface).provisionableBandwidth with
  | none => false
  | some limit => decide (bandwidth+s.utilizedBandwidth interface>limit)

def newState (interface : Nat) (bandwidth : Int) : State :=
  if (s.interfaces interface).bandwidthRequiresApproval selectors bandwidth=true then .inReview
  else .active

def newFields (interface : Nat) (e : Entry) : Fields :=
  ⟨interface,e.tag.getD 0,e.innerTag,newState selectors s interface (e.bandwidth.getD 0)⟩

def newEp (id : Option Nat) (f : Fields) (bandwidth : Int) : Ep :=
  ⟨id,f.interface,f.tag,f.innerTag,bandwidth,f.state,f.state==.active⟩

def addEndpoint (a : Adding) (s : Session) (e : Entry) : Except Failure Session :=
  match e.interface with
  | .refused reason =>
    .error (.message ("Cannot find a valid Interface for "++e.entity++": "++reason))
  | .unknown => .error (.message (a.noInterface e.entity))
  | .found i =>
    if (s.store.interfaces i).isBandwidthValid selectors (e.bandwidth.getD 0) req.isAdmin=false then
      .error (.message (a.invalidBandwidth e.entity))
    else if exceeds s.store i (e.bandwidth.getD 0)=true then
      .error (.message (exceedsText e.entity))
    else
      let f := newFields selectors s.store i e
      match s.store.create a.kind e.id req.owner f (e.bandwidth.getD 0) with
      | .ok store => .ok ⟨store,s.endpoints++[newEp (some e.id) f (e.bandwidth.getD 0)]⟩
      | .error failure =>
        if a.strict=true then .error (.endpoint a.lead failure)
        else .ok ⟨s.store,s.endpoints++[newEp none f (e.bandwidth.getD 0)]⟩

/-- A field that is not given is left alone. -/
def edited (e : Entry) (ep : Ep) : Ep :=
  {ep with
    bandwidth := e.bandwidth.getD ep.bandwidth
    innerTag := e.innerTag.or ep.innerTag
    tag := e.tag.getD ep.tag}

/-- For circuits any bandwidth can be edited, unchecked. -/
def editEndpoint (s : Session) (e : Entry) (id : Nat) : Except Failure Session :=
  match s.getEndpoint id with
  | none => .error .died
  | some ep =>
    match s.store.updateDb .circuit (edited e ep) with
    | .error failure => .error (.endpoint "Couldn't update Endpoint: " failure)
    | .ok store => .ok (s.put (edited e ep) store)

/-- The VRF handler leaves bandwidth and tags alone. -/
def fixedCloud : Option CloudType → Bool
  | some .awsHostedConnection | some .awsHostedVinterface | some .gcpPartnerInterconnect => true
  | some .azureExpressRoute => true
  | _ => false

def editedVrf (e : Entry) (ep : Ep) : Ep :=
  if fixedCloud (s.interfaces ep.interface).cloudInterconnectType=true then ep else edited e ep

/-- The first write's result is not looked at. -/
def editVrfEndpoint (s : Session) (e : Entry) (id : Nat) : Except Failure Session :=
  match s.getEndpoint id with
  | none => .error .died
  | some ep =>
    match s.store.updateDb .vrf (editedVrf s.store e ep) with
    | .error _ => .ok (s.put (editedVrf s.store e ep) s.store)
    | .ok store => .ok (s.put (editedVrf s.store e ep) store)

variable (kind : Kind)

def removeRest (ids : List Nat) (s : Session) : Session :=
  ⟨ids.foldl (fun store id => store.remove kind id) s.store,
    s.endpoints.filter fun ep => !(ep.id.any fun id => ids.contains id)⟩

/-- Only the answer for an Azure endpoint changes its tags. -/
def setupEndpoint (answer : Nat → Option (Nat×Nat)) (ep : Ep) : Ep :=
  if ep.added=true∧(s.interfaces ep.interface).cloudInterconnectType=some .azureExpressRoute then
    match ep.id.bind answer with
    | some (tag,inner) => {ep with tag := tag,innerTag := some inner}
    | none => ep
  else ep

/-- A circuit to Azure passes all inner tags. -/
def passInner (kind : Kind) (ep : Ep) : Ep :=
  if kind=.circuit∧(s.interfaces ep.interface).cloudInterconnectType=some .azureExpressRoute then
    {ep with innerTag := none}
  else ep

def writeEndpoint (s : Store) (ep : Ep) : Except Failure Store :=
  match s.updateDb kind (passInner s kind ep) with
  | .error failure => .error (.endpoint "" failure)
  | .ok store => .ok store

def provisionCloud (s : Session) : Except Failure Store :=
  if req.skipCloudProvisioning=true then .ok s.store
  else
    match req.cloud with
    | none => .error .died
    | some answer =>
      (s.endpoints.map (setupEndpoint s.store answer)).foldlM (writeEndpoint kind) s.store

def finish (s : Session) : Except Failure Store :=
  if req.completes=true then provisionCloud req kind s else .error .incomplete

def unnamed (loaded : List Row) : List Nat :=
  (loaded.map Row.id).filter fun id => !(req.entries.any (·.existing==some id))

def errorText : Except String Topic → String
  | .ok _ => ""
  | .error text => text

/-- No connection may use multiple controllers. -/
def checkTopics (previous pending : Store) : Except Failure Store :=
  match fwdctlTopicForConnection (pending.controllers kind req.owner),
      fwdctlTopicForConnection (previous.controllers kind req.owner) with
  | .ok _,.ok _ => .ok pending
  | t0,t1 => .error (.message (errorText t0++" "++errorText t1))

/-- Committed without a look at the controllers. -/
def provision : Except Failure Store :=
  match s.openConnection .circuit req.owner with
  | .error failure => .error failure
  | .ok s₀ =>
    match req.entries.foldlM (addEndpoint selectors req provisionAdding) ⟨s₀,[]⟩ with
    | .error failure => .error failure
    | .ok session => finish req .circuit session

def updateEntry (s : Session) (e : Entry) : Except Failure Session :=
  match e.existing with
  | none => addEndpoint selectors req updateAdding s e
  | some id => editEndpoint s e id

def vrfEntry (s : Session) (e : Entry) : Except Failure Session :=
  match e.existing with
  | none => addEndpoint selectors req vrfAdding s e
  | some id => editVrfEndpoint s e id

/-- An edit with the handling of an entry as a parameter. -/
def editWith (entry : Session → Entry → Except Failure Session) (s : Store) :
    Except Failure Store :=
  let loaded := s.loadEndpoints kind req.owner
  match req.entries.foldlM entry ⟨s,loaded.map s.toEp⟩ with
  | .error failure => .error failure
  | .ok session =>
    match finish req kind (removeRest kind (unnamed req loaded) session) with
    | .error failure => .error failure
    | .ok pending => checkTopics req kind s pending

def update : Except Failure Store := editWith req .circuit (updateEntry selectors req) s

/-- Committed without a look at the controllers; an entry that names an endpoint finds none. -/
def createVrf : Except Failure Store :=
  match s.openConnection .vrf req.owner with
  | .error failure => .error failure
  | .ok s₀ =>
    match req.entries.foldlM (vrfEntry selectors req) ⟨s₀,[]⟩ with
    | .error failure => .error failure
    | .ok session => finish req .vrf session

def provisionVrf (isNew : Bool) (s : Store) : Except Failure Store :=
  if isNew=true then createVrf selectors req s
  else editWith req .vrf (vrfEntry selectors req) s

end Handlers

/-- The type stays if the source has none. -/
def migrated (interfaces : Nat → Interface) (src dst : Nat) : Nat → Interface :=
  Function.update (Function.update interfaces dst {interfaces dst with
      cloudInterconnectType := (interfaces src).cloudInterconnectType.or
        (interfaces dst).cloudInterconnectType})
    src {interfaces src with cloudInterconnectType := none}

/-- The controllers are compared after the commit: the caller may see an error beside the store. -/
def migrateInterface (src dst : Nat) (completes : Bool) (s : Store) :
    Except Failure (Store×Option String) :=
  if (s.tables.moveEndpoints src dst .all).died=true then .error .died
  else if completes=false then .error .incomplete
  else
    .ok ({s with
        tables := (s.tables.moveEndpoints src dst .all).tables
        interfaces := migrated s.interfaces src dst},
      if (s.interfaces src).controller=(s.interfaces dst).controller then none
      else some ("Interfaces cannot be migrated between controllers, as this would result in "++
        "Connections with Endpoints on multiple controllers."))

end OESS.Provision
