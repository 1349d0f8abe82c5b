import OESS.OpenFlow.FlowRule
import Mathlib.Data.List.Dedup
import Mathlib.Logic.Function.Basic

namespace OESS.OpenFlow

inductive PathType where
  | primary | backup | tertiary
  deriving DecidableEq

inductive CircuitState where
  | scheduled | deploying | active | decom | looped | reserved | provisioned
  deriving DecidableEq

structure Link (Node : Type) where
  name : String
  (nodeA nodeZ : Node)
  (portNoA portNoZ interfaceAId interfaceZId : Nat)

/-- An endpoint, with addresses as `mac_hex2num` gives them. -/
structure Endpoint (Node : Type) where
  node : Node
  interface : String
  portNo : Nat
  tag : Int
  isLocal : Bool := true
  macAddrs : List Nat := []
  deriving DecidableEq

structure Details (Node : Type) where
  state : CircuitState
  loopNode : Option Nat := none
  activePath : PathType := .primary
  staticMac : Bool := false
  links : List (Link Node) := []
  backupLinks : List (Link Node) := []
  internalIds : PathType → Node → Nat → Int
  endpoints : List (Endpoint Node)

/-- The node tables (a live datapath id is of one node), the order of hash keys,
`Graph::SP_Dijkstra`, and the value of a logging call. -/
structure Env (Node : Type) [DecidableEq Node] where
  logged : Bool
  dpidLookup : Node → Nat
  dpidLookup_injective : Function.Injective dpidLookup
  nodeIdLookup : Node → Nat
  keys : List Node → List Node
  keys_perm : ∀ l,(keys l).Perm l.dedup
  spDijkstra : List (Link Node) → Node → Node → List Node

structure PathEntry where
  port : Nat
  (portVlan remotePortVlan : Int)

/-- `path_dict`: its entries in the order they are pushed. -/
abbrev PathDict (Node : Type) := List (Node × PathEntry)

abbrev Rules := List (Option FlowRule)

/-- `$self->{'flows'}`. -/
structure Flows where
  path : PathType → Rules := fun _ => []
  endpoint : PathType → Rules := fun _ => []
  staticPath : PathType → Rules := fun _ => []
  staticEndpoint : PathType → Rules := fun _ => []

namespace Flows

def pushPath (f : Flows) (path : PathType) (rules : Rules) : Flows :=
  { f with path := Function.update f.path path (f.path path++rules) }

def pushEndpoint (f : Flows) (path : PathType) (rules : Rules) : Flows :=
  { f with endpoint := Function.update f.endpoint path (f.endpoint path++rules) }

end Flows

/-- A rule is merged into the kept ones of its switch, priority and match. -/
def mergeInto (flow : FlowRule) : Rules → Option (Rules × Bool)
  | [] => some ([],false)
  | none::rest => do
      let (rest,matched) ← mergeInto flow rest
      some (none::rest,matched)
  | some kept::rest =>
      if kept.dpid=flow.dpid && kept.compareMatch flow then do
        let (kept,_) ← kept.mergeActions flow
        let (rest,_) ← mergeInto flow rest
        some (some kept::rest,true)
      else do
        let (rest,matched) ← mergeInto flow rest
        some (some kept::rest,matched)

def dedupStep (deduped : Rules) : Option FlowRule → Option Rules
  | none => some (deduped++[none])
  | some flow => do
      let (merged,matched) ← mergeInto flow deduped
      some (if matched then merged else merged++[some flow])

/-- `_dedup_flows`; `none` where a merge dies. -/
def dedupFlows (flows : Rules) : Option Rules := flows.foldlM dedupStep []

section Generators

variable {Node : Type} [DecidableEq Node]

namespace PathDict

def nodes (dict : PathDict Node) : List Node := dict.map Prod.fst

def entries (dict : PathDict Node) (node : Node) : List PathEntry :=
  (dict.filter (·.1=node)).map Prod.snd

end PathDict

variable (links : List (Link Node))

def processLinks (ids : Node → Nat → Int) : PathDict Node :=
  links.flatMap fun l =>
    let vlanA := ids l.nodeA l.interfaceAId
    let vlanZ := ids l.nodeZ l.interfaceZId
    [(l.nodeA,⟨l.portNoA,vlanA,vlanZ⟩),(l.nodeZ,⟨l.portNoZ,vlanZ,vlanA⟩)]

def isLoopback (endpoints : List (Endpoint Node)) : Bool :=
  match endpoints with
  | [e,f] => e.interface=f.interface && e.tag≠f.tag && e.node=f.node
  | _ => false

namespace Details

variable (d : Details Node)

def hasBackupPath : Bool := !d.backupLinks.isEmpty

def pathLinks : PathType → List (Link Node)
  | .primary => d.links
  | _ => d.backupLinks

def pathDict (path : PathType) : PathDict Node := processLinks (d.pathLinks path) (d.internalIds path)

end Details

variable (env : Env Node) (d : Details Node)

/-- A port and VLAN of a node, rewritten and sent on. -/
def forwardRule (node : Node) (vlan : Int) (port : Nat) (outVlan : Int) (outPort : Nat) :
    Option FlowRule :=
  FlowRule.new env.logged
    { fields := { dlVlan := some vlan, inPort := some port }
      actions := [.setVlanId outVlan,.output outPort]
      dpid := env.dpidLookup node }

variable (path : PathType)

def generatePathFlows : Rules :=
  let dict := d.pathDict path
  (env.keys dict.nodes).flatMap (fun node =>
    if isLoopback d.endpoints && d.endpoints.any (·.node=node) then []
    else (dict.entries node).flatMap fun enter =>
      ((dict.entries node).filter fun exit => enter.port≠exit.port).map fun exit =>
        forwardRule env node enter.portVlan enter.port exit.remotePortVlan exit.port)++
  d.endpoints.flatMap fun e =>
    (dict.entries e.node).map fun nodeExit =>
      forwardRule env e.node nodeExit.portVlan nodeExit.port e.tag e.portNo

/-- The endpoints an endpoint is joined to on its own node. -/
def interswitchPeers (e : Endpoint Node) : List (Endpoint Node) := d.endpoints.filter fun other =>
    e.node=other.node && e.isLocal && other.isLocal && e.portNo≠other.portNo

/-- `_generate_endpoint_flows` away from the loopback case. -/
def generateEndpointRules : Rules := d.endpoints.flatMap fun e =>
    (interswitchPeers d e).flatMap (fun other =>
      [forwardRule env e.node e.tag e.portNo other.tag other.portNo,
       forwardRule env e.node other.tag other.portNo e.tag e.portNo])++
    ((d.pathDict path).entries e.node).map fun nodeExit =>
      forwardRule env e.node e.tag e.portNo nodeExit.remotePortVlan nodeExit.port

variable (node : Node)

/-- The exits of a looped node before the endpoints pop them. -/
def loopbackExits : List PathEntry :=
  let dict := d.pathDict path
  ((d.pathLinks path).mergeSort fun a b => a.name≤b.name).filterMap fun l =>
    if l.nodeZ=node then (dict.entries l.nodeZ).find? fun entry => entry.port=l.portNoZ
    else if l.nodeA=node then (dict.entries l.nodeA).find? fun entry => entry.port=l.portNoA
    else none

variable (f : Flows)

def generateLoopbackEndpointFlows : Flows :=
  let endpoints := d.endpoints.mergeSort fun a b => toString a.tag≤toString b.tag
  if (d.pathLinks path).isEmpty then
    f.pushEndpoint path (endpoints.zipIdx.map fun (e,i) =>
      FlowRule.new env.logged
        { fields := { dlVlan := some e.tag, inPort := some e.portNo }
          actions := (endpoints.zipIdx.filter (·.2≠i)).flatMap fun (other,_) =>
            [.setVlanId other.tag,.output other.portNo]
          dpid := env.dpidLookup e.node })
  else
    match endpoints with
    | [] => f
    | first::_ =>
      let popped := (loopbackExits d path first.node).reverse.map some++endpoints.map fun _ => none
      (endpoints.zip popped).foldl (fun f (e,exit) =>
        let out := exit.bind fun x => forwardRule env e.node e.tag e.portNo x.remotePortVlan x.port
        let back := exit.bind fun x => forwardRule env e.node x.portVlan x.port e.tag e.portNo
        ((f.pushEndpoint path [out]).pushEndpoint .primary [back]).pushEndpoint .backup [back]) f

def generateEndpointFlows : Flows :=
  if isLoopback d.endpoints then generateLoopbackEndpointFlows env d path f
  else f.pushEndpoint path (generateEndpointRules env d path)

/-- Traffic of the looped node goes back where it came from. -/
def generateLoopNodeFlows (loopNode : Nat) (f : Flows) : Flows :=
  let dict := d.pathDict path
  let onNode := (env.keys dict.nodes).filter fun node => env.nodeIdLookup node=loopNode
  let trunk := onNode.flatMap fun node => (dict.entries node).map fun enter =>
    FlowRule.new env.logged
      { priority := 36000
        fields := { dlVlan := some enter.portVlan, inPort := some enter.port }
        actions := [.setVlanId enter.remotePortVlan,.output enter.port]
        dpid := env.dpidLookup node }
  let localEnds := d.endpoints.filter fun e => env.nodeIdLookup e.node=loopNode && e.isLocal
  (f.pushPath path trunk).pushEndpoint path (localEnds.map fun e =>
    FlowRule.new env.logged
      { priority := 36000
        fields := { dlVlan := some e.tag, inPort := some e.portNo }
        actions := [.output e.portNo]
        dpid := env.dpidLookup e.node })

structure InPort where
  portNo : Nat
  tag : Int
  isEndpoint : Bool

def inPorts : List InPort :=
  (d.endpoints.filter (·.node=node)).map (fun e => ⟨e.portNo,e.tag,true⟩)++
    ((d.pathDict path).entries node).map fun x => ⟨x.port,x.portVlan,false⟩

/-- `Graph::Undirected` keeps one edge for a pair of nodes. -/
def neighbours : List Node := (links.flatMap fun l =>
    (if l.nodeA=node then [l.nodeZ] else [])++(if l.nodeZ=node then [l.nodeA] else [])).dedup

def finder (a z : Node) : Option (Link Node) :=
  links.reverse.find? fun l => (l.nodeA=a && l.nodeZ=z) || (l.nodeA=z && l.nodeZ=a)

def staticRule (i : InPort) (mac : Nat) (outVlan : Int) (outPort : Nat) :
    Option FlowRule :=
  FlowRule.new env.logged
    { priority := 35000
      fields := { dlVlan := some i.tag, inPort := some i.portNo, dlDst := some mac }
      actions := [.setVlanId outVlan,.output outPort]
      dpid := env.dpidLookup node }

/-- The rules of `node` for the addresses of `e`, each with its way in. -/
def staticMacRules (e : Endpoint Node) : List (InPort × Option FlowRule) :=
  let links := d.pathLinks path
  match env.spDijkstra links node e.node with
  | hop::next::_ =>
      match finder links hop next with
      | none => []
      | some l =>
          let (port,interface) := if l.nodeA=node then (l.portNoA,l.interfaceZId)
            else (l.portNoZ,l.interfaceAId)
          ((inPorts d path node).filter (·.portNo≠port)).flatMap fun i =>
            e.macAddrs.map fun mac => (i,staticRule env node i mac (d.internalIds path next interface) port)
  | _ =>
      -- rules between two endpoints of the node are made once, with the primary path
      ((inPorts d path node).filter fun i => i.portNo≠e.portNo && (!i.isEndpoint || path=.primary)).flatMap
        fun i => e.macAddrs.map fun mac =>
          ({ i with isEndpoint := false },staticRule env node i mac e.tag e.portNo)

def generateStaticMacPathFlows : Flows :=
  let links := d.pathLinks path
  let nodes := env.keys (links.flatMap fun l => [l.nodeZ,l.nodeA])
  let rules := (nodes.filter fun node =>
      2<(neighbours links node).length+(d.endpoints.filter (·.node=node)).length).flatMap
    fun node => (neighbours links node).flatMap fun _ =>
      d.endpoints.flatMap fun e => staticMacRules env d path node e
  let out (isEndpoint : Bool) := (rules.filter (·.1.isEndpoint=isEndpoint)).map Prod.snd
  { f with
    staticPath := Function.update f.staticPath path (f.staticPath path++out false)
    staticEndpoint := Function.update f.staticEndpoint path (f.staticEndpoint path++out true) }

def onPaths (gen : PathType → Flows → Flows) (f : Flows) : Flows :=
  let f := gen .primary f
  if d.hasBackupPath then gen .backup f else f

def generateFlows : Flows :=
  let f : Flows := {}
  let f := if d.staticMac then onPaths d (generateStaticMacPathFlows env d) f else f
  let f := onPaths d (fun path f => f.pushPath path (generatePathFlows env d path)) f
  onPaths d (generateEndpointFlows env d) f

def dedupLists (lists : PathType → Rules) : Option (PathType → Rules) := do
  let primary ← dedupFlows (lists .primary)
  let backup ← dedupFlows (lists .backup)
  some (Function.update (Function.update lists .primary primary) .backup backup)

def Flows.dedup : Option Flows := do
  let path ← dedupLists f.path
  let endpoint ← dedupLists f.endpoint
  let staticPath ← dedupLists f.staticPath
  let staticEndpoint ← dedupLists f.staticEndpoint
  some ⟨path,endpoint,staticPath,staticEndpoint⟩

def addLoop : Flows :=
  match d.state,d.loopNode with
  | .looped,some loopNode =>
      let f := if d.hasBackupPath then generateLoopNodeFlows env d .backup loopNode f else f
      generateLoopNodeFlows env d .primary loopNode f
  | _,_ => f

def createFlows : Option Flows :=
  if d.state=.reserved || d.state=.provisioned then some {}
  else do
    let f ← (generateFlows env d).dedup
    some (addLoop env d f)

/-- `get_flows` without a path argument. -/
def getFlows : Option Rules :=
  if d.state=.reserved then some []
  else
    let active := if d.activePath=.primary then PathType.primary else .backup
    dedupFlows (f.path .primary++f.path .backup++f.staticPath .primary++f.staticPath .backup++
      (f.endpoint active++f.staticEndpoint active))

def circuitFlows : Option Rules := (createFlows env d).bind (getFlows d)

end Generators

end OESS.OpenFlow
