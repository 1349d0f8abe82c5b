import OESS.Framework.KeyedTable

namespace OESS.NSO

open List

inductive Layer where
  | l2 | l3
  deriving DecidableEq

instance : LawfulBEq (Layer×Nat) := inferInstance

inductive EndpointState where
  | active | decom | inReview
  deriving DecidableEq

structure Peer where
  vrfEpPeerId : Nat
  localIp : String
  peerAsn : Nat
  peerIp : String
  bfd : Nat
  md5Key : Option String
  ipVersion : String
  deriving DecidableEq

/-- The id is a `circuit_ep_id` or a `vrf_endpoint_id`. -/
structure Endpoint where
  (endpointId nodeId : Nat)
  (shortNodeName interface : String)
  (unit bandwidth tag : Nat)
  innerTag : Option Nat
  mtu : Nat
  state : EndpointState
  cloudInterconnectType : Option String
  peers : List Peer
  deriving DecidableEq

/-- A connection is known by its `circuit_id` or its `vrf_id`. -/
structure Connection where
  layer : Layer
  (connId localAsn : Nat)
  workgroup : Option String
  endpoints : List Endpoint
  deriving DecidableEq

structure NsoPeer where
  (peerId localAsn : Nat)
  localIp : String
  peerAsn : Nat
  peerIp : String
  bfd : Nat
  md5Key : Option String
  ipVersion : String
  ebgpMultihopTtl : Option Nat
  deriving DecidableEq

structure NsoEndpoint where
  endpointId : Nat
  (device interface : String)
  (unit bandwidth tag : Nat)
  (innerTag mtu : Option Nat)
  peer : List NsoPeer
  deriving DecidableEq

structure NsoConnection where
  layer : Layer
  connectionId : Nat
  endpoint : List NsoEndpoint
  workgroup : Option String
  deriving DecidableEq

def Connection.key (c : Connection) : Layer×Nat := (c.layer,c.connId)

def NsoConnection.key (x : NsoConnection) : Layer×Nat := (x.layer,x.connectionId)

def Connection.active (c : Connection) : List Endpoint :=
  c.endpoints.filter fun e => e.state=.active

/-- The part of a peer's address before the slash. -/
def addressOf (ip : String) : String := String.ofList (ip.toList.takeWhile fun ch => ch ≠ '/')

namespace Client

variable (localAsn : Nat)

def peer (e : Endpoint) (p : Peer) : NsoPeer where
  peerId := p.vrfEpPeerId
  localAsn := localAsn
  localIp := p.localIp
  peerAsn := p.peerAsn
  peerIp := addressOf p.peerIp
  bfd := p.bfd
  md5Key := p.md5Key
  ipVersion := p.ipVersion
  ebgpMultihopTtl := if e.cloudInterconnectType=some "gcp-partner-interconnect" then some 4 else none

def l2Endpoint (e : Endpoint) : NsoEndpoint :=
  ⟨e.endpointId,e.shortNodeName,e.interface,e.unit,e.bandwidth,e.tag,e.innerTag,none,[]⟩

def l3Endpoint (e : Endpoint) : NsoEndpoint :=
  {l2Endpoint e with mtu := some e.mtu,peer := e.peers.map (peer localAsn e)}

/-- What the create and edit calls send. -/
def payload (c : Connection) : NsoConnection :=
  match c.layer with
  | .l2 => ⟨.l2,c.connId,c.active.map l2Endpoint,none⟩
  | .l3 => ⟨.l3,c.connId,c.active.map (l3Endpoint localAsn),
      some (c.workgroup.getD "Unknown Workgroup")⟩

theorem payload_key (c : Connection) : (payload localAsn c).key=c.key := by
  unfold payload Connection.key
  cases c.layer <;> rfl

end Client

/-- The connections under each node, in the order of `keys`. -/
def Cache := Layer → Nat → List Connection

namespace Cache

def empty : Cache := fun _ _ => []

def OnNode (c : Connection) (node : Nat) : Prop := ∃ e∈c.endpoints,e.nodeId=node
  deriving Decidable

/-- A connection is cached under the node of each of its endpoints. -/
def addConnection (cache : Cache) (c : Connection) : Cache := fun layer node =>
  if layer=c.layer∧OnNode c node then KeyedTable.put Connection.connId c (cache layer node)
  else cache layer node

/-- The cache has each connection under every node it has an endpoint on. -/
def Holds (cache : Cache) (conns : List Connection) : Prop :=
  ∀ layer node c,c∈cache layer node ↔ c∈conns∧c.layer=layer∧OnNode c node

theorem Holds.addConnection {cache : Cache} {conns : List Connection} (h : Holds cache conns)
    {c : Connection} (hc : c.key∉conns.map Connection.key) :
    Holds (cache.addConnection c) (c::conns) := by
  intro layer node d
  unfold Cache.addConnection
  split_ifs with hon
  · obtain ⟨rfl,hon⟩ := hon
    rw [KeyedTable.mem_put,h c.layer node d,mem_cons]
    constructor
    · rintro (⟨⟨hd,hl,hn⟩,-⟩ | rfl)
      · exact ⟨.inr hd,hl,hn⟩
      · exact ⟨.inl rfl,rfl,hon⟩
    · rintro ⟨rfl | hd,hl,hn⟩
      · exact .inr rfl
      · refine .inl ⟨⟨hd,hl,hn⟩,fun hid => hc (mem_map.mpr ⟨d,hd,?_⟩)⟩
        rw [Connection.key,Connection.key,hl,hid]
  · rw [h layer node d,mem_cons]
    constructor
    · intro hd
      exact ⟨.inr hd.1,hd.2⟩
    · rintro ⟨rfl | hd,hl,hn⟩
      · exact absurd ⟨hl.symm,hn⟩ hon
      · exact ⟨hd,hl,hn⟩

/-- `update_cache` adds the connections one after another. -/
def updateCache (conns : List Connection) : Cache := conns.foldl addConnection empty

theorem Holds.addAll {cache : Cache} {base conns : List Connection} (h : Holds cache base)
    (hn : ((conns++base).map Connection.key).Nodup) :
    Holds (conns.foldl Cache.addConnection cache) (conns++base) := by
  induction conns generalizing cache base with
  | nil => exact h
  | cons c conns ih =>
    have hperm : (conns++c::base).Perm (c::(conns++base)) := perm_middle
    have hn' : ((conns++c::base).map Connection.key).Nodup :=
      (hperm.map Connection.key).nodup_iff.mpr hn
    rw [cons_append,map_cons,nodup_cons,map_append,mem_append,not_or] at hn
    have hall := ih (h.addConnection hn.1.2) hn'
    intro layer node d
    rw [foldl_cons,hall layer node d,hperm.mem_iff,cons_append]

theorem holds_updateCache (conns : List Connection) (hn : (conns.map Connection.key).Nodup) :
    Holds (updateCache conns) conns := by
  have hempty : Holds empty [] := by
    intro layer node c
    simp [empty]
  have h := hempty.addAll (by rwa [append_nil])
  rwa [append_nil] at h

end Cache

end OESS.NSO
