import Mathlib.Data.List.Induction
import Mathlib.Data.List.Nodup
import Mathlib.Tactic.Common

namespace OESS.Cloud

open List Bool

/-- A valid address as written; several texts stand for one. -/
structure AddressText where
  ip : Nat
  mask : Option Nat
  spelling : Nat

def AddressText.address (a : AddressText) : Nat×Option Nat := (a.ip,a.mask)

def ipEq : Option AddressText → Option AddressText → Bool
  | none,none => true
  | some a,some b => a.ip==b.ip && a.mask==b.mask
  | _,_ => false

theorem ipEq_iff (a b : Option AddressText) :
    ipEq a b=true ↔ a.map AddressText.address=b.map AddressText.address := by
  cases a <;> cases b <;> simp [ipEq,AddressText.address]

structure Peer where
  md5Key : Option String
  bfd : Option Nat
  ipv4 : Bool
  (localIp peerIp : AddressText)

structure Endpoint where
  (cloudInterconnectId cloudAccountId : String)
  (bandwidth mtu tag : Nat)
  peers : List Peer

/-- `port` is the id of the cross-connect or of its group. -/
structure Mapping where
  (port authKey : Option String)
  (oessIp peerIp oessIpv6 peerIpv6 : Option AddressText)
  vlan : Nat

structure VirtualCircuit where
  mappings : List Mapping
  layer2 : Bool

namespace Mapping

variable (m : Mapping)

def portText : String := m.port.getD ""

def withPeer (peer : Peer) : Mapping :=
  let keyed := {m with authKey := peer.md5Key.filter (· != "")}
  if peer.ipv4 then {keyed with oessIp := some peer.localIp,peerIp := some peer.peerIp}
  else {keyed with oessIpv6 := some peer.localIp,peerIpv6 := some peer.peerIp}

/-- What `change_required` compares: no key and an empty one are the same. -/
def content :=
  (m.authKey.getD "",m.oessIp.map AddressText.address,m.peerIp.map AddressText.address,
    m.oessIpv6.map AddressText.address,m.peerIpv6.map AddressText.address,m.vlan)

end Mapping

def Endpoint.stage (ep : Endpoint) (peers : List Peer) : Mapping :=
  peers.foldl Mapping.withPeer ⟨some ep.cloudInterconnectId,none,none,none,none,none,ep.tag⟩

/-- An endpoint is staged with its port and tag, the key of its last peer and the addresses of its
last IPv4 and its last IPv6 peer. -/
theorem Endpoint.stage_eq (ep : Endpoint) (peers : List Peer) : ep.stage peers=
    { port := some ep.cloudInterconnectId
      authKey := peers.getLast?.bind fun p => p.md5Key.filter (· != "")
      oessIp := (peers.filter Peer.ipv4).getLast?.map Peer.localIp
      peerIp := (peers.filter Peer.ipv4).getLast?.map Peer.peerIp
      oessIpv6 := (peers.filter (!·.ipv4)).getLast?.map Peer.localIp
      peerIpv6 := (peers.filter (!·.ipv4)).getLast?.map Peer.peerIp
      vlan := ep.tag } := by
  induction peers using reverseRecOn with
  | nil => rfl
  | append_singleton peers p ih =>
    rw [stage] at ih ⊢
    rw [foldl_concat,ih]
    cases h : p.ipv4 <;> simp [Mapping.withPeer,h]

example : (⟨"port","vc",1000,1500,100,[]⟩ : Endpoint).stage
    [⟨some "old",none,true,⟨1,none,0⟩,⟨2,none,0⟩⟩,⟨some "key",none,false,⟨3,none,0⟩,⟨4,none,0⟩⟩]=
      ⟨some "port",some "key",some ⟨1,none,0⟩,some ⟨2,none,0⟩,some ⟨3,none,0⟩,some ⟨4,none,0⟩,100⟩ := rfl

@[simp] theorem Endpoint.stage_port (ep : Endpoint) (peers : List Peer) :
    (ep.stage peers).port=some ep.cloudInterconnectId := by
  rw [stage_eq]

/-- An update for a virtual circuit. -/
structure Update where
  (bandwidth bfd mtu : Nat)
  layer2 : Bool
  mappings : List Mapping

section Setup

/-- The new endpoints of one virtual circuit. -/
def addEndpoints (c : VirtualCircuit) (eps : List Endpoint) : Except String Update :=
  if 1<c.mappings.length then
    .error "An Oracle virtual circuit supports a maximum of two endpoints."
  else if eps.any fun ep => c.mappings.any fun m => ep.cloudInterconnectId==m.portText then
    .error "This Oracle virtual circuit already terminates on the specified port."
  else
    .ok {
      bandwidth := eps.getLast?.elim 0 Endpoint.bandwidth
      bfd := if c.layer2 then 0 else
        (eps.flatMap Endpoint.peers).getLast?.elim 0 fun peer => peer.bfd.getD 0
      mtu := eps.getLast?.elim 1500 Endpoint.mtu
      layer2 := c.layer2
      mappings := (c.mappings.filter (·.port.isSome))++
        eps.map fun ep => ep.stage (if c.layer2 then [] else ep.peers) }

variable (circuits : String → Option VirtualCircuit) (answers : String → Bool) (eps : List Endpoint)

/-- The updates that `setup_endpoints` sends, the accounts in the order of the hash. It dies if a
circuit cannot be read, takes no endpoint, or its update is not answered. -/
def sentUpdates : List String → List (String×Update)
  | [] => []
  | ocid::rest =>
    match circuits ocid with
    | none => []
    | some c =>
      match addEndpoints c (eps.filter fun ep => ep.cloudAccountId==ocid) with
      | .error _ => []
      | .ok u => (ocid,u)::if answers ocid then sentUpdates rest else []

variable {circuits answers eps}

theorem sentUpdates_mem {ocids : List String} {s : String×Update}
    (h : s∈sentUpdates circuits answers eps ocids) : ∃ c,circuits s.1=some c∧
      addEndpoints c (eps.filter fun ep => ep.cloudAccountId==s.1)=.ok s.2 := by
  induction ocids with
  | nil => cases h
  | cons ocid rest ih =>
    rw [sentUpdates] at h
    split at h
    · cases h
    next c hc =>
      split at h
      · cases h
      next u hu =>
        rcases mem_cons.mp h with rfl | h
        · exact ⟨c,hc,hu⟩
        · split_ifs at h with ha
          · exact ih h
          · cases h

/-- The mappings are at most two, on different ports, with all that named a port. -/
structure Fits (c : VirtualCircuit) (u : Update) : Prop where
  atMostTwo : u.mappings.length≤2
  distinct : (u.mappings.map Mapping.port).Nodup
  kept : ∀ m∈c.mappings,m.port.isSome=true → m∈u.mappings

theorem nodup_named {l : List Mapping} (h : l.length≤1) :
    ((l.filter (·.port.isSome)).map Mapping.port).Nodup := by
  match l,h with
  | [],_ => simp
  | [m],_ => cases hm : m.port <;> simp [hm]

variable {c : VirtualCircuit} {new : List Endpoint}

/-- An update that is made has room for its endpoints, none of which is on a port that a mapping
names. -/
theorem addEndpoints_ok {u : Update} (h : addEndpoints c new=.ok u) : c.mappings.length≤1∧
      (∀ m∈c.mappings,∀ ep∈new,m.port≠some ep.cloudInterconnectId)∧
      u.mappings=(c.mappings.filter (·.port.isSome))++
        new.map fun ep => ep.stage (if c.layer2 then [] else ep.peers) := by
  unfold addEndpoints at h
  split at h
  · cases h
  next hmany =>
    split at h
    · cases h
    next hport =>
      rw [Except.ok.injEq] at h
      refine ⟨by omega,?_,by rw [← h]⟩
      intro m hm ep hep hmp
      apply hport
      simp only [any_eq_true]
      exact ⟨ep,hep,m,hm,by simp [Mapping.portText,hmp]⟩

theorem addEndpoints_fits_iff {u : Update} (h : addEndpoints c new=.ok u) :
    Fits c u ↔ (c.mappings.countP (·.port.isSome))+new.length≤2∧
      (new.map Endpoint.cloudInterconnectId).Nodup := by
  obtain ⟨hone,hapart,hmappings⟩ := addEndpoints_ok h
  have hlength : u.mappings.length=(c.mappings.countP (·.port.isSome))+new.length := by
    simp [hmappings,countP_eq_length_filter]
  have hports : u.mappings.map Mapping.port=
      (c.mappings.filter (·.port.isSome)).map Mapping.port++
        (new.map Endpoint.cloudInterconnectId).map some := by
    simp [hmappings]
  have hsome : ((new.map Endpoint.cloudInterconnectId).map some).Nodup ↔
      (new.map Endpoint.cloudInterconnectId).Nodup :=
    nodup_map_iff fun _ _ h => Option.some.inj h
  constructor
  · intro ⟨hlen,hnodup,_⟩
    rw [hports] at hnodup
    exact ⟨hlength ▸ hlen,hsome.mp (nodup_append.mp hnodup).2.1⟩
  · intro ⟨hlen,hnodup⟩
    refine ⟨hlength ▸ hlen,?_,?_⟩
    · rw [hports]
      refine nodup_append.mpr ⟨nodup_named hone,hsome.mpr hnodup,?_⟩
      intro a ha b hb hab
      obtain ⟨m,hm,rfl⟩ := mem_map.mp ha
      simp only [map_map,mem_map] at hb
      obtain ⟨ep,hep,rfl⟩ := hb
      exact hapart m (mem_filter.mp hm).1 ep hep hab
    · intro m hm hnamed
      rw [hmappings]
      exact mem_append_left _ (mem_filter.mpr ⟨hm,hnamed⟩)

/-- An update fits exactly if the new endpoints are on different ports and there is room for all of
them. -/
theorem sentUpdates_fits_iff {ocids : List String} {s : String×Update} {c : VirtualCircuit}
    (hs : s∈sentUpdates circuits answers eps ocids) (hc : circuits s.1=some c) :
    Fits c s.2 ↔ (c.mappings.countP (·.port.isSome))+
        (eps.filter fun ep => ep.cloudAccountId==s.1).length≤2∧
      ((eps.filter fun ep => ep.cloudAccountId==s.1).map Endpoint.cloudInterconnectId).Nodup := by
  obtain ⟨d,hd,hu⟩ := sentUpdates_mem hs
  rw [hc,Option.some.injEq] at hd
  subst hd
  exact addEndpoints_fits_iff hu

def newEndpoint : Endpoint := ⟨"port2","vc",1000,1500,100,[]⟩

def oldMapping : Mapping := ⟨some "port1",none,none,none,none,none,50⟩

/-- One mapping and one new endpoint on another port. -/
theorem oneMore_fits : Fits ⟨[oldMapping],true⟩ ⟨1000,0,1500,true,[oldMapping,newEndpoint.stage []]⟩ := by
  have hs : ("vc",⟨1000,0,1500,true,[oldMapping,newEndpoint.stage []]⟩)∈
      sentUpdates (fun _ => some ⟨[oldMapping],true⟩) (fun _ => true) [newEndpoint] ["vc"] :=
    mem_singleton.mpr rfl
  exact (sentUpdates_fits_iff hs rfl).mpr (by decide)

/-- Two new endpoints on one port. -/
theorem twice_not_fits : ∃ s∈sentUpdates (fun _ => some ⟨[],true⟩) (fun _ => true)
    [newEndpoint,newEndpoint] ["vc"],¬Fits ⟨[],true⟩ s.2 := by
  refine ⟨_,mem_singleton.mpr rfl,fun h => ?_⟩
  exact absurd h.distinct (by decide)

end Setup

section Remote

variable (endpoints : List Endpoint) (mappings : List Mapping)

/-- The endpoint of a port: a later one takes the place of an earlier. -/
def endpointAt (port : String) : Option Endpoint :=
  endpoints.reverse.find? fun ep => ep.cloudInterconnectId==port

def staged : List Mapping :=
  mappings.filterMap fun m => (endpointAt endpoints m.portText).map fun ep => ep.stage ep.peers

/-- The difference for which `change_required` is set. -/
def changed (staged m : Mapping) : Bool :=
  staged.authKey.getD "" != m.authKey.getD "" || staged.portText != m.portText ||
    !ipEq staged.oessIp m.oessIp || !ipEq staged.oessIpv6 m.oessIpv6 ||
    !ipEq staged.peerIp m.peerIp || !ipEq staged.peerIpv6 m.peerIpv6 || staged.vlan != m.vlan

/-- The mappings that `update_remote_peers` sends. -/
def updateRemotePeers : Option (List Mapping) :=
  if (mappings.any fun m => (endpointAt endpoints m.portText).any fun ep =>
      changed (ep.stage ep.peers) m) || mappings.length != (staged endpoints mappings).length then
    some (staged endpoints mappings)
  else none

theorem changed_eq_false_iff (a b : Mapping) :
    changed a b=false ↔ a.portText=b.portText∧a.content=b.content := by
  simp only [changed,or_eq_false_iff,bne_eq_false_iff_eq,not_eq_false',ipEq_iff,
    Mapping.content,Prod.mk.injEq]
  tauto

variable {endpoints mappings}

theorem endpointAt_port {port : String} {ep : Endpoint} (h : endpointAt endpoints port=some ep) :
    ep.cloudInterconnectId=port := by
  simpa using find?_some h

theorem mem_staged {a : Mapping} : a∈staged endpoints mappings ↔
    ∃ m∈mappings,∃ ep,endpointAt endpoints m.portText=some ep∧ep.stage ep.peers=a := by
  simp [staged]

theorem updateRemotePeers_none_iff : updateRemotePeers endpoints mappings=none ↔
    ∀ m∈mappings,∃ ep,endpointAt endpoints m.portText=some ep∧
      changed (ep.stage ep.peers) m=false := by
  have hlength : mappings.length=(staged endpoints mappings).length ↔
      ∀ m∈mappings,(endpointAt endpoints m.portText).isSome=true := by
    rw [eq_comm,staged]
    simp
  simp only [updateRemotePeers,ite_eq_right_iff,reduceCtorEq,imp_false,not_eq_true,or_eq_false_iff,
    bne_eq_false_iff_eq,hlength,any_eq_false]
  rw [← forall₂_and]
  refine forall₂_congr fun m _ => ?_
  cases endpointAt endpoints m.portText <;> simp

/-- Both sides have the same ports, with the same content on each. -/
def SameMappings (sent remote : List Mapping) : Prop :=
  (∀ port,port∈sent.map Mapping.portText ↔ port∈remote.map Mapping.portText)∧
    ∀ a∈sent,∀ b∈remote,a.portText=b.portText → a.content=b.content

theorem staged_same_iff : SameMappings (staged endpoints mappings) mappings ↔
    updateRemotePeers endpoints mappings=none := by
  rw [updateRemotePeers_none_iff]
  have hstage {ep : Endpoint} {port : String} (h : endpointAt endpoints port=some ep) :
      (ep.stage ep.peers).portText=port := by
    rw [Mapping.portText,ep.stage_port,Option.getD_some,endpointAt_port h]
  constructor
  · intro ⟨hports,hcontent⟩ m hm
    obtain ⟨a,ha,hport⟩ := mem_map.mp ((hports m.portText).mpr (mem_map_of_mem hm))
    obtain ⟨b,hb,ep,hep,rfl⟩ := mem_staged.mp ha
    rw [hstage hep] at hport
    rw [hport] at hep
    have hsame := hcontent _ ha m hm (hstage hep)
    exact ⟨ep,hep,(changed_eq_false_iff _ _).mpr ⟨hstage hep,hsame⟩⟩
  · intro h
    refine ⟨fun port => ?_,fun a ha b hb hport => ?_⟩
    · simp only [mem_map,mem_staged]
      constructor
      · intro ⟨a,⟨m,hm,ep,hep,hstaged⟩,hport⟩
        exact ⟨m,hm,by rw [← hport,← hstaged,hstage hep]⟩
      · intro ⟨m,hm,hport⟩
        obtain ⟨ep,hep,_⟩ := h m hm
        exact ⟨_,⟨m,hm,ep,hep,rfl⟩,(hstage hep).trans hport⟩
    · obtain ⟨m,hm,ep,hep,rfl⟩ := mem_staged.mp ha
      obtain ⟨ep',hep',hkept⟩ := h b hb
      rw [hstage hep] at hport
      rw [hport,hep',Option.some.injEq] at hep
      subst hep
      exact ((changed_eq_false_iff _ _).mp hkept).2

/-- An update is sent exactly if there is a difference, and only once if it is stored. -/
theorem updateRemotePeers_converges (endpoints : List Endpoint) (mappings : List Mapping) :
    (updateRemotePeers endpoints mappings≠none ↔
        ¬SameMappings (staged endpoints mappings) mappings)∧
      ∀ sent,updateRemotePeers endpoints mappings=some sent →
        sent=staged endpoints mappings∧updateRemotePeers endpoints sent=none := by
  refine ⟨staged_same_iff.not.symm,fun sent h => ?_⟩
  unfold updateRemotePeers at h
  split_ifs at h
  rw [Option.some.injEq] at h
  subst h
  refine ⟨rfl,updateRemotePeers_none_iff.mpr fun a ha => ?_⟩
  obtain ⟨m,_,ep,hep,rfl⟩ := mem_staged.mp ha
  refine ⟨ep,?_,(changed_eq_false_iff _ _).mpr ⟨rfl,rfl⟩⟩
  rw [Mapping.portText,ep.stage_port,Option.getD_some,endpointAt_port hep,hep]

end Remote

end OESS.Cloud
