import OESS.Framework.KeyedDiff
import OESS.NSO.Connection
import Mathlib.Data.List.Dedup

namespace OESS.NSO

open List KeyedDiff

abbrev Text := List String

abbrev DeviceTexts := List (String×Text)

def innerTagLine (sign : String) : Option Nat → Text
  | none => []
  | some t => [s!"{sign}    Inner Tag: {t}\n"]

/-- Perl compares tags as numbers, an undefined one as 0. -/
def sameTag (a b : Option Nat) : Bool := a.getD 0=b.getD 0

def NsoEndpoint.place (x : NsoEndpoint) : String×Nat := (x.device,x.endpointId)

def Endpoint.place (e : Endpoint) : String×Nat := (e.shortNodeName,e.endpointId)

namespace L2Circuit

variable (x : NsoEndpoint)

def removed : String×Text :=
  (x.device,[s!"-  {x.interface}.{x.unit}\n",s!"-    Bandwidth: {x.bandwidth}\n",
    s!"-    Tag:       {x.tag}\n"]++innerTagLine "-" x.innerTag)

def added (e : Endpoint) : String×Text :=
  (e.shortNodeName,[s!"+  {e.interface}.{e.unit}\n",s!"+    Bandwidth: {e.bandwidth}\n",
    s!"+    Tag:       {e.tag}\n"]++innerTagLine "+" e.innerTag)

def Agrees (e : Endpoint) : Prop :=
  x.interface=e.interface∧x.bandwidth=e.bandwidth∧x.tag=e.tag∧sameTag x.innerTag e.innerTag=true
  deriving Decidable

def compared (e : Endpoint) : String×Text := (x.device,(if Agrees x e then []
      else if x.interface≠e.interface then
        [s!"-  {x.interface}.{x.unit}\n",s!"+  {e.interface}.{e.unit}\n"]
      else [s!"  {x.interface}.{x.unit}\n"])++
    (if x.bandwidth≠e.bandwidth then
      [s!"-    Bandwidth: {x.bandwidth}\n",s!"+    Bandwidth: {e.bandwidth}\n"] else [])++
    (if x.tag≠e.tag then
      [s!"-    Tag:       {x.tag}\n",s!"+    Tag:       {e.tag}\n"] else [])++
    (if sameTag x.innerTag e.innerTag then []
      else innerTagLine "-" x.innerTag++innerTagLine "+" e.innerTag))

end L2Circuit

namespace VRF

def peerLines (sign : String) (id localAsn : Nat) (localIp : String) (peerAsn : Nat)
    (peerIp : String) (bfd : Nat) : Text :=
  [s!"{sign}    Peer: {id}\n",s!"{sign}      Local ASN: {localAsn}\n",
    s!"{sign}      Local IP:  {localIp}\n",s!"{sign}      Peer ASN:  {peerAsn}\n",
    s!"{sign}      Peer IP:   {peerIp}\n",s!"{sign}      BFD:       {bfd}\n"]

def removedPeer (p : NsoPeer) : Text :=
  peerLines "-" p.peerId p.localAsn p.localIp p.peerAsn p.peerIp p.bfd

variable (localAsn : Nat)

def addedPeer (p : Peer) : Text :=
  peerLines "+" p.vrfEpPeerId localAsn p.localIp p.peerAsn (addressOf p.peerIp) p.bfd

def PeerAgrees (p : NsoPeer) (r : Peer) : Prop :=
  p.localIp=r.localIp∧p.peerAsn=r.peerAsn∧p.peerIp=addressOf r.peerIp∧p.bfd=r.bfd
  deriving Decidable

def comparedPeer (p : NsoPeer) (r : Peer) : Text :=
  (if PeerAgrees p r then [] else [s!"     Peer: {p.peerId}\n"])++(if p.localIp≠r.localIp then
    [s!"-      Local IP:  {p.localIp}\n",s!"+      Local IP:  {r.localIp}\n"] else [])++
  (if p.peerAsn≠r.peerAsn then
    [s!"-      Peer ASN:  {p.peerAsn}\n",s!"+      Peer ASN:  {r.peerAsn}\n"] else [])++
  (if p.peerIp≠addressOf r.peerIp then
    [s!"-      Peer IP:   {p.peerIp}\n",s!"+      Peer IP:   {addressOf r.peerIp}\n"] else [])++
  (if p.bfd≠r.bfd then
    [s!"-      BFD:       {p.bfd}\n",s!"+      BFD:       {r.bfd}\n"] else [])

/-- Compared by `peer_id`, one text for each peer. -/
def peerBlocks (reported : List NsoPeer) (peers : List Peer) : List Text :=
  KeyedDiff.diff Peer.vrfEpPeerId NsoPeer.peerId removedPeer comparedPeer (addedPeer localAsn)
    peers reported

variable (x : NsoEndpoint)

def removed : String×Text :=
  (x.device,[s!"-  {x.interface}.{x.unit}\n",s!"-    Bandwidth: {x.bandwidth}\n",
    s!"-    MTU:       {x.mtu.getD 0}\n",s!"-    Tag:       {x.tag}\n"]++
    innerTagLine "-" x.innerTag++x.peer.flatMap removedPeer)

def added (e : Endpoint) : String×Text :=
  (e.shortNodeName,[s!"+  {e.interface}.{e.unit}\n",s!"+    Bandwidth: {e.bandwidth}\n",
    s!"+    MTU:       {e.mtu}\n",s!"+    Tag:       {e.tag}\n"]++
    innerTagLine "+" e.innerTag++e.peers.flatMap (addedPeer localAsn))

def EndpointAgrees (e : Endpoint) : Prop :=
  x.interface=e.interface∧x.bandwidth=e.bandwidth∧x.mtu.getD 0=e.mtu∧x.tag=e.tag∧
    sameTag x.innerTag e.innerTag=true
  deriving Decidable

def endpointLines (e : Endpoint) : Text := (if x.interface≠e.interface then
    [s!"-  {x.interface}.{x.unit}\n",s!"+  {e.interface}.{e.unit}\n"]
    else [s!"   {x.interface}.{x.unit}\n"])++
  (if x.bandwidth≠e.bandwidth then
    [s!"-    Bandwidth: {x.bandwidth}\n",s!"+    Bandwidth: {e.bandwidth}\n"] else [])++
  (if x.mtu.getD 0≠e.mtu then
    [s!"-    MTU:       {x.mtu.getD 0}\n",s!"+    MTU:       {e.mtu}\n"] else [])++
  (if x.tag≠e.tag then
    [s!"-    Tag:       {x.tag}\n",s!"+    Tag:       {e.tag}\n"] else [])++
  (if sameTag x.innerTag e.innerTag then []
    else innerTagLine "-" x.innerTag++innerTagLine "+" e.innerTag)

def compared (x : NsoEndpoint) (e : Endpoint) : String×Text := (x.device,
    if EndpointAgrees x e∧(peerBlocks localAsn x.peer e.peers).all List.isEmpty then []
    else endpointLines x e++(peerBlocks localAsn x.peer e.peers).flatten)

/-- The VRF's name for it, and the one that NSO holds. -/
def workgroupLines : Option String → String → Text
  | none,held => [s!"- Workgroup: {held}\n"]
  | some name,held =>
    if name≠held then [s!"- Workgroup: {held}\n",s!"+ Workgroup: {name}\n"] else []

end VRF

def textAt (texts : DeviceTexts) (device : String) : Text :=
  (texts.filter (·.1=device)).flatMap Prod.snd

variable (active : List Endpoint)

/-- Devices of active endpoints and of the texts. -/
def diffKeys (texts : DeviceTexts) : List String :=
  (active.map Endpoint.shortNodeName++texts.map Prod.fst).dedup

variable (reported : List NsoEndpoint)

def l2Blocks : DeviceTexts :=
  KeyedDiff.diff Endpoint.place NsoEndpoint.place L2Circuit.removed L2Circuit.compared
    L2Circuit.added active reported

def l3Blocks (localAsn : Nat) (active : List Endpoint) (reported : List NsoEndpoint) :
    DeviceTexts :=
  KeyedDiff.diff Endpoint.place NsoEndpoint.place VRF.removed (VRF.compared localAsn)
    (VRF.added localAsn) active reported

/-- `OESS::L2Circuit::nso_diff`. -/
def l2NsoDiff (held : Option NsoConnection) : DeviceTexts :=
  let texts := l2Blocks active ((held.map NsoConnection.endpoint).getD [])
  (diffKeys active texts).filterMap fun d =>
    if textAt texts d=[] then none else some (d,textAt texts d)

/-- `OESS::VRF::nso_diff`. -/
def l3NsoDiff (vrfId : Option Nat) (localAsn : Nat) (workgroup : Option String)
    (active : List Endpoint) (held : Option NsoConnection) : DeviceTexts :=
  let texts := l3Blocks localAsn active ((held.map NsoConnection.endpoint).getD [])
  let name := vrfId.getD ((held.map NsoConnection.connectionId).getD 0)
  let group := VRF.workgroupLines workgroup ((held.bind NsoConnection.workgroup).getD "")
  (diffKeys active texts).filterMap fun d =>
    if textAt texts d=[]∧group=[] then none
    else some (d,s!"OESS-VRF-{name}:\n"::(group++textAt texts d))

/-- A connection compared with the service that NSO holds under its id. -/
def nsoDiff (c : Connection) (held : Option NsoConnection) : DeviceTexts :=
  match c.layer with
  | .l2 => l2NsoDiff c.active held
  | .l3 => l3NsoDiff (some c.connId) c.localAsn c.workgroup c.active held

/-- The texts of a service that is not in the cache. -/
def nsoDiffEmpty (x : NsoConnection) : DeviceTexts :=
  match x.layer with
  | .l2 => l2NsoDiff [] (some x)
  | .l3 => l3NsoDiff none 0 none [] (some x)

theorem textAt_nil_iff (texts : DeviceTexts) :
    (∀ d∈diffKeys active texts,textAt texts d=[]) ↔ ∀ t∈texts,t.2=[] := by
  simp only [diffKeys,mem_dedup,mem_append,mem_map,textAt,flatMap_eq_nil_iff,
    mem_filter,decide_eq_true_eq]
  constructor
  · intro h t ht
    exact h t.1 (.inr ⟨t,ht,rfl⟩) t ⟨ht,rfl⟩
  · intro h d _ t ht
    exact h t ht.1

theorem L2Circuit.compared_nil_iff (x : NsoEndpoint) (e : Endpoint) :
    (compared x e).2=[] ↔ Agrees x e := by
  by_cases h : Agrees x e
  · obtain ⟨h1,h2,h3,h4⟩ := id h
    simp [compared,h,h2,h3,h4]
  · simp only [compared,h,if_false]
    split_ifs <;> simp

theorem VRF.comparedPeer_nil_iff (p : NsoPeer) (r : Peer) : comparedPeer p r=[] ↔ PeerAgrees p r := by
  by_cases h : PeerAgrees p r
  · obtain ⟨h1,h2,h3,h4⟩ := id h
    simp [comparedPeer,h1,h2,h3,h4]
  · simp [comparedPeer,h]

def PeersAgree (reported : List NsoPeer) (peers : List Peer) : Prop :=
  KeyedDiff.Matched Peer.vrfEpPeerId NsoPeer.peerId VRF.PeerAgrees peers reported

def L2Agrees : Prop :=
  KeyedDiff.Matched Endpoint.place NsoEndpoint.place L2Circuit.Agrees active reported

def L3Agrees : Prop :=
  KeyedDiff.Matched Endpoint.place NsoEndpoint.place
    (fun x e => VRF.EndpointAgrees x e∧PeersAgree x.peer e.peers) active reported

/-- Connection and service agree in everything that `nso_diff` compares. -/
def AgreesWith (c : Connection) (x : NsoConnection) : Prop :=
  match c.layer with
  | .l2 => L2Agrees c.active x.endpoint
  | .l3 => L3Agrees c.active x.endpoint∧c.workgroup=some (x.workgroup.getD "")

/-- The ids of endpoints and of peers are distinct. -/
structure Connection.Keyed (c : Connection) : Prop where
  endpoints : (c.active.map Endpoint.place).Nodup
  peers : ∀ e∈c.active,(e.peers.map Peer.vrfEpPeerId).Nodup

structure NsoConnection.Keyed (x : NsoConnection) : Prop where
  endpoints : (x.endpoint.map NsoEndpoint.place).Nodup
  peers : ∀ y∈x.endpoint,(y.peer.map NsoPeer.peerId).Nodup

variable (localAsn : Nat) {active : List Endpoint} {reported : List NsoEndpoint}

theorem peerBlocks_nil_iff {reported : List NsoPeer} {peers : List Peer}
    (hp : (peers.map Peer.vrfEpPeerId).Nodup) (hr : (reported.map NsoPeer.peerId).Nodup) :
    (VRF.peerBlocks localAsn reported peers).all isEmpty=true ↔ PeersAgree reported peers := by
  have hquiet : (∀ t∈VRF.peerBlocks localAsn reported peers,t=[]) ↔
      KeyedDiff.Matched Peer.vrfEpPeerId NsoPeer.peerId (fun p r => VRF.comparedPeer p r=[]) peers
        reported := diff_quiet_iff (by simp [VRF.removedPeer,VRF.peerLines])
      (by simp [VRF.addedPeer,VRF.peerLines]) hp hr
  simp only [VRF.comparedPeer_nil_iff] at hquiet
  rw [PeersAgree,← hquiet]
  simp

theorem VRF.compared_nil_iff (x : NsoEndpoint) (e : Endpoint)
    (he : (e.peers.map Peer.vrfEpPeerId).Nodup) (hx : (x.peer.map NsoPeer.peerId).Nodup) :
    (compared localAsn x e).2=[] ↔ EndpointAgrees x e∧PeersAgree x.peer e.peers := by
  rw [compared,← peerBlocks_nil_iff localAsn he hx]
  split_ifs with h
  · exact ⟨fun _ => h,fun _ => rfl⟩
  refine ⟨fun hnil => ?_,fun hok => absurd hok h⟩
  rw [append_eq_nil_iff] at hnil
  have hlines : endpointLines x e≠[] := by
    unfold endpointLines
    split_ifs <;> simp
  exact absurd hnil.1 hlines

theorem l2Blocks_nil_iff (ha : (active.map Endpoint.place).Nodup)
    (hr : (reported.map NsoEndpoint.place).Nodup) :
    (∀ t∈l2Blocks active reported,t.2=[]) ↔ L2Agrees active reported := by
  have hquiet : (∀ t∈l2Blocks active reported,t.2=[]) ↔
      KeyedDiff.Matched Endpoint.place NsoEndpoint.place (fun x e => (L2Circuit.compared x e).2=[])
        active reported :=
    diff_quiet_iff (by simp [L2Circuit.removed]) (by simp [L2Circuit.added]) ha hr
  simp only [L2Circuit.compared_nil_iff] at hquiet
  exact hquiet

theorem l3Blocks_nil_iff (ha : (active.map Endpoint.place).Nodup)
    (hr : (reported.map NsoEndpoint.place).Nodup)
    (hap : ∀ e∈active,(e.peers.map Peer.vrfEpPeerId).Nodup)
    (hrp : ∀ y∈reported,(y.peer.map NsoPeer.peerId).Nodup) :
    (∀ t∈l3Blocks localAsn active reported,t.2=[]) ↔ L3Agrees active reported := by
  have hquiet : (∀ t∈l3Blocks localAsn active reported,t.2=[]) ↔
      KeyedDiff.Matched Endpoint.place NsoEndpoint.place
        (fun x e => (VRF.compared localAsn x e).2=[]) active reported :=
    diff_quiet_iff (by simp [VRF.removed]) (by simp [VRF.added]) ha hr
  rw [hquiet]
  refine and_congr ?_ Iff.rfl
  refine forall₂_congr fun y hy => exists_congr fun e => and_congr_right fun he => ?_
  exact and_congr_right fun _ => VRF.compared_nil_iff localAsn y e (hap e he) (hrp y hy)

theorem nsoDiff_nil_iff {c : Connection} {x : NsoConnection} (hc : c.Keyed) (hx : x.Keyed)
    (hact : c.active≠[]) : nsoDiff c (some x)=[] ↔ AgreesWith c x := by
  obtain ⟨e,he⟩ := exists_mem_of_ne_nil _ hact
  unfold nsoDiff AgreesWith
  cases c.layer with
  | l2 =>
    rw [← l2Blocks_nil_iff hc.endpoints hx.endpoints,← textAt_nil_iff c.active]
    simp [l2NsoDiff]
  | l3 =>
    rw [← l3Blocks_nil_iff c.localAsn hc.endpoints hx.endpoints hc.peers hx.peers,
      ← textAt_nil_iff c.active]
    have hgroup : VRF.workgroupLines c.workgroup (x.workgroup.getD "")=[] ↔
        c.workgroup=some (x.workgroup.getD "") := by
      cases c.workgroup <;> simp [VRF.workgroupLines]
    have hkey : e.shortNodeName∈diffKeys c.active (l3Blocks c.localAsn c.active x.endpoint) := by
      rw [diffKeys,mem_dedup]
      exact mem_append_left _ (mem_map_of_mem he)
    simp only [l3NsoDiff,filterMap_eq_nil_iff,
      Option.bind_some,ite_eq_left_iff,reduceCtorEq,imp_false,not_not,hgroup]
    constructor
    · intro h
      exact ⟨fun d hd => (h d hd).1,(h _ hkey).2⟩
    · intro h d hd
      exact ⟨h.1 d hd,h.2⟩

theorem nsoDiff_none {c : Connection} (hc : c.Keyed) (hact : c.active≠[]) :
    nsoDiff c none≠[] := by
  obtain ⟨e,he⟩ := exists_mem_of_ne_nil _ hact
  -- there is nothing to compare with, as in a service without endpoints
  have hnone : nsoDiff c none=nsoDiff c (some ⟨c.layer,c.connId,[],none⟩) := by
    cases c.layer <;> rfl
  have hkeyed : NsoConnection.Keyed ⟨c.layer,c.connId,[],none⟩ := ⟨nodup_nil,by simp⟩
  rw [hnone,Ne,nsoDiff_nil_iff hc hkeyed hact,AgreesWith]
  intro hagree
  split at hagree
  · obtain ⟨y,hy,-⟩ := hagree.2 e he
    cases hy
  · obtain ⟨y,hy,-⟩ := hagree.1.2 e he
    cases hy

end OESS.NSO
