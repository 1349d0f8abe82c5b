import OESS.NSO.Converge

namespace OESS.NSO

open Option List KeyedDiff

namespace Client

inductive Method where
  | post | put

structure Call where
  method : Method
  path : String
  payload : NsoConnection

def createL2connection (c : Connection) : Call where
  method := .post
  path := "/restconf/data/tailf-ncs:services/"
  payload := ⟨.l2,c.connId,c.active.map l2Endpoint,none⟩

def editL2connection (c : Connection) : Call where
  method := .put
  path := s!"/restconf/data/tailf-ncs:services/oess-l2connection:oess-l2connection={c.connId}"
  payload := ⟨.l2,c.connId,c.active.map l2Endpoint,none⟩

variable (localAsn : Nat) (c : Connection)

def createL3connection : Call where
  method := .post
  path := "/restconf/data/tailf-ncs:services/"
  payload := ⟨.l3,c.connId,c.active.map (l3Endpoint localAsn),
    some (c.workgroup.getD "Unknown Workgroup")⟩

def editL3connection : Call where
  method := .put
  path := s!"/restconf/data/tailf-ncs:services/oess-l3connection:oess-l3connection={c.connId}"
  payload := ⟨.l3,c.connId,c.active.map (l3Endpoint localAsn),
    some (c.workgroup.getD "Unknown Workgroup")⟩

def createCall : Call :=
  match c.layer with
  | .l2 => createL2connection c
  | .l3 => createL3connection localAsn c

def editCall : Call :=
  match c.layer with
  | .l2 => editL2connection c
  | .l3 => editL3connection localAsn c

theorem createCall_payload :
    (createCall localAsn c).payload=payload localAsn c := by
  unfold createCall payload
  cases c.layer <;> rfl

theorem editCall_payload : (editCall localAsn c).payload=payload localAsn c := by
  unfold editCall payload
  cases c.layer <;> rfl

end Client

/-- They agree in all that `nso_diff` looks at, the workgroup for each device of the diff. -/
def LooksSame (c : Connection) (x : NsoConnection) : Prop :=
  match c.layer with
  | .l2 => L2Agrees c.active x.endpoint
  | .l3 => L3Agrees c.active x.endpoint∧ (c.active≠[] → c.workgroup=some (x.workgroup.getD ""))

/-- The fields of a peer that `nso_diff` does not look at. -/
def PeerRest (localAsn : Nat) (e : Endpoint) (q : NsoPeer) (p : Peer) : Prop :=
  q.localAsn=localAsn∧q.md5Key=p.md5Key∧q.ipVersion=p.ipVersion∧
    q.ebgpMultihopTtl=(Client.peer localAsn e p).ebgpMultihopTtl

/-- What is not looked at, or only as a number. -/
def EndpointRest (y : NsoEndpoint) (e : Endpoint) : Prop := y.unit=e.unit∧y.innerTag=e.innerTag

/-- A circuit's service has no workgroup, mtu or peers. -/
def RestSame (localAsn : Nat) (c : Connection) (x : NsoConnection) : Prop :=
  match c.layer with
  | .l2 => x.workgroup=none∧∀ y∈x.endpoint,∀ e∈c.active,y.place=e.place →
      EndpointRest y e∧y.mtu=none∧y.peer=[]
  | .l3 => x.workgroup=c.workgroup∧∀ y∈x.endpoint,∀ e∈c.active,y.place=e.place →
      EndpointRest y e∧y.mtu=some e.mtu∧
        ∀ q∈y.peer,∀ p∈e.peers,q.peerId=p.vrfEpPeerId → PeerRest localAsn e q p

/-- The diff is empty exactly for what the client would send. -/
def DiffDecides (localAsn : Nat) (c : Connection) (x : NsoConnection) : Prop :=
  (nsoDiff c (some x)=[] ↔ SamePayload (Client.createCall localAsn c).payload x)∧
    (Client.createCall localAsn c).payload=(Client.editCall localAsn c).payload

theorem sameTag_self (t : Option Nat) : sameTag t t=true := by simp [sameTag]

variable (localAsn : Nat) (e : Endpoint) {x : NsoConnection}

theorem l2Endpoint_same_iff (y : NsoEndpoint) :
    SameEndpoint (Client.l2Endpoint e) y ↔ y.place=e.place∧L2Circuit.Agrees y e∧
      EndpointRest y e∧y.mtu=none∧y.peer=[] := by
  obtain ⟨endpointId,device,interface,unit,bandwidth,tag,innerTag,mtu,peer⟩ := y
  simp only [SameEndpoint,Client.l2Endpoint,NsoEndpoint.place,Endpoint.place,NsoEndpoint.mk.injEq,Prod.mk.injEq,not_mem_nil,false_iff,
    ← eq_nil_iff_forall_not_mem,and_true]
  constructor
  · rintro ⟨⟨rfl,rfl,rfl,rfl,rfl,rfl,rfl,rfl⟩,rfl⟩
    exact ⟨⟨rfl,rfl⟩,⟨rfl,rfl,rfl,sameTag_self _⟩,⟨rfl,rfl⟩,rfl,rfl⟩
  · rintro ⟨⟨rfl,rfl⟩,⟨rfl,rfl,rfl,-⟩,⟨rfl,rfl⟩,rfl,rfl⟩
    exact ⟨⟨rfl,rfl,rfl,rfl,rfl,rfl,rfl,rfl⟩,rfl⟩

theorem clientPeer_eq_iff (p : Peer) (q : NsoPeer) :
    Client.peer localAsn e p=q ↔ q.peerId=p.vrfEpPeerId∧VRF.PeerAgrees q p∧
      PeerRest localAsn e q p := by
  obtain ⟨peerId,asn,localIp,peerAsn,peerIp,bfd,md5Key,ipVersion,ttl⟩ := q
  simp only [Client.peer,PeerRest,NsoPeer.mk.injEq]
  constructor
  · rintro ⟨rfl,rfl,rfl,rfl,rfl,rfl,rfl,rfl,rfl⟩
    exact ⟨rfl,⟨rfl,rfl,rfl,rfl⟩,rfl,rfl,rfl,rfl⟩
  · rintro ⟨rfl,⟨rfl,rfl,rfl,rfl⟩,rfl,rfl,rfl,rfl⟩
    exact ⟨rfl,rfl,rfl,rfl,rfl,rfl,rfl,rfl,rfl⟩

theorem clientPeers_iff (held : List NsoPeer) (he : (e.peers.map Peer.vrfEpPeerId).Nodup) :
    (∀ q,q∈e.peers.map (Client.peer localAsn e) ↔ q∈held) ↔ PeersAgree held e.peers∧
      ∀ q∈held,∀ p∈e.peers,q.peerId=p.vrfEpPeerId → PeerRest localAsn e q p := by
  rw [PeersAgree,matched_rest_iff he
    fun p _ q _ => clientPeer_eq_iff localAsn e p q]
  constructor
  · intro h
    refine ⟨?_,?_⟩
    · intro p hp
      exact ⟨_,(h _).mp (mem_map_of_mem hp),rfl⟩
    · intro q hq
      exact mem_map.mp ((h q).mpr hq)
  · intro h q
    constructor
    · intro hq
      obtain ⟨p,hp,rfl⟩ := mem_map.mp hq
      obtain ⟨q,hq,rfl⟩ := h.1 p hp
      exact hq
    · intro hq
      exact mem_map.mpr (h.2 q hq)

theorem l3Endpoint_same_iff (y : NsoEndpoint) (he : (e.peers.map Peer.vrfEpPeerId).Nodup) :
    SameEndpoint (Client.l3Endpoint localAsn e) y ↔ y.place=e.place∧
      (VRF.EndpointAgrees y e∧PeersAgree y.peer e.peers)∧EndpointRest y e∧y.mtu=some e.mtu∧
        ∀ q∈y.peer,∀ p∈e.peers,q.peerId=p.vrfEpPeerId → PeerRest localAsn e q p := by
  have hpeers := clientPeers_iff localAsn e y.peer he
  obtain ⟨endpointId,device,interface,unit,bandwidth,tag,innerTag,mtu,peer⟩ := y
  simp only [SameEndpoint,Client.l3Endpoint,NsoEndpoint.place,Endpoint.place,NsoEndpoint.mk.injEq,Prod.mk.injEq,and_true] at ⊢
  rw [hpeers]
  constructor
  · rintro ⟨⟨rfl,rfl,rfl,rfl,rfl,rfl,rfl,rfl⟩,hagree,hrest⟩
    exact ⟨⟨rfl,rfl⟩,⟨⟨rfl,rfl,rfl,rfl,sameTag_self _⟩,hagree⟩,⟨rfl,rfl⟩,rfl,hrest⟩
  · rintro ⟨⟨rfl,rfl⟩,⟨⟨rfl,rfl,-,rfl,-⟩,hagree⟩,⟨rfl,rfl⟩,rfl,hrest⟩
    exact ⟨⟨rfl,rfl,rfl,rfl,rfl,rfl,rfl,rfl⟩,hagree,hrest⟩

theorem sameEndpoints_map_iff (f : Endpoint → NsoEndpoint) (active : List Endpoint)
    (held : List NsoEndpoint) :
    ((∀ z∈active.map f,∃ y∈held,SameEndpoint z y)∧∀ y∈held,∃ z∈active.map f,SameEndpoint z y) ↔
      (∀ e∈active,∃ y∈held,SameEndpoint (f e) y)∧∀ y∈held,∃ e∈active,SameEndpoint (f e) y := by
  rw [List.forall_mem_map]
  simp only [List.mem_map,exists_exists_and_eq_and]

/-- Payloads are the same iff they agree in what is looked at and in the rest. -/
theorem samePayload_iff {c : Connection} (hc : c.Keyed) (hkey : x.key=c.key)
    (hgroup : c.layer=.l3 → c.workgroup≠none) :
    SamePayload (Client.payload localAsn c) x ↔ LooksSame c x∧RestSame localAsn c x := by
  have hsame : SamePayload (Client.payload localAsn c) x ↔
      (Client.payload localAsn c).workgroup=x.workgroup∧
      (∀ z∈(Client.payload localAsn c).endpoint,∃ y∈x.endpoint,SameEndpoint z y)∧
      ∀ y∈x.endpoint,∃ z∈(Client.payload localAsn c).endpoint,SameEndpoint z y :=
    ⟨fun h => ⟨h.workgroup,h.sent,h.held⟩,
      fun h => ⟨(Client.payload_key localAsn c).trans hkey.symm,h.1,h.2.1,h.2.2⟩⟩
  rw [hsame]
  unfold Client.payload LooksSame RestSame
  cases hl : c.layer with
  | l2 =>
    have hrows : (L2Agrees c.active x.endpoint∧∀ y∈x.endpoint,∀ e∈c.active,y.place=e.place →
        EndpointRest y e∧y.mtu=none∧y.peer=[]) ↔
        (∀ e∈c.active,∃ y∈x.endpoint,SameEndpoint (Client.l2Endpoint e) y)∧
          ∀ y∈x.endpoint,∃ e∈c.active,SameEndpoint (Client.l2Endpoint e) y :=
      matched_rest_iff hc.endpoints fun e _ y _ => l2Endpoint_same_iff e y
    rw [sameEndpoints_map_iff,← hrows]
    constructor
    · intro h
      exact ⟨h.2.1,h.1.symm,h.2.2⟩
    · intro h
      exact ⟨h.2.1.symm,h.1,h.2.2⟩
  | l3 =>
    have hrows : (L3Agrees c.active x.endpoint∧∀ y∈x.endpoint,∀ e∈c.active,y.place=e.place →
        EndpointRest y e∧y.mtu=some e.mtu∧
          ∀ q∈y.peer,∀ p∈e.peers,q.peerId=p.vrfEpPeerId → PeerRest localAsn e q p) ↔
        (∀ e∈c.active,∃ y∈x.endpoint,SameEndpoint (Client.l3Endpoint localAsn e) y)∧
          ∀ y∈x.endpoint,∃ e∈c.active,SameEndpoint (Client.l3Endpoint localAsn e) y :=
      matched_rest_iff hc.endpoints
        fun e he y _ => l3Endpoint_same_iff localAsn e y (hc.peers e he)
    rw [sameEndpoints_map_iff,← hrows]
    obtain ⟨name,hname⟩ := ne_none_iff_exists'.mp (hgroup hl)
    rw [hname,getD_some]
    constructor
    · intro h
      refine ⟨⟨h.2.1,fun _ => ?_⟩,h.1.symm,h.2.2⟩
      rw [← h.1,getD_some]
    · intro h
      exact ⟨h.2.1.symm,h.1.1,h.2.2⟩

theorem nsoDiff_looksSame_iff {c : Connection} (hc : c.Keyed) (hx : x.Keyed) :
    nsoDiff c (some x)=[] ↔ LooksSame c x := by
  by_cases hact : c.active=[]
  · unfold nsoDiff LooksSame
    cases c.layer with
    | l2 =>
      rw [← l2Blocks_nil_iff hc.endpoints hx.endpoints,← textAt_nil_iff c.active]
      simp [l2NsoDiff]
    | l3 =>
      have hempty : L3Agrees c.active x.endpoint → x.endpoint=[] := by
        intro hagree
        rw [eq_nil_iff_forall_not_mem]
        intro y hy
        obtain ⟨e,he,-⟩ := hagree.1 y hy
        rw [hact] at he
        cases he
      constructor
      · intro hnil
        refine ⟨?_,fun hne => absurd hact hne⟩
        rw [← l3Blocks_nil_iff c.localAsn hc.endpoints hx.endpoints hc.peers hx.peers,
          ← textAt_nil_iff c.active]
        intro d hd
        simp only [l3NsoDiff,filterMap_eq_nil_iff,
          ite_eq_left_iff,reduceCtorEq,imp_false,not_not] at hnil
        exact (hnil d hd).1
      · intro h
        rw [hact,l3NsoDiff,map_some,hempty h.1]
        rfl
  · rw [nsoDiff_nil_iff hc hx hact]
    unfold AgreesWith LooksSame
    cases c.layer with
    | l2 => exact Iff.rfl
    | l3 => exact and_congr_right fun _ => ⟨fun h _ => h,fun h => h hact⟩

/-- An empty diff decides exactly when the rest cannot be the only difference. -/
theorem nsoDiff_decides_iff (localAsn : Nat) (c : Connection) (x : NsoConnection) (hc : c.Keyed)
    (hx : x.Keyed) (hkey : x.key=c.key) (hgroup : c.layer=.l3 → c.workgroup≠none) :
    DiffDecides localAsn c x ↔ (LooksSame c x → RestSame localAsn c x) := by
  rw [DiffDecides,Client.createCall_payload,Client.editCall_payload,nsoDiff_looksSame_iff hc hx,
    samePayload_iff localAsn hc hkey hgroup]
  constructor
  · intro h hlooks
    exact (h.1.mp hlooks).2
  · intro hrest
    exact ⟨⟨fun hlooks => ⟨hlooks,hrest hlooks⟩,And.left⟩,rfl⟩

variable (md5Key : String)

def keyedVrf : Connection :=
  ⟨.l3,6,64512,some "lab",[⟨61,1,"r1","ge1",200,0,200,none,9000,.active,none,
    [⟨71,"10.0.0.1/31",65001,"10.0.0.0/31",0,some md5Key,"ipv4"⟩]⟩]⟩

theorem keyedVrf_keyed : (keyedVrf md5Key).Keyed :=
  ⟨by simp [keyedVrf,Connection.active],by simp [keyedVrf,Connection.active]⟩

theorem keyedVrf_payload_keyed : (Client.payload 64512 (keyedVrf md5Key)).Keyed :=
  ⟨by simp [keyedVrf,Client.payload,Connection.active],
    by simp [keyedVrf,Client.payload,Connection.active,Client.l3Endpoint]⟩

theorem keyedVrf_decided :
    DiffDecides 64512 (keyedVrf "old") (Client.payload 64512 (keyedVrf "old")) := by
  refine (nsoDiff_decides_iff 64512 _ _ (keyedVrf_keyed _) (keyedVrf_payload_keyed _) rfl
    (by simp [keyedVrf])).mpr fun _ => ?_
  exact ((samePayload_iff 64512 (keyedVrf_keyed _) rfl (by simp [keyedVrf])).mp
    (SamePayload.refl _)).2

/-- The md5 key was changed, and the diff is empty. -/
theorem keyedVrf_rekeyed :
    nsoDiff (keyedVrf "new") (some (Client.payload 64512 (keyedVrf "old")))=[]∧
    ¬DiffDecides 64512 (keyedVrf "new") (Client.payload 64512 (keyedVrf "old")) := by
  have hnil : nsoDiff (keyedVrf "new") (some (Client.payload 64512 (keyedVrf "old")))=[] := by
    decide +kernel
  refine ⟨hnil,fun h => ?_⟩
  have hsame := h.1.mp hnil
  rw [Client.createCall_payload,
    samePayload_iff 64512 (keyedVrf_keyed _) rfl (by simp [keyedVrf])] at hsame
  have hrest := hsame.2
  simp [RestSame,keyedVrf,Connection.active,Client.payload,Client.l3Endpoint,Client.l2Endpoint,
    Client.peer,NsoEndpoint.place,Endpoint.place,PeerRest] at hrest

end OESS.NSO
