import Mathlib.Data.List.Dedup
import Mathlib.Logic.Function.Basic
import OESS.Access.Handlers
import OESS.Database.Tables

namespace OESS.MPLS.Cache

open Access (NetworkType)
open Database (CircuitType PathType)
open List Option Function

structure Endpoint where
  node : String
  (nodeId interfaceId : Nat)
  deriving DecidableEq

structure Path where
  type : PathType
  links : List Nat
  deriving DecidableEq

structure Circuit where
  id : Nat
  type : CircuitType
  endpoints : List Endpoint
  paths : List Path
  deriving DecidableEq

inductive VrfState where
  | active | decom
  deriving DecidableEq

structure Vrf where
  id : Nat
  state : Option VrfState
  endpoints : List Endpoint

inductive VlanType where
  | evpn | l2vpn | l2ccc | l2vpls
  deriving DecidableEq

def Circuit.path (c : Circuit) (type : PathType) : Option Path := c.paths.find? fun p => p.type=type

def Circuit.nodes (c : Circuit) : List String := c.endpoints.map Endpoint.node

def Vrf.nodes (v : Vrf) : List String := (v.endpoints.map Endpoint.node).dedup

/-- What a switch process gets to see of a circuit. -/
structure CktEntry where
  circuit : Circuit
  endpoints : List Endpoint
  cktType : VlanType
  siteId : Nat
  zNode : Option Nat
  zLoopback : Option String
  deriving DecidableEq

structure VrfEntry where
  vrf : Vrf
  endpoints : List Endpoint

structure Switch where
  vrfs : Nat → Option VrfEntry
  ckts : Nat → Option CktEntry

abbrev Switches := String → Option Switch

def Switch.empty : Switch := ⟨fun _ => none,fun _ => none⟩

/-- The database as far as connections are loaded from it. -/
structure Db where
  circuit : Nat → Option Circuit
  vrf : Nat → Option Vrf
  circuit_id : ∀ id c,circuit id=some c → c.id=id

/-- The connections in the hashes, the circuits' types, the nodes' names and loopback addresses. -/
structure Fwdctl where
  db : Db
  networkType : NetworkType
  circuit : List (Nat×CircuitType)
  vrfs : List Nat
  nodeInfo : List String
  loopback : Nat → Option String
  keys : (circuit.map Prod.fst).Nodup

def cacheVrfEndpoint (v : Vrf) (s : Switches) (e : Endpoint) : Switches :=
  let switch := (s e.node).getD .empty
  let entry := (switch.vrfs v.id).getD ⟨v,[]⟩
  let vrfs := Function.update switch.vrfs v.id (some {entry with endpoints := entry.endpoints++[e]})
  Function.update s e.node (some {switch with vrfs := vrfs})

variable (f : Fwdctl)

def cacheVrf (s : Switches) (id : Nat) : Switches :=
  match f.db.vrf id with
  | none => s
  | some v => v.endpoints.foldl (cacheVrfEndpoint v) s

def getCktObject (id : Nat) : Option Circuit := (f.db.circuit id).filter fun c => c.type=.mpls

def switchesInUse (c : Circuit) : List Nat := (c.endpoints.map Endpoint.nodeId).dedup

def cacheType (network : NetworkType) (c : Circuit) : VlanType :=
  let cktType :=
    if network=.evpnVxlan then .evpn
    else
      let cktType :=
        if (c.path .primary).any (fun p => 0 < p.links.length) then VlanType.l2ccc else .l2vpn
      if 2 < c.endpoints.length then .l2vpls else cktType
  if (switchesInUse c).length=1∧network≠.evpnVxlan then .l2vpls else cktType

def CktEntry.facing (loopback : Nat → Option String) (e : Endpoint) (x : CktEntry) (node : Nat) :
    CktEntry :=
  if e.nodeId=node then x else {x with zNode := some node,zLoopback := loopback node}

/-- A node gets the site id of its first endpoint. -/
def cacheEndpoint (c : Circuit) (cktType : VlanType) (x : Nat×Switches)
    (e : Endpoint) : Nat×Switches :=
  let siteId := x.1+1
  let switch := (x.2 e.node).getD .empty
  let entry := (switch.ckts c.id).getD ⟨c,[],cktType,siteId,none,none⟩
  let entry :=
    if cktType=.l2ccc then (switchesInUse c).foldl (CktEntry.facing f.loopback e) entry else entry
  let ckts := Function.update switch.ckts c.id (some {entry with endpoints := entry.endpoints++[e]})
  (siteId,Function.update x.2 e.node (some {switch with ckts := ckts}))

def cacheCircuit (s : Switches) (x : Nat×CircuitType) : Switches :=
  if x.2≠.mpls then s
  else
    match getCktObject f x.1 with
    | none => s
    | some c =>
      (c.endpoints.foldl (cacheEndpoint f c (cacheType f.networkType c)) (0,s)).2

def switches : Switches :=
  f.circuit.foldl (cacheCircuit f) (f.vrfs.foldl (cacheVrf f) fun _ => none)

/-- One shared file for each node. -/
def writeCache : List (String×Option Switch) := f.nodeInfo.map fun node => (node,switches f node)

def filterEndpoints (node : String) (es : List Endpoint) : List Endpoint :=
  es.filter fun e => e.node=node

def siteIdFrom (node : String) : Nat → List Endpoint → Nat
  | siteId,[] => siteId
  | siteId,e::es => if e.node=node then siteId+1 else siteIdFrom node (siteId+1) es

def determineSiteId (node : String) (es : List Endpoint) : Nat := siteIdFrom node 0 es

variable (network : NetworkType)

def determineVlanType (c : Circuit) : VlanType :=
  if network=.evpnVxlan then .evpn
  else
    let cktType :=
      if c.paths.any (fun p => p.type=.primary∧0 < p.links.length) then VlanType.l2ccc else .l2vpn
    if 2 < c.endpoints.length then .l2vpls else cktType

structure Version where
  circuit : Circuit
  endpoints : List Endpoint
  cktType : VlanType
  siteId : Nat
  deriving DecidableEq

def version (node : String) (c : Circuit) : Version where
  circuit := c
  endpoints := filterEndpoints node c.endpoints
  cktType := determineVlanType network c
  siteId := determineSiteId node c.endpoints

structure Request where
  node : String
  (pending previous : Version)
  deriving DecidableEq

def modifyVlan (pending previous : Circuit) : List Request :=
  (pending.nodes++previous.nodes).dedup.map fun node =>
    ⟨node,version network node pending,version network node previous⟩

theorem mem_modifyVlan {network : NetworkType} {pending previous : Circuit} {r : Request} :
    r∈modifyVlan network pending previous ↔ (r.node∈pending.nodes∨r.node∈previous.nodes)∧
      r.pending=version network r.node pending∧r.previous=version network r.node previous := by
  simp only [modifyVlan,List.mem_map,mem_dedup,mem_append]
  constructor
  · rintro ⟨node,hnode,rfl⟩
    exact ⟨hnode,rfl,rfl⟩
  · intro ⟨hnode,hpending,hprevious⟩
    refine ⟨r.node,hnode,?_⟩
    rw [← hpending,← hprevious]

variable {node : String} {before after : List Endpoint}

theorem siteIdFrom_append (h : node∉before.map Endpoint.node) (k : Nat) :
    siteIdFrom node k (before++after)=siteIdFrom node (k+before.length) after := by
  induction before generalizing k with
  | nil => simp
  | cons e es ih =>
    simp only [map_cons,mem_cons,not_or] at h
    have hne : ¬e.node=node := fun he => h.1 he.symm
    have hrest := ih h.2 (k+1)
    simp only [cons_append,siteIdFrom,if_neg hne,length_cons]
    rw [hrest]
    congr 1
    omega

theorem determineSiteId_first {e : Endpoint} (h : e.node∉before.map Endpoint.node) :
    determineSiteId e.node (before++e::after)=before.length+1 := by
  rw [determineSiteId,siteIdFrom_append h]
  simp [siteIdFrom]

variable {es : List Endpoint}

theorem exists_first (h : node∈es.map Endpoint.node) :
    ∃ before e after,es=before++e::after∧e.node=node∧node∉before.map Endpoint.node := by
  obtain ⟨ns,ms,hnodes,hfirst⟩ := eq_append_cons_of_mem h
  obtain ⟨before,rest,rfl,rfl,hrest⟩ := map_eq_append_iff.mp hnodes
  obtain ⟨e,after,rfl,hnode,-⟩ := map_eq_cons_iff.mp hrest
  exact ⟨before,e,after,rfl,hnode,hfirst⟩

theorem determineSiteId_injective {n m : String} (hn : n∈es.map Endpoint.node)
    (hm : m∈es.map Endpoint.node) (h : determineSiteId n es=determineSiteId m es) : n=m := by
  obtain ⟨before,e,after,rfl,rfl,hfirst⟩ := exists_first hn
  obtain ⟨before',e',after',hes,rfl,hfirst'⟩ := exists_first hm
  rw [determineSiteId_first hfirst,hes,determineSiteId_first hfirst'] at h
  have hlen : before.length=before'.length := by omega
  obtain ⟨-,hcons⟩ := append_inj hes hlen
  simp only [cons.injEq] at hcons
  rw [hcons.1]

section Entries

variable {f : Fwdctl} {c : Circuit} {t : VlanType}

def stored (s : Switches) (node : String) (id : Nat) : Option CktEntry :=
  (s node).bind fun x => x.ckts id

theorem stored_cacheVrfEndpoint (v : Vrf) (s : Switches) (e : Endpoint) (node : String) (id : Nat) :
    stored (cacheVrfEndpoint v s e) node id=stored s node id := by
  unfold stored cacheVrfEndpoint
  by_cases hnode : node=e.node
  · subst hnode
    cases hs : s e.node <;> simp [Switch.empty]
  · simp [update_of_ne hnode]

theorem stored_cacheVrf (f : Fwdctl) (s : Switches) (id : Nat) (node : String) (ckt : Nat) :
    stored (cacheVrf f s id) node ckt=stored s node ckt := by
  unfold cacheVrf
  cases f.db.vrf id with
  | none => rfl
  | some v =>
    simp only
    generalize v.endpoints=es
    induction es generalizing s with
    | nil => rfl
    | cons e es ih => rw [foldl_cons,ih,stored_cacheVrfEndpoint]

theorem stored_vrfs (f : Fwdctl) (ids : List Nat) (s : Switches) (node : String) (ckt : Nat) :
    stored (ids.foldl (cacheVrf f) s) node ckt=stored s node ckt := by
  induction ids generalizing s with
  | nil => rfl
  | cons id ids ih => rw [foldl_cons,ih,stored_cacheVrf]

variable (es : List Endpoint) (x : Nat×Switches) {id : Nat}

theorem stored_cacheEndpoint_ne (e : Endpoint) (h : node≠e.node∨id≠c.id) :
    stored (cacheEndpoint f c t x e).2 node id=stored x.2 node id := by
  unfold stored cacheEndpoint
  by_cases hnode : node=e.node
  · have hid : id≠c.id := h.resolve_left fun hne => hne hnode
    subst hnode
    cases hs : x.2 e.node <;> simp [Switch.empty,update_of_ne hid]
  · simp [update_of_ne hnode]

theorem foldl_facing (loopback : Nat → Option String) (e : Endpoint) (nodes : List Nat)
    (x : CktEntry) : (nodes.foldl (CktEntry.facing loopback e) x).cktType=x.cktType∧
      (nodes.foldl (CktEntry.facing loopback e) x).siteId=x.siteId := by
  induction nodes generalizing x with
  | nil => exact ⟨rfl,rfl⟩
  | cons node nodes ih =>
    have hstep : (x.facing loopback e node).cktType=x.cktType∧
        (x.facing loopback e node).siteId=x.siteId := by
      unfold CktEntry.facing
      split_ifs <;> exact ⟨rfl,rfl⟩
    exact ⟨(ih _).1.trans hstep.1,(ih _).2.trans hstep.2⟩

def filed (s : Switches) (node : String) (id : Nat) : Option (VlanType×Nat) :=
  (stored s node id).map fun x => (x.cktType,x.siteId)

/-- Type and site id are set with the first endpoint. -/
theorem filed_cacheEndpoint (e : Endpoint) : filed (cacheEndpoint f c t x e).2 e.node c.id=
      some ((filed x.2 e.node c.id).getD (t,x.1+1)) := by
  simp only [filed,stored,cacheEndpoint,update_self,bind_some]
  have hentry : ((x.2 e.node).getD .empty).ckts c.id=(x.2 e.node).bind fun y => y.ckts c.id := by
    cases x.2 e.node <;> rfl
  rw [hentry]
  cases (x.2 e.node).bind fun y => y.ckts c.id <;> split_ifs <;> simp [foldl_facing]

theorem cacheEndpoint_count : (es.foldl (cacheEndpoint f c t) x).1=x.1+es.length := by
  induction es generalizing x with
  | nil => rfl
  | cons e es ih =>
    rw [foldl_cons,ih]
    simp only [cacheEndpoint,length_cons]
    omega

theorem stored_endpoints_ne (h : node∉es.map Endpoint.node∨id≠c.id) :
    stored (es.foldl (cacheEndpoint f c t) x).2 node id=stored x.2 node id := by
  induction es generalizing x with
  | nil => rfl
  | cons e es ih =>
    simp only [map_cons,mem_cons,not_or] at h
    rw [foldl_cons,ih _ (h.imp_left And.right), stored_cacheEndpoint_ne x e (h.imp_left And.left)]

theorem filed_endpoints_kept {y : VlanType×Nat} (h : filed x.2 node c.id=some y) :
    filed (es.foldl (cacheEndpoint f c t) x).2 node c.id=some y := by
  induction es generalizing x with
  | nil => exact h
  | cons e es ih =>
    apply ih
    by_cases hnode : node=e.node
    · subst hnode
      rw [filed_cacheEndpoint,h]
      rfl
    · unfold filed at ⊢
      rwa [stored_cacheEndpoint_ne x e (.inl hnode)]

theorem filed_endpoints (s : Switches) (hs : stored s node c.id=none)
    (hnode : node∈es.map Endpoint.node) :
    filed (es.foldl (cacheEndpoint f c t) (0,s)).2 node c.id=some (t,determineSiteId node es) := by
  obtain ⟨before,e,after,rfl,rfl,hfirst⟩ := exists_first hnode
  rw [foldl_append,foldl_cons,determineSiteId_first hfirst]
  apply filed_endpoints_kept
  have hnone : filed (before.foldl (cacheEndpoint f c t) (0,s)).2 e.node c.id=none := by
    rw [filed,stored_endpoints_ne before (0,s) (.inl hfirst),hs]
    rfl
  rw [filed_cacheEndpoint,hnone,cacheEndpoint_count]
  simp

theorem getCktObject_id (h : getCktObject f id=some c) : c.id=id := by
  unfold getCktObject at h
  rw [filter_eq_some_iff] at h
  exact f.db.circuit_id id c h.1

theorem stored_cacheCircuit_ne (s : Switches) (x : Nat×CircuitType) (h : id≠x.1) :
    stored (cacheCircuit f s x) node id=stored s node id := by
  unfold cacheCircuit
  split_ifs
  · rfl
  cases hc : getCktObject f x.1 with
  | none => rfl
  | some c =>
    have hid : id≠c.id := by rwa [getCktObject_id hc]
    exact stored_endpoints_ne c.endpoints (0,s) (.inr hid)

theorem stored_circuits_ne (xs : List (Nat×CircuitType)) (s : Switches) (h : id∉xs.map Prod.fst) :
    stored (xs.foldl (cacheCircuit f) s) node id=stored s node id := by
  induction xs generalizing s with
  | nil => rfl
  | cons x xs ih =>
    simp only [map_cons,mem_cons,not_or] at h
    rw [foldl_cons,ih _ h.2,stored_cacheCircuit_ne s x h.1]

theorem filed_switches (hid : (id,.mpls)∈f.circuit) (hc : getCktObject f id=some c)
    (hnode : node∈c.nodes) : filed (switches f) node c.id=
      some (cacheType f.networkType c,determineSiteId node c.endpoints) := by
  have hkeys := f.keys
  obtain ⟨before,after,hsplit⟩ := append_of_mem hid
  rw [hsplit,map_append] at hkeys
  obtain ⟨-,hcons,hdisjoint⟩ := nodup_append.mp hkeys
  have hbefore : id∉before.map Prod.fst := fun h => hdisjoint id h id mem_cons_self rfl
  have hafter : id∉after.map Prod.fst := (nodup_cons.mp hcons).1
  have hcid : c.id=id := getCktObject_id hc
  set s := before.foldl (cacheCircuit f) (f.vrfs.foldl (cacheVrf f) fun _ => none)
  have hs : stored s node c.id=none := by
    rw [stored_circuits_ne before _ (hcid ▸ hbefore),stored_vrfs]
    rfl
  have hstep : cacheCircuit f s (id,.mpls)=
      (c.endpoints.foldl (cacheEndpoint f c (cacheType f.networkType c)) (0,s)).2 := by
    simp [cacheCircuit,hc]
  have hswitches : switches f=after.foldl (cacheCircuit f)
      (c.endpoints.foldl (cacheEndpoint f c (cacheType f.networkType c)) (0,s)).2 := by
    rw [switches,hsplit,foldl_append,foldl_cons,hstep]
  rw [hswitches]
  rw [filed,stored_circuits_ne after _ (hcid ▸ hafter)]
  exact filed_endpoints c.endpoints s hs hnode

end Entries

section Agreement

variable {f : Fwdctl} {c : Circuit}

def Circuit.Routed (c : Circuit) : Prop := ∃ p∈c.paths,p.type=.primary∧p.links≠[]

def Circuit.FirstRouted (c : Circuit) : Prop := ∃ p∈c.path .primary,p.links≠[]

theorem routed_iff (c : Circuit) :
    c.paths.any (fun p => p.type=.primary∧0 < p.links.length)=true ↔ c.Routed := by
  simp [Circuit.Routed,length_pos_iff]

instance (c : Circuit) : Decidable c.Routed := decidable_of_iff _ (routed_iff c)

theorem firstRouted_iff (c : Circuit) :
    (c.path .primary).any (fun p => 0 < p.links.length)=true ↔ c.FirstRouted := by
  unfold Circuit.FirstRouted
  cases c.path .primary <;> simp [length_pos_iff]

instance (c : Circuit) : Decidable c.FirstRouted := decidable_of_iff _ (firstRouted_iff c)

theorem Circuit.FirstRouted.routed (h : c.FirstRouted) : c.Routed := by
  obtain ⟨p,hp,hlinks⟩ := h
  have htype : p.type=.primary := by simpa using find?_some hp
  exact ⟨p,mem_of_find?_eq_some hp,htype,hlinks⟩

/-- Not on one node, and the first primary path has links if any has. -/
def Circuit.Alike (c : Circuit) : Prop := (switchesInUse c).length≠1∧(c.Routed → c.FirstRouted)

/-- The cache alone has a rule for a single node and looks at the first primary path only. -/
theorem cacheType_eq_iff (network : NetworkType) (c : Circuit) :
    cacheType network c=determineVlanType network c ↔
      network=.evpnVxlan∨2 < c.endpoints.length∨c.Alike := by
  by_cases hnet : network=.evpnVxlan
  · simp [cacheType,determineVlanType,hnet]
  by_cases hmany : 2 < c.endpoints.length
  · simp [cacheType,determineVlanType,hmany]
  have hdet : determineVlanType network c=
      if c.Routed then VlanType.l2ccc else .l2vpn := by
    simp only [determineVlanType,if_neg hnet,if_neg hmany,routed_iff]
  have hcache : cacheType network c=if (switchesInUse c).length=1 then .l2vpls
      else if c.FirstRouted then .l2ccc else .l2vpn := by
    simp only [cacheType,if_neg hmany,firstRouted_iff,ne_eq,hnet,not_false_eq_true,and_true,
      if_false]
  rw [hdet,hcache]
  simp only [hnet,hmany,Circuit.Alike]
  by_cases hone : (switchesInUse c).length=1
  · simp only [hone]
    split_ifs <;> simp
  simp only [ne_eq,hone]
  by_cases hfirst : c.FirstRouted
  · simp [hfirst.routed]
  · by_cases hrouted : c.Routed <;> simp [hfirst]

/-- `v` is sent as the pending version or the previous one. -/
def Sent (network : NetworkType) (c : Circuit) (node : String) (v : Version) : Prop :=
  ∃ other,(∃ r∈modifyVlan network c other,r.node=node∧r.pending=v)∨
    ∃ r∈modifyVlan network other c,r.node=node∧r.previous=v

theorem sent_iff {network : NetworkType} {v : Version} (h : node∈c.nodes) :
    Sent network c node v ↔ v=version network node c := by
  constructor
  · rintro ⟨other,⟨r,hr,rfl,rfl⟩ | ⟨r,hr,rfl,rfl⟩⟩
    · exact (mem_modifyVlan.mp hr).2.1
    · exact (mem_modifyVlan.mp hr).2.2
  · intro hv
    refine ⟨c,.inl ⟨⟨node,v,v⟩,?_,rfl,rfl⟩⟩
    apply mem_modifyVlan.mpr
    exact ⟨.inl h,hv,hv⟩

/-- The files of the circuit's nodes have it with the type and site id that `modifyVlan` sends. -/
def CacheAgrees (f : Fwdctl) (c : Circuit) : Prop :=
  ∀ x∈writeCache f,x.1∈c.nodes → ∃ entry,x.2.bind (·.ckts c.id)=some entry∧
    ∀ v,Sent f.networkType c x.1 v → v.cktType=entry.cktType∧v.siteId=entry.siteId

def SitesDiffer (f : Fwdctl) (c : Circuit) : Prop :=
  ∀ n∈c.nodes,∀ m∈c.nodes,n≠m → ∀ v w,Sent f.networkType c n v → Sent f.networkType c m w →
    v.siteId≠w.siteId

theorem sitesDiffer (f : Fwdctl) (c : Circuit) : SitesDiffer f c := by
  intro n hn m hm hne v w hv hw heq
  rw [sent_iff hn] at hv
  rw [sent_iff hm] at hw
  subst hv hw
  exact hne (determineSiteId_injective hn hm heq)

theorem cacheAgrees_iff {id : Nat} (hid : (id,.mpls)∈f.circuit) (hc : getCktObject f id=some c) :
    CacheAgrees f c ↔ (∀ n∈c.nodes,n∉f.nodeInfo)∨
      cacheType f.networkType c=determineVlanType f.networkType c := by
  have hentry (n : String) (hn : n∈c.nodes) : ∃ entry,stored (switches f) n c.id=some entry∧
      entry.cktType=cacheType f.networkType c∧entry.siteId=determineSiteId n c.endpoints := by
    obtain ⟨entry,hstored,heq⟩ := map_eq_some_iff.mp (filed_switches hid hc hn)
    simp only [Prod.mk.injEq] at heq
    exact ⟨entry,hstored,heq⟩
  constructor
  · intro h
    by_cases hknown : ∀ n∈c.nodes,n∉f.nodeInfo
    · exact .inl hknown
    push Not at hknown
    obtain ⟨n,hn,hinfo⟩ := hknown
    obtain ⟨entry,hstored,htype,-⟩ := hentry n hn
    obtain ⟨entry',hstored',hsent⟩ := h (n,switches f n) (mem_map_of_mem hinfo) hn
    have heq : entry=entry' := some.inj (hstored.symm.trans hstored')
    have hversion := (hsent _ ((sent_iff hn).mpr rfl)).1
    right
    rw [← htype,heq,← hversion]
    rfl
  · intro h x hx hn
    obtain ⟨n,hinfo,rfl⟩ := mem_map.mp hx
    obtain ⟨entry,hstored,htype,hsite⟩ := hentry n hn
    have hsame := h.resolve_left fun h => h n hn hinfo
    refine ⟨entry,hstored,?_⟩
    intro v hv
    rw [sent_iff hn] at hv
    subst hv
    exact ⟨hsame.symm.trans htype.symm,hsite.symm⟩

/-- Cache and change agree exactly if the network is an EVPN, the circuit has more than two
endpoints, or both methods see it alike. -/
theorem modifyVlan_agrees_iff (f : Fwdctl) (id : Nat) (c : Circuit) (hid : (id,.mpls)∈f.circuit)
    (hc : getCktObject f id=some c) :
    (CacheAgrees f c∧SitesDiffer f c) ↔ (∀ n∈c.nodes,n∉f.nodeInfo)∨f.networkType=.evpnVxlan∨
      2 < c.endpoints.length∨c.Alike := by
  rw [and_iff_left (sitesDiffer f c),cacheAgrees_iff hid hc,cacheType_eq_iff]

end Agreement

def hairpin : Circuit where
  id := 7
  type := .mpls
  endpoints := [⟨"mx1",1,10⟩,⟨"mx1",1,11⟩]
  paths := []

def spanning : Circuit where
  id := 8
  type := .mpls
  endpoints := [⟨"mx1",1,10⟩,⟨"mx2",2,20⟩]
  paths := [⟨.primary,[3]⟩]

def twoCircuits : Db where
  circuit id := if id=7 then some hairpin else if id=8 then some spanning else none
  vrf _ := none
  circuit_id := by
    intro id c h
    split_ifs at h with h₁ h₂
    · rw [← Option.some.inj h,h₁]
      rfl
    · rw [← Option.some.inj h,h₂]
      rfl

def lab : Fwdctl where
  db := twoCircuits
  networkType := .vpnMpls
  circuit := [(7,.mpls),(8,.mpls)]
  vrfs := []
  nodeInfo := ["mx1","mx2"]
  loopback id := if id=1 then some "192.0.2.1" else some "192.0.2.2"
  keys := by decide

/-- A circuit on one node is a VPLS in the cache and a plain VPN in a change. -/
theorem hairpin_differs : (switches lab "mx1").bind (·.ckts 7)=
      some ⟨hairpin,hairpin.endpoints,.l2vpls,1,none,none⟩∧
    modifyVlan lab.networkType hairpin hairpin=
      [⟨"mx1",⟨hairpin,hairpin.endpoints,.l2vpn,1⟩,⟨hairpin,hairpin.endpoints,.l2vpn,1⟩⟩]∧
    ¬(CacheAgrees lab hairpin∧SitesDiffer lab hairpin) := by
  have hcached : (switches lab "mx1").bind (·.ckts 7)=
      some ⟨hairpin,hairpin.endpoints,.l2vpls,1,none,none⟩ := by decide +kernel
  have hrequests : modifyVlan lab.networkType hairpin hairpin=
      [⟨"mx1",⟨hairpin,hairpin.endpoints,.l2vpn,1⟩,⟨hairpin,hairpin.endpoints,.l2vpn,1⟩⟩] := by
    decide +kernel
  refine ⟨hcached,hrequests,?_⟩
  intro h
  obtain ⟨entry,hentry,hsent⟩ := h.1 ("mx1",switches lab "mx1") (by simp [writeCache,lab])
    (by decide)
  have htype := (hsent ⟨hairpin,hairpin.endpoints,.l2vpn,1⟩ ⟨hairpin,.inl ⟨_,by
    exact mem_singleton_self _,rfl,rfl⟩⟩).1
  rw [← some.inj hentry] at htype
  cases htype

theorem spanning_agrees : spanning.Alike∧CacheAgrees lab spanning∧SitesDiffer lab spanning := by
  have halike : spanning.Alike := by
    refine ⟨by decide,?_⟩
    intro _
    exact ⟨⟨.primary,[3]⟩,rfl,by simp⟩
  refine ⟨halike,?_⟩
  apply (modifyVlan_agrees_iff lab 8 spanning (by simp [lab]) (by decide)).mpr
  exact .inr (.inr (.inr halike))

end OESS.MPLS.Cache
