import OESS.Framework.Runs
import OESS.NSO.Converge

namespace OESS.NSO

open Option Function List KeyedDiff

/-- What the database holds beside the id. -/
structure Details where
  localAsn : Nat
  workgroup : Option String
  endpoints : List Endpoint

def Details.connection (d : Details) (layer : Layer) (id : Nat) : Connection :=
  ⟨layer,id,d.localAsn,d.workgroup,d.endpoints⟩

/-- Without the endpoints that are decommissioned. -/
def Details.loaded (d : Details) : Details :=
  {d with endpoints := d.endpoints.filter (·.state≠.decom)}

/-- The connections under each node, and the flat table by id. -/
structure ConnectionCache where
  cache : Cache
  flatCache : Layer×Nat → Option Connection

namespace ConnectionCache

def clear : ConnectionCache := ⟨Cache.empty,fun _ => none⟩

variable (s : ConnectionCache)

def addConnection (c : Connection) : ConnectionCache where
  cache := s.cache.addConnection c
  flatCache := Function.update s.flatCache c.key (some c)

/-- Only under the nodes of the connection given. -/
def removeConnection (c : Connection) : ConnectionCache where
  cache := fun layer node =>
    if layer=c.layer∧Cache.OnNode c node then
      KeyedTable.deleteKey Connection.connId c.connId (s.cache layer node)
    else s.cache layer node
  flatCache := Function.update s.flatCache c.key none

def getConnectionsByNode (node : Nat) (layer : Layer) : List Connection := s.cache layer node

variable (conns : List Connection)

def updateCache : ConnectionCache := conns.foldl addConnection clear

/-- The database's version, and NSO's error, if any. -/
structure Request where
  stored : Option Details
  answer : Option String

def add (layer : Layer) (missing : Nat → String) (s : ConnectionCache) (id : Nat) (r : Request) :
    ConnectionCache×Option String :=
  match r.stored with
  | none => (s,some (missing id))
  | some d =>
    match r.answer with
    | some err => (s,some err)
    | none => (s.addConnection (d.loaded.connection layer id),none)

def delete (layer : Layer) (missing : Nat → String) (s : ConnectionCache) (id : Nat) (r : Request) :
    ConnectionCache×Option String :=
  match r.stored with
  | none => (s,some (missing id))
  | some d =>
    match r.answer with
    | some err => (s,some err)
    | none => (s.removeConnection (d.loaded.connection layer id),none)

/-- The pending version is taken as it was sent. -/
def modify (layer : Layer) (s : ConnectionCache) (id : Nat) (pending : Details) (r : Request) :
    ConnectionCache×Option String :=
  match r.answer with
  | some err => (s,some err)
  | none => (s.addConnection (pending.connection layer id),none)

-- The only one of the four that does not look whether the connection was found.
def addVlan : ConnectionCache → Nat → Request → ConnectionCache×Option String :=
  add .l2 fun _ => "Can't call method \"load_endpoints\" on an undefined value"

-- The text names an argument that this call does not have.
def deleteVlan : ConnectionCache → Nat → Request → ConnectionCache×Option String :=
  delete .l2 fun _ => "Couldn't find l3connection ."

def modifyVlan : ConnectionCache → Nat → Details → Request → ConnectionCache×Option String :=
  modify .l2

def addVrf : ConnectionCache → Nat → Request → ConnectionCache×Option String :=
  add .l3 fun id => s!"Couldn't find l3connection {id}."

def deleteVrf : ConnectionCache → Nat → Request → ConnectionCache×Option String :=
  delete .l3 fun id => s!"Couldn't find l3connection {id}."

def modifyVrf : ConnectionCache → Nat → Details → Request → ConnectionCache×Option String :=
  modify .l3

inductive Call where
  | addVlan (circuitId : Nat)
  | deleteVlan (circuitId : Nat)
  | modifyVlan (circuitId : Nat) (pending : Details)
  | addVrf (vrfId : Nat)
  | deleteVrf (vrfId : Nat)
  | modifyVrf (vrfId : Nat) (pending : Details)

def perform (call : Call) (r : Request) : ConnectionCache×Option String :=
  match call with
  | .addVlan id => s.addVlan id r
  | .deleteVlan id => s.deleteVlan id r
  | .modifyVlan id pending => s.modifyVlan id pending r
  | .addVrf id => s.addVrf id r
  | .deleteVrf id => s.deleteVrf id r
  | .modifyVrf id pending => s.modifyVrf id pending r

variable (e : Call×Request)

def step : ConnectionCache := (s.perform e.1 e.2).1

/-- A version becomes current, or is removed with one loaded. -/
inductive Effect where
  | current (c : Connection)
  | gone (c : Connection)

def Effect.version : Effect → Connection
  | .current c | .gone c => c

def Effect.result : Effect → Option Connection
  | .current c => some c
  | .gone _ => none

def effect : Option Effect :=
  let loaded (layer : Layer) (id : Nat) := (e.2.stored.filter fun _ => e.2.answer=none).map
    fun d => d.loaded.connection layer id
  match e.1 with
  | .addVlan id => (loaded .l2 id).map .current
  | .deleteVlan id => (loaded .l2 id).map .gone
  | .modifyVlan id pending =>
    if e.2.answer=none then some (.current (pending.connection .l2 id)) else none
  | .addVrf id => (loaded .l3 id).map .current
  | .deleteVrf id => (loaded .l3 id).map .gone
  | .modifyVrf id pending =>
    if e.2.answer=none then some (.current (pending.connection .l3 id)) else none

variable (es : List (Call×Request))

/-- The version last added or modified, and not deleted. -/
def latest (k : Layer×Nat) : Option Connection :=
  match (es.filterMap effect).reverse.find? fun f => f.version.key=k with
  | some f => f.result
  | none => conns.find? fun c => c.key=k

def run : ConnectionCache := es.foldl step (updateCache conns)

/-- Under each node, the latest version of its connections. -/
def Exact : Prop :=
  ∀ layer node c,c∈(run conns es).getConnectionsByNode node layer ↔
    latest conns es c.key=some c∧c.layer=layer∧Cache.OnNode c node

/-- The new version is on each node of the cached one. -/
def Covers : Prop :=
  ∀ f,effect e=some f → ∀ c,s.flatCache f.version.key=some c →
    ∀ node,Cache.OnNode c node → Cache.OnNode f.version node

def apply : Effect → ConnectionCache
  | .current c => s.addConnection c
  | .gone c => s.removeConnection c

variable (s : ConnectionCache) {conns : List Connection}

theorem step_effect (e : Call×Request) : s.step e=
    match effect e with
    | none => s
    | some f => s.apply f := by
  obtain ⟨call,stored,answer⟩ := e
  cases call <;> cases stored <;> cases answer <;> rfl

@[simp] theorem apply_flatCache (f : Effect) :
    (s.apply f).flatCache=update s.flatCache f.version.key f.result := by
  cases f <;> rfl

theorem mem_apply (f : Effect) (layer : Layer) (node : Nat) (d : Connection) :
    d∈(s.apply f).cache layer node ↔
      if layer=f.version.layer∧Cache.OnNode f.version node then
        (d∈s.cache layer node∧d.connId≠f.version.connId)∨f.result=some d
      else d∈s.cache layer node := by
  cases f with
  | current c =>
    simp only [apply,addConnection,Cache.addConnection,Effect.version,Effect.result, some.injEq]
    split_ifs
    · rw [KeyedTable.mem_put,eq_comm]
    · rfl
  | gone c =>
    simp only [apply,removeConnection,Effect.version,Effect.result,reduceCtorEq,or_false]
    split_ifs
    · rw [KeyedTable.mem_deleteKey]
    · rfl

/-- Under the nodes are those of the flat table. -/
def Agrees : Prop :=
  ∀ layer node c,c∈s.cache layer node ↔ s.flatCache c.key=some c∧c.layer=layer∧Cache.OnNode c node

def FlatKeyed : Prop := ∀ k c,s.flatCache k=some c → c.key=k

theorem Effect.result_key {f : Effect} {c : Connection} (h : f.result=some c) : f.version=c := by
  cases f with
  | current d => exact some.inj h
  | gone d => cases h

variable {s : ConnectionCache}

theorem FlatKeyed.step (h : FlatKeyed s) (e : Call×Request) : FlatKeyed (s.step e) := by
  rw [step_effect]
  cases effect e with
  | none => exact h
  | some f =>
    intro k c hc
    rw [apply_flatCache,update_apply] at hc
    split_ifs at hc with hk
    · rw [hk,Effect.result_key hc]
    · exact h k c hc

/-- Agreement is kept exactly when the call reaches all nodes of the old version. -/
theorem agrees_apply_iff (hkeyed : FlatKeyed s) (h : Agrees s) (f : Effect) :
    Agrees (s.apply f) ↔ ∀ c,s.flatCache f.version.key=some c →
      ∀ node,Cache.OnNode c node → Cache.OnNode f.version node := by
  constructor
  · intro hnext c hc node hon
    have hkey : c.key=f.version.key := hkeyed _ c hc
    by_contra hoff
    -- the old version is still found under the node, so it must be the version in the call
    have hmem : c∈(s.apply f).cache c.layer node := by
      rw [mem_apply,if_neg fun h => hoff h.2]
      exact (h _ _ c).mpr ⟨hkey ▸ hc,rfl,hon⟩
    have hflat := ((hnext _ _ c).mp hmem).1
    rw [apply_flatCache,hkey,update_self] at hflat
    rw [Effect.result_key hflat] at hoff
    exact hoff hon
  · intro hcover layer node d
    rw [mem_apply,apply_flatCache,update_apply]
    by_cases hkey : d.key=f.version.key
    · have hlayer : d.layer=f.version.layer := congrArg Prod.fst hkey
      have hid : d.connId=f.version.connId := congrArg Prod.snd hkey
      split_ifs with hat
      · constructor
        · rintro (⟨-,hne⟩ | hd)
          · exact absurd hid hne
          · exact ⟨hd,hlayer.trans hat.1.symm,Effect.result_key hd ▸ hat.2⟩
        · intro hd
          exact .inr hd.1
      · constructor
        · intro hd
          obtain ⟨hflat,hl,hon⟩ := (h layer node d).mp hd
          exact absurd ⟨hl.symm.trans hlayer,hcover d (hkey ▸ hflat) node hon⟩ hat
        · intro ⟨hres,hl,hon⟩
          exact absurd ⟨hl.symm.trans hlayer,Effect.result_key hres ▸ hon⟩ hat
    · have hres : f.result≠some d := fun hr => hkey (Effect.result_key hr ▸ rfl)
      split_ifs with hat
      · rw [h layer node d]
        refine (or_iff_left hres).trans (and_iff_left_of_imp fun hd hid => hkey ?_)
        rw [Connection.key,Connection.key,hd.2.1,hid,hat.1]
      · exact h layer node d

theorem agrees_step_iff (hkeyed : FlatKeyed s) (h : Agrees s)
    (e : Call×Request) : Agrees (s.step e) ↔ Covers s e := by
  rw [step_effect,Covers]
  cases effect e with
  | none => simpa using h
  | some f =>
    rw [agrees_apply_iff hkeyed h f]
    simp

theorem updateCache_cache : (updateCache conns).cache=Cache.updateCache conns := by
  induction conns using reverseRecOn with
  | nil => rfl
  | append_singleton conns c ih =>
    rw [updateCache,foldl_append,Cache.updateCache,foldl_append]
    exact congrArg (Cache.addConnection · c) ih

theorem updateCache_flatCache (hkeys : (conns.map Connection.key).Nodup) (k : Layer×Nat) :
    (updateCache conns).flatCache k=conns.find? fun c => c.key=k := by
  induction conns using reverseRecOn with
  | nil => rfl
  | append_singleton conns c ih =>
    rw [map_append,nodup_append] at hkeys
    have hadd : (updateCache (conns++[c])).flatCache=
        update (updateCache conns).flatCache c.key (some c) := by
      rw [updateCache,foldl_append]
      rfl
    rw [hadd,update_apply,find?_append,ih hkeys.1]
    split_ifs with hk
    · have hnone : (conns.find? (·.key=k))=none := by
        rw [find?_eq_none]
        intro d hd he
        rw [decide_eq_true_eq] at he
        exact hkeys.2.2 _ (mem_map_of_mem hd) _ (mem_singleton_self _) (he.trans hk)
      rw [hnone,hk]
      simp
    · have hne : ¬c.key=k := fun h => hk h.symm
      simp [hne]

theorem latest_snoc (es : List (Call×Request)) (e : Call×Request)
    (k : Layer×Nat) : latest conns (es++[e]) k=
      match effect e with
      | none => latest conns es k
      | some f => if k=f.version.key then f.result else latest conns es k := by
  unfold latest
  cases he : effect e with
  | none => simp [he]
  | some f =>
    by_cases hk : f.version.key=k
    · simp [he,hk]
    · have hk' : ¬k=f.version.key := fun h => hk h.symm
      simp [he,hk,hk']

section

variable (hkeys : (conns.map Connection.key).Nodup)
include hkeys

variable (es : List (Call×Request))

theorem run_flatCache : (run conns es).flatCache=latest conns es := by
  funext k
  induction es using reverseRecOn with
  | nil => exact updateCache_flatCache hkeys k
  | append_singleton es e ih =>
    have hrun : run conns (es++[e])=(run conns es).step e := by
      rw [run,foldl_append]
      rfl
    rw [hrun,latest_snoc,step_effect]
    cases effect e with
    | none => exact ih
    | some f =>
      rw [apply_flatCache,update_apply,ih]

theorem exact_iff_agrees : Exact conns es ↔ Agrees (run conns es) := by
  rw [Agrees,run_flatCache hkeys es]
  rfl

theorem agrees_updateCache : Agrees (updateCache conns) := by
  intro layer node c
  rw [updateCache_cache,Cache.holds_updateCache conns hkeys layer node c,
    updateCache_flatCache hkeys]
  refine and_congr_left fun _ => ?_
  exact ⟨fun hc => find_key hkeys hc rfl,fun hc => (mem_of_find_key hc).1⟩

end

/-- The cache is exact throughout iff every call reaches all nodes of the version it replaces. -/
theorem exact_throughout_iff (conns : List Connection) (hkeys : (conns.map Connection.key).Nodup)
    (es : List (Call×Request)) :
    (∀ past,past<+:es → Exact conns past) ↔ Runs.StepsOk step Covers (updateCache conns) es := by
  have hkeyed : FlatKeyed (updateCache conns) := by
    intro k c hc
    rw [updateCache_flatCache hkeys] at hc
    exact (mem_of_find_key hc).2
  rw [← Runs.always_iff_stepsOk (I := FlatKeyed) (fun _ e h => h.step e)
    (fun _ e hi h => agrees_step_iff hi h e) (agrees_updateCache hkeys) hkeyed,
    Runs.always_iff_past]
  exact forall₂_congr fun past _ => exact_iff_agrees hkeys past

variable (nodes : List Nat)

/-- A circuit with an active endpoint on each of these nodes. -/
def onNodes : Details :=
  ⟨64512,none,nodes.map fun n => ⟨n,n,s!"r{n}","ge0",100,0,100,none,9000,.active,none,[]⟩⟩

/-- Added, moved to other nodes, and deleted with those. -/
def moves (before after : List Nat) : List (Call×Request) :=
  [(.addVlan 5,⟨some (onNodes before),none⟩),(.modifyVlan 5 (onNodes after),⟨none,none⟩),
    (.deleteVlan 5,⟨some (onNodes after),none⟩)]

theorem onNodes_onNode (layer : Layer) (id node : Nat) :
    Cache.OnNode ((onNodes nodes).connection layer id) node ↔ node∈nodes := by
  simp [Cache.OnNode,Details.connection,onNodes]

theorem onNodes_loaded : (onNodes nodes).loaded=onNodes nodes := by simp [onNodes,Details.loaded]

theorem moves_exact : Runs.StepsOk step Covers (updateCache []) (moves [1] [1,2])∧
    ∀ past,past<+:moves [1] [1,2] → Exact [] past := by
  refine (and_iff_left_of_imp (exact_throughout_iff [] nodup_nil _).mpr).mpr ⟨?_,?_,?_,trivial⟩
  · intro f hf c hc
    cases hc
  · intro f hf c hc node hon
    obtain rfl := some.inj hf
    obtain rfl : (onNodes [1]).loaded.connection .l2 5=c := some.inj hc
    rw [onNodes_loaded,onNodes_onNode] at hon
    exact (onNodes_onNode [1,2] .l2 5 node).mpr (mem_append_left [2] hon)
  · intro f hf c hc node hon
    obtain rfl := some.inj hf
    obtain rfl : (onNodes [1,2]).connection .l2 5=c := some.inj hc
    exact hon

/-- The old version is still found at node 2. -/
theorem moves_stale : ¬Exact [] ((moves [1,2] [1]).take 2)∧
    ((onNodes [1,2]).connection .l2 5)∈(run [] ((moves [1,2] [1]).take 2)).getConnectionsByNode 2 .l2∧
    latest [] ((moves [1,2] [1]).take 2) (.l2,5)=some ((onNodes [1]).connection .l2 5) := by
  have hstale : ((onNodes [1,2]).connection .l2 5)∈
      (run [] ((moves [1,2] [1]).take 2)).getConnectionsByNode 2 .l2 := by
    decide +kernel
  have hlatest : latest [] ((moves [1,2] [1]).take 2) (.l2,5)=
      some ((onNodes [1]).connection .l2 5) := by
    decide +kernel
  refine ⟨fun h => ?_,hstale,hlatest⟩
  have hcur := ((h .l2 2 _).mp hstale).1
  have hne : (onNodes [1]).connection .l2 5≠(onNodes [1,2]).connection .l2 5 := by decide +kernel
  exact hne (some.inj (hlatest.symm.trans hcur))

end ConnectionCache

end OESS.NSO
