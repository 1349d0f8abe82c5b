import OESS.Framework.Lookup
import OESS.NSO.NsoDiff
import Mathlib.Logic.Function.Basic

namespace OESS.NSO

open List KeyedTable

structure Node where
  nodeId : Nat
  shortName : String
  deriving DecidableEq

inductive PendingDiff where
  | none | pending | error | approved
  deriving DecidableEq

inductive Change where
  | create (c : Connection)
  | edit (c : Connection)
  | delete (x : NsoConnection)
  deriving DecidableEq

def Change.key : Change → Layer×Nat
  | .create c | .edit c => c.key
  | .delete x => x.key

/-- `pendingDiff` is the state in memory, `nodePending` the database's for the nodes known. -/
structure Controller where
  localAsn : Nat
  cache : Cache
  nodes : List Node
  pendingDiff : String → PendingDiff
  nodePending : String → Option PendingDiff
  nso : List NsoConnection

/-- The ids seen, of either layer, the services not yet met, the texts by device and the changes. -/
structure Sync where
  synced : List Nat
  held : List NsoConnection
  texts : DeviceTexts
  changes : List Change

def changeFor (held : List NsoConnection) (c : Connection) : List Change :=
  match held.find? fun x => x.key=c.key with
  | none => if nsoDiff c none=[] then [] else [.create c]
  | some x => if nsoDiff c (some x)=[] then [] else [.edit c]

def Sync.visit (s : Sync) (c : Connection) : Sync :=
  if c.connId∈s.synced then s
  else
    { synced := s.synced++[c.connId]
      held := KeyedTable.deleteKey NsoConnection.key c.key s.held
      texts := s.texts++nsoDiff c (s.held.find? (·.key=c.key))
      changes := s.changes++changeFor s.held c }

def Sync.leave (s : Sync) (x : NsoConnection) : Sync :=
  {s with texts := s.texts++nsoDiffEmpty x,changes := s.changes++[.delete x]}

namespace Controller

variable (s : Controller)

/-- The cached connections in the order of the loop over the nodes. -/
def visits : List Connection := s.nodes.flatMap fun n => s.cache .l2 n.nodeId++s.cache .l3 n.nodeId

def sync : Sync :=
  let met := s.visits.foldl Sync.visit ⟨[],KeyedTable.putAll NsoConnection.key s.nso [],[],[]⟩
  ((met.held.filter (·.layer=.l2))++met.held.filter (·.layer=.l3)).foldl Sync.leave met

def diffNodes : List String := (s.nodes.map Node.shortName++s.sync.texts.map Prod.fst).dedup

def diffLength (device : String) : Nat := ((textAt s.sync.texts device).map String.length).sum

end Controller

/-- The device's state in memory and in the database after such a diff. -/
def settle (length : Nat) (memory stored : PendingDiff) : PendingDiff×PendingDiff :=
  if length<30 then (.none,.none)
  else
    let blocked := if memory=.none then (.pending,.pending) else (memory,stored)
    (if blocked.1=.pending∧blocked.2=.none then .approved else blocked.1,blocked.2)

def Controller.settleNode (length : String → Nat) (s : Controller) (device : String) : Controller :=
  match s.nodePending device with
  | none => s
  | some stored =>
    let r := settle (length device) (s.pendingDiff device) stored
    {s with
      pendingDiff := Function.update s.pendingDiff device r.1
      nodePending := Function.update s.nodePending device (some r.2)}

def Controller.settleNodes (s : Controller) : Controller :=
  s.diffNodes.foldl (Controller.settleNode s.diffLength) s

/-- Endpoints of a service have no `short_node_name`, so a removal reads the state of the empty
name. -/
def withheld (pendingDiff : String → PendingDiff) : Change → Bool
  | .create c | .edit c => c.endpoints.any fun e => pendingDiff e.shortNodeName=.pending
  | .delete x => x.endpoint.any fun _ => pendingDiff ""=.pending

/-- A service that exists is not created again. -/
def call (localAsn : Nat) (nso : List NsoConnection) : Change → List NsoConnection
  | .create c =>
    if c.key∈nso.map NsoConnection.key then nso else nso++[Client.payload localAsn c]
  | .edit c => KeyedTable.put NsoConnection.key (Client.payload localAsn c) nso
  | .delete x => KeyedTable.deleteKey NsoConnection.key x.key nso

namespace Controller

variable (s : Controller)

def issued : List Change := s.sync.changes.filter fun ch => !withheld s.settleNodes.pendingDiff ch

/-- `diff`: one round, with every call to NSO successful. -/
def diff : Controller := {s.settleNodes with nso := s.issued.foldl (call s.localAsn) s.nso}

/-- The connections compared: the first one met with each id. -/
def compared : List Connection := KeyedTable.firsts Connection.connId s.visits

def leftovers : List NsoConnection := s.nso.filter fun x => x.key∉s.compared.map Connection.key

end Controller

variable (held : List NsoConnection) (localAsn : Nat) (s : Controller) (d : String)
  {nso : List NsoConnection}

theorem compared_keys_nodup : (s.compared.map Connection.key).Nodup := by
  have hids := (firsts_spec Connection.connId s.visits).1
  have hcomp : s.compared.map Connection.connId=(s.compared.map Connection.key).map Prod.snd := by
    rw [map_map]
    rfl
  rw [Controller.compared] at hcomp
  rw [hcomp] at hids
  exact hids.of_map

theorem find_filter {ks : List (Layer×Nat)} {k : Layer×Nat} (hk : k∉ks) :
    ((held.filter (·.key∉ks)).find? (·.key=k))=held.find? fun x => x.key=k := by
  rw [find?_filter]
  congr 1
  funext x
  by_cases hx : x.key=k
  · simp [hx,hk]
  · simp [hx]

theorem foldl_visit (conns : List Connection) : conns.foldl Sync.visit ⟨[],held,[],[]⟩=
      ⟨(KeyedTable.firsts Connection.connId conns).map Connection.connId,
        held.filter (·.key∉(KeyedTable.firsts Connection.connId conns).map Connection.key),
        (KeyedTable.firsts Connection.connId conns).flatMap fun c =>
          nsoDiff c (held.find? (·.key=c.key)),
        (KeyedTable.firsts Connection.connId conns).flatMap (changeFor held)⟩ := by
  induction conns using reverseRecOn with
  | nil => simp [KeyedTable.firsts]
  | append_singleton conns c ih =>
    rw [foldl_append,ih,foldl_cons,foldl_nil,firsts_snoc,Sync.visit]
    split_ifs with hc
    · rfl
    have hkey : c.key∉(KeyedTable.firsts Connection.connId conns).map Connection.key := by
      intro hmem
      obtain ⟨d,hd,he⟩ := mem_map.mp hmem
      exact hc (mem_map.mpr ⟨d,hd,congrArg Prod.snd he⟩)
    have hfind := find_filter held hkey
    have hchange : changeFor (held.filter fun x =>
        x.key∉(KeyedTable.firsts Connection.connId conns).map Connection.key) c=
        changeFor held c := by
      rw [changeFor,hfind,changeFor]
    rw [hfind,hchange]
    simp only [map_append,flatMap_append,map_cons,map_nil,
      flatMap_cons,flatMap_nil,append_nil,Sync.mk.injEq,true_and,and_true]
    rw [KeyedTable.deleteKey,filter_filter]
    congr 1
    funext x
    rw [Bool.eq_iff_iff]
    simp only [Bool.and_eq_true,decide_eq_true_eq,mem_append,mem_singleton,not_or]
    exact and_comm

theorem foldl_leave (s : Sync) (xs : List NsoConnection) :
    (xs.foldl Sync.leave s).changes=s.changes++xs.map Change.delete∧
    (xs.foldl Sync.leave s).texts=s.texts++xs.flatMap nsoDiffEmpty := by
  induction xs generalizing s with
  | nil => simp
  | cons x xs ih => simp [ih,Sync.leave]

theorem layers_perm (xs : List NsoConnection) :
    ((xs.filter (·.layer=.l2))++xs.filter (·.layer=.l3)).Perm xs := by
  have hl3 : (xs.filter (·.layer=.l3))=xs.filter fun x => !decide (x.layer=.l2) := by
    congr 1
    funext x
    cases x.layer <;> rfl
  rw [hl3]
  exact filter_append_perm _ _

section Changes

variable {s : Controller} (hnso : (s.nso.map NsoConnection.key).Nodup)

include hnso

theorem sync_changes : s.sync.changes=s.compared.flatMap (changeFor s.nso)++
    ((s.leftovers.filter (·.layer=.l2))++s.leftovers.filter (·.layer=.l3)).map Change.delete := by
  have hheld : KeyedTable.putAll NsoConnection.key s.nso []=s.nso :=
    putAll_eq_append _ _ _ (by simpa using hnso)
  rw [Controller.sync,hheld,foldl_visit,(foldl_leave _ _).1]
  rfl

theorem held_find_iff (c : Connection) (x : NsoConnection) :
    (s.nso.find? (·.key=c.key))=some x ↔ x∈s.nso∧x.key=c.key :=
  ⟨KeyedDiff.mem_of_find_key,fun h => KeyedDiff.find_key hnso h.1 h.2⟩

theorem mem_changes (ch : Change) : ch∈s.sync.changes ↔
    (∃ c∈s.compared,c.key∉s.nso.map NsoConnection.key∧nsoDiff c none≠[]∧ch=.create c)∨
    (∃ c∈s.compared,∃ x∈s.nso,x.key=c.key∧nsoDiff c (some x)≠[]∧ch=.edit c)∨
    ∃ x∈s.leftovers,ch=.delete x := by
  have hfor (c : Connection) : ch∈changeFor s.nso c ↔
      (c.key∉s.nso.map NsoConnection.key∧nsoDiff c none≠[]∧ch=.create c)∨
      ∃ x∈s.nso,x.key=c.key∧nsoDiff c (some x)≠[]∧ch=.edit c := by
    unfold changeFor
    cases hf : s.nso.find? fun x => x.key=c.key with
    | none =>
      have hnone : c.key∉s.nso.map NsoConnection.key := by
        intro hmem
        obtain ⟨x,hx,hk⟩ := mem_map.mp hmem
        simpa [hk] using find?_eq_none.mp hf x hx
      have hno : ¬∃ x∈s.nso,x.key=c.key∧nsoDiff c (some x)≠[]∧ch=.edit c := by
        intro h
        obtain ⟨x,hx,hk,-⟩ := h
        exact hnone (hk ▸ mem_map_of_mem hx)
      split_ifs with hd <;> simp [hd,hnone,hno]
    | some x =>
      obtain ⟨hx,hk⟩ := (held_find_iff hnso c x).mp hf
      have hmem : c.key∈s.nso.map NsoConnection.key := hk ▸ mem_map_of_mem hx
      have hone : (∃ y∈s.nso,y.key=c.key∧nsoDiff c (some y)≠[]∧ch=.edit c) ↔
          nsoDiff c (some x)≠[]∧ch=.edit c := by
        constructor
        · intro ⟨y,hy,hyk,h⟩
          rwa [inj_on_of_nodup_map hnso hy hx (hyk.trans hk.symm)] at h
        · exact fun h => ⟨x,hx,hk,h⟩
      rw [hone]
      split_ifs with hd <;> simp [hmem]
  have hlayer (x : NsoConnection) : x.layer=.l2∨x.layer=.l3 := by cases x.layer <;> simp
  rw [sync_changes hnso]
  simp only [mem_append,mem_flatMap,mem_map,hfor,mem_filter,decide_eq_true_eq]
  constructor
  · rintro (⟨c,hc,h | h⟩ | ⟨x,hx,rfl⟩)
    · exact .inl ⟨c,hc,h⟩
    · exact .inr (.inl ⟨c,hc,h⟩)
    · exact .inr (.inr ⟨x,hx.elim And.left And.left,rfl⟩)
  · intro h
    rcases h with ⟨c,hc,h⟩ | ⟨c,hc,h⟩ | ⟨x,hx,rfl⟩
    · exact .inl ⟨c,hc,.inl h⟩
    · exact .inl ⟨c,hc,.inr h⟩
    · exact .inr ⟨x,(hlayer x).imp (⟨hx,·⟩) (⟨hx,·⟩),rfl⟩

theorem changes_keys_nodup : (s.sync.changes.map Change.key).Nodup := by
  have hsub : ∀ conns : List Connection,
      ((conns.flatMap (changeFor s.nso)).map Change.key).Sublist (conns.map Connection.key) := by
    intro conns
    induction conns with
    | nil => exact Sublist.refl []
    | cons c conns ih =>
      have hone : ((changeFor s.nso c).map Change.key).Sublist [c.key] := by
        unfold changeFor
        cases s.nso.find? fun x => x.key=c.key <;> dsimp only <;> split_ifs <;> simp [Change.key]
      rw [flatMap_cons,map_append]
      exact hone.append ih
  have hleft : (s.leftovers.map NsoConnection.key).Nodup := hnso.sublist (filter_sublist.map _)
  have hperm := layers_perm s.leftovers
  have hdel : ((((s.leftovers.filter (·.layer=.l2))++
      s.leftovers.filter (·.layer=.l3)).map Change.delete).map Change.key)=
      (((s.leftovers.filter (·.layer=.l2))++
        s.leftovers.filter (·.layer=.l3)).map NsoConnection.key) := by
    rw [map_map]
    rfl
  rw [sync_changes hnso,map_append,hdel,nodup_append]
  refine ⟨(compared_keys_nodup s).sublist (hsub s.compared),(hperm.map _).nodup_iff.mpr hleft,?_⟩
  intro k hk k' hk' he
  obtain ⟨x,hx,rfl⟩ := mem_map.mp hk'
  have hx' := (mem_filter.mp (hperm.mem_iff.mp hx)).2
  rw [decide_eq_true_eq] at hx'
  exact hx' (he ▸ (hsub s.compared).subset hk)

end Changes

def Change.Sends (localAsn : Nat) (ch : Change) (x : NsoConnection) : Prop :=
  ∃ c,(ch=.create c∨ch=.edit c)∧x=Client.payload localAsn c

theorem Change.Sends.key_eq {localAsn : Nat} {ch : Change} {x : NsoConnection}
    (h : ch.Sends localAsn x) : x.key=ch.key := by
  obtain ⟨c,rfl | rfl,rfl⟩ := h
  all_goals exact Client.payload_key localAsn c

theorem mem_call {ch : Change} (hnew : ∀ c,ch=.create c → c.key∉nso.map NsoConnection.key)
    (x : NsoConnection) : x∈call localAsn nso ch ↔ (x∈nso∧x.key≠ch.key)∨ch.Sends localAsn x := by
  unfold Change.Sends
  cases ch with
  | create c =>
    have hc := hnew c rfl
    have hne : x∈nso → x.key≠c.key := fun hx he => hc (he ▸ mem_map_of_mem hx)
    rw [call,if_neg hc,mem_append,mem_singleton]
    simp only [Change.create.injEq,reduceCtorEq,or_false,exists_eq_left']
    exact or_congr_left ⟨fun hx => ⟨hx,hne hx⟩,And.left⟩
  | edit c =>
    rw [call,mem_put,Client.payload_key]
    simp [Change.key]
  | delete y =>
    rw [call,mem_deleteKey]
    simp [Change.key]

theorem mem_calls {changes : List Change} (hkeys : (changes.map Change.key).Nodup)
    (hnew : ∀ c,Change.create c∈changes → c.key∉nso.map NsoConnection.key) (x : NsoConnection) :
    x∈changes.foldl (call localAsn) nso ↔
      (∃ ch∈changes,ch.Sends localAsn x)∨(x∈nso∧x.key∉changes.map Change.key) := by
  induction changes using reverseRecOn generalizing x with
  | nil => simp
  | append_singleton changes ch ih =>
    rw [map_append,nodup_append] at hkeys
    obtain ⟨hkeys,-,hdisj⟩ := hkeys
    have hfresh : ∀ d∈changes,d.key≠ch.key := fun d hd he =>
      hdisj _ (mem_map_of_mem hd) _ (mem_singleton_self _) he
    have hbefore := ih hkeys fun c hc => hnew c (mem_append_left _ hc)
    have habsent : ∀ c,ch=.create c →
        c.key∉(changes.foldl (call localAsn) nso).map NsoConnection.key := by
      intro c hc hmem
      obtain ⟨y,hy,hyk⟩ := mem_map.mp hmem
      rcases (hbefore y).mp hy with ⟨d,hd,hs⟩ | ⟨hy,-⟩
      · exact hfresh d hd (by rw [← hs.key_eq,hyk,hc]; rfl)
      · exact hnew c (by simp [hc]) (hyk ▸ mem_map_of_mem hy)
    rw [foldl_append,foldl_cons,foldl_nil,mem_call localAsn habsent,hbefore x]
    simp only [mem_append,mem_singleton,map_append,map_cons,map_nil,not_or]
    constructor
    · rintro (⟨⟨d,hd,hs⟩ | ⟨hx,hk⟩,hne⟩ | hs)
      · exact .inl ⟨d,.inl hd,hs⟩
      · exact .inr ⟨hx,hk,hne⟩
      · exact .inl ⟨ch,.inr rfl,hs⟩
    · rintro (⟨d,hd | rfl,hs⟩ | ⟨hx,hk,hne⟩)
      · exact .inl ⟨.inl ⟨d,hd,hs⟩,hs.key_eq ▸ hfresh d hd⟩
      · exact .inr hs
      · exact .inl ⟨.inr ⟨hx,hk⟩,hne⟩

theorem calls_keys_nodup (changes : List Change) (hnso : (nso.map NsoConnection.key).Nodup) :
    ((changes.foldl (call localAsn) nso).map NsoConnection.key).Nodup := by
  induction changes generalizing nso with
  | nil => exact hnso
  | cons ch changes ih =>
    apply ih
    cases ch with
    | create c =>
      rw [call]
      split_ifs with hc
      · exact hnso
      rw [← Client.payload_key localAsn] at hc
      exact Lookup.nodup_map_snoc hnso hc
    | edit c => exact put_keys_nodup _ _ _ hnso
    | delete x => exact hnso.sublist (filter_sublist.map _)

theorem foldl_settleNode (length : String → Nat) (devices : List String) (hn : devices.Nodup)
    (s : Controller) (d : String) :
    ((devices.foldl (Controller.settleNode length) s).pendingDiff d=
      if d∈devices then
        match s.nodePending d with
        | none => s.pendingDiff d
        | some stored => (settle (length d) (s.pendingDiff d) stored).1
      else s.pendingDiff d)∧
    ((devices.foldl (Controller.settleNode length) s).nodePending d=
      if d∈devices then
        (s.nodePending d).map fun stored => (settle (length d) (s.pendingDiff d) stored).2
      else s.nodePending d) := by
  induction devices generalizing s with
  | nil => simp
  | cons k devices ih =>
    rw [nodup_cons] at hn
    obtain ⟨hmemory,hstored⟩ := ih hn.2 (s.settleNode length k)
    rw [foldl_cons,hmemory,hstored]
    by_cases hd : d=k
    · subst hd
      simp only [hn.1]
      unfold Controller.settleNode
      cases hs : s.nodePending d <;> simp [hs]
    · have hstep : (s.settleNode length k).pendingDiff d=s.pendingDiff d∧
          (s.settleNode length k).nodePending d=s.nodePending d := by
        unfold Controller.settleNode
        cases s.nodePending k <;> simp [hd]
      rw [hstep.1,hstep.2]
      simp [hd]

theorem diff_pendingDiff : s.diff.pendingDiff d=
    if d∈s.diffNodes then
      match s.nodePending d with
      | none => s.pendingDiff d
      | some stored => (settle (s.diffLength d) (s.pendingDiff d) stored).1
    else s.pendingDiff d :=
  (foldl_settleNode s.diffLength s.diffNodes (nodup_dedup _) s d).1

theorem diff_nodePending : s.diff.nodePending d=
    if d∈s.diffNodes then
      (s.nodePending d).map fun stored => (settle (s.diffLength d) (s.pendingDiff d) stored).2
    else s.nodePending d :=
  (foldl_settleNode s.diffLength s.diffNodes (nodup_dedup _) s d).2

/-- The diff is large and not approved, or there is none and the device was pending before. -/
def Blocked (s : Controller) (d : String) : Prop :=
  match s.nodePending d with
  | none => s.pendingDiff d=.pending
  | some stored =>
    if d∈s.diffNodes then
      30 ≤ s.diffLength d∧(s.pendingDiff d=.none∨(s.pendingDiff d=.pending∧stored≠.none))
    else s.pendingDiff d=.pending

theorem settle_pending_iff (length : Nat) (memory stored : PendingDiff) :
    (settle length memory stored).1=.pending ↔
      30≤length∧(memory=.none∨(memory=.pending∧stored≠.none)) := by
  unfold settle
  by_cases hl : length<30
  · simp [hl]
  · have hl' : 30≤length := by omega
    cases memory <;> simp [hl,hl']

theorem blocked_iff : s.diff.pendingDiff d=.pending ↔ Blocked s d := by
  rw [diff_pendingDiff,Blocked]
  cases s.nodePending d with
  | none => simp
  | some stored =>
    split_ifs
    · exact settle_pending_iff _ _ _
    · exact Iff.rfl

end OESS.NSO
