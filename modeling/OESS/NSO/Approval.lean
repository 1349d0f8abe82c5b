import OESS.Framework.Runs
import OESS.NSO.Gate

namespace OESS.NSO

open List

/-- A round, with the cache and NSO's answer (none when a request fails), or an admin clears a flag.
-/
inductive Event where
  | round (cache : Cache) (answer : Option (List NsoConnection))
  | approveDiff (device : String)

namespace Controller

variable (s : Controller)

def facing (cache : Cache) (nso : List NsoConnection) : Controller :=
  {s with cache := cache,nso := nso}

/-- `approve_diff`, which leaves the state in memory alone. -/
def approveDiff (device : String) : Controller :=
  {s with nodePending :=
    Function.update s.nodePending device ((s.nodePending device).map fun _ => .none)}

def step : Event → Controller
  | .round cache none => {s with cache := cache}
  | .round cache (some nso) => (s.facing cache nso).diff
  | .approveDiff device => s.approveDiff device

def run (es : List Event) : Controller := es.foldl step s

end Controller

/-- In this round changes of the device wait for an approval. -/
def Blocks (d : String) (s : Controller) : Event → Prop
  | .round cache (some nso) => Blocked (s.facing cache nso) d
  | _ => False

/-- A diff that is made has a large text for the device. -/
def Large (d : String) (s : Controller) : Event → Prop
  | .round cache (some nso) => 30 ≤ (s.facing cache nso).diffLength d
  | _ => True

variable (s : Controller) (d : String)

/-- The device was blocked in a round, and every text since was large. -/
def HeldSince (es after : List Event) : Prop :=
  ∃ before e,es=before++e::after∧Blocks d (s.run before) e∧
    Runs.StepsOk Controller.step (Large d) (s.run before) (e::after)

/-- An admin cleared the flag after such a round. -/
def Approved (es : List Event) : Prop :=
  ∃ after,HeldSince s d es after∧Event.approveDiff d∈after

/-- A cached connection on the device is changed against a large text only with an approval. -/
def ChangesApproved (es : List Event) : Prop :=
  ∀ (cache : Cache) (nso : List NsoConnection) (c : Connection),
    Change.create c∈((s.run es).facing cache nso).issued∨
      Change.edit c∈((s.run es).facing cache nso).issued →
    (∃ e∈c.endpoints,e.shortNodeName=d) → 30 ≤ ((s.run es).facing cache nso).diffLength d →
    Approved s d es

/-- The device is a node of every round, and the database finds it. -/
def Tracked : Prop := d∈s.nodes.map Node.shortName∧s.nodePending d≠none

theorem settle_cases (length : Nat) (memory stored : PendingDiff) :
    (length < 30∧settle length memory stored=(.none,.none))∨
    (30 ≤ length∧memory=.none∧settle length memory stored=(.pending,.pending))∨
    (30 ≤ length∧memory=.pending∧stored=.none∧settle length memory stored=(.approved,.none))∨
    (30 ≤ length∧memory≠.none∧¬(memory=.pending∧stored=.none)∧
      settle length memory stored=(memory,stored)) := by
  unfold settle
  by_cases hl : length < 30
  · simp [hl]
  · have hl' : 30 ≤ length := by omega
    cases memory <;> cases stored <;> simp [hl']

namespace Controller

variable (s : Controller) (d : String) (es : List Event) (e : Event)

theorem run_snoc : s.run (es++[e])=(s.run es).step e := by
  rw [run,foldl_append]
  rfl

theorem step_nodes : (s.step e).nodes=s.nodes := by
  cases e with
  | round cache answer =>
    cases answer with
    | none => rfl
    | some nso =>
      have hsettle (devices : List String) (t : Controller) (length : String → Nat) :
          (devices.foldl (settleNode length) t).nodes=t.nodes := by
        induction devices generalizing t with
        | nil => rfl
        | cons k devices ih =>
          rw [foldl_cons,ih]
          unfold settleNode
          cases t.nodePending k <;> rfl
      exact hsettle _ (s.facing cache nso) _
  | approveDiff device => rfl

theorem run_nodes : (s.run es).nodes=s.nodes := by
  induction es using reverseRecOn with
  | nil => rfl
  | append_singleton es e ih => rw [run_snoc,step_nodes,ih]

theorem step_known : (s.step e).nodePending d=none ↔ s.nodePending d=none := by
  cases e with
  | round cache answer =>
    cases answer with
    | none => exact .rfl
    | some nso =>
      rw [step,diff_nodePending]
      split_ifs
      · exact Option.map_eq_none_iff
      · exact .rfl
  | approveDiff device =>
    rw [step,approveDiff]
    by_cases hd : d=device
    all_goals simp [hd]

theorem run_known : (s.run es).nodePending d=none ↔ s.nodePending d=none := by
  induction es using reverseRecOn with
  | nil => exact .rfl
  | append_singleton es e ih => rw [run_snoc,step_known,ih]

end Controller

variable {s : Controller} {d : String} {n : Node}

theorem Tracked.run (h : Tracked s d) (es : List Event) : Tracked (s.run es) d := by
  rwa [Tracked,s.run_nodes,Ne,s.run_known]

theorem Tracked.round (h : Tracked s d) (cache : Cache) (nso : List NsoConnection) :
    ∃ stored,s.nodePending d=some stored∧
    (s.facing cache nso).diff.pendingDiff d=
      (settle ((s.facing cache nso).diffLength d) (s.pendingDiff d) stored).1∧
    (s.facing cache nso).diff.nodePending d=
      some (settle ((s.facing cache nso).diffLength d) (s.pendingDiff d) stored).2 := by
  obtain ⟨stored,hstored⟩ := Option.ne_none_iff_exists'.mp h.2
  have hmem : d∈(s.facing cache nso).diffNodes := mem_dedup.mpr (mem_append_left _ h.1)
  have hfacing : (s.facing cache nso).nodePending d=some stored := hstored
  refine ⟨stored,hstored,?_,?_⟩
  · rw [diff_pendingDiff,if_pos hmem,hfacing]
    rfl
  · rw [diff_nodePending,if_pos hmem,hfacing]
    rfl

section History

variable {s : Controller} {d : String} {es after : List Event} {e : Event}

theorem HeldSince.snoc (h : HeldSince s d es after) (he : Large d (s.run es) e) :
    HeldSince s d (es++[e]) (after++[e]) := by
  obtain ⟨before,b,rfl,hb,hlarge⟩ := h
  have hrun : (b::after).foldl Controller.step (s.run before)=s.run (before++b::after) := by
    rw [Controller.run,Controller.run,foldl_append]
  refine ⟨before,b,by simp,hb,?_⟩
  rw [← cons_append,Runs.stepsOk_snoc,hrun]
  exact ⟨hlarge,he⟩

theorem HeldSince.start (hb : Blocks d (s.run es) e) (he : Large d (s.run es) e) :
    HeldSince s d (es++[e]) [] :=
  ⟨es,e,rfl,hb,he,trivial⟩

theorem Approved.snoc (h : Approved s d es) (he : Large d (s.run es) e) :
    Approved s d (es++[e]) := by
  obtain ⟨after,hheld,hadmin⟩ := h
  exact ⟨after++[e],hheld.snoc he,mem_append_left _ hadmin⟩

/-- A pending state goes back to a round that blocked the device, and a flag down since then was
cleared by an admin. -/
structure Recorded (s : Controller) (d : String) (es : List Event) : Prop where
  pending : (s.run es).pendingDiff d=.pending → ∃ after,HeldSince s d es after∧
    ((s.run es).nodePending d=some .none → Event.approveDiff d∈after)
  approved : (s.run es).pendingDiff d=.approved → Approved s d es
  noError : (s.run es).pendingDiff d≠.error

/-- The flag goes down only if an admin clears it. -/
theorem Recorded.quiet (h : Recorded s d es) (he : Large d (s.run es) e)
    (hmemory : ((s.run es).step e).pendingDiff d=(s.run es).pendingDiff d)
    (hflag : ((s.run es).step e).nodePending d=(s.run es).nodePending d∨e=.approveDiff d) :
    Recorded s d (es++[e]) := by
  rw [← s.run_snoc] at hmemory hflag
  refine ⟨?_,?_,?_⟩
  · intro hp
    rw [hmemory] at hp
    obtain ⟨after,hheld,hadmin⟩ := h.pending hp
    refine ⟨after++[e],hheld.snoc he,?_⟩
    intro hnone
    rcases hflag with hsame | rfl
    · rw [hsame] at hnone
      exact mem_append_left _ (hadmin hnone)
    · exact mem_append_right _ (mem_singleton_self _)
  · intro hp
    rw [hmemory] at hp
    exact (h.approved hp).snoc he
  · rw [hmemory]
    exact h.noError

theorem Controller.approveDiff_flag (t : Controller) (device d : String) :
    (t.approveDiff device).nodePending d=t.nodePending d∨Event.approveDiff device=.approveDiff d := by
  by_cases hd : d=device
  · exact .inr (hd ▸ rfl)
  · exact .inl (Function.update_of_ne hd _ _)

theorem Recorded.round (h : Recorded s d es) (hd : Tracked s d) (cache : Cache)
    (nso : List NsoConnection) : Recorded s d (es++[.round cache (some nso)]) := by
  obtain ⟨stored,hstored,hmemory,hflag⟩ := (hd.run es).round cache nso
  have hblocked := blocked_iff ((s.run es).facing cache nso) d
  rw [hmemory] at hblocked
  have hstep : s.run (es++[.round cache (some nso)])=((s.run es).facing cache nso).diff :=
    s.run_snoc es _
  have hlarge (hl : 30 ≤ ((s.run es).facing cache nso).diffLength d) :
      Large d (s.run es) (.round cache (some nso)) := hl
  rcases settle_cases (((s.run es).facing cache nso).diffLength d) ((s.run es).pendingDiff d) stored
    with ⟨-,hr⟩ | ⟨hl,-,hr⟩ | ⟨hl,hm,hs,hr⟩ | ⟨hl,-,-,hr⟩
  all_goals
    rw [hr] at hmemory hflag hblocked
    rw [← hstep] at hmemory hflag
  · refine ⟨?_,?_,?_⟩ <;> rw [hmemory] <;> simp
  · refine ⟨fun _ => ?_,?_,?_⟩
    · refine ⟨[],HeldSince.start (hblocked.mp rfl) (hlarge hl),?_⟩
      rw [hflag]
      simp
    all_goals
      rw [hmemory]
      simp
  · obtain ⟨after,hheld,hadmin⟩ := h.pending hm
    refine ⟨?_,fun _ => ?_,?_⟩
    · rw [hmemory]
      simp
    · exact Approved.snoc ⟨after,hheld,hadmin (hs ▸ hstored)⟩ (hlarge hl)
    · rw [hmemory]
      simp
  · rw [s.run_snoc] at hmemory hflag
    exact h.quiet (hlarge hl) hmemory (.inl (hflag.trans hstored.symm))

theorem recorded_run (hstart : s.pendingDiff d=.none) (hd : Tracked s d) (es : List Event) :
    Recorded s d es := by
  induction es using reverseRecOn with
  | nil =>
    have hrun : (s.run []).pendingDiff d=.none := hstart
    refine ⟨?_,?_,?_⟩ <;> rw [hrun] <;> simp
  | append_singleton es e ih =>
    cases e with
    | round cache answer =>
      cases answer with
      | none => exact ih.quiet trivial rfl (.inl rfl)
      | some nso => exact ih.round hd cache nso
    | approveDiff device => exact ih.quiet trivial rfl (Controller.approveDiff_flag _ device d)

end History

theorem not_pending_of_issued {c : Connection} (h : Change.create c∈s.issued∨Change.edit c∈s.issued)
    {e : Endpoint} (he : e∈c.endpoints) : s.diff.pendingDiff e.shortNodeName≠.pending := by
  have hpass : (c.endpoints.any fun e => s.diff.pendingDiff e.shortNodeName=.pending)=false := by
    rcases h with h | h
    all_goals exact ((mem_issued s _).mp h).2
  simpa using any_eq_false.mp hpass e he

theorem changesApproved_of_tracked (hstart : s.pendingDiff d=.none) (hd : Tracked s d)
    (es : List Event) : ChangesApproved s d es := by
  intro cache nso c hc hon hlarge
  obtain ⟨e,he,rfl⟩ := hon
  have hfree := not_pending_of_issued hc he
  have hrec := recorded_run hstart hd es
  obtain ⟨stored,hstored,hmemory,-⟩ := (hd.run es).round cache nso
  rw [hmemory] at hfree
  rcases settle_cases (((s.run es).facing cache nso).diffLength e.shortNodeName)
      ((s.run es).pendingDiff e.shortNodeName) stored
    with ⟨hl,-⟩ | ⟨-,-,hr⟩ | ⟨-,hm,hs,-⟩ | ⟨-,hm,-,hr⟩
  · omega
  · exact absurd (by rw [hr]) hfree
  · obtain ⟨after,hheld,hadmin⟩ := hrec.pending hm
    exact ⟨after,hheld,hadmin (hs ▸ hstored)⟩
  · rw [hr] at hfree
    have herror := hrec.noError
    cases hstate : (s.run es).pendingDiff e.shortNodeName with
    | none => exact absurd hstate hm
    | pending => exact absurd hstate hfree
    | error => exact absurd hstate herror
    | approved => exact hrec.approved hstate

def farEnd (n : Node) (d : String) : Endpoint :=
  ⟨2,n.nodeId+1,d,"ge1",100,0,100,none,9000,.active,none,[]⟩

/-- Only its endpoint on the device is active. -/
def crossing (n : Node) (d : String) : Connection :=
  ⟨.l2,1,64512,none,[⟨1,n.nodeId,n.shortName,"ge0",100,0,100,none,9000,.inReview,none,[]⟩,
    farEnd n d]⟩

theorem farEnd_length (n : Node) (d : String) :
    ((L2Circuit.added (farEnd n d)).2.map String.length).sum=49 := by
  have hsame : (L2Circuit.added (farEnd n d)).2=(L2Circuit.added (farEnd ⟨0,""⟩ "")).2 := rfl
  rw [hsame]
  decide

theorem crossing_nsoDiff (n : Node) (d : String) :
    nsoDiff (crossing n d) none=[L2Circuit.added (farEnd n d)] := by
  have hactive : (crossing n d).active=[farEnd n d] := by simp [crossing,farEnd,Connection.active]
  have hblocks : l2Blocks [farEnd n d] []=[L2Circuit.added (farEnd n d)] := rfl
  have htext : textAt [L2Circuit.added (farEnd n d)] d=(L2Circuit.added (farEnd n d)).2 := by
    simp [textAt,L2Circuit.added,farEnd]
  have hne : (L2Circuit.added (farEnd n d)).2≠[] := by simp [L2Circuit.added]
  have hkeys : diffKeys [farEnd n d] [L2Circuit.added (farEnd n d)]=[d] := by
    simp [diffKeys,L2Circuit.added,farEnd]
  have hdiff : nsoDiff (crossing n d) none=l2NsoDiff (crossing n d).active none := rfl
  rw [hdiff,l2NsoDiff,hactive]
  simp only [Option.map_none,Option.getD_none,hblocks,hkeys]
  simp [htext,hne]
  rfl

theorem sync_single {c : Connection} (hv : s.visits≠[]) (hc : ∀ x∈s.visits,x=c) (hnso : s.nso=[]) :
    s.sync.texts=nsoDiff c none∧s.sync.changes=changeFor [] c := by
  rw [Controller.sync,hnso]
  simp only [KeyedTable.putAll,foldl_visit,KeyedTable.firsts_eq_singleton _ hv hc]
  simp

/-- The circuit is cached, and nothing on NSO. -/
def Controller.crossed (s : Controller) (n : Node) (d : String) : Controller :=
  s.facing (Cache.updateCache [crossing n d]) []

section Crossing

variable {s : Controller} {n : Node} (hn : n∈s.nodes) (d : String)

include hn

theorem crossed_sync : (s.crossed n d).sync.texts=[L2Circuit.added (farEnd n d)]∧
    Change.create (crossing n d)∈(s.crossed n d).sync.changes := by
  have hholds := Cache.holds_updateCache [crossing n d] (by simp)
  have hc : crossing n d∈Cache.updateCache [crossing n d] .l2 n.nodeId :=
    (hholds _ _ _).mpr ⟨mem_singleton_self _,rfl,_,mem_cons_self,rfl⟩
  have hvisits : crossing n d∈(s.crossed n d).visits := mem_flatMap.mpr ⟨n,hn,mem_append_left _ hc⟩
  have hall : ∀ x∈(s.crossed n d).visits,x=crossing n d := by
    intro x hx
    obtain ⟨m,-,hx⟩ := mem_flatMap.mp hx
    rcases mem_append.mp hx with hx | hx
    · exact mem_singleton.mp ((hholds .l2 m.nodeId x).mp hx).1
    · exact mem_singleton.mp ((hholds .l3 m.nodeId x).mp hx).1
  obtain ⟨htexts,hchanges⟩ := sync_single (ne_nil_of_mem hvisits) hall rfl
  rw [htexts,hchanges]
  simp [changeFor,crossing_nsoDiff]

theorem crossed_length (x : String) : (s.crossed n d).diffLength x=if x=d then 49 else 0 := by
  rw [Controller.diffLength,(crossed_sync hn d).1]
  have hdevice : (L2Circuit.added (farEnd n d)).1=d := rfl
  split_ifs with hx
  · have htext : textAt [L2Circuit.added (farEnd n d)] x=(L2Circuit.added (farEnd n d)).2 := by
      simp [textAt,hx,hdevice]
    rw [htext,farEnd_length]
  · simp [textAt,hdevice,Ne.symm hx]

theorem crossed_mem_diffNodes : d∈(s.crossed n d).diffNodes := by
  rw [Controller.diffNodes,(crossed_sync hn d).1]
  exact mem_dedup.mpr (mem_append_right _ (mem_singleton_self _))

theorem crossed_issued (hd : (s.crossed n d).diff.pendingDiff d≠.pending)
    (hnode : (s.crossed n d).diff.pendingDiff n.shortName≠.pending) :
    Change.create (crossing n d)∈(s.crossed n d).issued := by
  rw [mem_issued]
  refine ⟨(crossed_sync hn d).2,?_⟩
  rw [withheld,any_eq_false]
  intro e he
  simp only [crossing,mem_cons,not_mem_nil,or_false] at he
  rcases he with rfl | rfl
  · simpa using hnode
  · rwa [decide_eq_true_eq]

end Crossing

theorem diff_pendingDiff_none {x : String} (hmemory : s.pendingDiff x=.none)
    (hx : s.nodePending x=none∨s.diffLength x < 30) : s.diff.pendingDiff x=.none := by
  rw [diff_pendingDiff]
  split_ifs
  · cases hs : s.nodePending x with
    | none => exact hmemory
    | some stored =>
      have hlen := hx.resolve_left (by simp [hs])
      simp [settle,hlen]
  · exact hmemory

theorem ChangesApproved.crossed {es : List Event} (h : ChangesApproved s d es)
    (hn : n∈(s.run es).nodes) (hc : Change.create (crossing n d)∈((s.run es).crossed n d).issued) :
    Approved s d es := by
  apply h (Cache.updateCache [crossing n d]) [] (crossing n d) (.inl hc)
  · exact ⟨_,mem_cons_of_mem _ mem_cons_self,rfl⟩
  · have hlen := crossed_length hn d d
    rw [if_pos rfl,Controller.crossed] at hlen
    omega

theorem not_changesApproved_of_unknown (hstart : ∀ x,s.pendingDiff x=.none) (hn : n∈s.nodes)
    (hd : s.nodePending d=none) : ¬ChangesApproved s d [] := by
  intro h
  have hstate (x : String) : (s.crossed n d).diff.pendingDiff x=.none := by
    have hmemory : (s.crossed n d).pendingDiff x=.none := hstart x
    apply diff_pendingDiff_none hmemory
    rw [crossed_length hn]
    by_cases hx : x=d
    · exact .inl (hx ▸ hd)
    · exact .inr (by simp [hx])
  have hissued := crossed_issued hn d (by simp [hstate]) (by simp [hstate])
  obtain ⟨after,⟨before,e,hes,-⟩,-⟩ := h.crossed hn hissued
  simp at hes

/-- Blocked and approved, then no text is left: a node that the round does not look at keeps its
state. -/
def slip (n : Node) (d : String) : List Event :=
  [.round (Cache.updateCache [crossing n d]) (some []),.approveDiff d,.round Cache.empty (some [])]

theorem empty_sync (s : Controller) : (s.facing Cache.empty []).sync.texts=[] := by
  have hvisits : (s.facing Cache.empty []).visits=[] := by
    simp [Controller.visits,Controller.facing,Cache.empty]
  rw [Controller.sync,hvisits]
  rfl

theorem empty_length (s : Controller) (x : String) : (s.facing Cache.empty []).diffLength x=0 := by
  rw [Controller.diffLength,empty_sync]
  rfl

theorem empty_diff_unlisted (hd : d∉s.nodes.map Node.shortName) :
    (s.facing Cache.empty []).diff.pendingDiff d=s.pendingDiff d∧
      (s.facing Cache.empty []).diff.nodePending d=s.nodePending d := by
  have hout : d∉(s.facing Cache.empty []).diffNodes := by
    rwa [Controller.diffNodes,empty_sync,mem_dedup,map_nil,append_nil]
  rw [diff_pendingDiff,diff_nodePending,if_neg hout,if_neg hout]
  exact ⟨rfl,rfl⟩

theorem not_approved_slip (s : Controller) (n : Node) (d : String) :
    ¬Approved s d (slip n d) := by
  intro ⟨after,⟨before,e,hes,hblocks,hlarge⟩,hadmin⟩
  rcases before with _ | ⟨a,_ | ⟨b,_ | ⟨c,before⟩⟩⟩
  · obtain ⟨rfl,rfl⟩ := hes
    have hsmall := hlarge.2.2.1
    rw [Large,empty_length] at hsmall
    omega
  · obtain ⟨-,rfl,-⟩ := hes
    exact hblocks
  · obtain ⟨-,-,-,rfl⟩ := hes
    cases hadmin
  · simp [slip] at hes

/-- No node of the list, it waits with its flag cleared. -/
theorem slip_run (hstart : ∀ x,s.pendingDiff x=.none) (hn : n∈s.nodes)
    (hlist : d∉s.nodes.map Node.shortName) (hknown : s.nodePending d≠none) :
    (s.run (slip n d)).pendingDiff d=.pending∧(s.run (slip n d)).nodePending d=some .none∧
      ∀ x,x≠d → (s.run (slip n d)).pendingDiff x=.none := by
  obtain ⟨stored,hstored⟩ := Option.ne_none_iff_exists'.mp hknown
  have hfresh (x : String) : (s.crossed n d).pendingDiff x=.none := hstart x
  have hfound : (s.crossed n d).nodePending d=some stored := hstored
  have hdevice := crossed_mem_diffNodes hn d
  have hround : (s.crossed n d).diff.pendingDiff d=.pending := by
    rw [diff_pendingDiff,if_pos hdevice,hfound,hfresh,crossed_length hn,if_pos rfl]
    rfl
  have hothers (x : String) (hx : x≠d) : (s.crossed n d).diff.pendingDiff x=.none := by
    apply diff_pendingDiff_none (hfresh x)
    rw [crossed_length hn,if_neg hx]
    omega
  have happroved : ((s.crossed n d).diff.approveDiff d).nodePending d=some .none := by
    rw [Controller.approveDiff,diff_nodePending,if_pos hdevice,hfound]
    simp
  have hnodes : ((s.crossed n d).diff.approveDiff d).nodes=s.nodes :=
    s.step_nodes (.round (Cache.updateCache [crossing n d]) (some []))
  rw [← hnodes] at hlist
  obtain ⟨hmemory,hflag⟩ := empty_diff_unlisted hlist
  refine ⟨hmemory.trans hround,hflag.trans happroved,?_⟩
  intro x hx
  have hbefore : (((s.crossed n d).diff.approveDiff d).facing Cache.empty []).pendingDiff x=.none :=
    hothers x hx
  exact diff_pendingDiff_none hbefore (.inr (by rw [empty_length]; omega))

theorem not_changesApproved_of_unlisted (hstart : ∀ x,s.pendingDiff x=.none) (hn : n∈s.nodes)
    (hlist : d∉s.nodes.map Node.shortName) (hknown : s.nodePending d≠none) :
    ¬ChangesApproved s d (slip n d) := by
  intro h
  obtain ⟨hmemory,hflag,hothers⟩ := slip_run hstart hn hlist hknown
  have hname : n.shortName≠d := fun he => hlist (he ▸ mem_map_of_mem hn)
  have hn' : n∈(s.run (slip n d)).nodes := by rwa [s.run_nodes]
  have hpass : ((s.run (slip n d)).crossed n d).diff.pendingDiff d≠.pending := by
    have hflag' : ((s.run (slip n d)).crossed n d).nodePending d=some .none := hflag
    have hmemory' : ((s.run (slip n d)).crossed n d).pendingDiff d=.pending := hmemory
    rw [diff_pendingDiff,if_pos (crossed_mem_diffNodes hn' d),hflag',hmemory',
      crossed_length hn',if_pos rfl]
    decide
  have hnode : ((s.run (slip n d)).crossed n d).diff.pendingDiff n.shortName≠.pending := by
    have hfree : ((s.run (slip n d)).crossed n d).pendingDiff n.shortName=.none := hothers _ hname
    rw [diff_pendingDiff_none hfree (.inr (by rw [crossed_length hn',if_neg hname]; omega))]
    simp
  exact not_approved_slip s n d (h.crossed hn' (crossed_issued hn' d hpass hnode))

theorem changesApproved_of_no_nodes (hnodes : s.nodes=[]) (es : List Event) :
    ChangesApproved s d es := by
  intro cache nso c hc
  have hvisits : ((s.run es).facing cache nso).visits=[] := by
    have hrun : ((s.run es).facing cache nso).nodes=[] := (s.run_nodes es).trans hnodes
    rw [Controller.visits,hrun]
    rfl
  have hdeletes : ∀ ch∈((s.run es).facing cache nso).issued,∃ x,ch=.delete x := by
    intro ch hch
    have hmem := ((mem_issued _ _).mp hch).1
    rw [Controller.sync,hvisits,(foldl_leave _ _).1] at hmem
    obtain ⟨x,-,rfl⟩ := mem_map.mp hmem
    exact ⟨x,rfl⟩
  rcases hc with hc | hc
  all_goals
    obtain ⟨x,hx⟩ := hdeletes _ hc
    cases hx

/-- Only r1 is a node of this controller. -/
def twoRouters : Controller where
  localAsn := 64512
  cache := Cache.empty
  nodes := [⟨1,"r1"⟩]
  pendingDiff := fun _ => .none
  nodePending := fun d => if d="r1"∨d="r2" then some .none else none
  nso := []

end OESS.NSO
