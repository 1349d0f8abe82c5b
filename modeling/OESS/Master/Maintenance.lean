import OESS.Framework.KeyedDiff
import OESS.Master.TrunkEnds

namespace OESS.Master

open List Function Option Except

/-- The node, with the dpid of its live instantiation, and the port. -/
structure LinkEnd where
  nodeId : Nat
  dpid : Option Nat
  port : Nat
  deriving DecidableEq

structure TrunkRow where
  linkId : Nat
  openflow : Bool
  (endA endZ : LinkEnd)
  deriving DecidableEq

inductive Target where
  | link (linkId : Nat)
  | node (nodeId : Nat)
  deriving DecidableEq

inductive Phase where
  | start | finish
  deriving DecidableEq

/-- `pending`: events not yet at the master, in order. -/
structure Network where
  master : State
  trunks : List TrunkRow
  (nodes links linkMaintenances nodeMaintenances : List Nat)
  pending : Target → List Phase

def startRecord (missing already : String) (known live : List Nat) (x : Nat) :
    Except String (List Nat) :=
  if x∉known then .error missing
  else if x∈live then .error already
  else .ok (live++[x])

/-- State and config are missing and read as 0. -/
def simulated (place : Nat×Nat) (up : Bool) : PortEvent := ⟨place.1,place.2,.modify,up,false,false⟩

namespace Network

variable (w : Network)

def startNodeMaintenance (n : Nat) : Except String Network :=
  (startRecord "Node doesn't exist." "Node is already in maintenance mode." w.nodes
    w.nodeMaintenances n).map fun live => {w with nodeMaintenances := live}

def startLinkMaintenance (l : Nat) : Except String Network :=
  (startRecord "Link doesn't exist." "Link is already in maintenance mode." w.links
    w.linkMaintenances l).map fun live => {w with linkMaintenances := live}

def endNodeMaintenance (n : Nat) : Except String Network :=
  if n∉w.nodeMaintenances then .error "Internal error while fetching node maintenance."
  else .ok {w with nodeMaintenances := w.nodeMaintenances.filter (·≠n)}

/-- Here a maintenance that is not found is no error. -/
def endLinkMaintenance (l : Nat) : Except String Network :=
  .ok {w with linkMaintenances := w.linkMaintenances.filter (·≠l)}

def getLink (l : Nat) : Option TrunkRow := w.trunks.find? fun r => r.linkId=l

/-- One row for each end of a link that is on the node. -/
def getLinksByNode (n : Nat) : List TrunkRow :=
  w.trunks.flatMap fun r =>
    (if r.endA.nodeId=n then [r] else [])++if r.endZ.nodeId=n then [r] else []

def NodeLive (r : TrunkRow) : Prop :=
  r.endA.nodeId∈w.nodeMaintenances∨r.endZ.nodeId∈w.nodeMaintenances
  deriving Decidable

def simulate (m : State) (a z : Nat×Nat) (up : Bool) : State :=
  (portStatus (portStatus m (simulated a up)).1 (simulated z up)).1

/-- After the start it records the link state under what `port_status` returns, which is no link's
name. -/
def linkMaintenance (l : Nat) (phase : Phase) : Network×Option Bool :=
  match w.getLink l with
  | none => (w,none)
  | some r =>
    if !r.openflow then (w,none)
    else
      match r.endA.dpid,r.endZ.dpid with
      | some a,some z =>
        match phase with
        | .finish =>
          if w.NodeLive r then (w,some true)
          else
            let up := w.master.db.tables.operationalState (a,r.endA.port)=.up∧
              w.master.db.tables.operationalState (z,r.endZ.port)=.up
            let m := {w.master with linkMaintenance := Function.update w.master.linkMaintenance l false}
            ({w with master := simulate m (a,r.endA.port) (z,r.endZ.port) up},some true)
        | .start =>
          let m := simulate w.master (a,r.endA.port) (z,r.endZ.port) false
          ({w with
            master := {m with linkMaintenance := Function.update m.linkMaintenance l true}},some true)
      | _,_ => (w,some false)

/-- A link with a maintenance of its own stays. -/
def maintainLink (phase : Phase) (store : List Nat) (w : Network) (r : TrunkRow) : Network :=
  if !r.openflow then w
  else if phase=.finish∧r.linkId∈store then w
  else (w.linkMaintenance r.linkId phase).1

def nodeMaintenance (n : Nat) (phase : Phase) : Network×Option Bool :=
  ((w.getLinksByNode n).foldl (maintainLink phase w.linkMaintenances) w,some true)

def record : Target → Phase → Except String Network
  | .link l,.start => w.startLinkMaintenance l
  | .link l,.finish => w.endLinkMaintenance l
  | .node n,.start => w.startNodeMaintenance n
  | .node n,.finish => w.endNodeMaintenance n

def handle : Target → Phase → Network
  | .link l,phase => (w.linkMaintenance l phase).1
  | .node n,phase => (w.nodeMaintenance n phase).1

/-- A maintenance is recorded, or an event arrives. -/
inductive Step where
  | record (t : Target) (phase : Phase)
  | deliver (t : Target) (i : Nat)

def step : Step → Network
  | .record t phase =>
    match w.record t phase with
    | .error _ => w
    | .ok w' => {w' with pending := Function.update w.pending t (w.pending t++[phase])}
  | .deliver t i =>
    match (w.pending t)[i]? with
    | none => w
    | some phase =>
      {w.handle t phase with pending := Function.update w.pending t ((w.pending t).eraseIdx i)}

/-- Events about one target arrive in order. -/
def InOrder (_ : Network) : Step → Prop
  | .record _ _ => True
  | .deliver _ i => i=0

def Live : Target → Prop
  | .link l => l∈w.linkMaintenances
  | .node n => n∈w.nodeMaintenances

instance (w : Network) : DecidablePred w.Live
  | .link l => inferInstanceAs (Decidable (l∈w.linkMaintenances))
  | .node n => inferInstanceAs (Decidable (n∈w.nodeMaintenances))

end Network

namespace TrunkRow

/-- An OpenFlow link between two known local nodes. -/
structure Local (r : TrunkRow) : Prop where
  openflow : r.openflow=true
  dpidA : r.endA.dpid≠none
  dpidZ : r.endZ.dpid≠none

def targets (r : TrunkRow) : List Target := [.link r.linkId,.node r.endA.nodeId,.node r.endZ.nodeId]

end TrunkRow

namespace Network

/-- With no event under way a link is entered iff a maintenance covers it. -/
def Exact (w : Network) : Prop :=
  ∀ r∈w.trunks,r.Local → (∀ t∈r.targets,w.pending t=[]) →
    (w.master.linkMaintenance r.linkId=true ↔ ∃ t∈r.targets,w.Live t)

structure SameRecords (w v : Network) : Prop where
  trunks : v.trunks=w.trunks
  linkMaintenances : v.linkMaintenances=w.linkMaintenances
  nodeMaintenances : v.nodeMaintenances=w.nodeMaintenances
  pending : v.pending=w.pending

theorem SameRecords.refl (w : Network) : SameRecords w w := ⟨rfl,rfl,rfl,rfl⟩

variable (phase : Phase) {w v : Network} {t : Target}

theorem SameRecords.trans {u : Network} (h : SameRecords u v) (h' : SameRecords v w) :
    SameRecords u w :=
  ⟨h'.trunks.trans h.trunks,h'.linkMaintenances.trans h.linkMaintenances,
    h'.nodeMaintenances.trans h.nodeMaintenances,h'.pending.trans h.pending⟩

theorem SameRecords.live (h : SameRecords w v) (t : Target) : v.Live t ↔ w.Live t := by
  cases t with
  | link l => rw [Live,h.linkMaintenances]; exact .rfl
  | node n => rw [Live,h.nodeMaintenances]; exact .rfl

theorem SameRecords.nodeLive (h : SameRecords w v) (r : TrunkRow) :
    v.NodeLive r ↔ w.NodeLive r := by
  rw [NodeLive,h.nodeMaintenances]
  exact .rfl

theorem simulate_linkMaintenance (m : State) (a z : Nat×Nat) (up : Bool) :
    (simulate m a z up).linkMaintenance=m.linkMaintenance := by
  rw [simulate,(portStatus_frame _ _).1,(portStatus_frame _ _).1]

/-- Nothing but the entry for this link changes. -/
theorem linkMaintenance_cases (w : Network) (l : Nat) (phase : Phase) :
    (w.linkMaintenance l phase).1=w∨
    ∃ m,(w.linkMaintenance l phase).1={w with master := m}∧
      m.linkMaintenance=update w.master.linkMaintenance l (phase=.start) := by
  unfold linkMaintenance
  cases w.getLink l with
  | none => exact .inl rfl
  | some r =>
    dsimp only
    by_cases ho : (!r.openflow)=true
    · rw [if_pos ho]
      exact .inl rfl
    rw [if_neg ho]
    cases r.endA.dpid with
    | none => exact .inl rfl
    | some a =>
      cases r.endZ.dpid with
      | none => exact .inl rfl
      | some z =>
        cases phase with
        | start => exact .inr ⟨_,rfl,by simp [simulate_linkMaintenance]⟩
        | finish =>
          dsimp only
          by_cases hlive : w.NodeLive r
          · rw [if_pos hlive]
            exact .inl rfl
          · rw [if_neg hlive]
            exact .inr ⟨_,rfl,by simp [simulate_linkMaintenance]⟩

theorem linkMaintenance_records (w : Network) (l : Nat) (phase : Phase) :
    SameRecords w (w.linkMaintenance l phase).1 := by
  rcases linkMaintenance_cases w l phase with h | ⟨m,h,-⟩
  · rw [h]
    exact .refl w
  · rw [h]
    exact ⟨rfl,rfl,rfl,rfl⟩

/-- Whether a link is in maintenance after an event about it. -/
def maintained (w : Network) (r : TrunkRow) (phase : Phase) : Bool :=
  match phase with
  | .start => true
  | .finish => if w.NodeLive r then w.master.linkMaintenance r.linkId else false

theorem linkMaintenance_at {r : TrunkRow} (hr : w.getLink r.linkId=some r) (hlocal : r.Local)
    (l : Nat) (phase : Phase) : (w.linkMaintenance l phase).1.master.linkMaintenance r.linkId=
      if l=r.linkId then w.maintained r phase else w.master.linkMaintenance r.linkId := by
  obtain ⟨a,ha⟩ := ne_none_iff_exists'.mp hlocal.dpidA
  obtain ⟨z,hz⟩ := ne_none_iff_exists'.mp hlocal.dpidZ
  split_ifs with hl
  · subst hl
    unfold linkMaintenance maintained
    rw [hr]
    dsimp only
    rw [hlocal.openflow,ha,hz]
    cases phase with
    | start => simp
    | finish =>
      by_cases hlive : w.NodeLive r
      · simp [hlive]
      · simp [hlive,simulate_linkMaintenance]
  · rcases linkMaintenance_cases w l phase with h | ⟨m,h,hm⟩
    · rw [h]
    · rw [h]
      rw [hm,update_of_ne fun h => hl h.symm]

/-- A second row of the link finds it maintained already. -/
theorem maintained_again (h : SameRecords w v) (r : TrunkRow) (phase : Phase)
    (hm : v.master.linkMaintenance r.linkId=w.maintained r phase∨
      v.master.linkMaintenance r.linkId=w.master.linkMaintenance r.linkId) :
    v.maintained r phase=w.maintained r phase := by
  cases phase with
  | start => rfl
  | finish =>
    unfold maintained at hm ⊢
    simp only [h.nodeLive]
    split_ifs at hm ⊢ with hlive
    · exact hm.elim id id
    · rfl

theorem getLink_records (h : SameRecords w v) (l : Nat) : v.getLink l=w.getLink l := by
  rw [getLink,h.trunks]
  rfl

variable (store : List Nat)

theorem maintainLink_records (w : Network) (r : TrunkRow) :
    SameRecords w (maintainLink phase store w r) := by
  unfold maintainLink
  split_ifs
  · exact .refl w
  · exact .refl w
  · exact linkMaintenance_records w r.linkId phase

theorem foldl_maintainLink_records (w : Network) (rows : List TrunkRow) :
    SameRecords w (rows.foldl (maintainLink phase store) w) := by
  induction rows generalizing w with
  | nil => exact .refl w
  | cons r rows ih => exact (maintainLink_records phase store w r).trans (ih _)

theorem foldl_maintainLink_at {r : TrunkRow} (hr : w.getLink r.linkId=some r) (hlocal : r.Local)
    (rows : List TrunkRow) (hrows : ∀ q∈rows,q.linkId=r.linkId → q=r) :
    (rows.foldl (maintainLink phase store) w).master.linkMaintenance r.linkId=
      if r∈rows∧¬(phase=.finish∧r.linkId∈store) then w.maintained r phase
      else w.master.linkMaintenance r.linkId := by
  induction rows using reverseRecOn with
  | nil => simp
  | append_singleton rows q ih =>
    have hbefore := ih fun p hp => hrows p (mem_append_left _ hp)
    have hrecords := foldl_maintainLink_records phase store w rows
    rw [foldl_append,foldl_cons,foldl_nil]
    generalize rows.foldl (maintainLink phase store) w=v at hbefore hrecords
    have hrow : v.getLink r.linkId=some r := (getLink_records hrecords _).trans hr
    unfold maintainLink
    by_cases hq : q=r
    · subst hq
      have hmem : q∈rows++[q] := mem_append_right _ (mem_singleton_self q)
      rw [hlocal.openflow]
      by_cases hstore : phase=.finish∧q.linkId∈store
      · simpa [hstore] using hbefore
      rw [if_neg (by decide),if_neg hstore,linkMaintenance_at hrow hlocal,if_pos rfl,
        if_pos ⟨hmem,hstore⟩]
      exact maintained_again hrecords q phase (hbefore ▸ ite_eq_or_eq ..)
    · have hid : q.linkId≠r.linkId := fun h =>
        hq (hrows q (mem_append_right _ (mem_singleton_self q)) h)
      have hmem : r∈rows++[q] ↔ r∈rows := by simp [Ne.symm hq]
      simp only [hmem]
      rw [← hbefore]
      split_ifs
      · rfl
      · rfl
      · rw [linkMaintenance_at hrow hlocal,if_neg hid]

theorem getLink_eq (hids : (w.trunks.map TrunkRow.linkId).Nodup) {r : TrunkRow} (hr : r∈w.trunks) :
    w.getLink r.linkId=some r :=
  KeyedDiff.find_key hids hr rfl

theorem mem_getLinksByNode (w : Network) (n : Nat) (r : TrunkRow) :
    r∈w.getLinksByNode n ↔ r∈w.trunks∧Target.node n∈r.targets := by
  simp only [getLinksByNode,mem_flatMap,mem_append,mem_ite_nil_right,mem_singleton,← or_and_right,
    exists_eq_right_right']
  simp [TrunkRow.targets,@eq_comm _ n]

theorem handle_records (w : Network) (t : Target) (phase : Phase) :
    SameRecords w (w.handle t phase) := by
  cases t with
  | link l => exact linkMaintenance_records w l phase
  | node n => exact foldl_maintainLink_records phase _ w _

theorem nodeLive_iff (w : Network) (r : TrunkRow) :
    w.NodeLive r ↔ ∃ n,Target.node n∈r.targets∧w.Live (.node n) := by
  simp only [TrunkRow.targets,mem_cons,reduceCtorEq,Target.node.injEq,
    not_mem_nil,or_false,false_or]
  constructor
  · rintro (h | h)
    · exact ⟨_,.inl rfl,h⟩
    · exact ⟨_,.inr rfl,h⟩
  · rintro ⟨n,rfl | rfl,h⟩
    · exact .inl h
    · exact .inr h

section Handled

variable {w : Network} (hids : (w.trunks.map TrunkRow.linkId).Nodup) {r : TrunkRow}
  (hr : r∈w.trunks) (hlocal : r.Local)

include hids hr hlocal

theorem handle_at (t : Target) (phase : Phase) : (w.handle t phase).master.linkMaintenance r.linkId=
    if t∈r.targets∧¬(phase=.finish∧t≠.link r.linkId∧w.Live (.link r.linkId)) then
      w.maintained r phase
    else w.master.linkMaintenance r.linkId := by
  have hrow := getLink_eq hids hr
  cases t with
  | link l =>
    rw [handle,linkMaintenance_at hrow hlocal]
    by_cases hl : l=r.linkId <;> simp [TrunkRow.targets,hl]
  | node n =>
    have hrows : ∀ q∈w.getLinksByNode n,q.linkId=r.linkId → q=r := fun q hq h =>
      inj_on_of_nodup_map hids ((mem_getLinksByNode w n q).mp hq).1 hr h
    have hmem : r∈w.getLinksByNode n ↔ Target.node n∈r.targets := by
      rw [mem_getLinksByNode]
      exact and_iff_right hr
    rw [handle,nodeMaintenance]
    rw [foldl_maintainLink_at _ _ hrow hlocal _ hrows]
    simp [hmem,Live]

theorem handle_start (t : Target) : (w.handle t .start).master.linkMaintenance r.linkId=true ↔
    t∈r.targets∨w.master.linkMaintenance r.linkId=true := by
  rw [handle_at hids hr hlocal]
  by_cases ht : t∈r.targets <;> simp [maintained]

/-- Links that a live maintenance covers stay; only the end of a link's own does not look at those
of the link. -/
theorem handle_finish (t : Target) : (w.handle t .finish).master.linkMaintenance r.linkId=true ↔
    w.master.linkMaintenance r.linkId=true∧(t∈r.targets → w.NodeLive r∨
      (t≠.link r.linkId∧w.Live (.link r.linkId))) := by
  rw [handle_at hids hr hlocal]
  by_cases ht : t∈r.targets
  · by_cases hkept : t≠.link r.linkId∧w.Live (.link r.linkId)
    · simp [hkept]
    · by_cases hlive : w.NodeLive r <;> simp [ht,hkept,maintained,hlive]
  · simp [ht]

end Handled

/-- The last event about a target says whether it is in maintenance, a link under one that has
arrived is entered, and an entered link is under one, or the end of one has yet to arrive. -/
structure Tracks (w : Network) : Prop where
  ids : (w.trunks.map TrunkRow.linkId).Nodup
  last : ∀ t phase,(w.pending t).getLast?=some phase → (phase=.start ↔ w.Live t)
  entered : ∀ r∈w.trunks,r.Local → ∀ t∈r.targets,w.Live t → Phase.start∉w.pending t →
    w.master.linkMaintenance r.linkId=true
  covered : ∀ r∈w.trunks,r.Local → w.master.linkMaintenance r.linkId=true →
    ∃ t∈r.targets,w.Live t∨Phase.finish∈w.pending t

theorem Tracks.exact (h : Tracks w) : Exact w := by
  intro r hr hlocal hnone
  constructor
  · intro hm
    obtain ⟨t,ht,hlive | hpending⟩ := h.covered r hr hlocal hm
    · exact ⟨t,ht,hlive⟩
    · rw [hnone t ht] at hpending
      cases hpending
  · intro ⟨t,ht,hlive⟩
    refine h.entered r hr hlocal t ht hlive ?_
    rw [hnone t ht]
    exact not_mem_nil

theorem Exact.tracks (h : Exact w) (hids : (w.trunks.map TrunkRow.linkId).Nodup)
    (hnone : ∀ t,w.pending t=[]) : Tracks w where
  ids := hids
  last := by
    intro t phase hlast
    rw [hnone t] at hlast
    cases hlast
  entered := fun r hr hlocal t ht hlive _ => (h r hr hlocal fun t _ => hnone t).mpr ⟨t,ht,hlive⟩
  covered := by
    intro r hr hlocal hm
    obtain ⟨t,ht,hlive⟩ := (h r hr hlocal fun t _ => hnone t).mp hm
    exact ⟨t,ht,.inl hlive⟩

theorem startRecord_map {missing already : String} {known live : List Nat} {x : Nat}
    {f : List Nat → Network} (h : (startRecord missing already known live x).map f=.ok v) :
    v=f (live++[x]) := by
  cases hs : startRecord missing already known live x with
  | error e =>
    rw [hs] at h
    cases h
  | ok made =>
    rw [hs] at h
    unfold startRecord at hs
    split_ifs at hs
    rw [← ok.inj h,← ok.inj hs]

theorem record_ok {phase : Phase} (h : w.record t phase=.ok v) :
    v.trunks=w.trunks∧v.master=w.master∧(v.Live t ↔ phase=.start)∧
      ∀ u,u≠t → (v.Live u ↔ w.Live u) := by
  have hlink {l : Nat} {live : List Nat} (hl : l∈live ↔ phase=.start)
      (hother : ∀ k,k≠l → (k∈live ↔ k∈w.linkMaintenances))
      (hv : v={w with linkMaintenances := live}) : v.trunks=w.trunks∧v.master=w.master∧
        (v.Live (.link l) ↔ phase=.start)∧∀ u,u≠.link l → (v.Live u ↔ w.Live u) := by
    subst hv
    refine ⟨rfl,rfl,hl,fun u hu => ?_⟩
    cases u with
    | link k => exact hother k fun he => hu (he ▸ rfl)
    | node n => exact .rfl
  have hnode {n : Nat} {live : List Nat} (hl : n∈live ↔ phase=.start)
      (hother : ∀ k,k≠n → (k∈live ↔ k∈w.nodeMaintenances))
      (hv : v={w with nodeMaintenances := live}) : v.trunks=w.trunks∧v.master=w.master∧
        (v.Live (.node n) ↔ phase=.start)∧∀ u,u≠.node n → (v.Live u ↔ w.Live u) := by
    subst hv
    refine ⟨rfl,rfl,hl,fun u hu => ?_⟩
    cases u with
    | link l => exact .rfl
    | node k => exact hother k fun he => hu (he ▸ rfl)
  cases t with
  | link l =>
    cases phase with
    | start => exact hlink (by simp) (fun k hk => by simp [hk]) (startRecord_map h)
    | finish => exact hlink (by simp) (fun k hk => by simp [hk]) (ok.inj h).symm
  | node n =>
    cases phase with
    | start => exact hnode (by simp) (fun k hk => by simp [hk]) (startRecord_map h)
    | finish =>
      have hend : w.endNodeMaintenance n=.ok v := h
      unfold endNodeMaintenance at hend
      split_ifs at hend
      exact hnode (by simp) (fun k hk => by simp [hk]) (ok.inj hend).symm

theorem Tracks.record (h : Tracks w) {phase : Phase} (hok : w.record t phase=.ok v) :
    Tracks {v with pending := update w.pending t (w.pending t++[phase])} := by
  obtain ⟨htrunks,hmaster,hlive,hother⟩ := record_ok hok
  refine ⟨by rw [htrunks]; exact h.ids,?_,?_,?_⟩
  · intro u q hlast
    dsimp only at hlast
    by_cases hu : u=t
    · subst hu
      obtain rfl : phase=q := by simpa using hlast
      exact hlive.symm
    · rw [update_of_ne hu] at hlast
      exact (h.last u q hlast).trans (hother u hu).symm
  · intro r hr hlocal u hu hul hstart
    dsimp only at hr hstart
    rw [htrunks] at hr
    rw [hmaster]
    by_cases hut : u=t
    · subst hut
      rw [update_self,hlive.mp hul] at hstart
      exact absurd (mem_append_right _ (mem_singleton_self _)) hstart
    · rw [update_of_ne hut] at hstart
      exact h.entered r hr hlocal u hu ((hother u hut).mp hul) hstart
  · intro r hr hlocal hm
    dsimp only at ⊢
    rw [htrunks] at hr
    rw [hmaster] at hm
    obtain ⟨u,hu,hcov⟩ := h.covered r hr hlocal hm
    refine ⟨u,hu,?_⟩
    by_cases hut : u=t
    · subst hut
      rw [update_self]
      cases phase with
      | start => exact .inl (hlive.mpr rfl)
      | finish => exact .inr (mem_append_right _ (mem_singleton_self _))
    · rw [update_of_ne hut]
      exact hcov.imp_left (hother u hut).mpr

section Deliver

variable {phase : Phase} {rest : List Phase} {r : TrunkRow}

/-- Of the events about the target the last one stays, unless it is the one that arrives. -/
theorem Tracks.last_rest (h : Tracks w) (hp : w.pending t=phase::rest) :
    (rest=[]∧(phase=.start ↔ w.Live t))∨∃ q∈rest,rest.getLast?=some q∧(q=.start ↔ w.Live t) := by
  cases hr : rest.getLast? with
  | none =>
    have hnil : rest=[] := getLast?_eq_none_iff.mp hr
    refine .inl ⟨hnil,h.last t phase ?_⟩
    rw [hp,hnil]
    rfl
  | some q =>
    refine .inr ⟨q,mem_of_getLast? hr,rfl,h.last t q ?_⟩
    rw [hp,getLast?_cons,hr]
    rfl

theorem Tracks.deliver_last (h : Tracks w) (hp : w.pending t=phase::rest) {u : Target} {q : Phase}
    (hq : (update w.pending t rest u).getLast?=some q) : q=.start ↔ w.Live u := by
  by_cases hu : u=t
  · subst hu
    rw [update_self] at hq
    rcases h.last_rest hp with ⟨rfl,-⟩ | ⟨q',-,hq',hiff⟩
    · cases hq
    · rwa [some.inj (hq.symm.trans hq')]
  · rw [update_of_ne hu] at hq
    exact h.last u q hq

theorem Tracks.deliver_entered (h : Tracks w) (hp : w.pending t=phase::rest) (hr : r∈w.trunks)
    (hlocal : r.Local) {u : Target} (hu : u∈r.targets) (hul : w.Live u)
    (hstart : Phase.start∉update w.pending t rest u) :
    (w.handle t phase).master.linkMaintenance r.linkId=true := by
  have hbefore (hut : u≠t) : w.master.linkMaintenance r.linkId=true := by
    rw [update_of_ne hut] at hstart
    exact h.entered r hr hlocal u hu hul hstart
  cases phase with
  | start =>
    rw [handle_start h.ids hr hlocal]
    by_cases hut : u=t
    · exact .inl (hut ▸ hu)
    · exact .inr (hbefore hut)
  | finish =>
    rw [handle_finish h.ids hr hlocal]
    by_cases hut : u=t
    · -- a live target whose start is not under way has no end under way
      subst hut
      rw [update_self] at hstart
      rcases h.last_rest hp with ⟨-,hiff⟩ | ⟨q,hq,-,hiff⟩
      · exact absurd (hiff.mpr hul) (by decide)
      · exact absurd (hiff.mpr hul ▸ hq) hstart
    · refine ⟨hbefore hut,fun ht => ?_⟩
      cases u with
      | node n => exact .inl ((nodeLive_iff w r).mpr ⟨n,hu,hul⟩)
      | link l =>
        obtain rfl : l=r.linkId := by simpa [TrunkRow.targets] using hu
        exact .inr ⟨fun he => hut he.symm,hul⟩

theorem Tracks.deliver_covered (h : Tracks w) (hp : w.pending t=phase::rest) (hr : r∈w.trunks)
    (hlocal : r.Local) (hm : (w.handle t phase).master.linkMaintenance r.linkId=true) :
    ∃ u∈r.targets,w.Live u∨Phase.finish∈update w.pending t rest u := by
  -- a target of the link that the event is not about is as it was
  have hother (hm : w.master.linkMaintenance r.linkId=true) (ht : t∉r.targets) :
      ∃ u∈r.targets,w.Live u∨Phase.finish∈update w.pending t rest u := by
    obtain ⟨u,hu,hcov⟩ := h.covered r hr hlocal hm
    have hut : u≠t := fun he => ht (he ▸ hu)
    rw [← update_of_ne hut rest w.pending] at hcov
    exact ⟨u,hu,hcov⟩
  cases phase with
  | start =>
    rw [handle_start h.ids hr hlocal] at hm
    by_cases ht : t∈r.targets
    · refine ⟨t,ht,?_⟩
      rw [update_self]
      rcases h.last_rest hp with ⟨-,hiff⟩ | ⟨q,hq,-,hiff⟩
      · exact .inl (hiff.mp rfl)
      · cases q with
        | start => exact .inl (hiff.mp rfl)
        | finish => exact .inr hq
    · exact hother (hm.resolve_left ht) ht
  | finish =>
    rw [handle_finish h.ids hr hlocal] at hm
    by_cases ht : t∈r.targets
    · rcases hm.2 ht with hnode | ⟨-,hlink⟩
      · obtain ⟨n,hn,hnl⟩ := (nodeLive_iff w r).mp hnode
        exact ⟨.node n,hn,.inl hnl⟩
      · exact ⟨.link r.linkId,mem_cons_self,.inl hlink⟩
    · exact hother hm.1 ht

theorem Tracks.deliver (h : Tracks w) (hp : w.pending t=phase::rest) :
    Tracks {w.handle t phase with pending := update w.pending t rest} := by
  have hrecords := handle_records w t phase
  have hlive (u : Target) : Live {w.handle t phase with
      pending := update w.pending t rest} u ↔ w.Live u := hrecords.live u
  refine ⟨hrecords.trunks ▸ h.ids,?_,?_,?_⟩
  · intro u q hq
    rw [hlive]
    exact h.deliver_last hp hq
  · intro r hr hlocal u hu hul hstart
    exact h.deliver_entered hp (hrecords.trunks ▸ hr) hlocal hu ((hlive u).mp hul) hstart
  · intro r hr hlocal hm
    simp only [hlive]
    exact h.deliver_covered hp (hrecords.trunks ▸ hr) hlocal hm

end Deliver

theorem Tracks.step (h : Tracks w) (s : Step) (hs : InOrder w s) : Tracks (w.step s) := by
  cases s with
  | record t phase =>
    simp only [Network.step]
    cases hr : w.record t phase with
    | error e => exact h
    | ok v => exact h.record hr
  | deliver t i =>
    obtain rfl : i=0 := hs
    simp only [Network.step]
    cases hp : w.pending t with
    | nil => exact h
    | cons phase rest => exact h.deliver hp

/-- If the events about each target arrive in order, however late, the master's maintenances are
those of the database whenever no event is under way. -/
theorem maintenance_exact (w : Network) (hids : (w.trunks.map TrunkRow.linkId).Nodup)
    (hnone : ∀ t,w.pending t=[]) (hstart : Exact w) (es : List Step)
    (hes : Runs.StepsOk step InOrder w es) : Runs.Always step Exact w es := by
  have htracks : Runs.Always step Tracks w es := by
    apply Runs.always_of_step _ (hstart.tracks hids hnone) hes
    intro v s hv hs
    exact hv.step s hs
  exact htracks.mono fun v hv => hv.exact

def lineTrunk : TrunkRow := ⟨1,true,⟨1,some 11,1⟩,⟨2,some 12,1⟩⟩

def lineNetwork : Network := ⟨line,[lineTrunk],[1,2],[1],[],[],fun _ => []⟩

theorem lineNetwork_exact : Exact lineNetwork := by
  intro r hr hlocal hquiet
  simp [lineNetwork,line,alone,TrunkRow.targets,Live]

/-- Maintenances of a link and of its node, where the node's start arrives first. -/
def overlapping : List Step :=
  [.record (.link 1) .start,.record (.node 1) .start,.deliver (.node 1) 0,.deliver (.link 1) 0,
    .record (.link 1) .finish,.deliver (.link 1) 0,.record (.node 1) .finish,.deliver (.node 1) 0]

theorem overlapping_exact : Runs.StepsOk step InOrder lineNetwork overlapping∧
      Runs.Always step Exact lineNetwork overlapping := by
  have hin : Runs.StepsOk step InOrder lineNetwork overlapping :=
    ⟨trivial,trivial,rfl,rfl,trivial,rfl,trivial,rfl,trivial⟩
  exact ⟨hin,maintenance_exact lineNetwork (by decide) (fun _ => rfl) lineNetwork_exact overlapping hin⟩

def overtaken : List Step :=
  [.record (.link 1) .start,.record (.link 1) .finish,.deliver (.link 1) 1,.deliver (.link 1) 0]

theorem overtaken_stays : Exact lineNetwork∧(∀ t,lineNetwork.pending t=[])∧
    ¬Runs.Always step Exact lineNetwork overtaken := by
  refine ⟨lineNetwork_exact,fun _ => rfl,fun h => ?_⟩
  have hlast : Exact (overtaken.foldl step lineNetwork) :=
    Runs.always_iff_past.mp h overtaken (prefix_refl _)
  have hcovered := (hlast lineTrunk (by decide +kernel) ⟨rfl,by decide,by decide⟩
    (by decide +kernel)).mp (by decide +kernel)
  exact absurd hcovered (by decide +kernel)

end Network

end OESS.Master
