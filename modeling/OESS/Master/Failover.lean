import OESS.Master.ChangePath
import Mathlib.Tactic.Common

namespace OESS.Master

open OpenFlow (PathType CircuitState)
open List hiding beq_eq_decide
open Function

inductive CircuitStatus where
  | down | up | unknown
  deriving DecidableEq

structure Notification where
  circuitId : Nat
  status : CircuitStatus
  reason : String
  restored : Bool

/-- A circuit status never set reads as down. -/
structure State where
  linkStatus : Nat → LinkStatus
  circuitStatus : Nat → CircuitStatus
  circuit : Nat → Option Circuit
  linkMaintenance : Nat → Bool
  db : Session

/-- `switched`: circuits whose switches will be told. -/
structure Progress where
  state : State
  notifications : List Notification
  switched : List Nat

def Progress.start (m : State) : Progress := ⟨{m with db := m.db.startTransaction},[],[]⟩

def Progress.finish (p : Progress) : Progress :=
  {p with state := {p.state with db := p.state.db.commit}}

def Progress.notify (p : Progress) (n : Notification) : Progress := {p with
    state := {p.state with
      circuitStatus := Function.update p.state.circuitStatus n.circuitId n.status}
    notifications := p.notifications++[n]}

/-- A change of status is reported once. -/
def Progress.report (p : Progress) (n : Notification) : Progress :=
  if p.state.circuitStatus n.circuitId=n.status then p else p.notify n

/-- A failed change keeps what it did to the database handle. -/
def Progress.change (p : Progress) (c : Circuit) : Progress×Bool :=
  match changePath c p.state.db with
  | (db,none) => ({p with state := {p.state with db := db}},false)
  | (db,some c') =>
    ({p with
      state := {p.state with
        db := db
        circuit := Function.update p.state.circuit c.circuitId (some c')}
      switched := p.switched++[c.circuitId]},true)

def getAffectedCircuitsByLinkId (t : Tables) (l : Nat) : List Nat :=
  (t.circuits.filter (·.state=.active)).flatMap fun r =>
    (t.paths.filter fun p => p.circuitId=r.circuitId∧p.state=.active).flatMap fun p =>
      (p.links.filter (·=l)).map fun _ => r.circuitId

def failOverCircuit (p : Progress) (id : Nat) : Progress :=
  match p.state.circuit id with
  | none => p
  | some c =>
    if c.hasBackupPath then
      if (c.pathStatus p.state.linkStatus c.alternatePath).truthy then
        match p.change c with
        | (p,false) => p.notify ⟨id,.unknown,
            "Attempted to switch to alternate path, however an unknown error occured.",false⟩
        | (p,true) => p.notify ⟨id,.up,"Failed to Alternate Path",false⟩
      else p.report ⟨id,.down,
        "Attempted to fail to alternate path, however the primary and backup path are both down",
        false⟩
    else p.report ⟨id,.down,"Could not fail over: no backup path configured",false⟩

def failOverCircuits (m : State) (ids : List Nat) : Progress :=
  (ids.foldl failOverCircuit (.start m)).finish

/-- The first step when a trunk outside maintenance goes down. -/
def linkDown (m : State) (l : Nat) : Progress :=
  failOverCircuits {m with linkStatus := Function.update m.linkStatus l .down}
    (getAffectedCircuitsByLinkId m.db.tables l)

/-- Memory and database agree about every circuit. -/
structure Consistent (m : State) : Prop where
  keyed : m.db.tables.Keyed
  ids : ∀ id c,m.circuit id=some c → c.circuitId=id
  synced : ∀ id c,m.circuit id=some c → Synced m.db.tables c
  objects : ∀ r∈m.db.tables.circuits,(m.circuit r.circuitId).isSome=true

def Tables.InState (t : Tables) (id : Nat) (s : CircuitState) : Prop :=
  ∃ r∈t.circuits,r.circuitId=id∧r.state=s
  deriving Decidable

theorem mem_affected (t : Tables) (l id : Nat) : id∈getAffectedCircuitsByLinkId t l ↔
    t.InState id .active∧∃ p∈t.paths,p.circuitId=id∧p.state=.active∧l∈p.links := by
  simp only [getAffectedCircuitsByLinkId,mem_flatMap,mem_map,mem_filter,decide_eq_true_eq]
  constructor
  · rintro ⟨r,⟨hr,hs⟩,p,⟨hp,hc,ha⟩,k,⟨hk,rfl⟩,rfl⟩
    exact ⟨⟨r,hr,rfl,hs⟩,p,hp,hc,ha,hk⟩
  · rintro ⟨⟨r,hr,rfl,hs⟩,p,hp,hc,ha,hl⟩
    exact ⟨r,⟨hr,hs⟩,p,⟨hp,hc,ha⟩,l,⟨hl,rfl⟩,rfl⟩

variable {m : State} {id : Nat} {c : Circuit} {p : Progress}

theorem Consistent.mem_affected (h : Consistent m) (hc : m.circuit id=some c) (l : Nat) :
    id∈getAffectedCircuitsByLinkId m.db.tables l ↔
    m.db.tables.InState id .active∧l∈c.activeLinks := by
  have hs := h.synced id c hc
  have hid : c.circuitId=id := h.ids id c hc
  rw [Master.mem_affected]
  refine and_congr_right fun _ => ⟨?_,?_⟩
  · intro ⟨p,hp,hpc,hst,hl⟩
    rw [← hid] at hpc
    rwa [hs.links p hp hpc,(hs.active p hp hpc).mp hst] at hl
  · intro hl
    obtain ⟨p,hp,hpc,hty⟩ := hs.onPath
    refine ⟨p,hp,hpc.trans hid,(hs.active p hp hpc).mpr hty,?_⟩
    rwa [hs.links p hp hpc,hty]

theorem Consistent.affected_nodup (h : Consistent m) (l : Nat) :
    (getAffectedCircuitsByLinkId m.db.tables l).Nodup := by
  have hrows : (m.db.tables.circuits.filter (·.state=.active)).Nodup :=
    (Nodup.of_map _ h.keyed.circuitIds).filter _
  refine nodup_flatMap.mpr ⟨?_,?_⟩
  · intro r hr
    have hr : r∈m.db.tables.circuits := (mem_filter.mp hr).1
    obtain ⟨c,hc⟩ := Option.isSome_iff_exists.mp (h.objects r hr)
    have hs := h.synced _ c hc
    have hid := h.ids _ c hc
    refine nodup_flatMap.mpr ⟨?_,?_⟩
    · intro p hp
      have hlinks := h.keyed.links p (mem_filter.mp hp).1
      refine (hlinks.filter _).map_on fun a ha b hb _ => ?_
      simp only [mem_filter,decide_eq_true_eq] at ha hb
      exact ha.2.trans hb.2.symm
    · refine Pairwise.imp_of_mem ?_ ((Nodup.of_map _ h.keyed.pathIds).filter _)
      intro p q hp hq hne
      obtain ⟨hp,hpc⟩ := mem_filter.mp hp
      obtain ⟨hq,hqc⟩ := mem_filter.mp hq
      simp only [decide_eq_true_eq] at hpc hqc
      have hpty := (hs.active p hp (hpc.1.trans hid.symm)).mp hpc.2
      have hqty := (hs.active q hq (hqc.1.trans hid.symm)).mp hqc.2
      exact absurd (h.keyed.eq_of_pathType hp hq (hpc.1.trans hqc.1.symm) (hpty.trans hqty.symm)) hne
  · refine Pairwise.imp_of_mem ?_ hrows
    intro r s hr hs hne id hir his
    simp only [mem_flatMap,mem_map] at hir his
    obtain ⟨_,_,_,_,hri⟩ := hir
    obtain ⟨_,_,_,_,hsi⟩ := his
    exact hne (inj_on_of_nodup_map h.keyed.circuitIds (mem_filter.mp hr).1
      (mem_filter.mp hs).1 (hri.trans hsi.symm))

theorem Consistent.congr {n : State} (h : Consistent m)
    (hr : n.db.tables.circuits=m.db.tables.circuits) (hp : n.db.tables.paths=m.db.tables.paths)
    (hc : n.circuit=m.circuit) : Consistent n := by
  refine ⟨h.keyed.congr hr hp,?_,?_,?_⟩
  · rw [hc]
    exact h.ids
  · rw [hc]
    exact fun id c hid => (h.synced id c hid).congr hr hp
  · rw [hr,hc]
    exact h.objects

/-- The circuit's switch to its other path, in memory and in the database. -/
def State.switch (m : State) (c : Circuit) : State := {m with
    circuit := Function.update m.circuit c.circuitId (some c.switched)
    db := {m.db with tables := m.db.tables.switchTo c.circuitId c.alternatePath}}

theorem Consistent.switch (h : Consistent m) (hc : m.circuit id=some c) (ho : c.type=.openflow)
    (hb : c.hasBackupPath=true) : Consistent (m.switch c) := by
  refine ⟨h.keyed.switchTo _ _,?_,?_,?_⟩
  · intro k d hd
    by_cases hk : k=c.circuitId
    · simp only [State.switch,hk,update_self,Option.some.injEq] at hd
      rw [← hd,hk,Circuit.switched_circuitId]
    · simp only [State.switch,update_of_ne hk] at hd
      exact h.ids k d hd
  · intro k d hd
    by_cases hk : k=c.circuitId
    · simp only [State.switch,hk,update_self,Option.some.injEq] at hd
      rw [← hd]
      exact (h.synced id c hc).switchTo_alternate ho hb
    · simp only [State.switch,update_of_ne hk] at hd
      have hdk : d.circuitId=k := h.ids k d hd
      exact (h.synced k d hd).switchTo_other (hdk ▸ hk) _
  · intro r hr
    by_cases hk : r.circuitId=c.circuitId
    · simp [State.switch,hk]
    · simpa only [State.switch,update_of_ne hk] using h.objects r hr

theorem Progress.change_eq (h : Consistent p.state) (hc : p.state.circuit id=some c)
    (ho : c.type=.openflow) (hb : c.hasBackupPath=true) :
    p.change c=({p with state := p.state.switch c,switched := p.switched++[c.circuitId]},true) := by
  rw [Progress.change,changePath_eq h.keyed (h.synced id c hc) ho hb]
  rfl

theorem Progress.change_mpls (p : Progress) (ho : c.type≠.openflow) : p.change c=(p,false) := by
  rw [Progress.change,changePath,if_pos ho]

theorem Progress.report_status (p : Progress) (n : Notification) : (p.report n).state={p.state with
      circuitStatus := update p.state.circuitStatus n.circuitId n.status} := by
  unfold Progress.report
  split_ifs with h
  · rw [← h,update_eq_self]
  · rfl

/-- Nothing but circuit `id` and its status was touched. -/
structure Turned (m n : State) (id : Nat) (c : Circuit) (s : CircuitStatus) : Prop where
  consistent : Consistent n
  linkStatus : n.linkStatus=m.linkStatus
  linkMaintenance : n.linkMaintenance=m.linkMaintenance
  rows : n.db.tables.circuits=m.db.tables.circuits
  circuit : n.circuit=Function.update m.circuit id (some c)
  status : n.circuitStatus=Function.update m.circuitStatus id s

theorem Turned.setStatus (h : Consistent m) (hc : m.circuit id=some c) (s : CircuitStatus) :
    Turned m {m with circuitStatus := update m.circuitStatus id s} id c s :=
  ⟨h.congr rfl rfl rfl,rfl,rfl,rfl,by rw [← hc,update_eq_self],rfl⟩

theorem Turned.switch (h : Consistent m) (hc : m.circuit id=some c) (ho : c.type=.openflow)
    (hb : c.hasBackupPath=true) (s : CircuitStatus) :
    Turned m {m.switch c with circuitStatus := update m.circuitStatus id s} id c.switched s := by
  refine ⟨(h.switch hc ho hb).congr rfl rfl rfl,rfl,rfl,rfl,?_,rfl⟩
  rw [← h.ids id c hc]
  rfl

variable (linkStatus : Nat → LinkStatus)

def Circuit.failedOver (c : Circuit) : Circuit :=
  if c.type=.openflow∧c.hasBackupPath=true∧(c.pathStatus linkStatus c.alternatePath).truthy=true then
    c.switched
  else c

def Circuit.failOverStatus (c : Circuit) : CircuitStatus :=
  if c.hasBackupPath=true∧(c.pathStatus linkStatus c.alternatePath).truthy=true then
    if c.type=.openflow then .up else .unknown
  else .down

theorem failOverCircuit_turned (h : Consistent p.state) (hc : p.state.circuit id=some c) :
    Turned p.state (failOverCircuit p id).state id (c.failedOver p.state.linkStatus)
      (c.failOverStatus p.state.linkStatus) := by
  rw [Circuit.failedOver,Circuit.failOverStatus]
  simp only [failOverCircuit,hc]
  by_cases hb : c.hasBackupPath=true
  · rw [if_pos hb]
    by_cases ht : (c.pathStatus p.state.linkStatus c.alternatePath).truthy=true
    · rw [if_pos ht,if_pos (show _∧_ from ⟨hb,ht⟩)]
      by_cases ho : c.type=.openflow
      · rw [if_pos ho,if_pos ⟨ho,hb,ht⟩,Progress.change_eq h hc ho hb]
        exact Turned.switch h hc ho hb .up
      · rw [if_neg ho,if_neg fun e => ho e.1,Progress.change_mpls p ho]
        exact Turned.setStatus h hc .unknown
    · rw [if_neg ht,if_neg fun e => ht e.2.2,if_neg fun e => ht e.2,Progress.report_status]
      exact Turned.setStatus h hc .down
  · rw [if_neg hb,if_neg fun e => hb e.2.1,if_neg fun e => hb e.1,Progress.report_status]
    exact Turned.setStatus h hc .down

structure FailedOver (m n : State) (ids : List Nat) : Prop where
  consistent : Consistent n
  linkStatus : n.linkStatus=m.linkStatus
  linkMaintenance : n.linkMaintenance=m.linkMaintenance
  rows : n.db.tables.circuits=m.db.tables.circuits
  circuit : ∀ id,n.circuit id=
    if id∈ids then (m.circuit id).map (Circuit.failedOver m.linkStatus) else m.circuit id
  status : ∀ id c,m.circuit id=some c → n.circuitStatus id=
    if id∈ids then c.failOverStatus m.linkStatus else m.circuitStatus id

theorem foldl_failOverCircuit (h : Consistent p.state) {ids : List Nat} (hn : ids.Nodup) :
    FailedOver p.state (ids.foldl failOverCircuit p).state ids := by
  induction ids generalizing p with
  | nil => exact ⟨h,rfl,rfl,rfl,fun id => by simp,fun id c _ => by simp⟩
  | cons k ids ih =>
    obtain ⟨hk,hn⟩ := nodup_cons.mp hn
    rw [foldl_cons]
    cases hc : p.state.circuit k with
    | none =>
      have hskip : failOverCircuit p k=p := by simp only [failOverCircuit,hc]
      rw [hskip]
      have hrest := ih h hn
      refine ⟨hrest.consistent,hrest.linkStatus,hrest.linkMaintenance,hrest.rows,?_,?_⟩
      · intro id
        rw [hrest.circuit id]
        by_cases hid : id=k
        · simp [hid,hc]
        · simp [hid]
      · intro id c hidc
        have hid : id≠k := fun e => by simp [e,hc] at hidc
        simpa [hid] using hrest.status id c hidc
    | some c =>
      have hturn := failOverCircuit_turned h hc
      have hrest := ih hturn.consistent hn
      have hlinks := hturn.linkStatus
      refine ⟨hrest.consistent,hrest.linkStatus.trans hlinks,
        hrest.linkMaintenance.trans hturn.linkMaintenance,hrest.rows.trans hturn.rows,?_,?_⟩
      · intro id
        rw [hrest.circuit id,hturn.circuit,hlinks]
        by_cases hid : id=k
        · simp [hid,hk,hc]
        · simp [hid]
      · intro id d hd
        by_cases hid : id=k
        · rw [hid,hc] at hd
          have hnow : (failOverCircuit p k).state.circuit k=
              some (c.failedOver p.state.linkStatus) := by simp [hturn.circuit]
          rw [hid,hrest.status k _ hnow,if_neg hk,if_pos mem_cons_self,hturn.status,
            update_self,← Option.some.inj hd]
        · have hnow : (failOverCircuit p k).state.circuit id=some d := by
            rwa [hturn.circuit,update_of_ne hid]
          rw [hrest.status id d hnow,hlinks,hturn.status]
          simp [hid]

/-- For memory and database `p` is the active path. -/
def State.On (m : State) (id : Nat) (p : PathType) : Prop :=
  (m.circuit id).map Circuit.activePath=some p∧m.db.tables.activePath id=some p

theorem Consistent.on (h : Consistent m) (hc : m.circuit id=some c) : m.On id c.activePath := by
  refine ⟨by rw [hc,Option.map_some],?_⟩
  rw [← h.ids id c hc]
  exact (h.synced id c hc).tables_activePath h.keyed

/-- What a fail-over from `m` to `n` owes active OpenFlow circuits; `now` has the link down. -/
structure FailsOver (now : Nat → LinkStatus) (m n : State) (l : Nat) : Prop where
  rescued : ∀ id c,m.circuit id=some c → c.type=.openflow → m.db.tables.InState id .active →
    c.hasBackupPath=true → l∈c.activeLinks → (∀ k∈c.getPath c.alternatePath,now k=.up) →
    n.On id c.alternatePath
  intact : ∀ id c p,m.circuit id=some c → p≠c.activePath →
    ((n.circuit id).map Circuit.activePath=some p∨n.db.tables.activePath id=some p) →
    ∀ k∈c.getPath p,now k≠.down∧now k≠.unknown
  unaffected : ∀ id c,m.circuit id=some c → l∉c.activeLinks → n.On id c.activePath

/-- No other path of a circuit that loses `l` is unknown. -/
def AlternatesKnown (now : Nat → LinkStatus) (m : State) (l : Nat) : Prop :=
  ∀ id c,m.circuit id=some c → c.type=.openflow → m.db.tables.InState id .active →
    c.hasBackupPath=true → l∈c.activeLinks → c.pathStatus now c.alternatePath≠.unknown

theorem linkDown_failedOver (h : Consistent m) (l : Nat) :
    FailedOver {m with linkStatus := update m.linkStatus l .down} (linkDown m l).state
      (getAffectedCircuitsByLinkId m.db.tables l) := by
  have hstart : Consistent (Progress.start
      {m with linkStatus := update m.linkStatus l .down}).state := h.congr rfl rfl rfl
  obtain ⟨hcon,hls,hlm,hrows,hcirc,hst⟩ := foldl_failOverCircuit hstart (h.affected_nodup l)
  exact ⟨hcon.congr rfl rfl rfl,hls,hlm,hrows,hcirc,hst⟩

theorem linkDown_circuit (h : Consistent m) (l : Nat) (hc : m.circuit id=some c) :
    (linkDown m l).state.circuit id=some (if m.db.tables.InState id .active∧l∈c.activeLinks then
        c.failedOver (update m.linkStatus l .down) else c) := by
  rw [(linkDown_failedOver h l).circuit id]
  rw [hc]
  simp only [h.mem_affected hc l]
  split_ifs <;> rfl

def alone (c : Circuit) (t : Tables) : State where
  linkStatus := t.linkState
  circuitStatus := fun _ => .up
  circuit := fun id => if id=c.circuitId then some c else none
  linkMaintenance := fun _ => false
  db := ⟨t,none⟩

theorem alone_circuit {d : Circuit} {t : Tables} (h : (alone c t).circuit id=some d) :
    id=c.circuitId∧d=c := by
  simp only [alone] at h
  split_ifs at h with hid
  exact ⟨hid,(Option.some.inj h).symm⟩

theorem alone_consistent {t : Tables} (hk : t.Keyed) (hs : Synced t c)
    (hr : ∀ r∈t.circuits,r.circuitId=c.circuitId) : Consistent (alone c t) := by
  refine ⟨hk,?_,?_,?_⟩
  · intro id d hd
    obtain ⟨rfl,rfl⟩ := alone_circuit hd
    rfl
  · intro id d hd
    obtain ⟨rfl,rfl⟩ := alone_circuit hd
    exact hs
  · intro r hmem
    simp [alone,hr r hmem]

/-- A circuit over link 1 with links 2 and 3 as its backup. -/
def ringCircuit : Circuit := ⟨7,.openflow,[1],[2,3],[],.primary,0⟩

def ringTables : Tables where
  circuits := [⟨7,.openflow,.active⟩]
  paths := [⟨1,7,.primary,[1],.active⟩,⟨2,7,.backup,[2,3],.available⟩]
  links := [⟨1,(11,1),(12,1)⟩,⟨2,(11,2),(13,1)⟩,⟨3,(13,2),(12,2)⟩]
  restorations := []
  linkState := linkStatus
  operationalState := fun _ => .up
  adminState := fun _ => .up

def ring : State := alone ringCircuit (ringTables linkStatus)

theorem ring_consistent : Consistent (ring linkStatus) := by
  have hk : (ringTables linkStatus).Keyed := by constructor <;> simp [ringTables]
  have hs : Synced (ringTables linkStatus) ringCircuit := by
    constructor <;> simp [ringTables,ringCircuit,Circuit.getPath,Circuit.alternatePath]
  refine alone_consistent hk hs ?_
  simp [ringTables,ringCircuit]

def backupDown : Nat → LinkStatus
  | 2 => .unknown
  | 3 => .down
  | _ => .up

end OESS.Master
