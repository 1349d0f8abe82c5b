import OESS.Framework.Runs
import OESS.Master.Restore

namespace OESS.Master

open OpenFlow (PathType CircuitState)

/-- `ofp_port_reason`. -/
inductive PortReason where
  | add | delete | modify
  deriving DecidableEq

/-- A port event, with the low bits of state and configuration. -/
structure PortEvent where
  (dpid port : Nat)
  reason : PortReason
  (link stateDown configDown : Bool)

def PortEvent.place (e : PortEvent) : Nat×Nat := (e.dpid,e.port)

def getLinkByDpidAndPort (t : Tables) (place : Nat×Nat) : Option Nat :=
  (t.links.find? fun r => r.endA=place∨r.endZ=place).map LinkRow.linkId

variable (m : State)

def State.modifyTables (f : Tables → Tables) : State :=
  {m with db := {m.db with tables := f m.db.tables}}

/-- The query ignores the path it is asked about. -/
def cancelRestorations (l : Nat) : State :=
  m.modifyTables fun t =>
    {t with restorations := t.restorations.filter fun id =>
      id∉(getCircuitsOnLink t l).map Prod.fst}

def updateLinkState (l : Nat) (s : LinkStatus) : State :=
  m.modifyTables fun t => {t with linkState := Function.update t.linkState l s}

def updatePortStatus (e : PortEvent) : State :=
  if e.reason=.delete then m
  else m.modifyTables fun t =>
    {t with
      operationalState := Function.update t.operationalState e.place
        (if e.stateDown then .down else .up)
      adminState := Function.update t.adminState e.place (if e.configDown then .down else .up)}

/-- Circuits are touched only outside maintenance. -/
def trunkModified (l : Nat) (up : Bool) : State×List Notification :=
  if up then
    let r := if m.linkMaintenance l then (m,[]) else
      ((linkUp m l).state,(linkUp m l).notifications)
    (updateLinkState r.1 l .up,r.2)
  else
    let r := if m.linkMaintenance l then (m,[]) else
      (cancelRestorations (linkDown m l).state l,(linkDown m l).notifications)
    (updateLinkState r.1 l .down,r.2)

def portStatus (e : PortEvent) : State×List Notification :=
  match e.reason with
  | .modify =>
    let r := match getLinkByDpidAndPort m.db.tables e.place with
      | none => (m,[])
      | some l => trunkModified m l e.link
    (updatePortStatus r.1 e,r.2)
  | .delete =>
    match getLinkByDpidAndPort m.db.tables e.place with
    | none => (m,[])
    | some _ => (updatePortStatus m e,[])
  | .add => (updatePortStatus m e,[])

variable {m : State}

theorem Serving.modifyTables (h : Serving m) (f : Tables → Tables)
    (hc : (f m.db.tables).circuits=m.db.tables.circuits)
    (hp : (f m.db.tables).paths=m.db.tables.paths) : Serving (m.modifyTables f) := by
  refine ⟨h.consistent.congr hc hp rfl,fun id c hid => ?_⟩
  obtain ⟨ho,hs⟩ := h.deployed id c hid
  refine ⟨ho,?_⟩
  rw [Tables.InState,State.modifyTables]
  rwa [hc]

theorem Serving.updateLinkState (h : Serving m) (l : Nat) (s : LinkStatus) :
    Serving (updateLinkState m l s) := h.modifyTables _ rfl rfl

theorem Serving.cancelRestorations (h : Serving m) (l : Nat) :
    Serving (cancelRestorations m l) := h.modifyTables _ rfl rfl

theorem Serving.updatePortStatus (h : Serving m) (e : PortEvent) :
    Serving (updatePortStatus m e) := by
  unfold Master.updatePortStatus
  by_cases hd : e.reason=.delete
  · rwa [if_pos hd]
  · rw [if_neg hd]
    exact h.modifyTables _ rfl rfl

variable (s : State×List Notification)

/-- Circuits held to be up, or just restored, are. -/
def Sound : Prop :=
  UpSound s.1∧∀ n∈s.2,n.restored=true → ∀ c,s.1.circuit n.circuitId=some c →
    ∀ k∈c.activeLinks,s.1.linkStatus k=.up

/-- No path of unknown status is taken for intact, and no circuit marked up over a link that is not.
-/
def EventOk (e : PortEvent) : Prop :=
  ∀ l,e.reason=.modify → getLinkByDpidAndPort s.1.db.tables e.place=some l →
    s.1.linkMaintenance l=false →
    if e.link then ∀ id c,s.1.circuit id=some c →
      Restorable (Function.update s.1.linkStatus l .up) l c (s.1.circuitStatus id)
    else AlternatesKnown (Function.update s.1.linkStatus l .down) s.1 l

def portStep (e : PortEvent) : State×List Notification := portStatus s.1 e

theorem Progress.change_notifications (p : Progress) (c : Circuit) :
    (p.change c).1.notifications=p.notifications := by
  unfold Progress.change
  split <;> rfl

theorem failOverCircuit_notifications {p : Progress}
    (h : ∀ n∈p.notifications,n.restored=false) (id : Nat) :
    ∀ n∈(failOverCircuit p id).notifications,n.restored=false := by
  have notified (q : Progress) (hq : q.notifications=p.notifications) (n : Notification)
      (hn : n.restored=false) : ∀ k∈(q.notify n).notifications,k.restored=false := by
    exact Runs.forall_mem_snoc (hq ▸ h) hn
  have reported (n : Notification) (hn : n.restored=false) :
      ∀ k∈(p.report n).notifications,k.restored=false := by
    unfold Progress.report
    split_ifs
    · exact h
    · exact notified p rfl n hn
  unfold failOverCircuit
  cases hc : p.state.circuit id with
  | none => exact h
  | some c =>
    have hchange := p.change_notifications c
    dsimp only
    split_ifs
    · cases hq : p.change c with
      | mk q b =>
        rw [hq] at hchange
        cases b
        all_goals exact notified q hchange _ rfl
    all_goals exact reported _ rfl

theorem linkDown_notifications (m : State) (l : Nat) :
    ∀ n∈(linkDown m l).notifications,n.restored=false := by
  have hfold : ∀ (ids : List Nat) (p : Progress),(∀ n∈p.notifications,n.restored=false) →
      ∀ n∈(ids.foldl failOverCircuit p).notifications,n.restored=false := by
    intro ids
    induction ids with
    | nil => exact fun p hp => hp
    | cons id ids ih => exact fun p hp => ih _ (failOverCircuit_notifications hp id)
  apply hfold
  intro n hn
  cases hn

/-- No circuit stays up over the link. -/
theorem linkDown_upSound (h : Serving m) (hs : UpSound m) (l : Nat)
    (hok : AlternatesKnown (Function.update m.linkStatus l .down) m l) :
    Serving (linkDown m l).state∧UpSound (linkDown m l).state := by
  have hf := linkDown_failedOver h.consistent l
  have hback : ∀ id d,(linkDown m l).state.circuit id=some d → ∃ c,m.circuit id=some c := by
    intro id d hd
    rw [hf.circuit id] at hd
    cases hc : m.circuit id with
    | none => simp [hc] at hd
    | some c => exact ⟨c,rfl⟩
  refine ⟨⟨hf.consistent,?_⟩,?_⟩
  · intro id d hd
    obtain ⟨c,hc⟩ := hback id d hd
    have hnow := linkDown_circuit h.consistent l hc
    have hty : d.type=c.type := by
      rw [Option.some.inj (hd.symm.trans hnow),Circuit.failedOver]
      split_ifs <;> rfl
    rw [hty,Tables.InState,hf.rows]
    exact h.deployed id c hc
  · intro id d hd hst
    obtain ⟨c,hc⟩ := hback id d hd
    obtain ⟨ho,hin⟩ := h.deployed id c hc
    have hmem := h.consistent.mem_affected hc l
    have hstatus := hf.status id c hc
    rw [hf.circuit id] at hd
    rw [hf.linkStatus]
    dsimp only at ⊢
    rw [hc] at hd
    by_cases hl : l∈c.activeLinks
    · have hrep : id∈getAffectedCircuitsByLinkId m.db.tables l := hmem.mpr ⟨hin,hl⟩
      rw [Circuit.failOverStatus,hst] at hstatus
      split_ifs at hstatus with hmove
      obtain ⟨hb,htruthy⟩ := hmove
      rw [if_pos hrep,Option.map_some,Circuit.failedOver,if_pos ⟨ho,hb,htruthy⟩] at hd
      have hup := ((truthy_iff _).mp htruthy).resolve_right (hok id c hc ho hin hb hl)
      have hlinks : d.activeLinks=c.getPath c.alternatePath := by
        rw [← Option.some.inj hd,Circuit.activeLinks,Circuit.switched_activePath,
          Circuit.switched_getPath]
      rw [hlinks]
      exact (getPathStatus_up _ _).mp hup
    · have hrep : id∉getAffectedCircuitsByLinkId m.db.tables l := fun e => hl (hmem.mp e).2
      rw [if_neg hrep] at hd hstatus
      rw [← Option.some.inj hd]
      intro k hk
      have hkl : k≠l := fun e => hl (e ▸ hk)
      rw [Function.update_of_ne hkl]
      exact hs id c hc (hstatus.symm.trans hst) k hk

theorem Sound.quiet (h : UpSound m) : Sound (m,[]) := by
  refine ⟨h,fun n hn => ?_⟩
  cases hn

theorem Sound.updatePortStatus {ns : List Notification} (h : Sound (m,ns)) (e : PortEvent) :
    Sound (updatePortStatus m e,ns) := by
  unfold Master.updatePortStatus
  by_cases hd : e.reason=.delete
  · rwa [if_pos hd]
  · rwa [if_neg hd]

theorem trunkModified_sound (h : Serving m) (hs : UpSound m) (l : Nat) (up : Bool)
    (hok : m.linkMaintenance l=false → if up then ∀ id c,m.circuit id=some c →
        Restorable (Function.update m.linkStatus l .up) l c (m.circuitStatus id)
      else AlternatesKnown (Function.update m.linkStatus l .down) m l) :
    Serving (trunkModified m l up).1∧Sound (trunkModified m l up) := by
  unfold trunkModified
  cases hm : m.linkMaintenance l with
  | true =>
    cases up with
    | true =>
      exact ⟨h.updateLinkState l .up,Sound.quiet hs⟩
    | false =>
      exact ⟨h.updateLinkState l .down,Sound.quiet hs⟩
  | false =>
    have hok := hok hm
    cases up with
    | true =>
      have hr := linkUp_restoring h hs l hok
      refine ⟨hr.serving.updateLinkState l .up,hr.sound,?_⟩
      intro n hn hres c hc
      exact hr.sound n.circuitId c hc (hr.told n hn hres)
    | false =>
      obtain ⟨hserve,hsound⟩ := linkDown_upSound h hs l hok
      refine ⟨(hserve.cancelRestorations l).updateLinkState l .down,hsound,?_⟩
      intro n hn hres
      have hno := linkDown_notifications m l n hn
      rw [hno] at hres
      cases hres

theorem portStep_sound {s : State×List Notification} {e : PortEvent} (h : Serving s.1)
    (hs : Sound s) (hok : EventOk s e) : Serving (portStep s e).1∧Sound (portStep s e) := by
  unfold portStep portStatus
  cases hr : e.reason with
  | add => exact ⟨h.updatePortStatus e,(Sound.quiet hs.1).updatePortStatus e⟩
  | delete =>
    cases getLinkByDpidAndPort s.1.db.tables e.place with
    | none => exact ⟨h,Sound.quiet hs.1⟩
    | some l => exact ⟨h.updatePortStatus e,(Sound.quiet hs.1).updatePortStatus e⟩
  | modify =>
    cases hl : getLinkByDpidAndPort s.1.db.tables e.place with
    | none => exact ⟨h.updatePortStatus e,(Sound.quiet hs.1).updatePortStatus e⟩
    | some l =>
      obtain ⟨hserve,hsound⟩ := trunkModified_sound h hs.1 l e.link (hok l hr hl)
      exact ⟨hserve.updatePortStatus e,hsound.updatePortStatus e⟩

def lineCircuit : Circuit := ⟨5,.openflow,[1,2],[],[],.primary,0⟩

def lineTables : Tables where
  circuits := [⟨5,.openflow,.active⟩]
  paths := [⟨1,5,.primary,[1,2],.active⟩]
  links := [⟨1,(11,1),(12,1)⟩,⟨2,(12,2),(13,1)⟩]
  restorations := []
  linkState := fun _ => .up
  operationalState := fun _ => .up
  adminState := fun _ => .up

def line : State := alone lineCircuit lineTables

def portModified (place : Nat×Nat) (up : Bool) : PortEvent := ⟨place.1,place.2,.modify,up,!up,false⟩

theorem line_serving : Serving line := by
  have hk : lineTables.Keyed := by constructor <;> simp [lineTables]
  have hs : Synced lineTables lineCircuit := by
    constructor <;> simp [lineTables,lineCircuit,Circuit.getPath,Circuit.hasBackupPath]
  refine ⟨alone_consistent hk hs (by simp [lineTables,lineCircuit]),?_⟩
  intro id c hc
  obtain ⟨rfl,rfl⟩ := alone_circuit hc
  exact ⟨rfl,by decide⟩

theorem line_upSound : UpSound line := by
  intro id c _ _ k _
  rfl

end OESS.Master
