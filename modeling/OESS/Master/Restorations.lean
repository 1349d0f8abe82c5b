import OESS.Master.PortStatus

namespace OESS.Master

open OpenFlow (PathType CircuitState)
open List

inductive Planned where
  | provision
  | edit
  | remove
  | changePath (path : PathType)
  deriving DecidableEq

structure ScheduledAction where
  (id circuitId user : Nat)
  planned : Planned
  completed : Bool
  deriving DecidableEq

def systemUser : Nat := 1

/-- The action is a restore of the primary path, and not done yet. -/
def ScheduledAction.isRestore (a : ScheduledAction) : Bool :=
  !a.completed && a.user==systemUser && a.planned==.changePath .primary

variable (actions : List ScheduledAction)

def getCircuitScheduledEvents (circuitId : Nat) :
    List ScheduledAction := actions.filter fun a => a.circuitId==circuitId && !a.completed

def cancelScheduledAction (id : Nat) : List ScheduledAction := actions.filter fun a => a.id != id

def cancelEvent (a : ScheduledAction) : List ScheduledAction :=
  if a.user=systemUser then
    match a.planned with
    | .changePath .primary => cancelScheduledAction actions a.id
    | _ => actions
  else actions

/-- The scan over the rows of the query. -/
def cancelRows (rows : List (Nat×PathType)) : List ScheduledAction :=
  rows.foldl (fun actions row =>
    (getCircuitScheduledEvents actions row.1).foldl cancelEvent actions) actions

section Scan

variable {actions : List ScheduledAction}

theorem isRestore_iff (a : ScheduledAction) :
    a.isRestore=true ↔ a.completed=false∧a.user=systemUser∧a.planned=.changePath .primary := by
  simp [ScheduledAction.isRestore,and_assoc]

variable {a : ScheduledAction}

theorem cancelEvent_restore (actions : List ScheduledAction) (hr : a.isRestore=true) :
    cancelEvent actions a=cancelScheduledAction actions a.id := by
  obtain ⟨-,hu,hp⟩ := (isRestore_iff a).mp hr
  simp only [cancelEvent,if_pos hu,hp]

theorem cancelEvent_other (actions : List ScheduledAction) (ha : a.completed=false)
    (hr : a.isRestore=false) : cancelEvent actions a=actions := by
  have hn : ¬(a.user=systemUser∧a.planned=.changePath .primary) := by
    intro h
    rw [(isRestore_iff a).mpr ⟨ha,h⟩] at hr
    cases hr
  unfold cancelEvent
  split_ifs with hu
  · split
    · exact absurd ⟨hu,by assumption⟩ hn
    · rfl
  · rfl

theorem cancelEvent_eq (actions : List ScheduledAction) (ha : a.completed=false) :
    cancelEvent actions a=actions.filter fun b => !(a.isRestore && b.id==a.id) := by
  cases hr : a.isRestore with
  | true => exact cancelEvent_restore actions hr
  | false =>
    rw [cancelEvent_other actions ha hr]
    simp

theorem foldl_cancelEvent (events : List ScheduledAction) (h : ∀ e∈events,e.completed=false)
    (actions : List ScheduledAction) : events.foldl cancelEvent actions=
      actions.filter fun b => !(events.any fun e => e.isRestore && b.id==e.id) := by
  induction events generalizing actions with
  | nil => simp
  | cons e events ih =>
    rw [foldl_cons,cancelEvent_eq actions (h e (by simp)),
      ih (fun d hd => h d (mem_cons_of_mem _ hd)),filter_filter]
    congr 1
    funext b
    rw [any_cons,Bool.not_or,Bool.and_comm]

section

variable (hids : (actions.map ScheduledAction.id).Nodup)
include hids

theorem any_event_iff (circuitId : Nat) {b : ScheduledAction} (hb : b∈actions) :
    ((getCircuitScheduledEvents actions circuitId).any fun e => e.isRestore && b.id==e.id)=
      (b.isRestore && b.circuitId==circuitId) := by
  rw [Bool.eq_iff_iff]
  simp only [any_eq_true,Bool.and_eq_true,beq_iff_eq,getCircuitScheduledEvents,mem_filter]
  constructor
  · rintro ⟨e,⟨he,hc,-⟩,hr,hid⟩
    obtain rfl := inj_on_of_nodup_map hids hb he hid
    exact ⟨hr,hc⟩
  · rintro ⟨hr,hc⟩
    have hopen : (!b.completed)=true := by
      simp only [ScheduledAction.isRestore,Bool.and_eq_true] at hr
      exact hr.1.1
    exact ⟨b,⟨hb,hc,hopen⟩,hr,rfl⟩

theorem cancelRows_eq (rows : List (Nat×PathType)) : cancelRows actions rows=
      actions.filter fun b => !(b.isRestore && (rows.map Prod.fst).contains b.circuitId) := by
  induction rows generalizing actions with
  | nil => simp [cancelRows]
  | cons row rows ih =>
    have hopen : ∀ e∈getCircuitScheduledEvents actions row.1,e.completed=false := by
      intro e he
      have := (mem_filter.mp he).2
      simp only [Bool.and_eq_true] at this
      simpa using this.2
    have hfirst : (getCircuitScheduledEvents actions row.1).foldl cancelEvent actions=
        actions.filter fun b => !(b.isRestore && b.circuitId==row.1) := by
      rw [foldl_cancelEvent _ hopen]
      apply filter_congr
      intro b hb
      rw [any_event_iff hids row.1 hb]
    have hids' : ((actions.filter fun b => !(b.isRestore && b.circuitId==row.1)).map
        ScheduledAction.id).Nodup := hids.sublist (filter_sublist.map _)
    have hstep : cancelRows actions (row::rows)=
        cancelRows ((getCircuitScheduledEvents actions row.1).foldl cancelEvent actions) rows := rfl
    rw [hstep,hfirst,ih hids',filter_filter]
    congr 1
    funext b
    rw [map_cons,contains_cons]
    cases b.isRestore <;> cases b.circuitId==row.1 <;> simp

end

end Scan

def Tables.shape (t : Tables) : List CircuitRow×List (Nat×PathType×List Nat) :=
  (t.circuits,t.paths.map fun p => (p.circuitId,p.pathType,p.links))

/-- The shape is that of the tables and of those a rollback would restore. -/
def Session.Shaped (s : Session) (x : List CircuitRow×List (Nat×PathType×List Nat)) : Prop :=
  s.tables.shape=x∧∀ t∈s.saved,t.shape=x

variable {x : List CircuitRow×List (Nat×PathType×List Nat)}

theorem setPathState_shape (t : Tables) (pathId : Nat) (s : PathState) :
    (t.setPathState pathId s).shape=t.shape := by
  rw [Tables.shape,Tables.setPathState,map_map]
  congr 1
  apply map_congr_left
  intro p _
  simp only [Function.comp_apply]
  split_ifs <;> rfl

variable {s : Session}

theorem Session.Shaped.rollback (h : s.Shaped x) : s.rollback.Shaped x := by
  unfold Session.rollback
  cases hs : s.saved with
  | none => exact h
  | some t =>
    refine ⟨h.2 t hs,?_⟩
    intro u hu
    cases hu

theorem Session.Shaped.setTables (h : s.Shaped x) {t : Tables} (ht : t.shape=x) :
    Session.Shaped {s with tables := t} x := ⟨ht,h.2⟩

theorem changePath_shaped (h : s.Shaped x) (c : Circuit) : (changePath c s).1.Shaped x := by
  have hparked (pathId : Nat) (st : PathState) :
      (s.tables.setPathState pathId st).shape=x := (setPathState_shape _ _ _).trans h.1
  unfold changePath
  split
  · exact h
  split
  · exact h
  cases s.tables.pathIn c.circuitId .active with
  | none => exact h.rollback
  | some old =>
    cases s.tables.pathIn c.circuitId .available with
    | none => exact (h.setTables (hparked old.pathId .available)).rollback
    | some new =>
      have hmoved : ((s.tables.setPathState old.pathId .available).setPathState new.pathId
          .active).shape=x := (setPathState_shape _ _ _).trans (hparked old.pathId .available)
      have hsession := h.setTables hmoved
      split_ifs
      · exact hsession
      · exact hsession.rollback

theorem failOverCircuit_shaped {p : Progress} (h : p.state.db.Shaped x) (id : Nat) :
    (failOverCircuit p id).state.db.Shaped x := by
  have hreport (n : Notification) : (p.report n).state.db.Shaped x := by
    unfold Progress.report
    split_ifs <;> exact h
  unfold failOverCircuit
  cases p.state.circuit id with
  | none => exact h
  | some c =>
    have hchange := changePath_shaped h c
    dsimp only
    split_ifs
    · unfold Progress.change
      cases hc : changePath c p.state.db with
      | mk db o =>
        rw [hc] at hchange
        cases o <;> exact hchange
    all_goals exact hreport _

theorem linkDown_shape (m : State) (l : Nat) :
    (linkDown m l).state.db.tables.shape=m.db.tables.shape := by
  have hfold (ids : List Nat) (p : Progress) (h : p.state.db.Shaped m.db.tables.shape) :
      (ids.foldl failOverCircuit p).state.db.Shaped m.db.tables.shape := by
    induction ids generalizing p with
    | nil => exact h
    | cons id ids ih => exact ih _ (failOverCircuit_shaped h id)
  refine (hfold _ _ ⟨rfl,?_⟩).1
  intro t ht
  rw [← Option.some.inj ht]

variable {t u : Tables} {l id : Nat}

def Tables.Crosses (t : Tables) (id l : Nat) : Prop := ∃ p∈t.paths,p.circuitId=id∧l∈p.links

def Tables.PrimaryCrosses (t : Tables) (id l : Nat) : Prop :=
  ∃ p∈t.paths,p.circuitId=id∧p.pathType=.primary∧l∈p.links

def Tables.Queried (t : Tables) (id : Nat) : Prop := ∃ r∈t.circuits,r.circuitId=id∧r.type=.openflow∧
    r.state∈[CircuitState.active,.reserved,.provisioned,.scheduled]

theorem mem_circuitsOnLink :
    id∈(getCircuitsOnLink t l).map Prod.fst ↔ t.Queried id∧t.Crosses id l := by
  simp only [getCircuitsOnLink,mem_map,mem_flatMap,mem_filter,decide_eq_true_eq]
  constructor
  · rintro ⟨row,⟨p,hp,k,⟨hk,rfl⟩,r,⟨hr,hrp,hty,hst⟩,rfl⟩,rfl⟩
    exact ⟨⟨r,hr,rfl,hty,hst⟩,p,hp,hrp.symm,hk⟩
  · rintro ⟨⟨r,hr,rfl,hty,hst⟩,p,hp,hpr,hk⟩
    exact ⟨(r.circuitId,p.pathType),⟨p,hp,l,⟨hk,rfl⟩,r,⟨hr,hpr.symm,hty,hst⟩,rfl⟩,rfl⟩

theorem crosses_congr (h : u.shape=t.shape) : u.Crosses id l ↔ t.Crosses id l := by
  have hshape (v : Tables) : v.Crosses id l ↔ ∃ q∈v.shape.2,q.1=id∧l∈q.2.2 := by
    simp [Tables.Crosses,Tables.shape]
  rw [hshape u,hshape t,h]

theorem queried_congr (h : u.shape=t.shape) : u.Queried id ↔ t.Queried id := by
  have hc : u.circuits=t.circuits := congrArg Prod.fst h
  unfold Tables.Queried
  rw [hc]

/-- The master with the actions that are scheduled. -/
structure Scheduled where
  master : State
  actions : List ScheduledAction
  ids : (actions.map ScheduledAction.id).Nodup

namespace Scheduled

variable (s : Scheduled) (l : Nat)

/-- The actions left after the link has gone down, for either reason. -/
def actionsAfter : List ScheduledAction :=
  if s.master.linkMaintenance l=true then s.actions
  else cancelRows s.actions (getCircuitsOnLink (linkDown s.master l).state.db.tables l)

/-- A restore is cancelled iff its primary path crosses the link. -/
def CancelsExactly : Prop := ∀ a∈s.actions,a.isRestore=true →
    (a∉s.actionsAfter l ↔ s.master.db.tables.PrimaryCrosses a.circuitId l)

/-- In maintenance no pending restore is over the link. Else the query looks at each such circuit,
and none crosses the link on another path only. -/
def PrimaryOnly : Prop := ∀ a∈s.actions,a.isRestore=true →
    if s.master.linkMaintenance l=true then ¬s.master.db.tables.PrimaryCrosses a.circuitId l
    else
      (s.master.db.tables.PrimaryCrosses a.circuitId l → s.master.db.tables.Queried a.circuitId)∧
      (s.master.db.tables.Queried a.circuitId → s.master.db.tables.Crosses a.circuitId l →
        s.master.db.tables.PrimaryCrosses a.circuitId l)

theorem primaryCrosses_crosses {id l : Nat} (h : t.PrimaryCrosses id l) :
    t.Crosses id l := by
  obtain ⟨p,hp,hid,-,hl⟩ := h
  exact ⟨p,hp,hid,hl⟩

theorem cancelled_iff {a : ScheduledAction} (ha : a∈s.actions) (hr : a.isRestore=true) :
    a∉s.actionsAfter l ↔ s.master.linkMaintenance l=false∧
      s.master.db.tables.Queried a.circuitId∧s.master.db.tables.Crosses a.circuitId l := by
  unfold actionsAfter
  cases hm : s.master.linkMaintenance l with
  | true => simp [ha]
  | false =>
    have hshape := linkDown_shape s.master l
    rw [cancelRows_eq s.ids]
    have hfound : a.circuitId∈
        (getCircuitsOnLink (linkDown s.master l).state.db.tables l).map Prod.fst ↔ _ :=
      mem_circuitsOnLink
    rw [queried_congr hshape,crosses_congr hshape] at hfound
    rw [← hfound]
    simp [ha,hr]

/-- A link that goes down cancels exactly the restores over it iff the condition `PrimaryOnly`
holds. -/
theorem cancelsExactly_iff : s.CancelsExactly l ↔ s.PrimaryOnly l := by
  refine forall_congr' fun a => forall_congr' fun ha => forall_congr' fun hr => ?_
  rw [cancelled_iff s l ha hr]
  cases s.master.linkMaintenance l with
  | true => simp
  | false =>
    constructor
    · intro h
      exact ⟨fun hp => (h.mpr hp).2.1,fun hq hc => h.mp ⟨rfl,hq,hc⟩⟩
    · rintro ⟨hq,hp⟩
      exact ⟨fun h => hp h.2.1 h.2.2,fun h => ⟨rfl,hq h,primaryCrosses_crosses h⟩⟩

end Scheduled

/-- Its circuit waits for its primary path. -/
def waitingRing : Scheduled where
  master := ring fun _ => .up
  actions := [⟨1,7,systemUser,.changePath .primary,false⟩]
  ids := by decide

theorem waitingRing_backup_cancels :
    ¬(ring fun _ => .up).db.tables.PrimaryCrosses 7 2∧waitingRing.actionsAfter 2=[]∧
      ¬waitingRing.CancelsExactly 2 := by
  have hprimary : ¬(ring fun _ => .up).db.tables.PrimaryCrosses 7 2 := by
    simp [Tables.PrimaryCrosses,ring,alone,ringTables]
  have hnone : waitingRing.actionsAfter 2=[] := by decide
  refine ⟨hprimary,hnone,fun h => hprimary ?_⟩
  apply (h ⟨1,7,systemUser,.changePath .primary,false⟩ (by decide) (by decide)).mp
  exact not_mem_nil

end OESS.Master
