import OESS.Master.Maintenance

namespace OESS.Master

open Function

/-- What an event at one of the ports is taken to be about. -/
def State.FoundAt (m : State) (a z : Nat×Nat) (k : Nat) : Prop :=
  getLinkByDpidAndPort m.db.tables a=some k∨getLinkByDpidAndPort m.db.tables z=some k
  deriving Decidable

def statusOf (up : Bool) : LinkStatus := if up then .up else .down

section Simulated

variable (m : State) (place : Nat×Nat) (up : Bool)

theorem portStatus_simulated_operationalState :
    (portStatus m (simulated place up)).1.db.tables.operationalState=
      update m.db.tables.operationalState place .up := by
  simp only [portStatus,simulated,PortEvent.place,updatePortStatus]
  cases getLinkByDpidAndPort m.db.tables place with
  | none => rfl
  | some k =>
    have hports := (trunkModified_wiring m k up).2
    simp [State.modifyTables,hports]

theorem portStatus_simulated_linkState (k : Nat) :
    (portStatus m (simulated place up)).1.db.tables.linkState k=
      if getLinkByDpidAndPort m.db.tables place=some k then statusOf up
      else m.db.tables.linkState k := by
  simp only [portStatus,simulated,PortEvent.place,updatePortStatus]
  cases getLinkByDpidAndPort m.db.tables place with
  | none => rfl
  | some j =>
    have hlinks := (trunkModified_wiring m j up).1
    simp [State.modifyTables,hlinks,update_apply,statusOf,eq_comm]

theorem portStatus_simulated_linkStatus (k : Nat) :
    (portStatus m (simulated place up)).1.linkStatus k=
      if getLinkByDpidAndPort m.db.tables place=some k∧m.linkMaintenance k=false then statusOf up
      else m.linkStatus k := by
  simp only [portStatus,simulated,PortEvent.place,(updatePortStatus_frame _ _).2.2]
  cases getLinkByDpidAndPort m.db.tables place with
  | none => rfl
  | some j =>
    rw [(trunkModified_frame m j up).2.2]
    by_cases hjk : j=k
    · subst hjk
      cases m.linkMaintenance j <;> simp [statusOf]
    · have hkj : k≠j := fun he => hjk he.symm
      split_ifs <;> simp_all

end Simulated

namespace Network

variable (m : State) (a z : Nat×Nat) (up : Bool)

theorem simulate_getLinkByDpidAndPort (p : Nat×Nat) :
    getLinkByDpidAndPort (simulate m a z up).db.tables p=getLinkByDpidAndPort m.db.tables p := by
  rw [simulate,portStatus_getLinkByDpidAndPort,portStatus_getLinkByDpidAndPort]

theorem simulate_operationalState (p : Nat×Nat) : (simulate m a z up).db.tables.operationalState p=
      if p=a∨p=z then .up else m.db.tables.operationalState p := by
  simp only [simulate,portStatus_simulated_operationalState,update_apply]
  split_ifs <;> simp_all

theorem simulate_linkState (k : Nat) : (simulate m a z up).db.tables.linkState k=
      if m.FoundAt a z k then statusOf up else m.db.tables.linkState k := by
  simp only [simulate,portStatus_simulated_linkState,portStatus_getLinkByDpidAndPort,State.FoundAt]
  split_ifs <;> simp_all

theorem simulate_linkStatus (k : Nat) :
    (simulate m a z up).linkStatus k=
      if m.FoundAt a z k∧m.linkMaintenance k=false then statusOf up else m.linkStatus k := by
  simp only [simulate,portStatus_simulated_linkStatus,portStatus_getLinkByDpidAndPort,
    portStatus_frame,State.FoundAt]
  by_cases hm : m.linkMaintenance k=false
  · split_ifs <;> simp_all
  · have hin : m.linkMaintenance k=true := Bool.eq_true_of_not_eq_false hm
    simp [hin]

variable (w : Network)

/-- A maintenance of link `l` from start to end, with no event in between. -/
def trip (l : Nat) : Network := ((w.linkMaintenance l .start).1.linkMaintenance l .finish).1

/-- Links and ports are as before, in memory and in the database. -/
structure AsBefore (w v : Network) : Prop where
  linkStatus : v.master.linkStatus=w.master.linkStatus
  operationalState : v.master.db.tables.operationalState=w.master.db.tables.operationalState
  linkState : v.master.db.tables.linkState=w.master.db.tables.linkState

theorem AsBefore.refl : AsBefore w w := ⟨rfl,rfl,rfl⟩

/-- Links at the ports were as the maintenance leaves them: down if a node's keeps them, else up. -/
def LinksOk (r : TrunkRow) (a z : Nat×Nat) : Prop := ∀ k,w.master.FoundAt a z k →
    if w.NodeLive r then
      w.master.db.tables.linkState k=.down∧
        (w.master.linkMaintenance k=false → w.master.linkStatus k=.down)
    else
      w.master.db.tables.linkState k=.up∧
        (k=r.linkId∨w.master.linkMaintenance k=false → w.master.linkStatus k=.up)

/-- Nothing is simulated, or both ports are up and their links as the maintenance leaves them. -/
def TripOk (l : Nat) : Prop :=
  ∀ r a z,w.getLink l=some r → r.openflow=true → r.endA.dpid=some a → r.endZ.dpid=some z →
    (w.master.db.tables.operationalState (a,r.endA.port)=.up∧
      w.master.db.tables.operationalState (z,r.endZ.port)=.up)∧
    LinksOk w r (a,r.endA.port) (z,r.endZ.port)

/-- The master once the maintenance of `l` has begun. -/
def begun (m : State) (l : Nat) (a z : Nat×Nat) : State :=
  {simulate m a z false with linkMaintenance := Function.update m.linkMaintenance l true}

/-- The master once it has ended, with both ports recorded as up. -/
def ended (m : State) (l : Nat) (a z : Nat×Nat) : State :=
  simulate {m with linkMaintenance := Function.update m.linkMaintenance l false} a z true

variable (l : Nat)

theorem begun_foundAt (maintained : Nat → Bool) (k : Nat) :
    State.FoundAt {begun m l a z with linkMaintenance := maintained} a z k ↔ m.FoundAt a z k := by
  simp only [State.FoundAt,begun,simulate_getLinkByDpidAndPort]

theorem ended_operationalState (p : Nat×Nat) :
    (ended (begun m l a z) l a z).db.tables.operationalState p=
      if p=a∨p=z then .up else m.db.tables.operationalState p := by
  simp only [ended,begun,simulate_operationalState]
  split_ifs <;> rfl

theorem ended_linkState (k : Nat) : (ended (begun m l a z) l a z).db.tables.linkState k=
    if m.FoundAt a z k then .up else m.db.tables.linkState k := by
  simp only [ended,simulate_linkState,begun_foundAt]
  by_cases hk : m.FoundAt a z k
  · simp [hk,statusOf]
  · simp [hk,begun,simulate_linkState]

theorem ended_linkStatus (k : Nat) : (ended (begun m l a z) l a z).linkStatus k=
    if m.FoundAt a z k∧(k=l∨m.linkMaintenance k=false) then .up else m.linkStatus k := by
  simp only [ended,simulate_linkStatus,begun_foundAt]
  by_cases hk : m.FoundAt a z k
  · by_cases hl : k=l
    · subst hl
      simp [hk,statusOf]
    · by_cases hm : m.linkMaintenance k=false
      · simp [hk,hl,hm,begun,statusOf]
      · simp [hl,hm,begun,simulate_linkStatus]
  · simp [hk,begun,simulate_linkStatus]

def PortsUp (a z : Nat×Nat) : Prop :=
  w.master.db.tables.operationalState a=.up∧w.master.db.tables.operationalState z=.up

theorem funext_ite_iff {α β : Type} {p : α → Prop} [DecidablePred p] {f g : α → β} {c : β}
    (hg : ∀ x,g x=if p x then c else f x) : g=f ↔ ∀ x,p x → f x=c := by
  constructor
  · intro h x hx
    rw [← h,hg x,if_pos hx]
  · intro h
    funext x
    rw [hg x]
    split_ifs with hx
    · exact (h x hx).symm
    · rfl

theorem asBefore_iff_of_replaced {w v : Network} {a z : Nat×Nat} {s : LinkStatus} {P : Nat → Prop}
    [DecidablePred P] (hports : ∀ p,v.master.db.tables.operationalState p=
      if p=a∨p=z then .up else w.master.db.tables.operationalState p)
    (hstate : ∀ k,v.master.db.tables.linkState k=
      if w.master.FoundAt a z k then s else w.master.db.tables.linkState k)
    (hstatus : ∀ k,v.master.linkStatus k=
      if w.master.FoundAt a z k∧P k then s else w.master.linkStatus k) :
    AsBefore w v ↔ PortsUp w a z∧
      ∀ k,w.master.FoundAt a z k →
        w.master.db.tables.linkState k=s∧(P k → w.master.linkStatus k=s) := by
  have hp := funext_ite_iff hports
  have hl := funext_ite_iff hstate
  have hs := funext_ite_iff hstatus
  constructor
  · intro h
    have hport := hp.mp h.operationalState
    refine ⟨⟨hport a (.inl rfl),hport z (.inr rfl)⟩,fun k hk => ⟨hl.mp h.linkState k hk,fun hP => ?_⟩⟩
    exact hs.mp h.linkStatus k ⟨hk,hP⟩
  · intro h
    refine ⟨hs.mpr fun k hk => (h.2 k hk.1).2 hk.2,hp.mpr fun p hpl => ?_,
      hl.mpr fun k hk => (h.2 k hk).1⟩
    rcases hpl with rfl | rfl
    · exact h.1.1
    · exact h.1.2

theorem getLink_linkId {w : Network} {l : Nat} {r : TrunkRow} (hr : w.getLink l=some r) :
    r.linkId=l := by
  have h := List.find?_some hr
  simpa using h

section Acting

variable {w : Network} {l a z : Nat} {r : TrunkRow} (hr : w.getLink l=some r)
  (ho : r.openflow=true) (ha : r.endA.dpid=some a) (hz : r.endZ.dpid=some z)

include hr ho ha hz

theorem linkMaintenance_start : (w.linkMaintenance l .start).1=
    {w with master := begun w.master l (a,r.endA.port) (z,r.endZ.port)} := by
  simp only [linkMaintenance,hr,ho,ha,hz,simulate_linkMaintenance]
  rfl

theorem linkMaintenance_finish (hlive : ¬w.NodeLive r)
    (hA : w.master.db.tables.operationalState (a,r.endA.port)=.up)
    (hZ : w.master.db.tables.operationalState (z,r.endZ.port)=.up) :
    (w.linkMaintenance l .finish).1=
      {w with master := ended w.master l (a,r.endA.port) (z,r.endZ.port)} := by
  simp only [linkMaintenance,hr,ho,ha,hz,if_neg hlive,hA,hZ]
  rfl

theorem linkMaintenance_finish_nodeLive (hlive : w.NodeLive r) :
    (w.linkMaintenance l .finish).1=w := by
  simp only [linkMaintenance,hr,ho,ha,hz,if_pos hlive]
  rfl

theorem trip_asBefore_of_nodeLive (hlive : w.NodeLive r) : AsBefore w (w.trip l) ↔
    PortsUp w (a,r.endA.port) (z,r.endZ.port)∧
    ∀ k,w.master.FoundAt (a,r.endA.port) (z,r.endZ.port) k → w.master.db.tables.linkState k=.down∧
        (w.master.linkMaintenance k=false → w.master.linkStatus k=.down) := by
  have hstart := linkMaintenance_start hr ho ha hz
  have htrip : w.trip l=(w.linkMaintenance l .start).1 := by
    rw [trip,hstart]
    exact linkMaintenance_finish_nodeLive hr ho ha hz hlive
  rw [htrip,hstart]
  apply asBefore_iff_of_replaced
  · exact simulate_operationalState _ _ _ _
  · exact simulate_linkState _ _ _ _
  · exact simulate_linkStatus _ _ _ _

theorem trip_asBefore_of_not_nodeLive (hlive : ¬w.NodeLive r) : AsBefore w (w.trip l) ↔
    PortsUp w (a,r.endA.port) (z,r.endZ.port)∧
    ∀ k,w.master.FoundAt (a,r.endA.port) (z,r.endZ.port) k → w.master.db.tables.linkState k=.up∧
        (k=l∨w.master.linkMaintenance k=false → w.master.linkStatus k=.up) := by
  have hA := simulate_operationalState w.master (a,r.endA.port) (z,r.endZ.port) false (a,r.endA.port)
  have hZ := simulate_operationalState w.master (a,r.endA.port) (z,r.endZ.port) false (z,r.endZ.port)
  rw [if_pos (.inl rfl)] at hA
  rw [if_pos (.inr rfl)] at hZ
  have hfinish := linkMaintenance_finish
    (w := {w with master := begun w.master l (a,r.endA.port) (z,r.endZ.port)}) hr ho ha hz hlive hA hZ
  rw [trip,linkMaintenance_start hr ho ha hz,hfinish]
  apply asBefore_iff_of_replaced
  · exact ended_operationalState _ _ _ _
  · exact ended_linkState _ _ _ _
  · exact ended_linkStatus _ _ _ _

theorem trip_asBefore_of_acting : AsBefore w (w.trip l) ↔
    PortsUp w (a,r.endA.port) (z,r.endZ.port)∧LinksOk w r (a,r.endA.port) (z,r.endZ.port) := by
  unfold LinksOk
  by_cases hlive : w.NodeLive r
  · simp only [if_pos hlive]
    exact trip_asBefore_of_nodeLive hr ho ha hz hlive
  · simp only [if_neg hlive,getLink_linkId hr]
    exact trip_asBefore_of_not_nodeLive hr ho ha hz hlive

end Acting

theorem linkMaintenance_idle {w : Network} {l : Nat} (phase : Phase)
    (h : ∀ r a z,w.getLink l=some r → r.openflow=true → r.endA.dpid=some a → r.endZ.dpid≠some z) :
    (w.linkMaintenance l phase).1=w := by
  cases hr : w.getLink l with
  | none => simp [linkMaintenance,hr]
  | some r =>
    cases ho : r.openflow with
    | false => simp [linkMaintenance,hr,ho]
    | true =>
      cases ha : r.endA.dpid with
      | none => simp [linkMaintenance,hr,ho,ha]
      | some a =>
        cases hz : r.endZ.dpid with
        | none => simp [linkMaintenance,hr,ho,hz]
        | some z => exact absurd hz (h r a z hr ho ha)

/-- A maintenance leaves links and ports as before exactly when its simulated events are
harmless. -/
theorem trip_asBefore_iff (w : Network) (l : Nat) : AsBefore w (w.trip l) ↔ TripOk w l := by
  constructor
  · intro h r a z hr ho ha hz
    exact (trip_asBefore_of_acting hr ho ha hz).mp h
  · intro h
    by_cases hact : ∃ r a z,w.getLink l=some r∧r.openflow=true∧r.endA.dpid=some a∧r.endZ.dpid=some z
    · obtain ⟨r,a,z,hr,ho,ha,hz⟩ := hact
      exact (trip_asBefore_of_acting hr ho ha hz).mpr (h r a z hr ho ha hz)
    have hidle : ∀ r a z,w.getLink l=some r → r.openflow=true → r.endA.dpid=some a →
        r.endZ.dpid≠some z := fun r a z hr ho ha hz => hact ⟨r,a,z,hr,ho,ha,hz⟩
    rw [trip,linkMaintenance_idle .start hidle,linkMaintenance_idle .finish hidle]
    exact .refl w

def brokenNetwork : Network :=
  {lineNetwork with master := (portStatus line (portModified (11,1) false)).1}

theorem brokenNetwork_trip : brokenNetwork.master.linkStatus 1=.down∧
    brokenNetwork.master.db.tables.operationalState (11,1)=.down∧
    brokenNetwork.master.db.tables.linkState 1=.down∧
    (brokenNetwork.trip 1).master.linkStatus 1=.up∧
    (brokenNetwork.trip 1).master.db.tables.operationalState (11,1)=.up∧
    (brokenNetwork.trip 1).master.db.tables.linkState 1=.up∧
    ¬AsBefore brokenNetwork (brokenNetwork.trip 1) := by
  refine ⟨by decide +kernel,by decide +kernel,by decide +kernel,by decide +kernel,
    by decide +kernel,by decide +kernel,fun h => ?_⟩
  have hstatus := congrFun h.linkStatus 1
  exact absurd hstatus (by decide +kernel)

end Network

end OESS.Master
