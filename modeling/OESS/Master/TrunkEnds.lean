import OESS.Master.PortStatus

namespace OESS.Master

open Function

/-- The links, their states and the states of their ports. -/
def Tables.wiring (t : Tables) :
    List LinkRow×(Nat → LinkStatus)×(Nat×Nat → LinkStatus)×(Nat×Nat → LinkStatus) :=
  (t.links,t.linkState,t.operationalState,t.adminState)

/-- Link states, maintenances and wiring are left alone, also in what a rollback would restore. -/
structure LeftAlone (m : State) (p : Progress) : Prop where
  linkStatus : p.state.linkStatus=m.linkStatus
  linkMaintenance : p.state.linkMaintenance=m.linkMaintenance
  wiring : p.state.db.tables.wiring=m.db.tables.wiring
  saved : ∀ t,p.state.db.saved=some t → t.wiring=m.db.tables.wiring

section LeftAlone

variable {m : State} {p : Progress}

theorem LeftAlone.links (h : LeftAlone m p) : p.state.db.tables.links=m.db.tables.links :=
  congrArg Prod.fst h.wiring

theorem rollback_wiring {s : Session} {t : Tables} (ht : s.tables.wiring=t.wiring)
    (hs : ∀ u,s.saved=some u → u.wiring=t.wiring) :
    s.rollback.tables.wiring=t.wiring∧∀ u,s.rollback.saved=some u → u.wiring=t.wiring := by
  unfold Session.rollback
  cases h : s.saved with
  | none => exact ⟨ht,fun t e => by simp [h] at e⟩
  | some t => exact ⟨hs t h,fun u e => by cases e⟩

theorem changePath_wiring (c : Circuit) {s : Session} {t : Tables}
    (ht : s.tables.wiring=t.wiring) (hs : ∀ u,s.saved=some u → u.wiring=t.wiring) :
    (changePath c s).1.tables.wiring=t.wiring∧
      ∀ u,(changePath c s).1.saved=some u → u.wiring=t.wiring := by
  unfold changePath
  by_cases ho : c.type≠.openflow
  · rw [if_pos ho]
    exact ⟨ht,hs⟩
  by_cases hb : (!c.hasBackupPath)=true
  · rw [if_neg ho,if_pos hb]
    exact ⟨ht,hs⟩
  rw [if_neg ho,if_neg hb]
  cases s.tables.pathIn c.circuitId .active with
  | none => exact rollback_wiring ht hs
  | some old =>
    cases s.tables.pathIn c.circuitId .available with
    | none => exact rollback_wiring ht hs
    | some new =>
      split_ifs
      · exact ⟨ht,hs⟩
      · exact rollback_wiring ht hs

section

variable (h : LeftAlone m p)
include h

variable (c : Circuit)

theorem LeftAlone.change : LeftAlone m (p.change c).1 := by
  have hdb := changePath_wiring c h.wiring h.saved
  unfold Progress.change
  cases hc : changePath c p.state.db with
  | mk db r =>
    rw [hc] at hdb
    cases r <;> exact ⟨h.linkStatus,h.linkMaintenance,hdb.1,hdb.2⟩

theorem LeftAlone.notify (n : Notification) : LeftAlone m (p.notify n) :=
  ⟨h.linkStatus,h.linkMaintenance,h.wiring,h.saved⟩

theorem LeftAlone.report (n : Notification) : LeftAlone m (p.report n) := by
  unfold Progress.report
  split_ifs
  · exact h
  · exact h.notify n

theorem LeftAlone.scheduleRestore : LeftAlone m (p.scheduleRestore c) := by
  unfold Progress.scheduleRestore
  split_ifs
  · exact ⟨h.linkStatus,h.linkMaintenance,h.wiring,h.saved⟩
  · exact h

theorem LeftAlone.changeRestored (reason : String) : LeftAlone m (p.changeRestored c reason) := by
  have hchange := h.change c
  unfold Progress.changeRestored
  cases hq : p.change c with
  | mk q b =>
    rw [hq] at hchange
    cases b
    · exact hchange
    · exact hchange.notify _

theorem LeftAlone.failOverCircuit (id : Nat) : LeftAlone m (failOverCircuit p id) := by
  unfold Master.failOverCircuit
  cases p.state.circuit id with
  | none => exact h
  | some c =>
    have hchange := h.change c
    dsimp only
    split_ifs
    · cases hq : p.change c with
      | mk q b =>
        rw [hq] at hchange
        cases b <;> exact hchange.notify _
    all_goals exact h.report _

theorem LeftAlone.restoreCircuit (row : Nat×OpenFlow.PathType) :
    LeftAlone m (restoreCircuit p row) := by
  unfold Master.restoreCircuit
  cases p.state.circuit row.1 with
  | none => exact h
  | some c =>
    dsimp only
    split_ifs
    · exact h.changeRestored c _
    · exact h.report _
    · exact h
    · exact h
    · exact h.report _
    · exact h.scheduleRestore c
    · exact h.changeRestored c _
    · exact h
    · exact h.report _

end

theorem LeftAlone.foldl {α : Type} {f : Progress → α → Progress}
    (hf : ∀ p a,LeftAlone m p → LeftAlone m (f p a)) (as : List α) (h : LeftAlone m p) :
    LeftAlone m (as.foldl f p) := by
  induction as generalizing p with
  | nil => exact h
  | cons a as ih => exact ih (hf p a h)

theorem LeftAlone.start (m : State) : LeftAlone m (.start m) := by
  refine ⟨rfl,rfl,rfl,fun t e => ?_⟩
  rw [← Option.some.inj e]

end LeftAlone

variable (m : State) {l : Nat}

theorem linkDown_leftAlone (l : Nat) :
    LeftAlone {m with linkStatus := update m.linkStatus l .down} (linkDown m l) := by
  obtain ⟨h1,h2,h3,-⟩ := LeftAlone.foldl (fun p id (h : LeftAlone _ p) => h.failOverCircuit id)
    (getAffectedCircuitsByLinkId m.db.tables l)
    (LeftAlone.start {m with linkStatus := update m.linkStatus l .down})
  exact ⟨h1,h2,h3,fun t e => by cases e⟩

theorem linkUp_leftAlone (l : Nat) :
    LeftAlone {m with linkStatus := update m.linkStatus l .up} (linkUp m l) := by
  obtain ⟨h1,h2,h3,-⟩ := LeftAlone.foldl (fun p row (h : LeftAlone _ p) => h.restoreCircuit row)
    (getCircuitsOnLink m.db.tables l)
    (LeftAlone.start {m with linkStatus := update m.linkStatus l .up})
  exact ⟨h1,h2,h3,fun t e => by cases e⟩

theorem trunkModified_frame (k : Nat) (up : Bool) :
    (trunkModified m k up).1.linkMaintenance=m.linkMaintenance∧
    (trunkModified m k up).1.db.tables.links=m.db.tables.links∧
    (trunkModified m k up).1.linkStatus=if m.linkMaintenance k then m.linkStatus else
      update m.linkStatus k (if up then .up else .down) := by
  have hdown := linkDown_leftAlone m k
  have hup := linkUp_leftAlone m k
  unfold trunkModified
  cases up <;> cases m.linkMaintenance k
  · exact ⟨hdown.linkMaintenance,hdown.links,hdown.linkStatus⟩
  · exact ⟨rfl,rfl,rfl⟩
  · exact ⟨hup.linkMaintenance,hup.links,hup.linkStatus⟩
  · exact ⟨rfl,rfl,rfl⟩

theorem trunkModified_wiring (k : Nat) (up : Bool) : (trunkModified m k up).1.db.tables.linkState=
      update m.db.tables.linkState k (if up then .up else .down)∧
    (trunkModified m k up).1.db.tables.operationalState=m.db.tables.operationalState := by
  have hstate {t : Tables} (h : t.wiring=m.db.tables.wiring) : t.linkState=m.db.tables.linkState :=
    congrArg (·.2.1) h
  have hports {t : Tables} (h : t.wiring=m.db.tables.wiring) :
      t.operationalState=m.db.tables.operationalState := congrArg (·.2.2.1) h
  have hdown : (linkDown m k).state.db.tables.wiring=m.db.tables.wiring :=
    (linkDown_leftAlone m k).wiring
  have hup : (linkUp m k).state.db.tables.wiring=m.db.tables.wiring := (linkUp_leftAlone m k).wiring
  unfold trunkModified
  cases up <;> cases m.linkMaintenance k
  · rw [← hstate hdown,← hports hdown]
    exact ⟨rfl,rfl⟩
  · exact ⟨rfl,rfl⟩
  · rw [← hstate hup,← hports hup]
    exact ⟨rfl,rfl⟩
  · exact ⟨rfl,rfl⟩

theorem updatePortStatus_frame (e : PortEvent) :
    (updatePortStatus m e).linkMaintenance=m.linkMaintenance∧
    (updatePortStatus m e).db.tables.links=m.db.tables.links∧
    (updatePortStatus m e).linkStatus=m.linkStatus := by
  unfold updatePortStatus
  by_cases h : e.reason=.delete
  · rw [if_pos h]
    exact ⟨rfl,rfl,rfl⟩
  · rw [if_neg h]
    exact ⟨rfl,rfl,rfl⟩

/-- `l` joins `a` and `z`, outside maintenance. -/
structure Trunk (m : State) (l : Nat) (a z : Nat×Nat) : Prop where
  ends : a≠z
  atA : getLinkByDpidAndPort m.db.tables a=some l
  atZ : getLinkByDpidAndPort m.db.tables z=some l
  only : ∀ p,getLinkByDpidAndPort m.db.tables p=some l → p=a∨p=z
  outside : m.linkMaintenance l=false

variable {a z : Nat×Nat}

theorem Trunk.at_iff {m : State} (h : Trunk m l a z) (p : Nat×Nat) :
    getLinkByDpidAndPort m.db.tables p=some l ↔ p=a∨p=z := by
  refine ⟨h.only p,fun hp => ?_⟩
  rcases hp with rfl | rfl
  · exact h.atA
  · exact h.atZ

/-- The link's status follows the last modification of either port. -/
theorem portStatus_linkStatus {m : State} (h : Trunk m l a z) (e : PortEvent) :
    (portStatus m e).1.linkStatus l=
      if e.reason=.modify∧(e.place=a∨e.place=z) then (if e.link then .up else .down)
      else m.linkStatus l := by
  have hplace := h.at_iff e.place
  unfold portStatus
  cases hr : e.reason with
  | add => simp [updatePortStatus_frame]
  | delete =>
    cases getLinkByDpidAndPort m.db.tables e.place <;> simp [updatePortStatus_frame]
  | modify =>
    cases hk : getLinkByDpidAndPort m.db.tables e.place with
    | none =>
      rw [hk] at hplace
      have hoff : ¬(e.place=a∨e.place=z) := fun hp => by cases hplace.mpr hp
      simp [updatePortStatus_frame,hoff]
    | some k =>
      rw [hk,Option.some.injEq] at hplace
      rw [(updatePortStatus_frame _ _).2.2,(trunkModified_frame _ _ _).2.2]
      by_cases hkl : k=l
      · simp [hkl,h.outside,hplace.mp hkl]
      · split_ifs <;> simp_all [update_of_ne (Ne.symm hkl)]

theorem portStatus_frame (m : State) (e : PortEvent) :
    (portStatus m e).1.linkMaintenance=m.linkMaintenance∧
      (portStatus m e).1.db.tables.links=m.db.tables.links := by
  unfold portStatus
  cases e.reason with
  | add => simp [updatePortStatus_frame]
  | delete => cases getLinkByDpidAndPort m.db.tables e.place <;> simp [updatePortStatus_frame]
  | modify =>
    cases getLinkByDpidAndPort m.db.tables e.place <;>
      simp [updatePortStatus_frame,trunkModified_frame]

theorem portStatus_getLinkByDpidAndPort (m : State) (e : PortEvent) (p : Nat×Nat) :
    getLinkByDpidAndPort (portStatus m e).1.db.tables p=getLinkByDpidAndPort m.db.tables p := by
  rw [getLinkByDpidAndPort,(portStatus_frame m e).2]
  rfl

theorem portStatus_trunk {m : State} (h : Trunk m l a z) (e : PortEvent) :
    Trunk (portStatus m e).1 l a z := by
  have hat := portStatus_getLinkByDpidAndPort m e
  exact ⟨h.ends,(hat a).trans h.atA,(hat z).trans h.atZ,fun p hp => h.only p ((hat p) ▸ hp),
    by rw [(portStatus_frame m e).1]; exact h.outside⟩

/-- The state, with what the last event of each port reported. -/
structure Witnessed where
  state : State
  last : Nat×Nat → Option Bool

def Witnessed.step (s : Witnessed) (e : PortEvent) : Witnessed :=
  ⟨(portStatus s.state e).1,Function.update s.last e.place (some e.link)⟩

/-- A link held to be up has no end that was last reported down. -/
def Honest (l : Nat) (a z : Nat×Nat) (s : Witnessed) : Prop :=
  s.state.linkStatus l=.up → s.last a≠some false∧s.last z≠some false

/-- A port that comes up finds the other end not reported down, and only a link not held to be up
has an end added or deleted with its port down. -/
def EndsAgree (l : Nat) (a z : Nat×Nat) (s : Witnessed) (e : PortEvent) : Prop :=
  (e.place=a∨e.place=z) →
    if e.reason=.modify then
      e.link=true → (e.place=a → s.last z≠some false)∧(e.place=z → s.last a≠some false)
    else e.link=false → s.state.linkStatus l≠.up

theorem honest_step_iff {s : Witnessed} (e : PortEvent) (h : Trunk s.state l a z)
    (hs : Honest l a z s) : Honest l a z (s.step e) ↔ EndsAgree l a z s e := by
  have hstatus := portStatus_linkStatus h e
  have hza : z≠a := h.ends.symm
  unfold Honest EndsAgree Witnessed.step
  dsimp only
  rw [hstatus]
  by_cases hp : e.place=a∨e.place=z
  · by_cases hr : e.reason=.modify
    · rw [if_pos ⟨hr,hp⟩,if_pos hr]
      rcases hp with hp | hp <;> cases hl : e.link <;> simp [hp,h.ends,hza]
    rw [if_neg fun he => hr he.1,if_neg hr]
    rcases hp with hp | hp <;> cases hl : e.link <;> simp [hp,h.ends,hza]
    · exact fun hup => (hs hup).2
    · exact fun hup => (hs hup).1
  · have hne : a≠e.place∧z≠e.place := ⟨fun he => hp (.inl he.symm),fun he => hp (.inr he.symm)⟩
    rw [if_neg fun he => hp he.2,update_of_ne hne.1,update_of_ne hne.2]
    exact ⟨fun _ hp' => absurd hp' hp,fun _ => hs⟩

/-- A run is honest about a trunk exactly when each event finds the trunk's ends in agreement. -/
theorem linkStatus_honest_iff (m : State) (l : Nat) (a z : Nat×Nat) (h : Trunk m l a z)
    (es : List PortEvent) :
    Runs.Always Witnessed.step (Honest l a z) ⟨m,fun _ => none⟩ es ↔
      Runs.StepsOk Witnessed.step (EndsAgree l a z) ⟨m,fun _ => none⟩ es := by
  apply Runs.always_iff_stepsOk (I := fun s : Witnessed => Trunk s.state l a z)
  · intro s e hs
    exact portStatus_trunk hs e
  · intro s e hs hh
    exact honest_step_iff e hs hh
  · intro _
    simp
  · exact h

theorem line_trunk : Trunk line 1 (11,1) (12,1) := by
  refine ⟨by decide,by decide,by decide,?_,rfl⟩
  intro p hp
  simp only [getLinkByDpidAndPort,line,alone,lineTables,List.find?_cons] at hp
  split at hp
  · rename_i hp'
    exact (of_decide_eq_true hp').imp Eq.symm Eq.symm
  · split at hp <;> simp at hp

theorem line_honest : Runs.StepsOk Witnessed.step (EndsAgree 1 (11,1) (12,1)) ⟨line,fun _ => none⟩
      [portModified (11,1) false,portModified (11,1) true]∧
    Runs.Always Witnessed.step (Honest 1 (11,1) (12,1)) ⟨line,fun _ => none⟩
      [portModified (11,1) false,portModified (11,1) true] := by
  have hes : Runs.StepsOk Witnessed.step (EndsAgree 1 (11,1) (12,1)) ⟨line,fun _ => none⟩
      [portModified (11,1) false,portModified (11,1) true] := by
    refine ⟨?_,?_,trivial⟩
    · intro _ hl
      cases hl
    · intro _ _
      exact ⟨fun _ => by decide,fun he => absurd he (by decide)⟩
  exact ⟨hes,(linkStatus_honest_iff line 1 (11,1) (12,1) line_trunk _).mpr hes⟩

/-- Both ends go down and one comes back: the link counts as up. -/
theorem line_dishonest : Trunk line 1 (11,1) (12,1)∧
    ¬Runs.Always Witnessed.step (Honest 1 (11,1) (12,1)) ⟨line,fun _ => none⟩
      [portModified (11,1) false,portModified (12,1) false,portModified (11,1) true] := by
  refine ⟨line_trunk,fun h => ?_⟩
  have hlast : Honest 1 (11,1) (12,1) (((Witnessed.mk line fun _ => none).step
      (portModified (11,1) false)).step (portModified (12,1) false) |>.step
      (portModified (11,1) true)) := h.2.2.2
  exact (hlast (by decide)).2 (by decide)

end OESS.Master
