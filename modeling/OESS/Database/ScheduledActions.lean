import OESS.Database.CircuitCalls
import OESS.Database.Ownership

namespace OESS.Database

open Transactions Transactions.Routine List

section Others

variable {α : Type} (c : Checks) (e : Env) {x y : Nat} {r : Records}

variable (own : Bool) {V : α → Prop} {otherwise : Query Unit}

theorem withdraw_safe (error : String) : Safe (Owned x r) (withdraw own error) V :=
  .bind (.onlyIf .rollback) fun _ _ => .fail error

theorem undoingIf_safe {q : Query α} (hq : Safe (Owned x r) q V) :
    Safe (Owned x r) (undoingIf own q) V := by
  cases own with
  | false => exact hq
  | true => exact .undoing hq

theorem required_safe {f : Tables → Option (α×Tables)} {otherwise : Query α}
    (hf : ∀ d a d',Owned x r d → f d=some (a,d') → Owned x r d'∧V a)
    (ho : Safe (Owned x r) otherwise V) : Safe (Owned x r) (orElse (statement f) otherwise) V :=
  .orElse (.statement hf) ho

theorem requiredInsert_safe {f : Tables → Option (Unit×Tables)}
    (hf : ∀ d u d',Owned x r d → f d=some (u,d') → Owned x r d')
    (ho : Safe (Owned x r) otherwise fun _ => True) :
    Safe (Owned x r) (orElse (statement f) otherwise) fun _ => True :=
  required_safe (fun d u d' h hd => ⟨hf d u d' h hd,trivial⟩) ho

theorem requiredWrite_safe {f : Tables → Tables} (hf : ∀ d,Owned x r d → Owned x r (f d))
    (ho : Safe (Owned x r) otherwise fun _ => True) :
    Safe (Owned x r) (orElse (write f) otherwise) fun _ => True :=
  .orElse ((Safe.write hf).mono fun _ _ _ _ => trivial) ho

theorem linkVlans_safe (error : LinkEnd → String) (seen : List Nat) (a z : Option Nat)
    (ends : List LinkEnd) :
    Safe (Owned x r) (linkVlans c own error seen a z ends) fun _ => True := by
  induction ends generalizing seen a z with
  | nil => exact .pure trivial
  | cons p ps ih =>
    refine .ite (ih _ _ _) ?_
    have hvlan : Safe (Owned x r) (c.getAvailableInternalVlanId p.node p.interface).run
        fun o => ∀ a∈o,True :=
      (c.getAvailableInternalVlanId p.node p.interface).readOnly.safe.mono fun _ _ _ _ => trivial
    refine .bind (.orElse hvlan (withdraw_safe own _)) fun vlan _ => ?_
    exact .ite (ih _ _ _) (.ite (ih _ _ _) (ih _ _ _))

theorem addLinks_safe (own required : Bool) (error : LinkEnd → String) {path : Nat}
    (hpath : path∉r.paths.map Path.id) (seen : List Nat) (links : List String) :
    Safe (Owned x r) (addLinks c e own required error path seen links) fun _ => True := by
  induction links generalizing seen with
  | nil => exact .pure trivial
  | cons link links ih =>
    refine .bind (getLinkByName_readOnly link).safe fun id _ => ?_
    refine .bind (.onlyIf (withdraw_safe own _)) fun _ _ => ?_
    refine .bind (getLinkEndpoints_readOnly id).safe fun ends _ => ?_
    refine .bind (linkVlans_safe c own error seen none none ends) fun v _ => ?_
    refine .bind (requiredInsert_safe (fun _ _ _ h hd => ?_) (withdraw_safe own _))
      fun _ _ => ih v.1
    exact h.insertLinkMembership e.now hpath hd

theorem instantiatePath_safe {path : Nat} (hpath : path∉r.paths.map Path.id) (type : PathType) :
    Safe (Owned x r) (instantiatePath e own path type) fun _ => True :=
  requiredWrite_safe (fun _ h => h.insertPathInstantiation e.now hpath _) (withdraw_safe own _)

theorem addRemoveEvent_safe (name : Option String) (workgroup : Nat) (removeTime : Int)
    (user : Option Nat) (circuit : Nat) :
    Safe (Owned x r) (addRemoveEvent e name workgroup removeTime user circuit) fun _ => True :=
  requiredInsert_safe (fun _ _ _ h hd => h.insertAction e.now hd) (.fail _)

theorem addEvent_safe (a : CircuitArgs) (user : Option Nat) (circuit : Nat) :
    Safe (Owned x r) (addEvent e a user circuit) fun _ => True := by
  refine .bind (requiredInsert_safe (fun _ _ _ h hd => h.insertAction e.now hd) (.fail _))
    fun _ _ => ?_
  exact .onlyIf (addRemoveEvent_safe e _ _ _ user circuit)

end Others

section Edit

variable (c : Checks) (e : Env) {x : Nat} {r : Records} {a : EditArgs} (hy : a.circuitId≠x)

include hy

variable (user : Option Nat)

theorem endRecords_safe : Safe (Owned x r) (endRecords e a user) fun _ => True := by
  have hend := fun error : String => withdraw_safe (x := x) (r := r) a.doCommit error
    (V := fun _ : Unit => True)
  refine .bind (requiredWrite_safe (fun _ h => h.updateCircuit hy _ _ _) (hend _)) fun _ _ => ?_
  refine .bind (requiredWrite_safe (fun _ h => h.endInstantiations e.now hy) (hend _)) fun _ _ => ?_
  refine .bind (requiredInsert_safe (fun _ _ _ h hd => h.insertInstantiation e.now hy hd)
    (hend _)) fun _ _ => ?_
  refine .bind (requiredWrite_safe (fun _ h => h.endEdges e.now hy _) (hend _)) fun _ _ => ?_
  refine .bind (.select (V := fun ps => ∀ p∈ps,p.id∉r.paths.map Path.id)
    fun _ h _ hp => h.pathsOf_other hy hp) fun paths hpaths => ?_
  apply Safe.each
  intro p hp
  have hother : p.id∉r.paths.map Path.id := by
    cases paths with
    | none => cases hp
    | some ps => exact hpaths ps rfl p hp
  refine .ite (.pure trivial) ?_
  refine .bind (requiredWrite_safe (fun _ h => h.endPathInstantiations e.now hother) (hend _))
    fun _ _ => ?_
  exact requiredWrite_safe (fun _ h => h.endLinkMemberships e.now hother) (hend _)

theorem editEndpoints_safe (macs : List String) (ps : List Endpoint) :
    Safe (Owned x r) (editEndpoints c e a macs ps) fun _ => True := by
  induction ps generalizing macs with
  | nil => exact .pure trivial
  | cons p ps ih =>
    refine .bind (rowsOf_readOnly _).safe fun interface _ => ?_
    have hunit : Safe (Owned x r) (c.findAvailableUnit interface p.vlan p.innerVlan).run
        fun o => ∀ u∈o,True :=
      (c.findAvailableUnit interface p.vlan p.innerVlan).readOnly.safe.mono fun _ _ _ _ => trivial
    refine .bind (.orElse hunit (.abort _)) fun unit _ => ?_
    refine .bind (required_safe (fun _ _ _ h hd => h.insertEdge e.now hy hd)
      (withdraw_safe a.doCommit _)) fun edge hedge => ?_
    have hmacs : Safe (Owned x r) (editMacs c a p edge (shiftMacs p.macNum macs)) fun _ => True :=
      .each _ fun mac _ =>
        requiredWrite_safe (fun _ h => h.insertMac hedge _) (withdraw_safe a.doCommit _)
    exact .bind (.onlyIf hmacs) fun _ _ => ih _

theorem editRemote_safe (q : String×Option Int) :
    Safe (Owned x r) (editRemote e a q) fun _ => True := by
  refine .bind (rowsOf_readOnly _).safe fun i _ => ?_
  refine .bind (V := fun _ => True) ?_ fun interface _ => ?_
  · exact .orElse (.pure fun _ _ => trivial) (withdraw_safe a.doCommit _)
  · refine .bind (required_safe (fun _ _ _ h hd => h.insertEdge e.now hy hd)
      (withdraw_safe a.doCommit _)) fun _ _ => .pure trivial

omit hy in
theorem setPathState_safe {path : Nat} (hpath : path∉r.paths.map Path.id) (state : PathState) :
    Safe (Owned x r) (setPathState e path state) fun _ => True := by
  refine .bind (requiredWrite_safe (fun _ h => h.setPathState hpath state) (.fail _)) fun _ _ => ?_
  refine .bind (requiredWrite_safe (fun _ h => h.endPathInstantiations e.now hpath)
    (.fail _)) fun _ _ => ?_
  exact requiredWrite_safe (fun _ h => h.insertPathInstantiation e.now hpath state) (.fail _)

theorem getPathId_safe (type : PathType) :
    Safe (Owned x r) (getPathId a.circuitId type) fun o => ∀ id∈o,id∉r.paths.map Path.id := by
  refine .bind (.select (V := fun o => ∀ id∈o,id∉r.paths.map Path.id)
    fun _ h _ hid => h.pathId_other hy hid) fun o ho => ?_
  apply Safe.pure
  intro id hid
  cases o with
  | none => cases hid
  | some found => exact ho found rfl id hid

theorem editPath_safe (type : PathType) (links : List String) :
    Safe (Owned x r) (editPath c e a type links) fun _ => True := by
  refine .ite ?_ (.ite (.pure trivial) ?_)
  · refine .bind (getPathId_safe hy type) fun found hfound => ?_
    cases found with
    | none => exact .pure trivial
    | some path => exact undoingIf_safe a.doCommit (setPathState_safe e (hfound path rfl) .decom)
  · refine .bind (getPathId_safe hy type) fun found hfound => ?_
    refine .bind (V := fun path => path∉r.paths.map Path.id) ?_ fun path hpath => ?_
    · refine .orElse (.pure hfound) (required_safe ?_ (withdraw_safe a.doCommit _))
      intro d path d' h hd
      cases hd
      exact h.insertPath hy type .active .none
    · refine .bind (instantiatePath_safe e a.doCommit hpath type) fun _ _ => ?_
      exact addLinks_safe c e a.doCommit false _ hpath [] links

theorem editRecords_safe : Safe (Owned x r) (editRecords c e a user) fun _ => True := by
  refine .bind (endRecords_safe e hy user) fun _ _ => ?_
  refine .bind (editEndpoints_safe c e hy _ _) fun _ _ => ?_
  refine .bind (.each _ fun q _ => editRemote_safe e hy q) fun _ _ => ?_
  refine .bind (editPath_safe c e hy .primary _) fun _ _ => ?_
  exact editPath_safe c e hy .backup _

theorem editCircuit_safe : Safe (Owned x r) (editCircuit c e a) fun _ => True := by
  refine .bind (V := fun _ => True) ?_ fun sane _ => ?_
  · exact .ite (c.circuitSanityCheck _ _ _).readOnly.safe (.pure trivial)
  refine .bind (.onlyIf (.fail _)) fun _ _ => ?_
  refine .bind (.onlyIf .beginOrDie) fun _ _ => ?_
  have hsteps : Safe (Owned x r) (editSteps c e a) fun _ => True := by
    refine .bind (V := fun _ => True) ?_ fun _ _ => ?_
    · exact .orElse ((ReadOnly.select _).safe.mono fun _ _ _ _ => trivial)
        (withdraw_safe a.doCommit _)
    refine .bind (getUserIdByAuthName_readOnly _).safe fun user _ => .ite ?_ ?_
    · refine .bind (undoingIf_safe a.doCommit (addEvent_safe e _ user _)) fun _ _ => ?_
      exact .pure trivial
    · exact .bind (editRecords_safe c e hy user) fun _ _ => .pure trivial
  refine .bind hsteps fun _ _ => ?_
  have hcommit : Safe (Owned x r) (do let _ ← commit : Query Unit) fun _ => True :=
    .bind .commit fun _ _ => .pure trivial
  exact .bind (.onlyIf hcommit) fun _ _ => .pure trivial

end Edit

section Remove

variable (c : Checks) (e : Env) {x y : Nat} {r : Records} (hy : y≠x)

include hy

theorem updateCircuitState_safe (state : CircuitState) (user : Nat) (reason : String) :
    Safe (Owned x r) (updateCircuitState c e y state user reason) fun _ => True := by
  refine .bind (V := fun _ => True) ?_ fun bandwidth _ => ?_
  · exact .orElse ((c.getCircuitDetails y).readOnly.safe.mono fun _ _ _ _ => trivial) (.fail _)
  refine .bind (requiredWrite_safe (fun _ h => h.endInstantiations e.now hy) (.fail _))
    fun _ _ => ?_
  refine .bind (requiredInsert_safe (fun _ _ _ h hd => h.insertInstantiation e.now hy hd)
    (.fail _)) fun _ _ => ?_
  exact requiredWrite_safe (fun _ h => h.setCircuitState hy state) (.fail _)

theorem endCircuit_safe (user : Nat) : Safe (Owned x r) (endCircuit c e y user) fun _ => True := by
  refine .bind (.undoing (updateCircuitState_safe c e hy _ _ _)) fun _ _ => ?_
  refine .bind (requiredWrite_safe (fun _ h => h.endPaths e.now hy) (.abort _)) fun _ _ => ?_
  refine .bind (requiredWrite_safe (fun _ h => h.endLinks e.now hy) (.abort _)) fun _ _ => ?_
  exact requiredWrite_safe (fun _ h => h.endCircuitEdges e.now hy) (.abort _)

omit hy in
theorem removeCircuit_safe {a : RemoveArgs} (hy : a.circuitId≠x) :
    Safe (Owned x r) (removeCircuit c e a) fun _ => True := by
  refine .bind (getUserIdByAuthName_readOnly _).safe fun user _ => ?_
  refine .bind (V := fun _ => True) ?_ fun user _ => .ite ?_ ?_
  · exact .orElse (.pure fun _ _ => trivial) (.fail _)
  · exact .bind (addRemoveEvent_safe e _ _ _ _ _) fun _ _ => .pure trivial
  · refine .bind .beginOrDie fun _ _ => ?_
    refine .bind (endCircuit_safe c e hy user) fun _ _ => ?_
    exact .bind .commit fun _ _ => .pure trivial

end Remove

section ChangePath

variable (e : Env) {x y : Nat} {r : Records}

theorem changePath_safe (hy : y≠x) (o : CircuitObject) (reason : String) :
    Safe (Owned x r) (changePath e y o reason) fun _ => True := by
  have hread (state : PathState) : Safe (Owned x r) (select fun d => d.pathsIn y state : Query _)
      fun found => ∀ ids∈found,∀ id∈ids,id∉r.paths.map Path.id :=
    .select fun _ h _ hid => h.pathsIn_other hy hid
  have hhead {found : Option (List Nat)} (h : ∀ ids∈found,∀ id∈ids,id∉r.paths.map Path.id) :
      ∀ id∈(found.getD []).head?,id∉r.paths.map Path.id := by
    intro id hid
    cases found with
    | none => cases hid
    | some ids => exact h ids rfl id (mem_of_head? hid)
  refine .bind (.onlyIf (.fail _)) fun _ _ => ?_
  refine .bind (.onlyIf (.fail _)) fun _ _ => ?_
  refine .bind (hread .available) fun available havailable => ?_
  refine .bind .beginOrDie fun _ _ => ?_
  refine .bind (hread .active) fun active hactive => ?_
  refine .bind (.orElse (.pure (hhead hactive)) (.abort _)) fun old hold => ?_
  refine .bind (requiredInsert_safe (fun _ _ _ h hd => h.retirePath e.now hold hd)
    (.abort _)) fun _ _ => ?_
  refine .bind (requiredWrite_safe (fun _ h => h.insertPathInstantiation e.now hold .available)
    (.abort _)) fun _ _ => ?_
  refine .bind (requiredInsert_safe (fun _ _ _ h hd => h.activatePath (hhead havailable) hd)
    (.abort _)) fun _ _ => ?_
  refine .bind (rowsOf_readOnly _).safe fun current _ => ?_
  refine .bind (V := fun _ => True) ?_ fun i _ => ?_
  · exact .orElse (.pure fun _ _ => trivial) (.abort _)
  refine .bind (requiredWrite_safe (fun _ h => h.endInstantiations e.now hy) (.abort _))
    fun _ _ => ?_
  refine .bind (requiredInsert_safe (fun _ _ _ h hd => h.insertInstantiation e.now hy hd)
    (.abort _)) fun _ _ => ?_
  exact .bind .commit fun _ _ => .pure trivial

theorem changePath_safe_inactive (h : r.pathsIn .active=[]) (o : CircuitObject) (reason : String) :
    Safe (Owned x r) (changePath e x o reason) fun _ => True := by
  refine .bind (.onlyIf (.fail _)) fun _ _ => ?_
  refine .bind (.onlyIf (.fail _)) fun _ _ => ?_
  refine .bind (ReadOnly.select _).safe fun _ _ => ?_
  refine .bind .beginOrDie fun _ _ => ?_
  have hread : Safe (Owned x r) (select fun d => d.pathsIn x .active : Query _)
      fun found => ∀ ids∈found,ids=[] := .select fun _ ho => (ho.pathsIn .active).trans h
  refine .bind hread fun active hactive => ?_
  have hnone : (active.getD []).head?=none := by
    cases active with
    | none => rfl
    | some ids => rw [hactive ids rfl,Option.getD_some,head?_nil]
  rw [hnone]
  refine .bind ?_ fun _ hfalse => absurd hfalse id
  exact .orElse (.pure fun _ hid => nomatch hid) (.abort _)

end ChangePath

variable (c : Checks) (object : Nat → Lookup Tables String (Option CircuitObject)) (e : Env)
  {x : Nat} {r : Records} {a : ScheduledAction}

theorem complete_safe (id : Nat) :
    Safe (Owned x r) (updateActionCompleteEpoch e id) fun _ => True :=
  .write fun _ h => h.completeAction e.now id

theorem completeOrUndo_safe (id : Nat) :
    Safe (Owned x r) (orElse (updateActionCompleteEpoch e id) rollback) fun _ => True :=
  .orElse ((complete_safe e id).mono fun _ _ _ _ => trivial) .rollback

theorem userNameOf_readOnly (user : Nat) : ReadOnly (userNameOf user) :=
  .bind (rowsOf_readOnly _) fun _ => .pure _

theorem editAndComplete_safe (hy : a.circuit≠x) (ckt : Option (Circuit×CircuitInstantiation))
    (l : CircuitLayout) (state : Option CircuitState) (type : Option CircuitType) :
    Safe (Owned x r) (editAndComplete c e a ckt l state type) fun _ => True := by
  refine .bind (userNameOf_readOnly _).safe fun user _ => ?_
  refine .bind (.attempt (editCircuit_safe c e hy)) fun _ _ => ?_
  exact .bind (complete_safe e a.id) fun _ _ => .pure trivial

theorem runAction_safe (hy : a.circuit≠x) :
    Safe (Owned x r) (runAction c object e a) fun _ => True := by
  refine .bind (rowsOf_readOnly _).safe fun rows _ => ?_
  have hcomplete : Safe (Owned x r) (do let _ ← updateActionCompleteEpoch e a.id : Query Unit)
      fun _ => True := .bind (complete_safe e a.id) fun _ _ => .pure trivial
  cases a.layout with
  | provision l =>
    refine .ite (.pure trivial) (.ite hcomplete ?_)
    exact editAndComplete_safe c e hy _ l _ _
  | edit l state =>
    refine .ite (.pure trivial) (.bind (.onlyIf hcomplete) fun _ _ => ?_)
    exact editAndComplete_safe c e hy _ l _ _
  | remove name =>
    refine .bind (userNameOf_readOnly _).safe fun user _ => ?_
    refine .bind (.attempt (removeCircuit_safe c e hy)) fun removed _ => ?_
    cases removed with
    | none => exact .bind .rollback fun _ _ => .die
    | some _ => exact completeOrUndo_safe e a.id
  | changePath path reason =>
    refine .bind (object a.circuit).readOnly.safe fun loaded _ => ?_
    refine .bind (V := fun _ => True) ?_ fun o _ => ?_
    · exact .orElse (.pure fun _ _ => trivial) .die
    have hchange := Safe.attempt (changePath_safe (r := r) e hy o reason)
    refine .bind (.onlyIf (.bind hchange fun _ _ => .pure trivial)) fun _ _ => ?_
    exact completeOrUndo_safe e a.id

/-- The action does not touch a decommissioned circuit: a provisioning stops there, and a path
change finds no active path. -/
def Tables.Harmless (d : Tables) (a : ScheduledAction) : Prop :=
  d.circuitState a.circuit=some .decom →
    match a.layout with
    | .provision _ => True
    | .edit _ _ | .remove _ => False
    | .changePath _ _ => d.pathsIn a.circuit .active=[]

theorem runAction_safe_own {d : Tables} (hkeys : (d.paths.map Path.id).Nodup)
    (hdecom : d.circuitState a.circuit=some .decom) (ha : d.Harmless a) :
    Safe (Owned a.circuit (d.records a.circuit)) (runAction c object e a) fun _ => True := by
  have hd := owned_records hkeys a.circuit
  have hrows : Safe (Owned a.circuit (d.records a.circuit))
      (rowsOf (·.circuitRows a.circuit)) fun rows => rows=d.circuitRows a.circuit :=
    .orElse (.select fun _ h => h.circuitRows.trans hd.circuitRows.symm) .die
  have hkind := ha hdecom
  refine .bind hrows fun rows heq => ?_
  rw [heq]
  cases hl : a.layout with
  | provision l =>
    unfold Tables.circuitState at hdecom
    simp only [provisionAction,hdecom]
    exact .bind (complete_safe e a.id) fun _ _ => .pure trivial
  | edit l state | remove name =>
    rw [hl] at hkind
    exact absurd hkind id
  | changePath path reason =>
    rw [hl] at hkind
    have hnone : (d.records a.circuit).pathsIn .active=[] := (hd.pathsIn .active).symm.trans hkind
    refine .bind (object a.circuit).readOnly.safe fun loaded _ => ?_
    refine .bind (V := fun _ => True) ?_ fun o _ => ?_
    · exact .orElse (.pure fun _ _ => trivial) .die
    have hchange := Safe.attempt (changePath_safe_inactive e (x := a.circuit) hnone o reason)
    refine .bind (.onlyIf (.bind hchange fun _ _ => .pure trivial)) fun _ _ => ?_
    exact completeOrUndo_safe e a.id

section Rests

theorem editCircuit_rests {a : EditArgs} (h : a.doCommit=true) : Rests (editCircuit c e a) := by
  have hsane : Keeps SameTransaction (if a.doSanityCheck then
      (c.circuitSanityCheck a.circuitId a.toCircuitArgs a.type).run else pure true) :=
    .ite (Lookup.readOnly _).inside (.pure true)
  refine .bind (.of_inside hsane) fun sane => ?_
  refine .bind (.onlyIf (.fail _)) fun _ => ?_
  rw [h]
  refine .transaction (.bind (editSteps_guarded c e h) fun loopNode => ?_)
  exact .commit _

theorem removeCircuit_rests (a : RemoveArgs) : Rests (removeCircuit c e a) := by
  refine .bind (.of_inside (getUserIdByAuthName_readOnly _).inside) fun user => ?_
  refine .bind (.orElse (.pure _) (.fail _)) fun user => ?_
  refine .ite ?_ ?_
  · refine .bind (.of_inside (addRemoveEvent_inside e _ _ _ _ _)) fun _ => .pure _
  · refine .transaction (.bind (endCircuit_guarded c e _ user) fun _ => ?_)
    exact .commit _

theorem changePath_rests (circuit : Nat) (o : CircuitObject) (reason : String) :
    Rests (changePath e circuit o reason) := by
  refine .bind (.onlyIf (.fail _)) fun _ => ?_
  refine .bind (.onlyIf (.fail _)) fun _ => ?_
  refine .bind (.of_inside (select_inside _)) fun available => ?_
  refine .transaction ?_
  refine .bind (.select _) fun active => ?_
  refine .bind (.orElse (.pure _) (.abort _)) fun old => ?_
  refine .bind (.orElse (.statement _) (.abort _)) fun _ => ?_
  refine .bind (.orElse (.write _) (.abort _)) fun _ => ?_
  refine .bind (.orElse (.statement _) (.abort _)) fun _ => ?_
  refine .bind (rowsOf_readOnly _).guarded fun current => ?_
  refine .bind (.orElse (.pure _) (.abort _)) fun i => ?_
  refine .bind (.orElse (.write _) (.abort _)) fun _ => ?_
  refine .bind (.orElse (.statement _) (.abort _)) fun _ => ?_
  exact .commit _

variable (a : ScheduledAction)

theorem editAndComplete_rests (ckt : Option (Circuit×CircuitInstantiation)) (l : CircuitLayout)
    (state : Option CircuitState) (type : Option CircuitType) :
    Rests (editAndComplete c e a ckt l state type) := by
  refine .bind (.of_inside (userNameOf_readOnly _).inside) fun user => ?_
  refine .bind (.attempt (editCircuit_rests c e rfl)) fun _ => ?_
  exact .bind (.of_inside (write_inside _)) fun _ => .pure _

theorem runAction_rests : Rests (runAction c object e a) := by
  refine .bind (.of_inside (rowsOf_readOnly _).inside) fun rows => ?_
  have hcomplete : Rests (updateActionCompleteEpoch e a.id) := .of_inside (write_inside _)
  have hdone : Rests (do let _ ← updateActionCompleteEpoch e a.id : Query Unit) :=
    .bind hcomplete fun _ => .pure _
  cases a.layout with
  | provision l =>
    refine .ite (.pure _) (.ite hdone ?_)
    exact editAndComplete_rests c e a _ l _ _
  | edit l state =>
    refine .ite (.pure _) (.bind (.onlyIf hdone) fun _ => ?_)
    exact editAndComplete_rests c e a _ l _ _
  | remove name =>
    refine .bind (.of_inside (userNameOf_readOnly _).inside) fun user => ?_
    refine .bind (.attempt (removeCircuit_rests c e _)) fun removed => ?_
    cases removed with
    | none => exact .bind .rollback fun _ => .die
    | some _ => exact .orElse hcomplete .rollback
  | changePath path reason =>
    refine .bind (.of_inside (object a.circuit).readOnly.inside) fun loaded => ?_
    refine .bind (.orElse (.pure _) .die) fun o => ?_
    refine .bind (.onlyIf ?_) fun _ => .orElse hcomplete .rollback
    exact .bind (.attempt (changePath_rests e _ o reason)) fun _ => .pure _

end Rests

/-- An action with the time at which the scheduler comes to it. -/
abbrev Due := Env×ScheduledAction

def runDue (t : Due) : Query Unit := runAction c object t.1 t.2

def Between (s : Session Tables) : Prop := Idle s∧(s.db.paths.map Path.id).Nodup

variable {s : Session Tables}

theorem Between.holds (h : Between s) (x : Nat) : Holds (Owned x (s.db.records x)) s := by
  refine ⟨owned_records h.2 x,fun d hd => ?_⟩
  rw [h.1.1] at hd
  cases hd

theorem runDue_step {t : Due} (hs : Between s) (ht : s.db.Harmless t.2) :
    Between (turn (runDue c object) s t)∧∀ x,s.db.circuitState x=some .decom →
      (turn (runDue c object) s t).db.records x=s.db.records x := by
  have hother (x : Nat) (hx : t.2.circuit≠x) :
      Owned x (s.db.records x) (turn (runDue c object) s t).db := by
    have hsafe : Safe (Owned x (s.db.records x)) (runDue c object t) fun _ => True :=
      runAction_safe c object t.1 hx
    exact (hsafe.turn (hs.holds x)).1
  refine ⟨⟨?_,?_⟩,fun x hx => ?_⟩
  · exact turn_rests (runAction_rests c object t.1 t.2) hs.1
  · exact (hother (t.2.circuit+1) (Nat.ne_of_lt (Nat.lt_succ_self _))).keys
  · by_cases hown : t.2.circuit=x
    · subst hown
      have hsafe : Safe (Owned t.2.circuit (s.db.records t.2.circuit)) (runDue c object t)
        fun _ => True := runAction_safe_own c object t.1 hs.2 hx ht
      exact (hsafe.turn (hs.holds _)).1.records_eq
    · exact (hother x hown).records_eq

theorem circuitState_records {d d' : Tables} (hd : (d.paths.map Path.id).Nodup)
    (hd' : (d'.paths.map Path.id).Nodup) (h : d'.records x=d.records x) :
    d'.circuitState x=d.circuitState x := by
  unfold Tables.circuitState
  rw [(owned_records hd' x).circuitRows,(owned_records hd x).circuitRows,h]

/-- If all actions are harmless, none changes a decommissioned circuit, in every order and whichever
statements fail. -/
theorem runDue_spares_decommissioned (d : Tables) (hkeys : (d.paths.map Path.id).Nodup)
    (faults : Nat → Bool) (ts : List Due)
    (h : Runs.StepsOk (turn (runDue c object)) (fun s t => s.db.Harmless t.2) (connect d faults)
      ts) :
    Runs.StepsOk (turn (runDue c object)) (fun s t => ∀ x,s.db.circuitState x=some .decom →
        (turn (runDue c object) s t).db.records x=s.db.records x) (connect d faults) ts∧
      ∀ x,d.circuitState x=some .decom → Runs.Always (turn (runDue c object))
        (·.db.circuitState x=some .decom) (connect d faults) ts := by
  have hstart : Between (connect d faults) := ⟨⟨rfl,rfl⟩,hkeys⟩
  refine ⟨?_,fun x hx => ?_⟩
  · exact Runs.stepsOk_of_step (fun s t hs ht => runDue_step c object hs ht) hstart h
  · have hkept : Runs.Always (turn (runDue c object))
        (fun s => Between s∧s.db.circuitState x=some .decom) (connect d faults) ts := by
      refine Runs.always_of_step (fun s t hs ht => ?_) ⟨hstart,hx⟩ h
      obtain ⟨hnext,hsame⟩ := runDue_step c object hs.1 ht
      exact ⟨hnext,(circuitState_records hs.1.2 hnext.2 (hsame x hs.2)).trans hs.2⟩
    exact hkept.mono fun s hs => hs.2

def twoPorts : CircuitLayout where
  name := some "circuit"
  staticMac := false
  endpointMacAddressNums := []
  macAddresses := []
  bandwidth := 0
  removeTime := -1
  restoreToPrimary := 0
  links := []
  backupLinks := []
  nodes := ["node-a","node-z"]
  interfaces := ["e1/1","e1/2"]
  tags := [100,100]

def editSeven : ScheduledAction := ⟨1,1,1,7,10,50,-1,.edit twoPorts (some .active)⟩

def retiredSeven : Tables := {emptyNetwork with
    nodes := [⟨1,"node-a","11",none,true,true⟩,⟨2,"node-z","12",none,true,true⟩]
    interfaces := [⟨1,"e1/1",1,.customer,none,none⟩,⟨2,"e1/2",2,.customer,none,none⟩]
    circuits := [⟨7,"admins-7","seven",1,none,0,false,.decom,none,none,some .openflow⟩,
        ⟨8,"admins-8","eight",1,none,0,false,.active,none,none,some .openflow⟩]
    circuitInstantiations := [⟨7,0,.active,1,40,10,none,"Circuit Creation"⟩,
        ⟨7,0,.decom,1,-1,40,none,"User requested remove of circuit"⟩,
        ⟨8,0,.active,1,-1,10,none,"Circuit Creation"⟩]
    scheduledActions := [editSeven]}

/-- Circuit 7 stays decommissioned after a provisioning of it and an edit of circuit 8. -/
theorem retiredSeven_spared : Runs.StepsOk (turn (runDue passingChecks fun _ => found none))
        (fun s t => ∀ x,s.db.circuitState x=some .decom →
          (turn (runDue passingChecks fun _ => found none) s t).db.records x=s.db.records x)
        (connect retiredSeven fun _ => false)
        [(⟨60,""⟩,⟨2,1,1,7,10,50,-1,.provision twoPorts⟩),
          (⟨61,""⟩,⟨3,1,1,8,10,50,-1,.edit twoPorts (some .active)⟩)]∧
      ∀ x,retiredSeven.circuitState x=some .decom →
        Runs.Always (turn (runDue passingChecks fun _ => found none))
          (·.db.circuitState x=some .decom) (connect retiredSeven fun _ => false)
          [(⟨60,""⟩,⟨2,1,1,7,10,50,-1,.provision twoPorts⟩),
            (⟨61,""⟩,⟨3,1,1,8,10,50,-1,.edit twoPorts (some .active)⟩)] := by
  refine runDue_spares_decommissioned passingChecks (fun _ => found none) retiredSeven (by decide)
    (fun _ => false) _ ⟨fun _ => trivial,fun h => ?_,trivial⟩
  exact absurd h (by decide +kernel)

/-- An edit of a decommissioned circuit is completed. -/
theorem editSeven_revives : (retiredSeven.currentActions 60).map ScheduledAction.id=[editSeven.id]∧
      retiredSeven.circuitState 7=some .decom∧
      (turn (runDue passingChecks fun _ => found none) (connect retiredSeven fun _ => false)
        (⟨60,""⟩,editSeven)).db.circuitState 7=some .active := by
  decide +kernel

end OESS.Database
