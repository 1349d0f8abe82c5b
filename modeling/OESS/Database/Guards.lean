import OESS.Database.Moves

namespace OESS.Database

open Transactions Transactions.Routine

variable {α : Type}

theorem rowsOf_readOnly (f : Tables → α) : ReadOnly (rowsOf f) := .orElse (.select f) .die

theorem getUserIdByAuthName_readOnly (name : String) : ReadOnly (getUserIdByAuthName name) :=
  rowsOf_readOnly _

theorem getLinkByName_readOnly (name : String) : ReadOnly (getLinkByName name) := rowsOf_readOnly _

theorem getLinkEndpoints_readOnly (link : Option Nat) : ReadOnly (getLinkEndpoints link) :=
  .bind (.select _) fun _ => .pure _

theorem getPathId_readOnly (circuit : Nat) (type : PathType) : ReadOnly (getPathId circuit type) :=
  .bind (.select _) fun _ => .pure _

theorem getNodeByInterfaceId_readOnly (interface : Nat) :
    ReadOnly (getNodeByInterfaceId interface) := by
  refine .bind (.select _) fun row => ?_
  cases row.join with
  | none => exact .pure _
  | some i => exact .bind (.select _) fun _ => .pure _

theorem getCircuitEdgeInterfaceMemberships_readOnly (interface : Nat)
    (circuits : Option (List Nat)) :
    ReadOnly (getCircuitEdgeInterfaceMemberships interface circuits) := by
  apply ReadOnly.statement
  intro d r h
  split_ifs at h
  cases h
  rfl

theorem getMove_readOnly (move : Nat) : ReadOnly (getMove move) := by
  refine .bind (.select _) fun row => ?_
  cases row.join with
  | none => exact .pure _
  | some m => exact .bind (.select _) fun _ => .pure _

variable {own : Bool}

theorem withdraw_guarded (h : own=true) (error : String) :
    Guarded (withdraw own error : Query α) := by
  subst h
  exact .abort error

theorem undoingIf_guarded {x : Query α} (h : own=true) (hx : Keeps SameTransaction x) :
    Guarded (undoingIf own x) := by
  subst h
  exact .undoing hx

section Paths

variable (c : Checks) (e : Env) (h : own=true)
include h

theorem linkVlans_guarded (error : LinkEnd → String) (seen : List Nat) (a z : Option Nat)
    (ends : List LinkEnd) : Guarded (linkVlans c own error seen a z ends) := by
  induction ends generalizing seen a z with
  | nil => exact .pure _
  | cons p ps ih =>
    refine .ite (ih _ _ _) ?_
    have hvlan := (c.getAvailableInternalVlanId p.node p.interface).readOnly.guarded
    refine .bind (.orElse hvlan (withdraw_guarded h _)) fun vlan => ?_
    exact .ite (ih _ _ _) (.ite (ih _ _ _) (ih _ _ _))

theorem addLinks_guarded (required : Bool) (error : LinkEnd → String) (path : Nat)
    (seen : List Nat) (links : List String) :
    Guarded (addLinks c e own required error path seen links) := by
  induction links generalizing seen with
  | nil => exact .pure _
  | cons link links ih =>
    refine .bind (getLinkByName_readOnly link).guarded fun id => ?_
    refine .bind (.onlyIf (withdraw_guarded h _)) fun _ => ?_
    refine .bind (getLinkEndpoints_readOnly id).guarded fun ends => ?_
    refine .bind (linkVlans_guarded c h error seen none none ends) fun r => ?_
    refine .bind (.orElse (.statement _) (withdraw_guarded h _)) fun _ => ?_
    exact ih r.1

theorem instantiatePath_guarded (path : Nat) (type : PathType) :
    Guarded (instantiatePath e own path type) :=
  .orElse (.write _) (withdraw_guarded h _)

end Paths

section Events

variable (e : Env)

theorem addRemoveEvent_inside (name : Option String) (workgroup : Nat) (removeTime : Int)
    (user : Option Nat) (circuit : Nat) :
    Keeps SameTransaction (addRemoveEvent e name workgroup removeTime user circuit) :=
  .orElse (statement_inside _) (.fail _)

theorem addEvent_inside (a : CircuitArgs) (user : Option Nat) (circuit : Nat) :
    Keeps SameTransaction (addEvent e a user circuit) := by
  refine .bind (.orElse (statement_inside _) (.fail _)) fun _ => ?_
  exact .onlyIf (addRemoveEvent_inside e _ _ _ user circuit)

end Events

variable (c : Checks) (e : Env) (a : CircuitArgs)

theorem addMacs_guarded (p : Endpoint) (edge : Nat) (macs : List (Option String)) :
    Guarded (addMacs c a p edge macs) := by
  refine .bind (c.isWithinMacLimit macs p.interface p.node a.workgroupId).readOnly.guarded
    fun limit => ?_
  cases limit with
  | some explanation => exact .abort _
  | none =>
    apply Guarded.each
    intro mac
    refine .bind (.onlyIf (.abort _)) fun _ => ?_
    exact .orElse (.write _) (.abort _)

variable (circuit : Nat) (type : Option CircuitType)

theorem checkEndpoint_guarded (p : Endpoint) : Guarded (checkEndpoint c a type p) := by
  refine .bind (rowsOf_readOnly _).guarded fun row => ?_
  refine .bind (.orElse (.pure row) (.abort _)) fun r => ?_
  refine .bind (.onlyIf (.abort _)) fun _ => ?_
  refine .bind (c.validateEndpoint r.1.id a.workgroupId p.vlan).readOnly.guarded fun allowed => ?_
  refine .bind (.onlyIf (.abort _)) fun _ => ?_
  have hunit := (c.findAvailableUnit (some r.1.id) p.vlan p.innerVlan).readOnly.guarded
  refine .bind (.orElse hunit (.abort _)) fun unit => ?_
  refine .bind (c.isExternalVlanAvailableOnInterface p.vlan r.1.id).readOnly.guarded fun avail => ?_
  refine .bind (.onlyIf (.abort _)) fun _ => ?_
  refine .bind (.onlyIf (.abort _)) fun _ => ?_
  exact .pure _

theorem provisionEndpoints_guarded (seen macs : List String) (ps : List Endpoint) :
    Guarded (provisionEndpoints c e a circuit type seen macs ps) := by
  induction ps generalizing seen macs with
  | nil => exact .pure _
  | cons p ps ih =>
    refine .bind (.onlyIf (.abort _)) fun _ => ?_
    refine .bind (checkEndpoint_guarded c a type p) fun r => ?_
    refine .bind (.orElse (.statement _) (.abort _)) fun edge => ?_
    refine .bind (.onlyIf (addMacs_guarded c a p edge _)) fun _ => ?_
    exact ih _ _

theorem provisionRemote_guarded (r : String×Option Int) :
    Guarded (provisionRemote c e circuit r) := by
  have hinterface : Guarded (remoteInterface r.1) :=
    .bind (rowsOf_readOnly _).guarded fun i => .orElse (.pure _) (.abort _)
  refine .bind hinterface fun interface => ?_
  refine .bind (c.findAvailableUnit (some interface) r.2 none).readOnly.guarded fun unit => ?_
  exact .bind (.orElse (.statement _) (.abort _)) fun _ => .pure _

theorem provisionPath_guarded (pathType : PathType) (links : List String) :
    Guarded (provisionPath c e circuit type pathType links) := by
  refine .ite (.pure _) ?_
  refine .bind (.orElse (.statement _) (.abort _)) fun path => ?_
  refine .bind (instantiatePath_guarded e rfl path pathType) fun _ => ?_
  exact addLinks_guarded c e rfl true _ path [] links

theorem createCircuit_guarded (user : Nat) (name : String) (interface : Nat) :
    Guarded (createCircuit c e a user name interface) := by
  refine .bind (c.isExternalVlanAvailableOnInterface a.tags.head? interface).readOnly.guarded
    fun avail => ?_
  refine .bind (.orElse (.statement _) (.abort _)) fun circuit => ?_
  refine .bind (.statement _) fun _ => ?_
  refine .bind (.onlyIf (.undoing (addEvent_inside e a _ circuit))) fun _ => ?_
  have hremove := Guarded.undoing
    (addRemoveEvent_inside e a.name a.workgroupId a.removeTime (some user) circuit)
  refine .bind (.onlyIf hremove) fun _ => ?_
  refine .bind (provisionEndpoints_guarded c e a circuit _ [] _ _) fun _ => ?_
  refine .bind (.each (provisionRemote_guarded c e circuit) _) fun _ => ?_
  refine .bind (provisionPath_guarded c e circuit _ .primary _) fun _ => ?_
  refine .bind (provisionPath_guarded c e circuit _ .backup _) fun _ => ?_
  refine .bind (c.validatePaths circuit).readOnly.guarded fun invalid => ?_
  cases invalid with
  | some error => exact .abort _
  | none => exact .pure _

theorem updateCircuitState_inside (circuit : Nat) (state : CircuitState) (user : Nat)
    (reason : String) : Keeps SameTransaction (updateCircuitState c e circuit state user reason) := by
  have hdetails := (c.getCircuitDetails circuit).readOnly.inside
  refine .bind (.orElse hdetails (.fail _)) fun bandwidth => ?_
  refine .bind (.orElse (write_inside _) (.fail _)) fun _ => ?_
  refine .bind (.orElse (statement_inside _) (.fail _)) fun _ => ?_
  exact .orElse (write_inside _) (.fail _)

theorem endCircuit_guarded (circuit user : Nat) : Guarded (endCircuit c e circuit user) := by
  have hstate := updateCircuitState_inside c e circuit .decom user "User requested remove of circuit"
  refine .bind (.undoing hstate) fun _ => ?_
  refine .bind (.orElse (.write _) (.abort _)) fun _ => ?_
  refine .bind (.orElse (.write _) (.abort _)) fun _ => ?_
  exact .orElse (.write _) (.abort _)

section Edit

variable {a : EditArgs} (h : a.doCommit=true)
include h

variable (user : Option Nat)

theorem endRecords_guarded : Guarded (endRecords e a user) := by
  refine .bind (.orElse (.write _) (withdraw_guarded h _)) fun _ => ?_
  refine .bind (.orElse (.write _) (withdraw_guarded h _)) fun _ => ?_
  refine .bind (.orElse (.statement _) (withdraw_guarded h _)) fun _ => ?_
  refine .bind (.orElse (.write _) (withdraw_guarded h _)) fun _ => ?_
  refine .bind (.select _) fun paths => ?_
  apply Guarded.each
  intro p
  refine .ite (.pure _) ?_
  refine .bind (.orElse (.write _) (withdraw_guarded h _)) fun _ => ?_
  exact .orElse (.write _) (withdraw_guarded h _)

theorem editEndpoints_guarded (macs : List String) (ps : List Endpoint) :
    Guarded (editEndpoints c e a macs ps) := by
  induction ps generalizing macs with
  | nil => exact .pure _
  | cons p ps ih =>
    refine .bind (rowsOf_readOnly _).guarded fun interface => ?_
    have hunit := (c.findAvailableUnit interface p.vlan p.innerVlan).readOnly.guarded
    refine .bind (.orElse hunit (.abort _)) fun unit => ?_
    refine .bind (.orElse (.statement _) (withdraw_guarded h _)) fun edge => ?_
    have hmacs : Guarded (editMacs c a p edge (shiftMacs p.macNum macs)) :=
      .each (fun mac => .orElse (.write _) (withdraw_guarded h _)) _
    exact .bind (.onlyIf hmacs) fun _ => ih _

theorem editRemote_guarded (r : String×Option Int) : Guarded (editRemote e a r) := by
  refine .bind (rowsOf_readOnly _).guarded fun i => ?_
  refine .bind (.orElse (.pure _) (withdraw_guarded h _)) fun interface => ?_
  exact .bind (.orElse (.statement _) (withdraw_guarded h _)) fun _ =>
    .pure _

omit h in
theorem setPathState_inside (path : Nat) (state : PathState) :
    Keeps SameTransaction (setPathState e path state) := by
  refine .bind (.orElse (write_inside _) (.fail _)) fun _ => ?_
  refine .bind (.orElse (write_inside _) (.fail _)) fun _ => ?_
  exact .orElse (write_inside _) (.fail _)

theorem editPath_guarded (pathType : PathType) (links : List String) :
    Guarded (editPath c e a pathType links) := by
  refine .ite ?_ (.ite (.pure _) ?_)
  · refine .bind (getPathId_readOnly _ _).guarded fun found => ?_
    cases found with
    | none => exact .pure _
    | some path =>
      exact undoingIf_guarded h (setPathState_inside e path .decom)
  · refine .bind (getPathId_readOnly _ _).guarded fun found => ?_
    refine .bind (.orElse (.pure found)
      (.orElse (.statement _) (withdraw_guarded h _))) fun path => ?_
    refine .bind (instantiatePath_guarded e h path pathType) fun _ => ?_
    exact addLinks_guarded c e h false _ path [] links

theorem editRecords_guarded : Guarded (editRecords c e a user) := by
  refine .bind (endRecords_guarded e h user) fun _ => ?_
  refine .bind (editEndpoints_guarded c e h _ _) fun _ => ?_
  refine .bind (.each (editRemote_guarded e h) _) fun _ => ?_
  refine .bind (editPath_guarded c e h .primary _) fun _ => ?_
  exact editPath_guarded c e h .backup _

end Edit

theorem moveEdges_inside (new : Nat) (used : List Int) (rs : List Edge) :
    Keeps SameTransaction (moveEdges e new used rs) := by
  induction rs with
  | nil => exact .pure _
  | cons r rs ih =>
    refine .ite (.bind ih fun _ => .pure _) ?_
    refine .bind (statement_inside _) fun count => ?_
    refine .bind (.onlyIf (.fail _)) fun _ => ?_
    refine .bind (.orElse (statement_inside _) (.fail _)) fun _ => ?_
    exact .bind ih fun _ => .pure _

theorem moveEdgeInterfaceCircuits_inside (orig new : Option Nat) (circuits : Option (List Nat)) :
    Keeps SameTransaction (moveEdgeInterfaceCircuits e orig new circuits) := by
  refine .bind (.orElse (.pure _) (.fail _)) fun orig => ?_
  refine .bind (.orElse (.pure _) (.fail _)) fun new => ?_
  refine .bind (.onlyIf (.fail _)) fun _ => ?_
  have hnode := fun i => (getNodeByInterfaceId_readOnly i).inside
  refine .bind (.orElse (hnode orig) (.fail _)) fun origNode => ?_
  refine .bind (.orElse (hnode new) (.fail _)) fun newNode => ?_
  refine .bind (.onlyIf (.fail _)) fun _ => ?_
  have hedges := fun i cs => (getCircuitEdgeInterfaceMemberships_readOnly i cs).inside
  refine .bind (.orElse (hedges orig circuits) (.fail _)) fun src => ?_
  refine .bind (.onlyIf (.fail _)) fun _ => ?_
  refine .bind (.orElse (hedges new none) (.fail _)) fun dst => ?_
  exact .bind (moveEdges_inside e new _ src) fun _ => .pure _

theorem recordMove_guarded {a : MoveArgs} (h : a.doCommit=true) (name : String) :
    Guarded (recordMove e a name) := by
  refine .bind (.orElse (.statement _) (withdraw_guarded h _)) fun id => ?_
  refine .bind (undoingIf_guarded h (moveEdgeInterfaceCircuits_inside e _ _ _)) fun r => ?_
  have hcircuit := fun circuit =>
    Guarded.orElse (.write fun d : Tables => d.insertMovedCircuit id circuit)
      (withdraw_guarded h "Unable to add edge_interface_move_maintenance_circuit_membership.")
  exact .bind (.each hcircuit _) fun _ => .pure _

end OESS.Database
