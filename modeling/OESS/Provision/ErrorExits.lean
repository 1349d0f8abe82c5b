import OESS.Provision.Scripts

namespace OESS.Provision.Exits

open Endpoint (Kind Fields)
open Scripts

theorem updateCloud_steady (w : CloudWrite) : Steady (updateCloud w).steps :=
  (statements_steady _).refusing _

/-- Only the write of a VRF endpoint rolls back and goes on. -/
theorem updateDb_steady (w : EndpointWrite) : Steady (updateDb .circuit w).steps := by
  apply Steady.refusing
  apply Steady.refusing
  exact (steady_write _ w.row).append (updateCloud_steady w.cloud)

theorem create_steady (kind : Kind) (w : NewEndpoint) : Steady (create kind w).steps := by
  have hrow (l : List (Table×Answer)) := (statements_steady l).andThen (updateCloud_steady w.cloud)
  exact ((hrow _).refusing (Endpoint.validate w.fields)).refusing _

theorem admission_steady (a : Adding) (x : Addition) : Steady (admission a x) := by
  apply Steady.append
  · cases x.interface with
    | refused reason | unknown => exact steady_check _ _
    | found i => exact steady_nil
  · exact (steady_check _ _).append (steady_check _ _)

theorem addEndpoint_steady (a : Adding) (x : Addition) : Steady (addEndpoint a x) := by
  apply (admission_steady a x).append
  split_ifs
  · exact (create_steady a.kind x.endpoint).required _ _
  · exact create_steady a.kind x.endpoint

theorem setupEndpoints_steady (lead : String) (r : CloudRound) :
    Steady (setupEndpoints .circuit lead r) := by
  unfold setupEndpoints
  split_ifs
  · exact steady_nil
  apply (steady_check _ _).append
  apply steady_flatMap
  intro w _
  exact (updateDb_steady w).required lead true

theorem staticPath_steady (n : Nat) (p : StaticPath) : Steady (staticPath n p) := by
  have hchecks := (steady_check (C := Table) (.must (2 ≤ n)) false).append (steady_check
    (.need p.connects "Couldn't create Circuit: Static Path doesn't connect selected Endpoints.")
      true)
  have hcreate : Steady (createPath p).steps := statements_steady _
  exact ((steady_check _ _).append ((steady_check _ _).append hchecks)).append
    (hcreate.required _ true)

theorem provision_steady (r : Creation) : Steady (provision r).body := by
  refine Steady.append (.append (.append ?_ ?_) ?_) (setupEndpoints_steady _ r.cloud)
  · exact (statements_steady _).required _ true
  · apply steady_flatMap
    intro e _
    exact (steady_check _ _).append (addEndpoint_steady _ e.content)
  · apply steady_flatMap
    intro p _
    exact staticPath_steady _ p

theorem editCircuitEndpoint_steady (e : CircuitEdit) : Steady (editCircuitEndpoint e) := by
  cases e with
  | add x => exact addEndpoint_steady updateAdding x
  | edit found w =>
    exact (steady_check _ _).append ((updateDb_steady w).required _ true)

theorem update_steady (r : Update) : Steady (update r).body := by
  refine Steady.append (.append (.append (.append (.append ?_ ?_) ?_) ?_) ?_) (steady_check _ _)
  · exact (steady_check _ _).append (steady_check _ _)
  · have hwrite : Steady (updateCircuit r).steps := (statements_steady _).refusing r.missing
    exact hwrite.required _ false
  · apply steady_flatMap
    intro e _
    exact (steady_check _ _).append (editCircuitEndpoint_steady e.content)
  · apply steady_flatMap
    intro x _
    exact (statements_steady _).required "" true
  · exact setupEndpoints_steady "" r.cloud

theorem not_failsLate {x : Script Table} (h : x.late=[]) : ¬x.FailsLate := by
  rintro ⟨-,-,hl⟩
  rw [h] at hl
  exact absurd hl (by decide)

/-- No change after a failed write of a VRF endpoint. -/
def Contained (x : Script Table) : Prop := x.FailsInside → strayed (reached x.body)=[]

def Unmoved (x : Script Table) : Prop := x.FailsLate → lasting x.commits x.body=[]

def Request.Safe : Request → Prop
  | .provision _ | .update _ => True
  | .provisionVrf r => Contained (Exits.provisionVrf r)
  | .reviewEndpoint r => Contained (Exits.reviewEndpoint r)
  | .migrateInterface r =>
    Contained (Exits.migrateInterface r)∧Unmoved (Exits.migrateInterface r)
  | .moveInterfaceConfiguration r =>
    Contained (Exits.moveInterfaceConfiguration r)∧Unmoved (Exits.moveInterfaceConfiguration r)

/-- A request that ends in an error leaves the database as it was exactly when it is safe. -/
theorem Request.error_leaves_database_iff (r : Request) (db : List Table) :
    r.script.Harmless db ↔ r.Safe := by
  rw [Script.harmless_iff]
  cases r with
  | provision r =>
    have hinside : Contained (Exits.provision r) := fun _ => (provision_steady r).strayed
    have hlate := not_failsLate (x := Exits.provision r) rfl
    exact iff_of_true ⟨hinside,fun h => absurd h hlate⟩ trivial
  | update r =>
    have hinside : Contained (Exits.update r) := fun _ => (update_steady r).strayed
    have hlate := not_failsLate (x := Exits.update r) rfl
    exact iff_of_true ⟨hinside,fun h => absurd h hlate⟩ trivial
  | provisionVrf r =>
    have hlate := not_failsLate (x := Exits.provisionVrf r) rfl
    exact and_iff_left fun h => absurd h hlate
  | reviewEndpoint r =>
    have hlate := not_failsLate (x := Exits.reviewEndpoint r) rfl
    exact and_iff_left fun h => absurd h hlate
  | migrateInterface r | moveInterfaceConfiguration r => exact .rfl

def betweenControllers : Migration where
  user := none
  denied := none
  sourceId := "1"
  destinationId := "2"
  source := true
  destination := true
  destinationWrite := ⟨.changed,[.unchanged]⟩
  sourceWrite := ⟨.changed,[.unchanged]⟩
  collected := true
  endpoints := [⟨.circuit,true,⟨⟨2,100,none,.active⟩,true,.changed,⟨true,.unchanged,none⟩⟩⟩]
  acls := [.changed]
  commits := true
  notification := ⟨true,false,none,true,true,none⟩

theorem betweenControllers_moved :
    ended ((Exits.migrateInterface betweenControllers).outcome []).1=.reports∧
      kept ((Exits.migrateInterface betweenControllers).outcome []).2=
        [.interface,.interface,.circuitEdgeInterfaceMembership,.interfaceAcl]∧
      ¬(Request.migrateInterface betweenControllers).script.Harmless [] := by
  have hkept : kept ((Exits.migrateInterface betweenControllers).outcome []).2=
      [.interface,.interface,.circuitEdgeInterfaceMembership,.interfaceAcl] := by decide
  refine ⟨rfl,hkept,fun h => ?_⟩
  have hnone : kept ((Exits.migrateInterface betweenControllers).outcome []).2=[] := h rfl
  cases hnone

end OESS.Provision.Exits
