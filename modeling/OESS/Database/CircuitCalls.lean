import OESS.Database.Guards

namespace OESS.Database

open Transactions Transactions.Routine Session List

/-- The calls with a transaction of their own, which is the default. -/
inductive CircuitCall where
  | provision (a : CircuitArgs)
  | edit (a : EditArgs)
  | remove (a : RemoveArgs)
  | addMove (a : MoveArgs)
  | revertMove (move : Option Nat)

def CircuitCall.serve (c : Checks) (e : Env) : CircuitCall → Query Reply
  | provision a => provisionCircuit c e a
  | edit a => editCircuit c e {a with doCommit := true}
  | remove a => removeCircuit c e a
  | addMove a => addEdgeInterfaceMoveMaintenance e {a with doCommit := true}
  | revertMove move => revertEdgeInterfaceMoveMaintenance e true move

variable (c : Checks) (e : Env)

theorem commit_quiet {α : Type} {own : Bool} (r : α) : Quiet (do
      onlyIf own (do let _ ← commit)
      pure r : Query α) := by
  have hcommit : Quiet (do let _ ← commit : Query Unit) := .bind .commit fun _ => .pure _
  exact .bind (.onlyIf hcommit) fun _ => .pure _

theorem editSteps_guarded {a : EditArgs} (h : a.doCommit=true) : Guarded (editSteps c e a) := by
  refine .bind (.orElse (.select _) (withdraw_guarded h _)) fun _ => ?_
  refine .bind (getUserIdByAuthName_readOnly _).guarded fun user => ?_
  refine .ite ?_ ?_
  · refine .bind (undoingIf_guarded h (addEvent_inside e _ user _)) fun _ => .pure _
  · exact .bind (editRecords_guarded c e h user) fun _ => .pure _

theorem editCircuit_clean (a : EditArgs) : Clean (editCircuit c e {a with doCommit := true}) := by
  have hsane : Reads (if a.doSanityCheck then
      (c.circuitSanityCheck a.circuitId a.toCircuitArgs a.type).run else pure true) :=
    .ite (Lookup.readOnly _).reads (.pure true)
  refine clean_reads hsane fun sane => ?_
  refine clean_reads (.onlyIf (.fail _)) fun _ => ?_
  have hsteps := (editSteps_guarded c e (a := {a with doCommit := true}) rfl).recovers
  exact clean_transaction (recovers_quiet hsteps fun loopNode => commit_quiet _)

theorem removeCircuit_clean (a : RemoveArgs) : Clean (removeCircuit c e a) := by
  refine clean_reads (getUserIdByAuthName_readOnly _).reads fun user => ?_
  refine clean_reads (.orElse (.pure _) (.fail _)) fun user => ?_
  refine clean_ite ?_ ?_
  · exact clean_quiet (clean_required _ _) fun _ => .pure _
  · have hend := (endCircuit_guarded c e a.circuitId user).recovers
    refine clean_transaction (recovers_quiet hend fun _ => ?_)
    exact .bind .commit fun _ => .pure _

theorem migrateCloudSettings_inside (orig new : Nat) :
    Keeps SameTransaction (migrateCloudSettings orig new) := by
  refine .bind (select_inside _) fun settings => ?_
  cases settings with
  | none => exact .pure _
  | some settings =>
    refine .bind (write_inside _) fun ok => ?_
    cases ok with
    | none => exact .pure _
    | some _ => exact write_inside _

theorem migrateCloudSettings_quiet (orig new : Nat) : Quiet (migrateCloudSettings orig new) := by
  refine .bind (.statement _) fun settings => ?_
  cases settings with
  | none => exact .pure _
  | some settings =>
    refine .bind (.statement _) fun ok => ?_
    cases ok with
    | none => exact .pure _
    | some _ => exact .statement _

theorem settle_quiet (own : Bool) (orig new : Nat) : Quiet (settle own orig new) := by
  refine .bind (migrateCloudSettings_quiet orig new) fun rec => ?_
  cases rec with
  | none => exact .onlyIf .rollback
  | some _ => exact .pure _

theorem addMove_clean (a : MoveArgs) :
    Clean (addEdgeInterfaceMoveMaintenance e {a with doCommit := true}) := by
  refine clean_reads (.orElse (.pure _) (.fail _)) fun name => ?_
  have hrecord := (recordMove_guarded e (a := {a with doCommit := true}) rfl name).recovers
  refine clean_transaction (recovers_quiet hrecord fun r => ?_)
  exact .bind (settle_quiet _ _ _) fun _ => commit_quiet _

theorem endMove_guarded (id : Nat) : Guarded (endMove e true id) :=
  .bind (.statement _) fun _ => .onlyIf (withdraw_guarded rfl _)

theorem Tables.endMove_none {d : Tables} {id : Nat} {now : Int} (h : (d.endMove id now).1=0) :
    (d.endMove id now).2=d := by
  have hrows : ∀ m∈d.moves,¬m.id=id := by
    have hnil := length_eq_zero_iff.mp h
    simpa using hnil
  have hmap : d.moves.map (fun m => if m.id=id then {m with endEpoch := now} else m)=d.moves := by
    conv_rhs => rw [← map_id d.moves]
    apply map_congr_left
    intro m hm
    exact if_neg (hrows m hm)
  simp only [Tables.endMove,hmap]

theorem endMove_ends (d : Tables) (id : Nat) :
    Ends (fun s => Within d s∨Intact d s) (endMove e true id) (fun _ => True) (Intact d)
      (fun _ => True) := by
  rintro s (hs | hs)
  · exact (endMove_guarded e id).recovers d s hs
  -- no transaction is open: the failing update has changed nothing
  have hfailed : ∀ {t : Session Tables},Intact d t → Intact d
      (withdraw true queryError t : Outcome String Unit×Session Tables).2 := fun ht => ht.rollback
  by_cases h : s.works 0
  · let r := s.db.endMove id e.now
    have hcount := statement_apply (E := String) (a := r.1) (d := r.2)
      (fun d : Tables => some (d.endMove id e.now)) h rfl
    by_cases hzero : r.1=0
    · have hsame : r.2=s.db := Tables.endMove_none hzero
      rw [hsame] at hcount
      simp only [endMove,bind_apply,hcount,hzero]
      exact hfailed hs
    · simp only [endMove,bind_apply,hcount,hzero,Option.getD_some]
      trivial
  · have hcount := statement_fails (E := String) (fun d : Tables => some (d.endMove id e.now)) h
    simp only [endMove,bind_apply,hcount]
    exact hfailed hs

theorem settle_ends (d : Tables) (orig new : Nat) :
    Ends (Within d) (settle true orig new) (fun s => Within d s∨Intact d s) (Intact d)
      (fun _ => True) := by
  intro s hs
  have ht := hs.inside (migrateCloudSettings_inside orig new s)
  have hno := migrateCloudSettings_quiet orig new s
  rw [settle,bind_apply]
  match migrateCloudSettings orig new s,ht,hno with
  | (.done r,t),ht,hno =>
    cases r with
    | none => exact .inr ht.rollback
    | some _ => exact .inl ht
  | (.failed error,t),ht,hno => exact absurd rfl (hno error)
  | (.died,t),ht,hno => trivial

theorem revertMoved_recovers (id : Nat) (m : Move) (circuits : List Nat) :
    Recovers (revertMoved e true id m circuits) := by
  intro d
  have hinside := moveEdgeInterfaceCircuits_inside e (some m.tempInterface) (some m.origInterface)
    (some circuits)
  have hmoved : Guarded (undoingIf true _) := undoingIf_guarded rfl hinside
  have hends := (hmoved d).mono (fun _ h => h) fun _ _ => trivial
  refine hends.bind fun r => ?_
  refine (settle_ends d m.tempInterface m.origInterface).bind fun _ => ?_
  exact (endMove_ends e d id).bind fun _ => (Quiet.pure _).ends

theorem revertMove_clean (move : Option Nat) :
    Clean (revertEdgeInterfaceMoveMaintenance e true move) := by
  refine clean_reads (.orElse (.pure _) (.fail _)) fun id => ?_
  refine clean_reads (.orElse (getMove_readOnly id).reads (.fail _)) fun found => ?_
  have hempty : Guarded (revertEmpty e true id found.1) := by
    refine .bind (endMove_guarded e id) fun _ => ?_
    have hnode := (getNodeByInterfaceId_readOnly found.1.origInterface).guarded
    exact .bind (.orElse hnode (withdraw_guarded rfl _)) fun _ => .pure _
  have hmoved := revertMoved_recovers e id found.1 found.2
  exact clean_transaction (recovers_quiet (recovers_ite hempty.recovers hmoved) fun reply =>
    commit_quiet reply)

variable (s : Session Tables) (a : CircuitArgs)

def WithinLimits : Prop := (if s.works 0 then s.db.circuitNum a.workgroupId else 0) <
    (if s.works 1 then ((s.db.workgroup a.workgroupId).bind Workgroup.maxCircuits).getD 0 else 0)∧
  a.nodes.length ≤ if s.works 2 then
    ((s.db.workgroup a.workgroupId).bind Workgroup.maxCircuitEndpoints).getD 0 else 0

variable (user : Nat)

def limitsAt : Nat := if s.db.isAdmin user then 3 else 4

/-- The user is known, an administrator or in the workgroup. -/
def Permitted : Prop := s.works 0∧truthy (s.db.userId a.userName)=some user∧
  s.works 1∧s.db.workgroup a.workgroupId≠none∧
  s.works 2∧(s.db.isAdmin user∨s.works 3∧s.db.isMember user a.workgroupId)

def Admitted : Prop :=
  2 ≤ a.interfaces.length∧Permitted s a user∧WithinLimits (s.advance (limitsAt s user)) a

def firstInterface : Option Nat := do
  let (i,_) ← s.db.interfaceRow (← a.nodes.head?) (← a.interfaces.head?)
  pure i.id

/-- One of two queries fails, or there is no interface. -/
def Stranded : Prop :=
  ¬s.works (limitsAt s user+3)∨¬s.works (limitsAt s user+4)∨firstInterface s a=none

section Admission

variable {s t : Session Tables} {a : CircuitArgs}

theorem rowsOf_done_iff {α : Type} {f : Tables → α} {r : α} :
    rowsOf f s=(.done r,t) ↔ s.works 0∧r=f s.db∧t=s.advance 1 := by
  rw [rowsOf,orElse_done_iff (fun s r h => by cases h),select_done_iff]
  by_cases h : s.works 0 <;> simp [h]

theorem getWorkgroupDetails_done_iff {id : Nat} {r : Option Workgroup} :
    getWorkgroupDetails id s=(.done r,t) ↔
      r=(if s.works 0 then s.db.workgroup id else none)∧t=s.advance 1 := by
  simp only [getWorkgroupDetails,bind_done_iff,select_done_iff,pure_done_iff]
  by_cases h : s.works 0 <;> simp [h]

theorem isWithinCircuitLimit_done_iff {id : Nat} {r : Bool} :
    isWithinCircuitLimit id s=(.done r,t) ↔
      r=decide ((if s.works 0 then s.db.circuitNum id else 0) <
        (if s.works 1 then ((s.db.workgroup id).bind Workgroup.maxCircuits).getD 0 else 0))∧
      t=s.advance 2 := by
  simp only [isWithinCircuitLimit,bind_done_iff,select_done_iff,pure_done_iff]
  by_cases h0 : s.works 0 <;> by_cases h1 : s.works 1 <;> simp [h0,h1]

theorem isWithinCircuitEndpointLimit_done_iff {id n : Nat} {r : Bool} :
    isWithinCircuitEndpointLimit id n s=(.done r,t) ↔ r=decide (n ≤ if s.works 0 then
        ((s.db.workgroup id).bind Workgroup.maxCircuitEndpoints).getD 0 else 0)∧
      t=s.advance 1 := by
  simp only [isWithinCircuitEndpointLimit,bind_done_iff,select_done_iff,pure_done_iff]
  by_cases h0 : s.works 0 <;> simp [h0]

theorem allowed_done_iff {user workgroup : Nat} {admin r : Bool} :
    (if admin then pure true else isUserInWorkgroup user workgroup : Query Bool) s=(.done r,t) ↔
      if admin then r=true∧t=s
      else s.works 0∧r=s.db.isMember user workgroup∧t=s.advance 1 := by
  cases admin with
  | true => exact pure_done_iff
  | false => exact rowsOf_done_iff

theorem allowed_iff {user workgroup : Nat} : (if s.db.isAdmin user then true=true∧t=s.advance 3
      else s.works 3∧true=s.db.isMember user workgroup∧t=s.advance 4) ↔
    (s.db.isAdmin user∨s.works 3∧s.db.isMember user workgroup)∧t=s.advance (limitsAt s user) := by
  unfold limitsAt
  cases s.db.isAdmin user with
  | true => simp
  | false =>
    simp only [Bool.false_eq_true,if_false,false_or,eq_comm,and_assoc]

theorem permission_done_iff {r : Nat×Workgroup} : permission a s=(.done r,t) ↔
    Permitted s a r.1∧s.db.workgroup a.workgroupId=some r.2∧t=s.advance (limitsAt s r.1) := by
  simp only [permission,bind_done_iff,onlyIf_fail_done_iff,orElse_fail_done_iff,pure_done_iff,
    getUserIdByAuthName,getUserAdminStatus,rowsOf_done_iff,getWorkgroupDetails_done_iff,
    allowed_done_iff]
  constructor
  · rintro ⟨_,_,⟨h0,rfl,rfl⟩,user,_,⟨hu,rfl⟩,w,_,⟨hw,rfl⟩,_,_,⟨h2,rfl,rfl⟩,allowed,u,hallowed,
      _,_,⟨hok,rfl⟩,rfl,rfl⟩
    simp only [advance_works,advance_db,not_not] at hw h2 hallowed hok
    obtain ⟨h1,hw⟩ : s.works 1∧s.db.workgroup a.workgroupId=some w := by
      by_cases h1 : s.works 1
      · rw [if_pos h1] at hw
        exact ⟨h1,hw.symm⟩
      · rw [if_neg h1] at hw
        cases hw
    subst hok
    obtain ⟨hm,ht⟩ := allowed_iff.mp hallowed
    refine ⟨⟨h0,hu.symm,h1,?_,h2,hm⟩,hw,ht⟩
    rw [hw]
    exact Option.some_ne_none w
  · rintro ⟨⟨h0,hu,h1,-,h2,hm⟩,hr,rfl⟩
    refine ⟨_,_,⟨h0,rfl,rfl⟩,r.1,_,⟨hu.symm,rfl⟩,r.2,_,⟨?_,rfl⟩,_,_,⟨?_,rfl,rfl⟩,true,
      s.advance (limitsAt s r.1),?_,(),_,⟨by simp,rfl⟩,rfl,rfl⟩
    · rw [if_pos ((s.advance_works 1 0).mpr h1)]
      exact hr.symm
    · exact ((s.advance 1).advance_works 1 0).mpr ((s.advance_works 1 1).mpr h2)
    · exact allowed_iff.mpr ⟨hm,rfl⟩

theorem checkLimits_done_iff {u : Unit} :
    checkLimits a s=(.done u,t) ↔ WithinLimits s a∧t=s.advance 3 := by
  simp only [checkLimits,bind_done_iff,onlyIf_fail_done_iff,isWithinCircuitLimit_done_iff,
    isWithinCircuitEndpointLimit_done_iff,not_not]
  constructor
  · rintro ⟨_,_,⟨rfl,rfl⟩,_,_,⟨hl,rfl⟩,_,_,⟨rfl,rfl⟩,hn,rfl⟩
    simp only [decide_eq_true_eq] at hl hn
    exact ⟨⟨hl,hn⟩,advance_advance _ _ _⟩
  · rintro ⟨⟨hl,hn⟩,rfl⟩
    refine ⟨_,_,⟨rfl,rfl⟩,(),_,⟨decide_eq_true hl,rfl⟩,_,_,⟨rfl,rfl⟩,?_,?_⟩
    · simpa only [decide_eq_true_eq]
    · exact (advance_advance s 2 1).symm

theorem admission_done_iff {r : Nat×Workgroup} : admission a s=(.done r,t) ↔
    Admitted s a r.1∧s.db.workgroup a.workgroupId=some r.2∧t=s.advance (limitsAt s r.1+3) := by
  simp only [admission,bind_done_iff,onlyIf_fail_done_iff,pure_done_iff,permission_done_iff,
    checkLimits_done_iff]
  constructor
  · rintro ⟨_,_,⟨hlen,rfl⟩,_,_,⟨hp,hw,rfl⟩,_,_,⟨hl,rfl⟩,rfl,rfl⟩
    exact ⟨⟨Nat.not_lt.mp hlen,hp,hl⟩,hw,advance_advance _ _ _⟩
  · rintro ⟨⟨hlen,hp,hl⟩,hw,rfl⟩
    refine ⟨(),s,⟨Nat.not_lt.mpr hlen,rfl⟩,r,_,⟨hp,hw,rfl⟩,(),_,⟨hl,rfl⟩,rfl,?_⟩
    exact (advance_advance _ _ _).symm

end Admission

section Provision

theorem permission_reads : Reads (permission a) := by
  refine .bind (getUserIdByAuthName_readOnly _).reads fun user => ?_
  refine .bind (.orElse (.pure _) (.fail _)) fun user => ?_
  have hworkgroup : ReadOnly (getWorkgroupDetails a.workgroupId) :=
    .bind (.select _) fun _ => .pure _
  refine .bind (.orElse hworkgroup.reads (.fail _)) fun workgroup => ?_
  refine .bind (rowsOf_readOnly _).reads fun admin => ?_
  refine .bind (.ite (.pure _) (rowsOf_readOnly _).reads) fun allowed => ?_
  exact .bind (.onlyIf (.fail _)) fun _ => .pure _

theorem checkLimits_reads : Reads (checkLimits a) := by
  have hlimit : ReadOnly (isWithinCircuitLimit a.workgroupId) := .bind (.select _) fun _ =>
      .bind (.select _) fun _ => .pure _
  refine .bind hlimit.reads fun within => ?_
  refine .bind (.onlyIf (.fail _)) fun _ => ?_
  have hendpoints : ReadOnly (isWithinCircuitEndpointLimit a.workgroupId a.nodes.length) :=
    .bind (.select _) fun _ => .pure _
  exact .bind hendpoints.reads fun within => .onlyIf (.fail _)

theorem admission_reads : Reads (admission a) := by
  refine .bind (.onlyIf (.fail _)) fun _ => ?_
  refine .bind (permission_reads a) fun r => ?_
  exact .bind (checkLimits_reads a) fun _ => .pure _

def provisionRest (r : Nat×Workgroup) : Query Reply := do
  startTransaction
  let uuid ← orElse (select fun _ => e.uuid) (fail "Internal error generating UUID.")
  let interface ← orElse (getInterfaceIdByNames a.nodes.head? a.interfaces.head?)
    (fail "Unable to find interface for endpoint")
  let circuit ← createCircuit c e a r.1 (r.2.name++"-"++uuid) interface
  let _ ← commit
  pure (.circuit circuit none)

variable {a} {s : Session Tables}

theorem getInterfaceIdByNames_apply :
    getInterfaceIdByNames a.nodes.head? a.interfaces.head? s=
      (.done (if s.works 0 then firstInterface s a else none),s.advance 1) := by
  rw [getInterfaceIdByNames,bind_apply,select_apply]
  by_cases h : s.works 0
  all_goals
    simp only [h]
    rfl

/-- After the checks, exactly the first two failures leave the transaction open. -/
theorem provisionRest_undoes_iff (hs : Idle s) (r : Nat×Workgroup) :
    Undoes (provisionRest c e a r) s ↔ s.works 0∧s.works 1∧firstInterface s a≠none := by
  have hstart : (startTransaction s : Outcome String Unit×Session Tables)=(.done (),s.opened) := by
    simp only [startTransaction,beginOrDie,bind_apply,Routine.begin,begin_closed hs.1]
    rfl
  have huuid := select_apply (E := String) (fun _ : Tables => e.uuid) s.opened
  have hinterface := getInterfaceIdByNames_apply (a := a) (s := s.opened.advance 1)
  by_cases h0 : s.works 0
  · have hpos : s.opened.works 0 := h0
    rw [if_pos hpos] at huuid
    by_cases h1 : s.works 1∧firstInterface s a≠none
    · obtain ⟨i,hi⟩ := Option.ne_none_iff_exists'.mp h1.2
      have hfound : (if (s.opened.advance 1).works 0 then firstInterface (s.opened.advance 1) a
          else none)=some i := by
        rwa [if_pos ((s.opened.advance_works 1 0).mpr h1.1)]
      rw [hfound] at hinterface
      refine ⟨fun _ => ⟨h0,h1⟩,fun _ error t ht => ?_⟩
      rw [provisionRest,bind_of_done hstart,bind_of_done (orElse_some huuid),
        bind_of_done (orElse_some hinterface)] at ht
      have hcreate := (createCircuit_guarded c e a r.1 (r.2.name++"-"++e.uuid) i).recovers
      have hrest : Recovers (do
          let circuit ← createCircuit c e a r.1 (r.2.name++"-"++e.uuid) i
          let _ ← commit
          pure (Reply.circuit circuit none)) :=
        recovers_quiet hcreate fun _ => .bind .commit fun _ => .pure _
      have hend := hrest s.db ((s.opened.advance 1).advance 1) ⟨rfl,logged_opened hs⟩
      rw [ht] at hend
      exact hend.1
    · have hfound : (if (s.opened.advance 1).works 0 then firstInterface (s.opened.advance 1) a
          else none)=none := by
        by_cases hw : s.works 1
        · rw [if_pos ((s.opened.advance_works 1 0).mpr hw)]
          by_contra hi
          exact h1 ⟨hw,hi⟩
        · exact if_neg fun hw' => hw ((s.opened.advance_works 1 0).mp hw')
      rw [hfound] at hinterface
      refine ⟨fun h => ?_,fun h => absurd h.2 h1⟩
      have hfails : orElse (getInterfaceIdByNames a.nodes.head? a.interfaces.head?)
          (fail "Unable to find interface for endpoint") (s.opened.advance 1)=
          (.failed "Unable to find interface for endpoint",(s.opened.advance 1).advance 1) :=
        orElse_none hinterface
      have hend := h _ _ (by rw [provisionRest,bind_of_done hstart,
        bind_of_done (orElse_some huuid),bind_of_failed hfails])
      cases hend.1
  · have hneg : ¬s.opened.works 0 := h0
    rw [if_neg hneg] at huuid
    refine ⟨fun h => ?_,fun h => absurd h.1 h0⟩
    have hfails : orElse (select fun _ : Tables => e.uuid) (fail "Internal error generating UUID.")
        s.opened=(.failed "Internal error generating UUID.",s.opened.advance 1) := orElse_none huuid
    have hend := h _ _ (by rw [provisionRest,bind_of_done hstart,bind_of_failed hfails])
    cases hend.1

theorem provisionCircuit_undoes_iff (hs : Idle s) : Undoes (provisionCircuit c e a) s ↔
    ∀ user,Admitted s a user → ¬Stranded s a user := by
  have hcircuit : provisionCircuit c e a=admission a >>= provisionRest c e a := rfl
  by_cases h : ∃ user,Admitted s a user
  · obtain ⟨user,hadmitted⟩ := h
    obtain ⟨w,hw⟩ := Option.ne_none_iff_exists'.mp hadmitted.2.1.2.2.2.1
    have hdone : admission a s=(.done (user,w),s.advance (limitsAt s user+3)) :=
      admission_done_iff.mpr ⟨hadmitted,hw,rfl⟩
    have hunique : ∀ user',Admitted s a user' → user'=user := fun user' h' =>
      Option.some.inj (h'.2.1.2.1.symm.trans hadmitted.2.1.2.1)
    have hrest := provisionRest_undoes_iff c e (a := a)
      (s := s.advance (limitsAt s user+3)) ⟨hs.1,hs.2⟩ (user,w)
    have hadvanced : Undoes (provisionCircuit c e a) s ↔
        Undoes (provisionRest c e a (user,w)) (s.advance (limitsAt s user+3)) := by
      rw [Undoes,hcircuit,bind_of_done hdone]
      rfl
    rw [hadvanced,hrest]
    constructor
    · intro hok user' h' hstranded
      rw [hunique user' h'] at hstranded
      rcases hstranded with h0 | h1 | hi
      · exact h0 hok.1
      · exact h1 hok.2.1
      · exact hok.2.2 hi
    · intro hno
      have hstranded := hno user hadmitted
      simp only [Stranded,not_or,not_not] at hstranded
      exact hstranded
  · refine ⟨fun _ user h' => absurd ⟨user,h'⟩ h,fun _ error t ht => ?_⟩
    have hend := admission_reads a s.db s ⟨⟨hs.1,rfl⟩,hs.2⟩
    rw [hcircuit,bind_apply] at ht
    cases hx : admission a s with
    | mk o u =>
      rw [hx] at hend ht
      cases o with
      | done r => exact absurd ⟨r.1,(admission_done_iff.mp hx).1⟩ h
      | failed e' =>
        cases ht
        exact hend.1
      | died => cases ht

end Provision

/-- Only a provisioning can be left open. -/
def CircuitCall.Holds (s : Session Tables) : CircuitCall → Prop
  | provision a => ∀ user,Admitted s a user → ¬Stranded s a user
  | _ => True

/-- A call that reports failure has undone its work, except a provisioning that gets no unique name
or finds no interface. -/
theorem circuitCall_undoes_iff (c : Checks) (e : Env) (d : Tables) (faults : Nat → Bool)
    (x : CircuitCall) :
    Undoes (x.serve c e) (connect d faults) ↔ x.Holds (connect d faults) := by
  have hs : Idle (connect d faults) := ⟨rfl,rfl⟩
  cases x with
  | provision a => exact provisionCircuit_undoes_iff c e hs
  | edit a => exact ⟨fun _ => trivial,fun _ => undoes_of_clean (editCircuit_clean c e a) hs⟩
  | remove a => exact ⟨fun _ => trivial,fun _ => undoes_of_clean (removeCircuit_clean c e a) hs⟩
  | addMove a => exact ⟨fun _ => trivial,fun _ => undoes_of_clean (addMove_clean e a) hs⟩
  | revertMove move =>
    exact ⟨fun _ => trivial,fun _ => undoes_of_clean (revertMove_clean e move) hs⟩

def found {α : Type} (a : α) : Lookup Tables String α := ⟨pure a,.pure a⟩

def passingChecks : Checks where
  isExternalVlanAvailableOnInterface _ _ := found (some (true,.openflow))
  validateEndpoint _ _ _ := found true
  findAvailableUnit _ tag _ := found tag
  isWithinMacLimit _ _ _ _ := found none
  getAvailableInternalVlanId _ _ := found (some 100)
  validatePaths _ := found none
  circuitSanityCheck _ _ _ := found true
  getCircuitDetails _ := found (some 0)
  macValidate _ := true
  macHex2num _ := 0

def emptyNetwork : Tables := ⟨[⟨1,"admin"⟩],[⟨1,"admins",true,some 10,some 10⟩],[⟨1,1⟩],[],[],[],
  [],[],[],[],[],[],[],[],[],[],[],[]⟩

def unknownEndpoints : CircuitArgs where
  name := none
  description := "circuit"
  bandwidth := 0
  provisionTime := -1
  removeTime := -1
  links := []
  backupLinks := []
  nodes := ["node-a","node-z"]
  interfaces := ["e1/1","e1/2"]
  tags := [100,100]
  innerTags := []
  macAddresses := []
  endpointMacAddressNums := []
  userName := "admin"
  workgroupId := 1
  externalId := none
  remoteEndpoints := []
  remoteTags := []
  restoreToPrimary := 0
  staticMac := false
  state := none
  remoteUrl := none
  remoteRequester := none

/-- A provisioning whose first interface does not exist leaves its transaction open. -/
theorem unknownInterface_leaves_open :
    ¬Undoes ((CircuitCall.provision unknownEndpoints).serve passingChecks ⟨0,"uuid"⟩)
      (connect emptyNetwork fun _ => false) := by
  intro h
  have hs : Idle (connect emptyNetwork fun _ => false) := ⟨rfl,rfl⟩
  have hpermitted : Permitted (connect emptyNetwork fun _ => false) unknownEndpoints 1 :=
    ⟨rfl,rfl,rfl,by decide,rfl,.inl rfl⟩
  have hadmitted : Admitted (connect emptyNetwork fun _ => false) unknownEndpoints 1 :=
    ⟨by decide,hpermitted,by decide,by decide⟩
  exact (provisionCircuit_undoes_iff _ _ hs).mp h 1 hadmitted (.inr (.inr rfl))

end OESS.Database
