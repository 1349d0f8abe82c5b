import OESS.Access.Accounts

namespace OESS.Access

open Transactions Transactions.Routine Session List

/-- The calls that begin and end a transaction of their own. -/
inductive AccountCall where
  | editUser (a : UserEdit)
  | deleteWorkgroup (workgroup : Option Nat)
  | addWorkgroupUser (a : MemberEdit)
  | modifyWorkgroupUser (a : MemberEdit)
  | removeWorkgroupUser (a : MemberEdit)

def AccountCall.serve : AccountCall → Task (Option Person)
  | editUser a => Access.editUser a
  | deleteWorkgroup workgroup => Access.deleteWorkgroup workgroup
  | addWorkgroupUser a => Access.addWorkgroupUser a
  | modifyWorkgroupUser a => Access.modifyWorkgroupUser a
  | removeWorkgroupUser a => Access.removeWorkgroupUser a

@[simp] theorem newUser_inside (id : Option Nat) : Keeps SameTransaction (newUser id) := by
  cases id <;> simp [newUser]

@[simp] theorem newWorkgroup_inside (id : Option Nat) :
    Keeps SameTransaction (newWorkgroup id) := by
  cases id <;> simp [newWorkgroup]

@[simp] theorem Person.update_inside (p : Person) : Keeps SameTransaction p.update := by
  refine .bind (by simp) fun _ => ?_
  refine .bind (by simp) fun _ => ?_
  simp

@[simp] theorem loadEach_inside (users : List Nat) :
    Keeps SameTransaction (WorkgroupRow.loadEach users) := by
  induction users with
  | nil => exact .pure _
  | cons user users ih => simp [WorkgroupRow.loadEach,ih]

variable (w : WorkgroupRow)

@[simp] theorem loadUsers_inside : Keeps SameTransaction w.loadUsers := by
  simp [WorkgroupRow.loadUsers]

@[simp] theorem WorkgroupRow.update_inside (usersToRemove : List Nat)
    (usersToAdd : List (Nat×Role)) : Keeps SameTransaction (w.update usersToRemove usersToAdd) := by
  refine .bind (by simp) fun _ => ?_
  have hadd : ∀ new : Nat×Role,Keeps SameTransaction (do
      let found ← select fun d : Accounts => decide (d.isMember w.id new.1)
      if found=some true then fail (.message "User already in workgroup")
      else orElse (statement (·.addMember w.id new.1 new.2)) (fail .database) : Task Unit) :=
    fun new => .bind (select_inside _) fun _ => .ite (.fail _) (by simp)
  exact .bind (.each hadd usersToAdd) fun _ => by simp

@[simp] theorem modifyUser_inside (user : Option Nat) (role : Option Role) :
    Keeps SameTransaction (w.modifyUser user role) := by
  cases user <;> cases role <;> simp [WorkgroupRow.modifyUser,Keeps.ite]

@[simp] theorem newUser_guarded (id : Option Nat) : Guarded (newUser id) := by
  cases id <;> simp [newUser]

@[simp] theorem newWorkgroup_guarded (id : Option Nat) : Guarded (newWorkgroup id) := by
  cases id <;> simp [newWorkgroup]

@[simp] theorem removeHistories_guarded (acls : List Nat) : Guarded (removeHistories acls) := by
  induction acls with
  | nil => exact .pure _
  | cons acl acls ih =>
    refine .bind (.write _) fun ok => ?_
    cases ok with
    | none => exact .pure _
    | some _ => exact ih

@[simp] theorem removeAll_guarded (interface : Nat) : Guarded (removeAll interface) := by
  refine .bind (.select _) fun acls => ?_
  cases acls with
  | none => exact .pure _
  | some acls =>
    refine .bind (removeHistories_guarded acls) fun ok => ?_
    exact .ite (.bind (.write _) fun _ => .pure _) (.pure _)

variable (s : Session Accounts)

def loadable (s : Session Accounts) : List Nat → List Nat
  | [] => []
  | user::users =>
    if s.works 0∧s.db.fetchPerson user≠none then user::loadable (s.advance 1) users
    else loadable (s.advance 1) users

/-- An active workgroup is found and its members are read. -/
def WorkgroupReadable (workgroup : Nat) : Prop :=
  s.works 0∧s.db.fetchActive workgroup≠none∧s.works 1

def afterMembers (workgroup : Nat) : Nat := 2+(s.db.members workgroup).length

variable (user workgroup : Nat)

/-- No statement fails and the user is no member yet; a failing read of the membership does no harm,
since the key still refuses a second row. -/
def AddReady : Prop := WorkgroupReadable s workgroup∧
  s.works (afterMembers s workgroup)∧s.db.fetchPerson user≠none∧¬s.db.isMember workgroup user∧
  s.works (afterMembers s workgroup+2)∧s.works (afterMembers s workgroup+3)

def ModifyReady : Prop :=
  WorkgroupReadable s workgroup∧s.db.isMember workgroup user∧s.works (afterMembers s workgroup)

/-- The statements that work are one for each time the user is found, and one for the workgroup. -/
def RemoveReady (user : Option Nat) (workgroup : Nat) : Prop := WorkgroupReadable s workgroup∧
  ∀ i ≤ ((loadable (s.advance 2) (s.db.members workgroup)).filter (some ·=user)).length,
    s.works (afterMembers s workgroup+i)

def AccountCall.Ready : AccountCall → Prop
  | editUser _ | deleteWorkgroup _ => True
  | addWorkgroupUser a =>
    match a.userId,a.workgroupId,a.role with
    | some user,some workgroup,some _ => AddReady s user workgroup
    | _,_,_ => True
  | modifyWorkgroupUser a =>
    match a.userId,a.workgroupId,a.role with
    | none,none,_ => True
    | some user,some workgroup,some _ => ModifyReady s user workgroup
    | _,_,_ => False
  | removeWorkgroupUser a =>
    match a.userId,a.workgroupId with
    | none,none => True
    | user,some workgroup => RemoveReady s user workgroup
    | some _,none => False

section Loading

variable {s : Session Accounts}

theorem newUser_apply (id : Nat) (s : Session Accounts) : newUser (some id) s=
    (.done (if s.works 0 then s.db.fetchPerson id else none),s.advance 1) := by
  simp only [newUser,bind_apply,select_apply]
  by_cases h : s.works 0 <;> simp [h,pure]

theorem newWorkgroup_apply (id : Nat) (s : Session Accounts) : newWorkgroup (some id) s=
    (.done (if s.works 0 then s.db.fetchActive id else none),s.advance 1) := by
  simp only [newWorkgroup,bind_apply,select_apply]
  by_cases h : s.works 0 <;> simp [h,pure]

theorem fetchPerson_id {d : Accounts} {id : Nat} {p : Person} (h : d.fetchPerson id=some p) :
    p.id=id := by
  unfold Accounts.fetchPerson at h
  split at h
  case h_1 u name names hu hn =>
    cases h
    simpa using find?_some hu
  case h_2 => cases h

theorem fetchActive_id {d : Accounts} {id : Nat} {w : WorkgroupRow} (h : d.fetchActive id=some w) :
    w.id=id := by
  have hw := find?_some h
  simp only [decide_eq_true_eq] at hw
  exact hw.1

theorem loadEach_apply (users : List Nat) (s : Session Accounts) :
    WorkgroupRow.loadEach users s=(.done (loadable s users),s.advance users.length) := by
  induction users generalizing s with
  | nil => rfl
  | cons user users ih =>
    simp only [WorkgroupRow.loadEach,bind_apply,newUser_apply,ih,advance_advance,loadable]
    rw [Nat.add_comm 1]
    by_cases h : s.works 0
    · cases hp : s.db.fetchPerson user with
      | none => simp [pure]
      | some p => simp [h,pure,fetchPerson_id hp]
    · simp [h,pure]

theorem passes_loadUsers (w : WorkgroupRow) {g : List Nat → Task Unit} :
    Passes (w.loadUsers >>= g) s ↔ s.works 0∧Passes (g (loadable (s.advance 1) (s.db.members w.id)))
        (s.advance (1+(s.db.members w.id).length)) := by
  have hrows := select_apply (E := Error) (fun d : Accounts => d.members w.id) s
  by_cases h : s.works 0
  · rw [if_pos h] at hrows
    have hload : w.loadUsers s=(.done (loadable (s.advance 1) (s.db.members w.id)),
        s.advance (1+(s.db.members w.id).length)) := by
      rw [WorkgroupRow.loadUsers,bind_apply,orElse_some hrows]
      simp only [loadEach_apply,advance_advance]
    rw [passes_bind_of_done hload]
    simp only [h,true_and]
  · rw [if_neg h] at hrows
    have hload : ¬Passes w.loadUsers s := not_passes_bind hrows
    rw [passes_bind]
    exact ⟨fun hp => absurd hp.1 hload,fun hp => absurd hp.1 h⟩

theorem passes_workgroup {id : Option Nat} {e : Error} {g : WorkgroupRow → List Nat → Task Unit} :
    Passes (do
      let w ← orElse (newWorkgroup id) (fail e)
      let users ← w.loadUsers
      g w users) s ↔
    ∃ workgroup w,id=some workgroup∧WorkgroupReadable s workgroup∧s.db.fetchActive workgroup=some w∧
      Passes (g w (loadable (s.advance 2) (s.db.members workgroup)))
        (s.advance (afterMembers s workgroup)) := by
  cases id with
  | none =>
    have hnone : newWorkgroup none s=(.done none,s) := rfl
    exact ⟨fun h => absurd h (not_passes_bind hnone),fun ⟨_,_,h,_⟩ => (by cases h)⟩
  | some workgroup =>
    have hget := newWorkgroup_apply workgroup s
    by_cases h : s.works 0∧s.db.fetchActive workgroup≠none
    · obtain ⟨w,hw⟩ := Option.ne_none_iff_exists'.mp h.2
      rw [if_pos h.1,hw] at hget
      rw [passes_bind_of_done (orElse_some hget),passes_loadUsers]
      have hn : 1+(1+(s.db.members workgroup).length)=afterMembers s workgroup := by
        unfold afterMembers
        omega
      simp only [advance_advance,advance_db,fetchActive_id hw,hn]
      constructor
      · rintro ⟨h1,hg⟩
        exact ⟨workgroup,w,rfl,⟨h.1,h.2,h1⟩,hw,hg⟩
      · rintro ⟨_,w',hid,⟨_,_,h1⟩,hw',hg⟩
        cases hid
        cases hw.symm.trans hw'
        exact ⟨h1,hg⟩
    · have hnone : (if s.works 0 then s.db.fetchActive workgroup else none)=none := by
        by_cases h0 : s.works 0
        · rw [if_pos h0]
          by_contra hw
          exact h ⟨h0,hw⟩
        · exact if_neg h0
      rw [hnone] at hget
      constructor
      · exact fun hp => absurd hp (not_passes_bind hget)
      · rintro ⟨_,w,hid,⟨h0,hw,_⟩,_⟩
        cases hid
        exact absurd ⟨h0,hw⟩ h

end Loading

section Edits

variable {s : Session Accounts}

theorem passes_updateRemove (users : List Nat) :
    Passes (w.update users []) s ↔ ∀ i ≤ users.length,s.works i := by
  rw [WorkgroupRow.update,passes_each_write]
  have hlast := passes_write (fun d : Accounts => d.updateWorkgroup w) Error.database
    {s.advance users.length with db := users.foldl (fun d i => d.removeMember w.id i) s.db}
  have hworks := s.advance_works users.length 0
  constructor
  · rintro ⟨hloop,hup⟩ i hi
    rcases Nat.lt_or_eq_of_le hi with hlt | rfl
    · exact hloop i hlt
    · exact hworks.mp (hlast.mp hup)
  · intro h
    exact ⟨fun i hi => h i (Nat.le_of_lt hi),hlast.mpr (hworks.mpr (h _ (Nat.le_refl _)))⟩

theorem update_member {user : Nat} (role : Role) (h : s.db.isMember w.id user) :
    ∃ e,(w.update [] [(user,role)] s).1=.failed e := by
  have hfound := select_apply (E := Error) (fun d : Accounts => decide (d.isMember w.id user)) s
  by_cases h0 : s.works 0
  · rw [if_pos h0] at hfound
    simp [WorkgroupRow.update,each,bind_apply,pure_apply,hfound,h,fail]
  rw [if_neg h0] at hfound
  have hrefused : (s.advance 1).db.addMember w.id user role=none := if_pos h
  have hadd := statement_refused (E := Error) (fun d : Accounts => d.addMember w.id user role)
    hrefused
  simp [WorkgroupRow.update,each,bind_apply,pure_apply,hfound,orElse_none hadd,fail]

theorem passes_updateAdd (user : Nat) (role : Role) :
    Passes (w.update [] [(user,role)]) s ↔ ¬s.db.isMember w.id user∧s.works 1∧s.works 2 := by
  by_cases hm : s.db.isMember w.id user
  · obtain ⟨e,he⟩ := update_member w role hm
    exact ⟨fun h => absurd he (h e),fun h => absurd hm h.1⟩
  have hfound := select_apply (E := Error) (fun d : Accounts => decide (d.isMember w.id user)) s
  have hnot : ¬(if s.works 0 then some (decide (s.db.isMember w.id user)) else none)=some true := by
    by_cases h0 : s.works 0 <;> simp [hm]
  have hadd : (s.advance 1).db.addMember w.id user role=
      some ((),{s.db with memberships := s.db.memberships++[⟨w.id,user,role⟩]}) := if_neg hm
  by_cases h1 : s.works 1
  · have hdone := statement_apply (E := Error) (fun d : Accounts => d.addMember w.id user role)
      ((s.advance_works 1 0).mpr h1) hadd
    have hlast := passes_write (fun d : Accounts => d.updateWorkgroup w) Error.database
      {(s.advance 1).advance 1 with
        db := {s.db with memberships := s.db.memberships++[⟨w.id,user,role⟩]}}
    have hworks : ((s.advance 1).advance 1).works 0 ↔ s.works 2 := by simp
    simp only [Passes,WorkgroupRow.update,each,bind_apply,pure_apply,hfound,if_neg hnot,
      orElse_some hdone]
    exact (hlast.trans hworks).trans ⟨fun h => ⟨hm,h1,h⟩,fun h => h.2.2⟩
  · have hfailed := statement_fails (E := Error) (fun d : Accounts => d.addMember w.id user role)
      (fun h => h1 ((s.advance_works 1 0).mp h))
    refine ⟨fun h => absurd ?_ (h .database),fun h => absurd h.2.1 h1⟩
    simp only [WorkgroupRow.update,each,bind_apply,pure_apply,hfound,if_neg hnot,
      orElse_none hfailed]
    rfl

theorem editUserRole_pos {d : Accounts} {workgroup user : Nat} {role : Role} :
    (d.editUserRole workgroup user role).1≠0 ↔ d.isMember workgroup user := by
  unfold Accounts.editUserRole Accounts.isMember
  simp

theorem passes_modifyUser (user : Option Nat) (role : Option Role) :
    Passes (w.modifyUser user role) s ↔
      ∃ u,user=some u∧role≠none∧s.db.isMember w.id u∧s.works 0 := by
  cases user with
  | none => exact ⟨fun h => absurd h (not_passes_fail _ s),fun ⟨_,hu,_⟩ => (by cases hu)⟩
  | some user =>
    cases role with
    | none => exact ⟨fun h => absurd h (not_passes_fail _ s),fun ⟨_,_,hr,_⟩ => absurd rfl hr⟩
    | some role =>
      by_cases h : s.works 0
      · let r := s.db.editUserRole w.id user role
        have hrows := statement_apply (E := Error) (a := r.1)
          (fun d : Accounts => some (d.editUserRole w.id user role)) h rfl
        by_cases hm : s.db.isMember w.id user
        · have hcount : r.1≠0 := editUserRole_pos.mpr hm
          refine ⟨fun _ => ⟨user,rfl,Option.some_ne_none role,hm,h⟩,fun _ => ?_⟩
          apply passes_done
          simp only [WorkgroupRow.modifyUser,bind_apply,hrows,Option.getD_some,if_neg hcount]
          rfl
        · have hcount : r.1=0 := Classical.not_not.mp fun hc => hm (editUserRole_pos.mp hc)
          constructor
          · intro hp
            refine absurd ?_ (hp (.message "Unable to edit role - does this user belong to this workgroup?"))
            simp only [WorkgroupRow.modifyUser,bind_apply,hrows,Option.getD_some,if_pos hcount]
            rfl
          · rintro ⟨_,hu,_,hmem,_⟩
            cases hu
            exact absurd hmem hm
      · have hfailed := statement_fails (E := Error)
          (fun d : Accounts => some (d.editUserRole w.id user role)) h
        constructor
        · intro hp
          refine absurd ?_ (hp (.message "Unable to edit role - does this user belong to this workgroup?"))
          simp only [WorkgroupRow.modifyUser,bind_apply,hfailed]
          rfl
        · exact fun ⟨_,_,_,_,h0⟩ => absurd h0 h

theorem passes_newUser {user : Nat} {e : Error} {g : Person → Task Unit} :
    Passes (orElse (newUser (some user)) (fail e) >>= g) s ↔
      ∃ p,s.works 0∧s.db.fetchPerson user=some p∧Passes (g p) (s.advance 1) := by
  have hget := newUser_apply user s
  by_cases h : s.works 0
  · rw [if_pos h] at hget
    cases hp : s.db.fetchPerson user with
    | none =>
      rw [hp] at hget
      exact ⟨fun hno => absurd hno (not_passes_bind hget),fun ⟨_,_,hq,_⟩ => (by cases hq)⟩
    | some p =>
      rw [hp] at hget
      rw [passes_bind_of_done (orElse_some hget)]
      simp [h]
  · rw [if_neg h] at hget
    exact ⟨fun hno => absurd hno (not_passes_bind hget),fun ⟨_,hq,_⟩ => absurd hq h⟩

end Edits

theorem loadable_opened (n : Nat) (users : List Nat) :
    loadable (s.opened.advance n) users=loadable (s.advance n) users := by
  induction users generalizing n with
  | nil => rfl
  | cons user users ih =>
    simp only [loadable,advance_advance,ih]
    rfl

theorem addSteps_iff (role : Role) :
    Passes (addWorkgroupUserSteps user workgroup role) s.opened ↔ AddReady s user workgroup := by
  rw [addWorkgroupUserSteps,passes_workgroup]
  simp only [passes_newUser,passes_updateAdd,advance_db]
  constructor
  · rintro ⟨_,w,hid,hread,hw,p,h0,hp,hm,h2,h3⟩
    cases hid
    rw [fetchActive_id hw,fetchPerson_id hp] at hm
    refine ⟨hread,h0,?_,hm,h2,h3⟩
    exact Option.ne_none_iff_exists'.mpr ⟨p,hp⟩
  · rintro ⟨hread,h0,hp,hm,h2,h3⟩
    obtain ⟨w,hw⟩ := Option.ne_none_iff_exists'.mp hread.2.1
    obtain ⟨p,hp⟩ := Option.ne_none_iff_exists'.mp hp
    refine ⟨workgroup,w,rfl,hread,hw,p,h0,hp,?_,h2,h3⟩
    rwa [fetchActive_id hw,fetchPerson_id hp]

theorem modifySteps_iff (a : MemberEdit) : Passes (modifyWorkgroupUserSteps a) s.opened ↔
    ∃ user workgroup,a.userId=some user∧a.workgroupId=some workgroup∧a.role≠none∧
      ModifyReady s user workgroup := by
  rw [modifyWorkgroupUserSteps,passes_workgroup]
  simp only [passes_modifyUser]
  constructor
  · rintro ⟨workgroup,w,hid,hread,hw,user,hu,hr,hm,h0⟩
    rw [fetchActive_id hw] at hm
    exact ⟨user,workgroup,hu,hid,hr,hread,hm,h0⟩
  · rintro ⟨user,workgroup,hu,hid,hr,hread,hm,h0⟩
    obtain ⟨w,hw⟩ := Option.ne_none_iff_exists'.mp hread.2.1
    refine ⟨workgroup,w,hid,hread,hw,user,hu,hr,?_,h0⟩
    rwa [fetchActive_id hw]

theorem removeSteps_iff (a : MemberEdit) : Passes (removeWorkgroupUserSteps a) s.opened ↔
    ∃ workgroup,a.workgroupId=some workgroup∧RemoveReady s a.userId workgroup := by
  rw [removeWorkgroupUserSteps,passes_workgroup]
  simp only [passes_updateRemove,advance_works,loadable_opened]
  constructor
  · rintro ⟨workgroup,_,hid,hread,_,hworks⟩
    exact ⟨workgroup,hid,hread,hworks⟩
  · rintro ⟨workgroup,hid,hread,hworks⟩
    obtain ⟨w,hw⟩ := Option.ne_none_iff_exists'.mp hread.2.1
    exact ⟨workgroup,w,hid,hread,hw,hworks⟩

section Calls

variable {s : Session Accounts}

theorem editUser_guarded (a : UserEdit) : Guarded (do
    let p ← orElse (newUser a.userId) die
    undoing (p.edited a).update
    pure (p.edited a)) := by
  refine .bind (by simp) fun p => ?_
  have hupdate := Guarded.undoing (p.edited a).update_inside
  exact .bind hupdate fun _ => .pure _

theorem deleteWorkgroup_guarded (workgroup : Option Nat) : Guarded (do
    let w ← orElse (newWorkgroup workgroup) (abort (notFound workgroup))
    undoing ({w with status := .decom}.update [] [])
    let interfaces ← select fun d : Accounts =>
      (d.interfaces.filter (·.workgroup=workgroup)).map InterfaceRow.id
    each removeAll (interfaces.getD [])) := by
  refine .bind (by simp) fun w => ?_
  have hupdate := Guarded.undoing (WorkgroupRow.update_inside {w with status := .decom} [] [])
  refine .bind hupdate fun _ => ?_
  refine .bind (.select _) fun interfaces => ?_
  exact .each removeAll_guarded _

theorem addSteps_inside (user workgroup : Nat) (role : Role) :
    Keeps SameTransaction (addWorkgroupUserSteps user workgroup role) := by
  refine .bind (by simp) fun w => ?_
  refine .bind (loadUsers_inside w) fun _ => ?_
  exact .bind (by simp) fun p => w.update_inside [] [(p.id,role)]

variable (a : MemberEdit)

theorem modifySteps_inside : Keeps SameTransaction (modifyWorkgroupUserSteps a) := by
  refine .bind (by simp) fun w => ?_
  exact .bind (loadUsers_inside w) fun _ => modifyUser_inside w a.userId a.role

theorem removeSteps_inside : Keeps SameTransaction (removeWorkgroupUserSteps a) := by
  refine .bind (by simp) fun w => ?_
  exact .bind (loadUsers_inside w) fun users => w.update_inside _ []

theorem either_settles_iff {a : MemberEdit} {e : Error} {body : Task Unit}
    {finish : Unit → Bool → Outcome Error (Option Person)} (hb : Keeps SameTransaction body)
    (hf : Honest finish) (hs : Idle s) :
    Settles (if a.userId=none∧a.workgroupId=none then fail e else transact body finish) s ↔
      (a.userId=none∧a.workgroupId=none)∨Passes body s.opened := by
  by_cases h : a.userId=none∧a.workgroupId=none
  · rw [if_pos h]
    exact ⟨fun _ => .inl h,fun _ => settles_fail e hs.1⟩
  · rw [if_neg h,settles_transact_iff hb hf hs.1]
    exact ⟨.inr,fun h' => h'.resolve_left h⟩

theorem honest_ok {α β : Type} (r : α → β) (e : Error) :
    Honest fun a ok => if ok then (.done (r a) : Outcome Error β) else .failed e := by
  intro a e'
  simp

theorem addWorkgroupUser_settles_iff (hs : Idle s) :
    Settles (addWorkgroupUser a) s ↔ (AccountCall.addWorkgroupUser a).Ready s := by
  match a with
  | ⟨none,_,_⟩ | ⟨some _,none,_⟩ | ⟨some _,some _,none⟩ =>
    exact ⟨fun _ => trivial,fun _ => settles_fail _ hs.1⟩
  | ⟨some user,some workgroup,some role⟩ =>
    have hsettles := settles_transact_iff (addSteps_inside user workgroup role)
      (honest_ok (fun _ => (none : Option Person))
        (.message "Couldn't add workgroup user. Unknown error occurred.")) hs.1
    exact hsettles.trans (addSteps_iff s user workgroup role)

theorem modifyWorkgroupUser_settles_iff (hs : Idle s) :
    Settles (modifyWorkgroupUser a) s ↔ (AccountCall.modifyWorkgroupUser a).Ready s := by
  rw [modifyWorkgroupUser,either_settles_iff (modifySteps_inside a) (honest_ok _ _) hs,modifySteps_iff]
  obtain ⟨user,workgroup,role⟩ := a
  cases user <;> cases workgroup <;> cases role <;> simp [AccountCall.Ready]

theorem removeWorkgroupUser_settles_iff (hs : Idle s) :
    Settles (removeWorkgroupUser a) s ↔ (AccountCall.removeWorkgroupUser a).Ready s := by
  rw [removeWorkgroupUser,either_settles_iff (removeSteps_inside a) (honest_ok _ _) hs,removeSteps_iff]
  obtain ⟨user,workgroup,role⟩ := a
  cases user <;> cases workgroup <;> simp [AccountCall.Ready]

theorem AccountCall.settles_iff (c : AccountCall) (hs : Idle s) :
    Settles c.serve s ↔ c.Ready s := by
  cases c with
  | editUser a =>
    refine ⟨fun _ => trivial,fun _ => ?_⟩
    exact settles_transact_of_guarded (editUser_guarded a) (honest_ok _ _) hs
  | deleteWorkgroup workgroup =>
    refine ⟨fun _ => trivial,fun _ => ?_⟩
    refine settles_transact_of_guarded (deleteWorkgroup_guarded workgroup) ?_ hs
    intro _ e he
    cases he
  | addWorkgroupUser a => exact addWorkgroupUser_settles_iff a hs
  | modifyWorkgroupUser a => exact modifyWorkgroupUser_settles_iff a hs
  | removeWorkgroupUser a => exact removeWorkgroupUser_settles_iff a hs

theorem AccountCall.logged (c : AccountCall) (hs : Idle s) : Logged (c.serve s).2 := by
  cases c with
  | editUser a => exact logged_transact_of_guarded (editUser_guarded a) hs
  | deleteWorkgroup workgroup =>
    exact logged_transact_of_guarded (deleteWorkgroup_guarded workgroup) hs
  | addWorkgroupUser a =>
    match a with
    | ⟨none,_,_⟩ | ⟨some _,none,_⟩ | ⟨some _,some _,none⟩ => exact hs.2
    | ⟨some user,some workgroup,some role⟩ =>
      exact logged_transact_of_inside (addSteps_inside user workgroup role) hs
  | modifyWorkgroupUser a =>
    simp only [AccountCall.serve,Access.modifyWorkgroupUser]
    split_ifs
    · exact hs.2
    · exact logged_transact_of_inside (modifySteps_inside a) hs
  | removeWorkgroupUser a =>
    simp only [AccountCall.serve,Access.removeWorkgroupUser]
    split_ifs
    · exact hs.2
    · exact logged_transact_of_inside (removeSteps_inside a) hs

end Calls

/-- Every call leaves its transaction settled exactly if every membership edit is ready when it is
made. -/
theorem accountCalls_settle_iff (d : Accounts) (faults : Nat → Bool) (cs : List AccountCall) :
    (Runs.StepsOk (turn AccountCall.serve) (fun s c => Settles c.serve s) (connect d faults) cs∧
      ¬Nested (cs.foldl (turn AccountCall.serve) (connect d faults)).calls) ↔
    Runs.StepsOk (turn AccountCall.serve) (fun s c => c.Ready s) (connect d faults) cs := by
  have hs : Idle (connect d faults) := ⟨rfl,rfl⟩
  have hlog : ∀ (s : Session Accounts) c,Idle s → Logged (AccountCall.serve c s).2 :=
    fun _ c h => c.logged h
  have hready : ∀ (s : Session Accounts) c,Idle s → (Settles (AccountCall.serve c) s ↔ c.Ready s) :=
    fun _ c h => c.settles_iff h
  rw [← settled_iff hlog hready hs]
  constructor
  · exact fun h => h.1
  · intro h
    exact ⟨h,(turns_idle hlog hs h).not_nested⟩

def oneUser : Accounts := ⟨[⟨1,"","","",.active⟩],[⟨1,"user"⟩],[],[],[],[],[]⟩

/-- Adding a member to an unknown workgroup leaves the transaction open, and the next call begins in
it. -/
theorem unknownWorkgroup_leaves_open :
    let add : AccountCall := .addWorkgroupUser ⟨some 1,some 1,some .admin⟩
    let edit : AccountCall := .editUser ⟨some 1,none,none,none,["user"]⟩
    let start := connect oneUser fun _ => false
    ¬Settles add.serve start∧Nested ([add,edit].foldl (turn AccountCall.serve) start).calls := by
  intro add edit start
  have hs : Idle start := ⟨rfl,rfl⟩
  refine ⟨fun h => ?_,by decide +kernel⟩
  have hready := (add.settles_iff hs).mp h
  exact hready.1.2.1 rfl

end OESS.Access
