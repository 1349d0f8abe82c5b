import OESS.Access.Circuits
import OESS.Framework.Transactions

namespace OESS.Access

open Transactions Transactions.Routine

structure UserRow where
  id : Nat
  (email firstName lastName : String)
  status : Status

structure AuthRow where
  userId : Nat
  authName : String

structure WorkgroupRow where
  id : Nat
  (name description : String)
  externalId : Option String
  type : WorkgroupType
  maxCircuits : Option Nat
  status : Status

structure AclRow where
  (id interface : Nat)

structure Accounts where
  users : List UserRow
  auths : List AuthRow
  workgroups : List WorkgroupRow
  memberships : List Membership
  interfaces : List InterfaceRow
  acls : List AclRow
  aclHistory : List Nat

/-- The error returned; `handle` says that the text of the database handle is added. -/
structure Error where
  text : String
  handle : Bool

def Error.message (text : String) : Error := ⟨text,false⟩

def Error.database : Error := ⟨"",true⟩

structure Person where
  id : Nat
  (email firstName lastName : String)
  (usernames usernamesToAdd usernamesToRemove : List String)

abbrev Task (α : Type) := Routine Accounts Error α

namespace Accounts

variable (d : Accounts)

/-- A user without a username in `remote_auth` is not found. -/
def fetchPerson (id : Nat) : Option Person :=
  match d.users.find? (·.id=id),(d.auths.filter (·.userId=id)).map AuthRow.authName with
  | some u,name::names => some ⟨u.id,u.email,u.firstName,u.lastName,name::names,[],[]⟩
  | _,_ => none

def fetchActive (id : Nat) : Option WorkgroupRow :=
  d.workgroups.find? fun w => w.id=id∧w.status=.active

def members (id : Nat) : List Nat := (d.memberships.filter (·.workgroup=id)).map Membership.user

variable (workgroup user : Nat)

def isMember : Prop := user∈d.members workgroup
  deriving Decidable

def updateUser (p : Person) : Accounts :=
  {d with users := d.users.map fun u =>
    if u.id=p.id then ⟨u.id,p.email,p.firstName,p.lastName,.active⟩ else u}

/-- `auth_name` is a unique key. -/
def addUsername (id : Nat) (name : String) : Option (Unit×Accounts) :=
  if name∈d.auths.map AuthRow.authName then none
  else some ((),{d with auths := d.auths++[⟨id,name⟩]})

def removeUsername (name : String) : Accounts := {d with auths := d.auths.filter (·.authName≠name)}

def removeMember : Accounts :=
  {d with memberships := d.memberships.filter fun m => ¬(m.workgroup=workgroup∧m.user=user)}

/-- The workgroup and the user are the primary key. -/
def addMember (role : Role) : Option (Unit×Accounts) :=
  if d.isMember workgroup user then none
  else some ((),{d with memberships := d.memberships++[⟨workgroup,user,role⟩]})

/-- The role is set in all rows that match, and the number of these is returned. -/
def editUserRole (role : Role) : Nat×Accounts :=
  (((d.members workgroup).filter (·=user)).length,{d with memberships := d.memberships.map fun m =>
    if m.workgroup=workgroup∧m.user=user then {m with role := role} else m})

def updateWorkgroup (w : WorkgroupRow) : Accounts :=
  {d with workgroups := d.workgroups.map fun x => if x.id=w.id then w else x}

end Accounts

/-- There is no object for an unknown user or after a failing query. -/
def newUser : Option Nat → Task (Option Person)
  | none => pure none
  | some id => do
    let row ← select fun d : Accounts => d.fetchPerson id
    pure row.join

def newWorkgroup : Option Nat → Task (Option WorkgroupRow)
  | none => pure none
  | some id => do
    let row ← select fun d : Accounts => d.fetchActive id
    pure row.join

namespace Person

def addUsername (p : Person) (name : String) : Person :=
  if name∈p.usernames then p
  else {p with usernames := p.usernames++[name],usernamesToAdd := p.usernamesToAdd++[name]}

def removeUsername (p : Person) (name : String) : Person :=
  {p with
    usernames := p.usernames.filter (·≠name)
    usernamesToRemove := p.usernamesToRemove++p.usernames.filter (·=name)}

def update (p : Person) : Task Unit := do
  orElse (write (·.updateUser p)) (fail .database)
  each (fun name => orElse (statement (·.addUsername p.id name)) (fail .database)) p.usernamesToAdd
  each (fun name => orElse (write (·.removeUsername name)) (fail .database)) p.usernamesToRemove

end Person

namespace WorkgroupRow

variable (w : WorkgroupRow)

def update (usersToRemove : List Nat) (usersToAdd : List (Nat×Role)) : Task Unit := do
  each (fun user => orElse (write (·.removeMember w.id user)) (fail .database)) usersToRemove
  each (fun new => do
      -- a query that fails is no row
      let found ← select fun d : Accounts => decide (d.isMember w.id new.1)
      if found=some true then fail (.message "User already in workgroup")
      else orElse (statement (·.addMember w.id new.1 new.2)) (fail .database))
    usersToAdd
  orElse (write (·.updateWorkgroup w)) (fail .database)

def loadEach : List Nat → Task (List Nat)
  | [] => pure []
  | user::users => do
    let p ← newUser (some user)
    let rest ← loadEach users
    pure (p.toList.map Person.id++rest)

def loadUsers : Task (List Nat) := do
  let rows ← orElse (select (·.members w.id))
    (fail (.message "Unable to find any users in workgroup of that workgroup_id"))
  loadEach rows

def modifyUser (user : Option Nat) (role : Option Role) : Task Unit :=
  match user,role with
  | none,_ => fail (.message "Required argument `user_id` is missing.")
  | some _,none => fail (.message "Required argument `role` is missing.")
  | some user,some role => do
    let count ← statement fun d => some (d.editUserRole w.id user role)
    if count.getD 0=0 then
      fail (.message "Unable to edit role - does this user belong to this workgroup?")
    else pure ()

end WorkgroupRow

/-- The first failure ends the work on the interface. -/
def removeHistories : List Nat → Task Bool
  | [] => pure true
  | acl::acls => do
    let ok ← write fun d : Accounts => {d with aclHistory := d.aclHistory.filter (·≠acl)}
    match ok with
    | none => pure false
    | some _ => removeHistories acls

def removeAll (interface : Nat) : Task Unit := do
  let acls ← select fun d : Accounts => (d.acls.filter (·.interface=interface)).map AclRow.id
  match acls with
  | none => pure ()
  | some acls =>
    if ← removeHistories acls then
      let _ ← write fun d : Accounts => {d with acls := d.acls.filter (·.interface≠interface)}

structure UserEdit where
  userId : Option Nat
  (email firstName lastName : Option String)
  usernames : List String

/-- Usernames asked for are added, the others removed. -/
def Person.edited (p : Person) (a : UserEdit) : Person :=
  let p' := {p with
    email := a.email.getD p.email
    firstName := a.firstName.getD p.firstName
    lastName := a.lastName.getD p.lastName}
  (p.usernames.filter (·∉a.usernames)).foldl removeUsername (a.usernames.foldl addUsername p')

/-- The methods on an undefined user die. -/
def editUser (a : UserEdit) : Task (Option Person) :=
  transact (do
    let p ← orElse (newUser a.userId) die
    undoing (p.edited a).update
    pure (p.edited a))
  fun p ok => if ok then .done (some p) else .failed ⟨"Couldn't update user: ",true⟩

def notFound (workgroup : Option Nat) : Error :=
  .message ("Couldn't find workgroup "++workgroup.elim "" toString++".")

/-- The result for the ACLs is only logged, and so is the commit. -/
def deleteWorkgroup (workgroup : Option Nat) : Task (Option Person) :=
  transact (do
    let w ← orElse (newWorkgroup workgroup) (abort (notFound workgroup))
    undoing ({w with status := .decom}.update [] [])
    let interfaces ← select fun d : Accounts =>
      (d.interfaces.filter (·.workgroup=workgroup)).map InterfaceRow.id
    each removeAll (interfaces.getD []))
  fun _ _ => .done none

structure MemberEdit where
  (userId workgroupId : Option Nat)
  role : Option Role

def addWorkgroupUserSteps (user workgroup : Nat) (role : Role) : Task Unit := do
  let w ← orElse (newWorkgroup (some workgroup)) (fail (notFound (some workgroup)))
  let _ ← w.loadUsers
  let p ← orElse (newUser (some user)) (fail (.message ("Couldn't find user "++toString user++".")))
  w.update [] [(p.id,role)]

variable (a : MemberEdit)

def addWorkgroupUser : Task (Option Person) :=
  match a.userId,a.workgroupId,a.role with
  | some user,some workgroup,some role =>
    transact (addWorkgroupUserSteps user workgroup role) fun _ ok =>
      if ok then .done none
      else .failed (.message "Couldn't add workgroup user. Unknown error occurred.")
  | _,_,_ => fail (.message "Required argument `user_id` `workgroup_id` or `role` missing.")

def modifyWorkgroupUserSteps : Task Unit := do
  let w ← orElse (newWorkgroup a.workgroupId) (fail (notFound a.workgroupId))
  let _ ← w.loadUsers
  w.modifyUser a.userId a.role

def modifyWorkgroupUser : Task (Option Person) :=
  if a.userId=none∧a.workgroupId=none then
    fail (.message "Required argument `user_id` or `workgroup_id` missing.")
  else
    transact (modifyWorkgroupUserSteps a) fun _ ok =>
      if ok then .done none
      else .failed (.message "Couldn't modify workgroup user. Unknown error occurred.")

def removeWorkgroupUserSteps : Task Unit := do
  let w ← orElse (newWorkgroup a.workgroupId) (fail (notFound a.workgroupId))
  let users ← w.loadUsers
  w.update (users.filter fun user => some user=a.userId) []

def removeWorkgroupUser : Task (Option Person) :=
  if a.userId=none∧a.workgroupId=none then
    fail (.message "Required argument `user_id` or `workgroup_id` missing.")
  else
    transact (removeWorkgroupUserSteps a) fun _ ok =>
      if ok then .done none
      else .failed (.message "Couldn't remove workgroup user. Unknown error occurred.")

end OESS.Access
