import Mathlib.Data.List.Basic

namespace OESS.Access

open List

inductive Role where
  | readOnly | normal | admin
  deriving DecidableEq

inductive Status where
  | active | decom
  deriving DecidableEq

inductive WorkgroupType where
  | demo | normal | admin
  deriving DecidableEq

structure User where
  id : Nat
  username : String
  status : Status

structure Workgroup where
  id : Nat
  type : WorkgroupType
  status : Status

structure Membership where
  (workgroup user : Nat)
  role : Role

/-- The users, the workgroups and who is in which. -/
structure Directory where
  users : List User
  workgroups : List Workgroup
  memberships : List Membership

namespace Directory

variable (d : Directory) (username : String)

def fetchUser : Option User := d.users.find? fun u => u.username==username

def fetchWorkgroup (id : Nat) : Option Workgroup := d.workgroups.find? fun w => w.id==id

def roleIn (user workgroup : Nat) : Option Role :=
  (d.memberships.find? fun m => m.user==user && m.workgroup==workgroup).map Membership.role

variable (user : Nat)

/-- The user is in an active admin workgroup; the user's own column is not read. -/
def isAdmin : Bool :=
  d.workgroups.any fun w => w.status==.active && w.type==.admin && (d.roleIn user w.id).isSome

/-- A member of an admin workgroup gets every active workgroup. -/
def getWorkgroups : List Workgroup :=
  if d.isAdmin user=true then d.workgroups.filter fun w => w.status==.active
  else d.workgroups.filter fun w => w.status==.active && (d.roleIn user w.id).isSome

/-- The roles met by the loop over the user's admin workgroups. -/
def adminRoles : List Role :=
  ((d.getWorkgroups user).filter (·.type==.admin)).filterMap fun w => d.roleIn user w.id

def activeUser : Option User := (d.fetchUser username).filter fun u => u.status != .decom

def hasSystemAccess (role : Role) : Except String Unit :=
  match d.activeUser username with
  | none => .error "Invalid or decommissioned user specified."
  | some u =>
    if d.isAdmin u.id=true then
      let normalAccess := (d.adminRoles u.id).any fun r => r==.normal || r==.admin
      let adminAccess := (d.adminRoles u.id).any fun r => r==.admin
      if role=.readOnly∨(role=.normal∧normalAccess=true)∨(role=.admin∧adminAccess=true) then
        .ok ()
      else .error ("User "++u.username++" does not have the proper level of access.")
    else .error ("User "++u.username++" does not have system admin privileges.")

def activeWorkgroup (id : Nat) : Option Workgroup :=
  (d.fetchWorkgroup id).filter fun w => w.status != .decom

/-- Any role but read-only asks for normal access. -/
def systemRole : Role → Role
  | .readOnly => .readOnly
  | _ => .normal

def roleAllows (held : Option Role) (role : Role) : Bool :=
  match role,held with
  | _,none => false
  | .readOnly,some _ => true
  | .normal,some r => r==.normal || r==.admin
  | .admin,some r => r==.admin

def hasWorkgroupAccess (workgroup : Nat) (role : Role) : Except String Unit :=
  match d.activeUser username with
  | none => .error "Invalid or decommissioned user specified."
  | some u =>
    match d.activeWorkgroup workgroup with
    | none => .error "Invalid or decommissioned workgroup specified."
    | some w =>
      if w.type=.admin then d.hasSystemAccess username role
      else if roleAllows (d.roleIn u.id workgroup) role=true then .ok ()
      else
        match d.hasSystemAccess username (systemRole role) with
        | .ok _ => .ok ()
        | .error _ =>
          .error ("User "++u.username++" does not have the proper access permissions")

def inWorkgroup (user workgroup : Nat) : Bool := (d.getWorkgroups user).any fun w => w.id==workgroup

def loadedAdmin : Bool := (d.getWorkgroups user).any fun w => w.type==.admin

end Directory

def granted (result : Except String Unit) : Bool :=
  match result with
  | .ok _ => true
  | .error _ => false

@[simp] theorem granted_ok (v : Unit) : granted (.ok v)=true := rfl

@[simp] theorem granted_error (text : String) : granted (.error text)=false := rfl

variable {d : Directory} {username : String} {role : Role} {workgroup : Nat} {u : User}

theorem isAdmin_of_systemAccess (hu : d.activeUser username=some u)
    (h : granted (d.hasSystemAccess username role)=true) : d.isAdmin u.id=true := by
  by_contra hadmin
  simp [Directory.hasSystemAccess,hu,hadmin] at h

variable {w : Workgroup}

theorem activeWorkgroup_spec (hw : d.activeWorkgroup workgroup=some w) :
    w∈d.workgroups∧w.id=workgroup∧w.status=.active := by
  obtain ⟨hfetch,hstatus⟩ := Option.filter_eq_some_iff.mp hw
  have hmem := mem_of_find?_eq_some hfetch
  have hid := find?_some hfetch
  refine ⟨hmem,by simpa using hid,?_⟩
  cases hs : w.status with
  | active => rfl
  | decom => simp [hs] at hstatus

theorem inWorkgroup_of_admin (hw : d.activeWorkgroup workgroup=some w) {user : Nat}
    (hadmin : d.isAdmin user=true) : d.inWorkgroup user workgroup=true := by
  obtain ⟨hmem,hid,hstatus⟩ := activeWorkgroup_spec hw
  refine any_eq_true.mpr ⟨w,?_,by simp [hid]⟩
  simp [Directory.getWorkgroups,hadmin,hmem,hstatus]

theorem inWorkgroup_of_member (hw : d.activeWorkgroup workgroup=some w) {user : Nat}
    (hrole : (d.roleIn user workgroup).isSome=true) : d.inWorkgroup user workgroup=true := by
  by_cases hadmin : d.isAdmin user=true
  · exact inWorkgroup_of_admin hw hadmin
  · obtain ⟨hmem,hid,hstatus⟩ := activeWorkgroup_spec hw
    refine any_eq_true.mpr ⟨w,?_,by simp [hid]⟩
    simp [Directory.getWorkgroups,hadmin,hmem,hstatus,hid,hrole]

/-- Access comes from a membership there or in an admin workgroup. -/
theorem inWorkgroup_of_access (hu : d.activeUser username=some u)
    (h : granted (d.hasWorkgroupAccess username workgroup role)=true) :
    d.inWorkgroup u.id workgroup=true := by
  unfold Directory.hasWorkgroupAccess at h
  cases hw : d.activeWorkgroup workgroup with
  | none => simp [hu,hw] at h
  | some w =>
    simp only [hu,hw] at h
    by_cases htype : w.type=.admin
    · rw [if_pos htype] at h
      exact inWorkgroup_of_admin hw (isAdmin_of_systemAccess hu h)
    rw [if_neg htype] at h
    by_cases hallow : Directory.roleAllows (d.roleIn u.id workgroup) role=true
    · apply inWorkgroup_of_member hw
      cases hr : d.roleIn u.id workgroup with
      | none => cases role <;> simp [hr,Directory.roleAllows] at hallow
      | some r => rfl
    · rw [if_neg hallow] at h
      cases hs : d.hasSystemAccess username (Directory.systemRole role) with
      | error e => simp [hs] at h
      | ok v =>
        have hsys : granted (d.hasSystemAccess username (Directory.systemRole role))=true := by
          simp [hs]
        exact inWorkgroup_of_admin hw (isAdmin_of_systemAccess hu hsys)

end OESS.Access
