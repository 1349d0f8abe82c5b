import OESS.Access.Roles

namespace OESS.Access

inductive Permission where
  | create | read | update | delete
  deriving DecidableEq

def Permission.text : Permission → String
  | .create => "create"
  | .read => "read"
  | .update => "update"
  | .delete => "delete"

structure Permissions where
  (create read update delete : Bool)

namespace Permissions

def undefined : Permissions := ⟨false,false,false,false⟩

variable (p : Permissions)

def get : Permission → Bool
  | .create => p.create
  | .read => p.read
  | .update => p.update
  | .delete => p.delete

def give : Role → Permissions
  | .readOnly => {p with read := true}
  | _ => ⟨true,true,true,true⟩

/-- Both branches for owners of interfaces set `read` alone. -/
def giveRead (_ : Role) : Permissions := {p with read := true}

end Permissions

/-- A circuit row; `instantiated` says that it has a current instantiation. -/
structure Circuit where
  (id workgroup : Nat)
  (decom instantiated : Bool)

structure InterfaceRow where
  id : Nat
  workgroup : Option Nat

structure CircuitEp where
  (circuit interface : Nat)
  current : Bool

structure Database where
  directory : Directory
  circuits : List Circuit
  interfaces : List InterfaceRow
  circuitEps : List CircuitEp
  keyed : (directory.workgroups.map Workgroup.id).Nodup

namespace Database

variable (db : Database)

def fetchCircuit (id : Nat) : Option Circuit :=
  db.circuits.find? fun c => c.id==id && c.instantiated

def activeCircuit (id : Nat) : Option Circuit := (db.fetchCircuit id).filter fun c => !c.decom

def adminWorkgroup (workgroup : Nat) : Bool :=
  db.directory.workgroups.any fun w => w.id==workgroup && w.type==.admin

def adminResults (user : Nat) : List Role :=
  (db.directory.memberships.filter fun m =>
    m.user==user && db.adminWorkgroup m.workgroup).map Membership.role

def workgroupResults (user workgroup : Nat) : List Role :=
  (db.directory.memberships.filter fun m =>
    m.user==user && m.workgroup==workgroup).map Membership.role

def endsAt (workgroup circuit : Nat) : List InterfaceRow :=
  db.interfaces.filter fun i => i.workgroup==some workgroup &&
    db.circuitEps.any fun ep => ep.interface==i.id && ep.current && ep.circuit==circuit

def interfaceResults (user circuit : Nat) : List Role :=
  (db.directory.memberships.filter (·.user==user)).flatMap fun m =>
    (db.endsAt m.workgroup circuit).map fun _ => m.role

def permissions (user : Nat) (c : Circuit) : Permissions :=
  let admin := (db.adminResults user).foldl Permissions.give Permissions.undefined
  let owner := (db.workgroupResults user c.workgroup).foldl Permissions.give admin
  (db.interfaceResults user c.id).foldl Permissions.giveRead owner

def hasCircuitPermission (username : String) (circuit : Nat) (permission : Permission) :
    Except String Unit :=
  match db.directory.activeUser username with
  | none => .error "Invalid or decommissioned user specified."
  | some u =>
    match db.activeCircuit circuit with
    | none => .error "Invalid or decommissioned circuit specified."
    | some c =>
      if (db.permissions u.id c).get permission=true then .ok ()
      else .error ("User "++u.username++" doesn't have "++permission.text++
        " permission for circuit "++toString circuit++".")

def getUserAdminStatus (user : Nat) : Bool :=
  db.directory.memberships.any fun m => m.user==user && db.adminWorkgroup m.workgroup

def isUserInWorkgroup (user workgroup : Nat) : Bool :=
  db.directory.memberships.any fun m => m.workgroup==workgroup && m.user==user

/-- The user table has no type: no branch for read-only users. -/
def canModifyCircuit (username : String) (circuit workgroup : Nat) : Option Bool :=
  match db.directory.fetchWorkgroup workgroup with
  | none => none
  | some w =>
    match db.directory.fetchUser username with
    | none => none
    | some u =>
      if u.status=.decom then some false
      else if db.getUserAdminStatus u.id=true then some true
      else if db.isUserInWorkgroup u.id workgroup=false then some false
      else
        match db.circuits.find? fun c => c.id==circuit with
        | none => none
        | some c =>
          if c.workgroup=workgroup then
            some (w.type != .demo && w.status != .decom)
          else some (w.type==.admin)

end Database

variable {db : Database}

/-- What a role gives in an admin workgroup or in the owner. -/
def Role.gives (r : Role) (permission : Permission) : Bool := r != .readOnly || permission==.read

theorem get_foldl_give (roles : List Role) (p : Permissions) (permission : Permission) :
    (roles.foldl Permissions.give p).get permission=true ↔
      p.get permission=true∨∃ r∈roles,r.gives permission=true := by
  induction roles generalizing p with
  | nil => simp
  | cons r roles ih =>
    have hfirst : (p.give r).get permission=true ↔
        p.get permission=true∨r.gives permission=true := by
      cases r <;> cases permission <;> simp [Permissions.give,Permissions.get,Role.gives]
    rw [List.foldl_cons,ih,hfirst]
    simp only [List.mem_cons,exists_eq_or_imp,or_assoc]

theorem get_foldl_giveRead (roles : List Role) (p : Permissions) (permission : Permission) :
    (roles.foldl Permissions.giveRead p).get permission=true ↔
      p.get permission=true∨(permission=.read∧roles≠[]) := by
  induction roles generalizing p with
  | nil => simp
  | cons r roles ih =>
    have hfirst : (p.giveRead r).get permission=true ↔ p.get permission=true∨permission=.read := by
      cases permission <;> simp [Permissions.giveRead,Permissions.get]
    rw [List.foldl_cons,ih]
    tauto

def Gives (db : Database) (c : Circuit) (permission : Permission) (m : Membership) : Prop :=
  (m.role.gives permission=true∧(db.adminWorkgroup m.workgroup=true∨m.workgroup=c.workgroup))∨
    (permission=.read∧db.endsAt m.workgroup c.id≠[])
  deriving Decidable

theorem interfaceResults_ne_nil (user circuit : Nat) : db.interfaceResults user circuit≠[] ↔
      ∃ m∈db.directory.memberships,m.user=user∧db.endsAt m.workgroup circuit≠[] := by
  simp [Database.interfaceResults]

/-- A permission is always given by one of the user's memberships. -/
theorem permissions_get_iff (user : Nat) (c : Circuit) (permission : Permission) :
    (db.permissions user c).get permission=true ↔
      ∃ m∈db.directory.memberships,m.user=user∧Gives db c permission m := by
  have hnothing : Permissions.undefined.get permission=false := by cases permission <;> rfl
  have hadmin : (∃ r∈db.adminResults user,r.gives permission=true) ↔
      ∃ m∈db.directory.memberships,m.user=user∧db.adminWorkgroup m.workgroup=true∧
        m.role.gives permission=true := by
    simp [Database.adminResults,and_assoc]
  have howner : (∃ r∈db.workgroupResults user c.workgroup,r.gives permission=true) ↔
      ∃ m∈db.directory.memberships,m.user=user∧m.workgroup=c.workgroup∧
        m.role.gives permission=true := by
    simp [Database.workgroupResults,and_assoc]
  rw [Database.permissions,get_foldl_giveRead,get_foldl_give,get_foldl_give,hnothing,hadmin,howner,
    interfaceResults_ne_nil]
  constructor
  · rintro (((h | ⟨m,hm,hu,ha,hr⟩) | ⟨m,hm,hu,ho,hr⟩) | ⟨hread,m,hm,hu,hi⟩)
    · cases h
    · exact ⟨m,hm,hu,.inl ⟨hr,.inl ha⟩⟩
    · exact ⟨m,hm,hu,.inl ⟨hr,.inr ho⟩⟩
    · exact ⟨m,hm,hu,.inr ⟨hread,hi⟩⟩
  · rintro ⟨m,hm,hu,⟨hr,ha | ho⟩ | ⟨hread,hi⟩⟩
    · exact .inl (.inl (.inr ⟨m,hm,hu,ha,hr⟩))
    · exact .inl (.inr ⟨m,hm,hu,ho,hr⟩)
    · exact .inr ⟨hread,m,hm,hu,hi⟩

theorem getUserAdminStatus_iff (user : Nat) : db.getUserAdminStatus user=true ↔
    ∃ m∈db.directory.memberships,m.user=user∧db.adminWorkgroup m.workgroup=true := by
  simp [Database.getUserAdminStatus]

theorem isUserInWorkgroup_iff (user workgroup : Nat) : db.isUserInWorkgroup user workgroup=true ↔
      ∃ m∈db.directory.memberships,m.user=user∧m.workgroup=workgroup := by
  simp [Database.isUserInWorkgroup,and_comm]

end OESS.Access
