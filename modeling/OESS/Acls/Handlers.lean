import OESS.Acls.Table
import OESS.Access.Handlers
import OESS.Framework.Loops

namespace OESS.Acls

open OESS.Access (Directory Failure granted)

structure Interface where
  id : Nat
  workgroup : Option Nat

structure Store where
  directory : Directory
  interfaces : List Interface
  acls : Table

/-- A workgroup or entity of -1 is `some none`. -/
structure CreateRequest where
  username : String
  (workgroup entity : Option (Option Nat))
  interface : Nat
  allowDeny : AllowDeny
  evalPosition : Option Int
  vlanStart : Int
  vlanEnd : Option Int
  notes : Option String
  completes : Bool

structure EditRequest where
  username : String
  id : Nat
  (workgroup entity : Option (Option Nat))
  interface : Option Nat
  allowDeny : AllowDeny
  (evalPosition vlanStart : Int)
  vlanEnd : Option Int
  notes : Option String
  completes : Bool

structure DeleteRequest where
  username : String
  id : Nat
  completes : Bool

structure MigrateRequest where
  username : String
  (src dst : Nat)
  completes : Bool

/-- A parameter of zero is as good as none. -/
def orUndef (v : Option Int) : Option Int := v.filter (· != 0)

def textOrUndef (v : Option String) : Option String := v.filter fun s => s != "" && s != "0"

/-- A parameter that is not given, or is zero, stands for -1. -/
def orAll (v : Option (Option Nat)) : Option Nat := v.join.filter (· != 0)

def CreateRequest.row (r : CreateRequest) : Acl where
  id := 0
  workgroup := orAll r.workgroup
  interface := r.interface
  allowDeny := r.allowDeny
  evalPosition := 0
  vlanStart := r.vlanStart
  vlanEnd := (orUndef r.vlanEnd).or (some r.vlanStart)
  notes := textOrUndef r.notes
  entity := orAll r.entity

def EditRequest.model (r : EditRequest) : Model where
  workgroup := r.workgroup
  interface := r.interface
  allowDeny := some r.allowDeny
  evalPosition := some r.evalPosition
  vlanStart := some r.vlanStart
  vlanEnd := r.vlanEnd
  notes := r.notes
  entity := r.entity

def ensure (ok : Bool) (failure : Failure) : Except Failure Unit :=
  if ok=true then .ok () else .error failure

/-- Where an edit from `old` to `new` puts another ACL, if it moves it. -/
def movedTo (old new position : Int) : Option Int :=
  if new<old then
    if new ≤ position∧position<old then some (position+10) else none
  else if old<new then
    if position ≤ new∧old<position then some (position-10) else none
  else none

def moveOver (acl : Acl) (new : Int) (a : Acl) : Option Model :=
  if a.id=acl.id then none
  else
    (movedTo acl.evalPosition new a.evalPosition).map fun position =>
      {Model.fromRow a with evalPosition := some position}

def moveOnto (interface : Nat) (a : Acl) : Option Model :=
  some {Model.fromRow a with interface := some interface}

namespace Store

variable (s : Store)

def fetchInterface (id : Nat) : Option Interface := s.interfaces.find? fun i => i.id==id

def owner (interface : Nat) : Option Nat := (s.fetchInterface interface).bind Interface.workgroup

def workgroupAccess (username : String) (workgroup : Option Nat) : Except String Unit :=
  match workgroup with
  | none => .error "Required argument 'workgroup_id' is missing."
  | some w => s.directory.hasWorkgroupAccess username w .normal

/-- The checks with which the three ACL methods begin. -/
def authorise (username : String) (workgroup : Option Nat) : Except Failure Unit :=
  match s.directory.fetchUser username with
  | none => .error (.message ("Couldn't find user "++username++"."))
  | some _ =>
    match s.workgroupAccess username workgroup with
    | .ok _ => .ok ()
    | .error text =>
      if granted (s.directory.hasSystemAccess username .normal)=true then .ok ()
      else .error (.message text)

def createAcl (r : CreateRequest) : Except Failure Store := do
  s.authorise r.username (s.owner r.interface)
  ensure ((s.owner r.interface).isSome && r.completes) (.message "Couldn't create ACL.")
  match s.acls.create r.row (orUndef r.evalPosition) with
  | .error _ => throw (.message "Couldn't create ACL.")
  | .ok acls => return {s with acls}

/-- The check is for the interface that the ACL is on. -/
def editAcl (r : EditRequest) : Except Failure Store :=
  match s.acls.fetch r.id with
  | none => do
    s.authorise r.username none
    return s
  | some acl =>
    match s.fetchInterface acl.interface with
    | none => throw .died
    | some interface => do
      s.authorise r.username interface.workgroup
      ensure (r.interface.all fun i => (s.fetchInterface i).isSome) .died
      ensure r.completes .incomplete
      let moved := s.acls.updateAll (moveOver acl r.evalPosition) (s.acls.fetchAll acl.interface)
      return {s with acls := moved.update r.id r.model}

def deleteAcl (r : DeleteRequest) : Except Failure Store :=
  match s.acls.fetch r.id with
  | none => throw .incomplete
  | some acl =>
    match s.fetchInterface acl.interface with
    | none => throw .died
    | some interface => do
      s.authorise r.username interface.workgroup
      ensure interface.workgroup.isSome (.message "Required argument \"workgroup_id\" is missing")
      ensure r.completes .incomplete
      match s.acls.remove r.id with
      | .error text => throw (.message text)
      | .ok acls => return {s with acls}

/-- The destination takes the owner of the source, which then has none. -/
def migratedInterface (src : Interface) (dst : Nat) (i : Interface) : Interface :=
  if i.id=src.id then {i with workgroup := none}
  else if i.id=dst then {i with workgroup := src.workgroup.or i.workgroup}
  else i

/-- What follows the commit changes no table. -/
def migrateInterface (r : MigrateRequest) : Except Failure Store :=
  match s.directory.fetchUser r.username with
  | none => throw (.message ("Couldn't find user "++r.username++"."))
  | some _ =>
    match s.directory.hasSystemAccess r.username .normal with
    | .error text => throw (.message text)
    | .ok _ =>
      match s.fetchInterface r.src with
      | none => throw (.message ("Couldn't find source interface "++toString r.src++"."))
      | some src => do
        ensure (s.fetchInterface r.dst).isSome
          (.message ("Couldn't find destination interface "++toString r.dst++"."))
        ensure r.completes .incomplete
        return {s with
          interfaces := s.interfaces.map (migratedInterface src r.dst)
          acls := s.acls.updateAll (moveOnto r.dst) (s.acls.fetchAll r.src)}

end Store

inductive Event where
  | create (r : CreateRequest)
  | edit (r : EditRequest)
  | delete (r : DeleteRequest)
  | migrate (r : MigrateRequest)

namespace Store

def handle (s : Store) : Event → Except Failure Store
  | .create r => s.createAcl r
  | .edit r => s.editAcl r
  | .delete r => s.deleteAcl r
  | .migrate r => s.migrateInterface r

def step (s : Store) (e : Event) : Store :=
  match s.handle e with
  | .ok s' => s'
  | .error _ => s

end Store

/-- Normal access in the owner of the interface, or to the system. -/
def Authorised (s : Store) (username : String) (interface : Nat) : Prop :=
  (∃ w,s.owner interface=some w∧ granted (s.directory.hasWorkgroupAccess username w .normal)=true)∨
    granted (s.directory.hasSystemAccess username .normal)=true

variable {s s' : Store} {username : String}

theorem Store.authorise_ok {interface : Nat}
    (h : s.authorise username (s.owner interface)=.ok ()) : Authorised s username interface := by
  unfold Store.authorise at h
  split at h
  · cases h
  split at h
  next hw =>
    cases ho : s.owner interface with
    | none => simp [ho,Store.workgroupAccess] at hw
    | some w =>
      simp only [ho,Store.workgroupAccess] at hw
      exact .inl ⟨w,ho,by simp [hw]⟩
  · split_ifs at h with hsys
    exact .inr hsys

theorem Store.createAcl_ok {r : CreateRequest} (h : s.createAcl r=.ok s') :
    ∃ t,Authorised s r.username r.interface∧s.acls.create r.row (orUndef r.evalPosition)=.ok t∧
      s'={s with acls := t} := by
  obtain ⟨_,haccess,h⟩ := Loops.bind_eq_ok h
  obtain ⟨_,_,h⟩ := Loops.bind_eq_ok h
  split at h
  · cases h
  next t hc =>
    cases h
    exact ⟨t,Store.authorise_ok haccess,hc,rfl⟩

theorem Store.authorise_fetched {i : Nat} {interface : Interface}
    (hi : s.fetchInterface i=some interface)
    (h : s.authorise username interface.workgroup=.ok ()) : Authorised s username i := by
  have howner : s.owner i=interface.workgroup := by simp [Store.owner,hi]
  rw [← howner] at h
  exact Store.authorise_ok h

theorem Store.editAcl_ok {r : EditRequest} (h : s.editAcl r=.ok s') : (s.acls.fetch r.id=none∧s'=s)∨
    ∃ acl,s.acls.fetch r.id=some acl∧Authorised s r.username acl.interface∧
      s'={s with acls := (s.acls.updateAll (moveOver acl r.evalPosition)
        (s.acls.fetchAll acl.interface)).update r.id r.model} := by
  unfold Store.editAcl at h
  split at h
  next ha =>
    obtain ⟨_,_,h⟩ := Loops.bind_eq_ok h
    cases h
    exact .inl ⟨ha,rfl⟩
  next acl ha =>
    split at h
    · cases h
    next interface hi =>
      obtain ⟨_,haccess,h⟩ := Loops.bind_eq_ok h
      obtain ⟨_,_,h⟩ := Loops.bind_eq_ok h
      obtain ⟨_,_,h⟩ := Loops.bind_eq_ok h
      cases h
      exact .inr ⟨acl,ha,Store.authorise_fetched hi haccess,rfl⟩

theorem Store.deleteAcl_ok {r : DeleteRequest} (h : s.deleteAcl r=.ok s') :
    ∃ acl t,s.acls.fetch r.id=some acl∧Authorised s r.username acl.interface∧
      s.acls.remove r.id=.ok t∧s'={s with acls := t} := by
  unfold Store.deleteAcl at h
  split at h
  · cases h
  next acl ha =>
    split at h
    · cases h
    next interface hi =>
      obtain ⟨_,haccess,h⟩ := Loops.bind_eq_ok h
      obtain ⟨_,_,h⟩ := Loops.bind_eq_ok h
      obtain ⟨_,_,h⟩ := Loops.bind_eq_ok h
      split at h
      · cases h
      next t hr =>
        cases h
        exact ⟨acl,t,ha,Store.authorise_fetched hi haccess,hr,rfl⟩

theorem Store.migrateInterface_ok {r : MigrateRequest} (h : s.migrateInterface r=.ok s') :
    s'.acls=s.acls.updateAll (moveOnto r.dst) (s.acls.fetchAll r.src) := by
  unfold Store.migrateInterface at h
  split at h
  · cases h
  split at h
  · cases h
  split at h
  · cases h
  obtain ⟨_,_,h⟩ := Loops.bind_eq_ok h
  obtain ⟨_,_,h⟩ := Loops.bind_eq_ok h
  cases h
  rfl

end OESS.Acls
