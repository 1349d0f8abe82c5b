import OESS.Access.Circuits
import Mathlib.Data.List.Nodup

namespace OESS.Access

open List Bool

namespace Directory

def decommissioned (d : Directory) (workgroup : Nat) : Bool :=
  d.workgroups.any fun w => w.id==workgroup && w.status==.decom

def purged (d : Directory) : Directory :=
  {d with memberships := d.memberships.filter fun m => !d.decommissioned m.workgroup}

end Directory

variable (db : Database)

def Database.purged : Database := {db with directory := db.directory.purged}

/-- The user is in an admin workgroup that is not decommissioned. -/
def KeepsAdmin (user : Nat) : Prop :=
  ∃ m∈db.directory.memberships,m.user=user∧db.directory.decommissioned m.workgroup=false∧
    db.adminWorkgroup m.workgroup=true

/-- Other workgroups give the user the same on the circuit. -/
def PermissionCovered (u : User) (c : Circuit) (permission : Permission) : Prop :=
  ∀ m∈db.directory.memberships,m.user=u.id → db.directory.decommissioned m.workgroup=true →
    Gives db c permission m →
    ∃ m'∈db.directory.memberships,m'.user=u.id∧db.directory.decommissioned m'.workgroup=false∧
      Gives db c permission m'

/-- A member of a decommissioned admin workgroup is in another one, or in the named one if that may
modify the circuit; a member of a decommissioned named one is in an admin workgroup if the circuit
is missing. -/
def ModifyCovered (u : User) (w : Workgroup) (circuit workgroup : Nat) : Prop :=
  (∀ m∈db.directory.memberships,m.user=u.id → db.directory.decommissioned m.workgroup=true →
    db.adminWorkgroup m.workgroup=true → KeepsAdmin db u.id∨
      (w.status=.active∧w.type≠.demo∧db.isUserInWorkgroup u.id workgroup=true∧
        ∃ c,db.circuits.find? (·.id==circuit)=some c∧c.workgroup=workgroup))∧
  (w.status=.decom → db.isUserInWorkgroup u.id workgroup=true →
    db.circuits.find? (·.id==circuit)=none → KeepsAdmin db u.id)

def Covered (username : String) (workgroup circuit : Nat) (permission : Permission) : Prop :=
  ∀ u,db.directory.activeUser username=some u →
    (∀ c,db.activeCircuit circuit=some c → PermissionCovered db u c permission)∧
    ∀ w,db.directory.fetchWorkgroup workgroup=some w → ModifyCovered db u w circuit workgroup

variable {d : Directory} {db : Database} {username : String} {user : Nat}

theorem getWorkgroups_active {w : Workgroup} (hw : w∈d.getWorkgroups user) :
    w∈d.workgroups∧w.status=.active := by
  unfold Directory.getWorkgroups at hw
  split_ifs at hw
  · simpa using mem_filter.mp hw
  · obtain ⟨hmem,h⟩ := mem_filter.mp hw
    simp only [and_eq_true,beq_iff_eq] at h
    exact ⟨hmem,h.1⟩

section Directory

variable (hkeyed : (d.workgroups.map Workgroup.id).Nodup)

include hkeyed

variable {w : Workgroup}

theorem decommissioned_iff (hw : w∈d.workgroups) :
    d.decommissioned w.id=true ↔ w.status=.decom := by
  simp only [Directory.decommissioned,any_eq_true,and_eq_true,beq_iff_eq]
  constructor
  · rintro ⟨v,hv,hid,hstatus⟩
    rwa [← inj_on_of_nodup_map hkeyed hv hw hid]
  · intro h
    exact ⟨w,hw,rfl,h⟩

theorem roleIn_purged (hw : w∈d.workgroups) (hactive : w.status=.active) (user : Nat) :
    d.purged.roleIn user w.id=d.roleIn user w.id := by
  have hnot : d.decommissioned w.id=false := by
    by_contra h
    have hdecom := (decommissioned_iff hkeyed hw).mp (by simpa using h)
    rw [hactive] at hdecom
    cases hdecom
  simp only [Directory.roleIn,Directory.purged,find?_filter]
  congr 2
  funext m
  by_cases hm : m.workgroup=w.id
  · simp [hm,hnot,beq_eq_decide_eq]
  · simp [hm]

theorem isMember_purged (hw : w∈d.workgroups) (user : Nat) :
    (w.status==.active && (d.purged.roleIn user w.id).isSome)=
      (w.status==.active && (d.roleIn user w.id).isSome) := by
  cases hs : w.status with
  | active => rw [roleIn_purged hkeyed hw hs]
  | decom => rfl

theorem isAdmin_purged (user : Nat) : d.purged.isAdmin user=d.isAdmin user := by
  have hgroup : ∀ w∈d.workgroups,
      (w.status==.active && w.type==.admin && (d.purged.roleIn user w.id).isSome)=
        (w.status==.active && w.type==.admin && (d.roleIn user w.id).isSome) := by
    intro w hw
    rw [Bool.and_right_comm,isMember_purged hkeyed hw,Bool.and_right_comm]
  rw [Bool.eq_iff_iff,Directory.isAdmin,Directory.isAdmin,any_eq_true,any_eq_true]
  exact exists_congr fun w => and_congr_right fun hw => by rw [hgroup w hw]

theorem getWorkgroups_purged (user : Nat) : d.purged.getWorkgroups user=d.getWorkgroups user := by
  rw [Directory.getWorkgroups,isAdmin_purged hkeyed]
  congr 1
  exact filter_congr fun w hw => isMember_purged hkeyed hw user

theorem adminRoles_purged (user : Nat) : d.purged.adminRoles user=d.adminRoles user := by
  rw [Directory.adminRoles,getWorkgroups_purged hkeyed]
  apply filterMap_congr
  intro w hw
  obtain ⟨hmem,hactive⟩ := getWorkgroups_active (mem_of_mem_filter hw)
  exact roleIn_purged hkeyed hmem hactive user

theorem hasSystemAccess_purged (username : String) (role : Role) :
    d.purged.hasSystemAccess username role=d.hasSystemAccess username role := by
  simp only [Directory.hasSystemAccess,isAdmin_purged hkeyed,adminRoles_purged hkeyed]
  rfl

theorem hasWorkgroupAccess_purged (username : String) (workgroup : Nat) (role : Role) :
    d.purged.hasWorkgroupAccess username workgroup role=
      d.hasWorkgroupAccess username workgroup role := by
  have huser : d.purged.activeUser username=d.activeUser username := rfl
  have hgroup : d.purged.activeWorkgroup workgroup=d.activeWorkgroup workgroup := rfl
  simp only [Directory.hasWorkgroupAccess,huser,hgroup,hasSystemAccess_purged hkeyed]
  cases d.activeUser username with
  | none => rfl
  | some u =>
    cases hw : d.activeWorkgroup workgroup with
    | none => rfl
    | some w =>
      obtain ⟨hmem,rfl,hstatus⟩ := activeWorkgroup_spec hw
      simp only [roleIn_purged hkeyed hmem hstatus]

end Directory

theorem mem_purged {m : Membership} : m∈db.purged.directory.memberships ↔
    m∈db.directory.memberships∧db.directory.decommissioned m.workgroup=false := by
  simp [Database.purged,Directory.purged]

theorem exists_purged (user : Nat) (P : Membership → Prop) :
    (∃ m∈db.purged.directory.memberships,m.user=user∧P m) ↔
      ∃ m∈db.directory.memberships,m.user=user∧db.directory.decommissioned m.workgroup=false∧P m := by
  simp only [mem_purged]
  exact exists_congr fun m => by tauto

theorem permissions_purged_iff (u : User) (c : Circuit) (permission : Permission) :
    (db.purged.permissions u.id c).get permission=(db.permissions u.id c).get permission ↔
      PermissionCovered db u c permission := by
  have hbefore : (db.permissions u.id c).get permission=true ↔ _ :=
    permissions_get_iff u.id c permission
  have hafter : (db.purged.permissions u.id c).get permission=true ↔
      ∃ m∈db.directory.memberships,m.user=u.id∧
        db.directory.decommissioned m.workgroup=false∧Gives db c permission m := by
    rw [permissions_get_iff]
    exact exists_purged u.id _
  rw [Bool.eq_iff_iff,hbefore,hafter]
  constructor
  · intro h m hm hu _ hg
    exact h.mpr ⟨m,hm,hu,hg⟩
  · intro h
    refine ⟨fun ⟨m,hm,hu,_,hg⟩ => ⟨m,hm,hu,hg⟩,?_⟩
    rintro ⟨m,hm,hu,hg⟩
    cases hd : db.directory.decommissioned m.workgroup with
    | false => exact ⟨m,hm,hu,hd,hg⟩
    | true => exact h m hm hu hd hg

theorem hasCircuitPermission_purged_iff (username : String) (circuit : Nat)
    (permission : Permission) : db.purged.hasCircuitPermission username circuit permission=
        db.hasCircuitPermission username circuit permission ↔
      ∀ u,db.directory.activeUser username=some u → ∀ c,db.activeCircuit circuit=some c →
        PermissionCovered db u c permission := by
  have huser : db.purged.directory.activeUser username=db.directory.activeUser username := rfl
  have hcircuit : db.purged.activeCircuit circuit=db.activeCircuit circuit := rfl
  simp only [Database.hasCircuitPermission,huser,hcircuit]
  cases hu : db.directory.activeUser username with
  | none => simp
  | some u =>
    cases hc : db.activeCircuit circuit with
    | none => simp
    | some c =>
      simp only [Option.some.injEq,forall_eq']
      rw [← permissions_purged_iff]
      cases (db.purged.permissions u.id c).get permission <;>
        cases (db.permissions u.id c).get permission <;> simp

theorem keepsAdmin_iff (user : Nat) :
    db.purged.getUserAdminStatus user=true ↔ KeepsAdmin db user := by
  rw [getUserAdminStatus_iff]
  exact exists_purged user _

variable {w : Workgroup} {workgroup circuit : Nat}

def modifyAnswer (admin member : Bool) (w : Workgroup) (workgroup : Nat) (c : Option Circuit) :
    Option Bool :=
  if admin=true then some true
  else if member=false then some false
  else
    match c with
    | none => none
    | some c =>
      if c.workgroup=workgroup then some (w.type != .demo && w.status != .decom)
      else some (w.type==.admin)

theorem canModifyCircuit_eq {u : User} (hw : db.directory.fetchWorkgroup workgroup=some w)
    (hu : db.directory.activeUser username=some u) : db.canModifyCircuit username circuit workgroup=
      modifyAnswer (db.getUserAdminStatus u.id) (db.isUserInWorkgroup u.id workgroup) w workgroup
        (db.circuits.find? (·.id==circuit)) := by
  obtain ⟨hfetch,hstatus⟩ := Option.filter_eq_some_iff.mp hu
  have hactive : u.status≠.decom := by simpa using hstatus
  simp only [Database.canModifyCircuit,hw,hfetch,if_neg hactive]
  rfl

theorem canModifyCircuit_of_inactive (hu : db.directory.activeUser username=none) :
    db.purged.canModifyCircuit username circuit workgroup=
      db.canModifyCircuit username circuit workgroup := by
  have hgroup : db.purged.directory.fetchWorkgroup workgroup=
      db.directory.fetchWorkgroup workgroup := rfl
  have huser : db.purged.directory.fetchUser username=db.directory.fetchUser username := rfl
  simp only [Database.canModifyCircuit,hgroup,huser]
  cases db.directory.fetchWorkgroup workgroup with
  | none => rfl
  | some w =>
    cases hf : db.directory.fetchUser username with
    | none => rfl
    | some u =>
      have hdecom : u.status=.decom := by
        by_contra h
        rw [Directory.activeUser,hf] at hu
        simp [h] at hu
      simp only [if_pos hdecom]

/-- The answer changes only for admins of decommissioned workgroups, and for members of one who ask
for a missing circuit. -/
theorem modifyAnswer_iff {admin admin' member : Bool} {c : Option Circuit}
    (hless : admin'=true → admin=true) (hmember : w.type=.admin → member=true → admin=true)
    (hmember' : w.type=.admin → member=true → w.status=.active → admin'=true) :
    modifyAnswer admin' (member && w.status != .decom) w workgroup c=
        modifyAnswer admin member w workgroup c ↔
      (admin=true → admin'=true∨(w.status=.active∧w.type≠.demo∧member=true∧
        ∃ c',c=some c'∧c'.workgroup=workgroup))∧
      (w.status=.decom → member=true → c=none → admin'=true) := by
  unfold modifyAnswer
  cases c with
  | none =>
    cases admin <;> cases admin' <;> cases member <;> cases hs : w.status <;> simp_all
  | some c =>
    by_cases howner : c.workgroup=workgroup
    all_goals
      cases admin <;> cases admin' <;> cases member <;> cases hs : w.status <;>
        cases ht : w.type <;> simp_all

theorem isUserInWorkgroup_purged (hw : db.directory.fetchWorkgroup workgroup=some w) (user : Nat) :
    db.purged.isUserInWorkgroup user workgroup=
      (db.isUserInWorkgroup user workgroup && w.status != .decom) := by
  have hmem : w∈db.directory.workgroups := mem_of_find?_eq_some hw
  have hid : w.id=workgroup := by simpa using find?_some hw
  have hdecom : db.directory.decommissioned workgroup=false ↔ w.status≠.decom := by
    have h := decommissioned_iff db.keyed hmem
    rw [hid] at h
    rw [← Bool.not_eq_true,h]
  rw [Bool.eq_iff_iff,Bool.and_eq_true,isUserInWorkgroup_iff,isUserInWorkgroup_iff,bne_iff_ne]
  constructor
  · rintro ⟨m,hm,hu,hmw⟩
    obtain ⟨hm,hd⟩ := mem_purged.mp hm
    exact ⟨⟨m,hm,hu,hmw⟩,hdecom.mp (hmw ▸ hd)⟩
  · rintro ⟨⟨m,hm,hu,hmw⟩,hactive⟩
    exact ⟨m,mem_purged.mpr ⟨hm,hmw.symm ▸ hdecom.mpr hactive⟩,hu,hmw⟩

theorem adminStatus_of_member (hw : db.directory.fetchWorkgroup workgroup=some w)
    (htype : w.type=.admin) (h : db.isUserInWorkgroup user workgroup=true) :
    db.getUserAdminStatus user=true := by
  obtain ⟨m,hm,hu,hmw⟩ := (isUserInWorkgroup_iff user workgroup).mp h
  refine (getUserAdminStatus_iff user).mpr ⟨m,hm,hu,?_⟩
  have hid : w.id=workgroup := by simpa using find?_some hw
  exact any_eq_true.mpr ⟨w,mem_of_find?_eq_some hw,by simp [hid,hmw,htype]⟩

theorem canModifyCircuit_purged_iff {u : User} (hu : db.directory.activeUser username=some u)
    (hw : db.directory.fetchWorkgroup workgroup=some w) :
    db.purged.canModifyCircuit username circuit workgroup=
        db.canModifyCircuit username circuit workgroup ↔
      ModifyCovered db u w circuit workgroup := by
  have hafter : db.purged.canModifyCircuit username circuit workgroup=
      modifyAnswer (db.purged.getUserAdminStatus u.id) (db.purged.isUserInWorkgroup u.id workgroup)
        w workgroup (db.circuits.find? (·.id==circuit)) := canModifyCircuit_eq hw hu
  have hless : db.purged.getUserAdminStatus u.id=true → db.getUserAdminStatus u.id=true := by
    intro h
    obtain ⟨m,hm,hmu,_,ha⟩ := (keepsAdmin_iff u.id).mp h
    exact (getUserAdminStatus_iff u.id).mpr ⟨m,hm,hmu,ha⟩
  have hmember' (htype : w.type=.admin) (hm : db.isUserInWorkgroup u.id workgroup=true)
      (hs : w.status=.active) : db.purged.getUserAdminStatus u.id=true := by
    have hin : db.purged.isUserInWorkgroup u.id workgroup=true := by
      simp [isUserInWorkgroup_purged hw,hm,hs]
    have hgroup : db.purged.directory.fetchWorkgroup workgroup=some w := hw
    exact adminStatus_of_member hgroup htype hin
  rw [hafter,canModifyCircuit_eq hw hu,isUserInWorkgroup_purged hw,
    modifyAnswer_iff hless (fun htype => adminStatus_of_member hw htype) hmember']
  simp only [keepsAdmin_iff]
  refine and_congr_left fun _ => ?_
  rw [getUserAdminStatus_iff]
  constructor
  · intro h m hm hmu _ ha
    exact h ⟨m,hm,hmu,ha⟩
  · rintro h ⟨m,hm,hmu,ha⟩
    cases hd : db.directory.decommissioned m.workgroup with
    | false => exact Or.inl ⟨m,hm,hmu,hd,ha⟩
    | true => exact h m hm hmu hd ha

/-- Without the memberships of decommissioned workgroups each of the four answers is the same
exactly where other workgroups give the same. -/
theorem decommissioned_memberships_inert (db : Database) (username : String) (role : Role)
    (workgroup circuit : Nat) (permission : Permission) :
    (db.purged.directory.hasSystemAccess username role=db.directory.hasSystemAccess username role∧
      db.purged.directory.hasWorkgroupAccess username workgroup role=
        db.directory.hasWorkgroupAccess username workgroup role∧
      db.purged.hasCircuitPermission username circuit permission=
        db.hasCircuitPermission username circuit permission∧
      db.purged.canModifyCircuit username circuit workgroup=
        db.canModifyCircuit username circuit workgroup) ↔
    Covered db username workgroup circuit permission := by
  have hsystem := hasSystemAccess_purged db.keyed username role
  have hworkgroup := hasWorkgroupAccess_purged db.keyed username workgroup role
  rw [hasCircuitPermission_purged_iff]
  constructor
  · rintro ⟨_,_,hpermission,hmodify⟩ u hu
    exact ⟨hpermission u hu,fun w hw => (canModifyCircuit_purged_iff hu hw).mp hmodify⟩
  · intro h
    refine ⟨hsystem,hworkgroup,fun u hu => (h u hu).1,?_⟩
    cases hu : db.directory.activeUser username with
    | none => exact canModifyCircuit_of_inactive hu
    | some u =>
      cases hw : db.directory.fetchWorkgroup workgroup with
      | none =>
        have hgroup : db.purged.directory.fetchWorkgroup workgroup=none := hw
        simp only [Database.canModifyCircuit,hw,hgroup]
      | some w => exact (canModifyCircuit_purged_iff hu hw).mpr ((h u hu).2 w hw)

/-- Members of a decommissioned admin workgroup and of a decommissioned owner. -/
def retired : Database where
  directory := {
    users := [⟨1,"former",.active⟩,⟨2,"member",.active⟩]
    workgroups := [⟨1,.admin,.decom⟩,⟨2,.normal,.decom⟩,⟨3,.normal,.active⟩]
    memberships := [⟨1,1,.normal⟩,⟨2,2,.normal⟩] }
  circuits := [⟨7,2,false,true⟩]
  interfaces := []
  circuitEps := []
  keyed := by decide

/-- The former admin may change every circuit. -/
theorem decommissioned_memberships_grant : retired.hasCircuitPermission "former" 7 .update=.ok ()∧
    retired.purged.hasCircuitPermission "former" 7 .update=
      .error "User former doesn't have update permission for circuit 7."∧
    retired.canModifyCircuit "former" 7 3=some true∧
    retired.purged.canModifyCircuit "former" 7 3=some false∧
    retired.hasCircuitPermission "member" 7 .update=.ok ()∧
    retired.purged.hasCircuitPermission "member" 7 .update=
      .error "User member doesn't have update permission for circuit 7." := by
  decide +kernel

end OESS.Access
