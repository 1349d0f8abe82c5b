import OESS.Access.Handlers

namespace OESS.Access

variable (s : Service) (m : Method) (r : Request)

def Authorised (username : String) (c : Connection) : Prop :=
  granted (s.directory.hasWorkgroupAccess username c.workgroup .normal)=true∨
    granted (s.directory.hasSystemAccess username .normal)=true

/-- The user is authorised for the connection committed. -/
def OwnerOnly : Prop := ∀ c,s.handle m r=.ok c → Authorised s r.username c

/-- Only the removal of a circuit asks about its owner. -/
def Permitted (c : Connection) : Prop :=
  match m with
  | .provision => granted (s.directory.hasWorkgroupAccess r.username r.workgroup .normal)=true∨
      granted (s.directory.hasSystemAccess r.username .normal)=true
  | .remove => Authorised s r.username c
  | _ => s.networkType.layer3=true∧
      granted (s.directory.hasWorkgroupAccess r.username r.workgroup .normal)=true

variable {d : Directory} {username : String}

theorem fetchUser_of_activeUser {u : User} (hu : d.activeUser username=some u) :
    d.fetchUser username=some u :=
  (Option.filter_eq_some_iff.mp hu).1

theorem activeUser_of_system {role : Role} (h : granted (d.hasSystemAccess username role)=true) :
    ∃ u,d.activeUser username=some u := by
  cases hu : d.activeUser username with
  | none => simp [Directory.hasSystemAccess,hu] at h
  | some u => exact ⟨u,rfl⟩

theorem activeUser_of_workgroup {workgroup : Nat} {role : Role}
    (h : granted (d.hasWorkgroupAccess username workgroup role)=true) :
    ∃ u,d.activeUser username=some u := by
  cases hu : d.activeUser username with
  | none => simp [Directory.hasWorkgroupAccess,hu] at h
  | some u => exact ⟨u,rfl⟩

theorem Permitted.activeUser {s : Service} {m : Method} {r : Request} {c : Connection}
    (h : Permitted s m r c) : ∃ u,s.directory.activeUser r.username=some u := by
  cases m with
  | provision | remove => exact h.elim activeUser_of_workgroup activeUser_of_system
  | provisionVrf | removeVrf => exact activeUser_of_workgroup h.2

def Method.written (m : Method) (r : Request) (user : User) (c : Connection) : Connection :=
  match m with
  | .provision | .provisionVrf => Service.modified r user c
  | _ => Service.decommissioned user c

theorem written_workgroup (user : User) (c : Connection) :
    (m.written r user c).workgroup=c.workgroup := by
  cases m <;> rfl

theorem finish_ok_iff (c c' : Connection) : Service.finish r c=.ok c'↔r.completes=true∧c=c' := by
  unfold Service.finish
  split_ifs with h <;> simp [h]

/-- A request is committed exactly if the connection exists, the check passes and the rest
completes. -/
theorem handle_ok_iff (c' : Connection) :
    s.handle m r=.ok c'↔∃ user c,s.directory.fetchUser r.username=some user∧
      s.load m.kind r.connection=some c∧Permitted s m r c∧r.completes=true∧
        m.written r user c=c' := by
  cases hu : s.directory.fetchUser r.username with
  | none =>
    cases m <;> simp [Service.handle,Service.provision,Service.remove,Service.provisionVrf,
      Service.removeVrf,hu,Service.invalidUser,Service.disabled]
    all_goals split_ifs <;> simp
  | some user =>
    cases hc : s.load m.kind r.connection with
    | none =>
      cases m
      all_goals
        simp only [Method.kind] at hc
        simp only [Service.handle,Service.provision,Service.remove,Service.provisionVrf,
          Service.removeVrf,Service.update,Service.disabled,hu,hc]
        repeat' split
        all_goals simp
    | some c =>
      cases m with
      | provision =>
        simp only [Method.kind] at hc
        simp only [Service.handle,Service.provision,Service.update,hu,hc]
        cases hres : s.directory.hasWorkgroupAccess r.username r.workgroup .normal <;>
          cases hsys : granted (s.directory.hasSystemAccess r.username .normal) <;>
          simp [Permitted,hres,hsys,finish_ok_iff,Method.written]
      | remove =>
        simp only [Method.kind] at hc
        simp only [Service.handle,Service.remove,hu,hc]
        cases hres : s.directory.hasWorkgroupAccess r.username c.workgroup .normal <;>
          cases hsys : granted (s.directory.hasSystemAccess r.username .normal) <;>
          simp [Permitted,Authorised,hres,hsys,finish_ok_iff,Method.written]
      | provisionVrf =>
        simp only [Method.kind] at hc
        simp only [Service.handle,Service.provisionVrf,hu,hc]
        cases hl : s.networkType.layer3 with
        | false => simp [Permitted,hl,Service.disabled]
        | true =>
          cases hres : s.directory.hasWorkgroupAccess r.username r.workgroup .normal with
          | error text => simp [Permitted,hres]
          | ok v => simp [Permitted,hl,hres,finish_ok_iff,Method.written]
      | removeVrf =>
        simp only [Method.kind] at hc
        simp only [Service.handle,Service.removeVrf,hu,hc]
        cases hl : s.networkType.layer3 with
        | false => simp [Permitted,hl,Service.disabled]
        | true =>
          cases hres : s.directory.hasWorkgroupAccess r.username r.workgroup .normal with
          | error text => simp [Permitted,hres]
          | ok v =>
            have hgranted : granted (s.directory.hasWorkgroupAccess r.username r.workgroup
                .normal)=true := by
              simp [hres]
            obtain ⟨u,hactive⟩ := activeUser_of_workgroup hgranted
            have hsame : u=user := Option.some.inj ((fetchUser_of_activeUser hactive).symm.trans hu)
            -- the second check asks for less than the first one
            have hin := inWorkgroup_of_access hactive hgranted
            rw [hsame] at hin
            simp [Permitted,hl,hres,hin,finish_ok_iff,Method.written]

/-- A request keeps to the owner exactly if the check that it passes implies a right over the
owner. -/
theorem ownerOnly_iff :
    OwnerOnly s m r↔∀ c,s.load m.kind r.connection=some c → r.completes=true →
      Permitted s m r c → Authorised s r.username c := by
  constructor
  · intro h c hc hcompletes hp
    obtain ⟨u,hu⟩ := hp.activeUser
    have hok := (handle_ok_iff s m r (m.written r u c)).mpr
      ⟨u,c,fetchUser_of_activeUser hu,hc,hp,hcompletes,rfl⟩
    have hauth := h _ hok
    rwa [Authorised,written_workgroup] at hauth
  · intro h c' hok
    obtain ⟨u,c,_,hc,hp,hcompletes,rfl⟩ := (handle_ok_iff s m r c').mp hok
    have hauth := h c hc hcompletes hp
    rwa [Authorised,written_workgroup]

/-- The user is in workgroup 2; circuit 5 and VRF 5 are 1's. -/
def campus : Service where
  directory := ⟨[⟨1,"member",.active⟩],[⟨1,.normal,.active⟩,⟨2,.normal,.active⟩],[⟨2,1,.normal⟩]⟩
  connections := [⟨.circuit,5,1,"lab",9,false⟩,⟨.vrf,5,1,"lab",9,false⟩]
  networkType := .nso

theorem campus_not_authorised (c : Connection) (hc : c.workgroup=1) :
    ¬Authorised campus "member" c := by
  rw [Authorised,hc]
  decide

/-- To change another workgroup's connection it is enough to name one's own workgroup. -/
theorem campus_foreign_connections_changed :
    ¬OwnerOnly campus .provision ⟨"member",2,5,"mine",true⟩∧
      ¬OwnerOnly campus .provisionVrf ⟨"member",2,5,"mine",true⟩∧
        ¬OwnerOnly campus .removeVrf ⟨"member",2,5,"mine",true⟩ := by
  refine ⟨?_,?_,?_⟩
  all_goals
    intro h
    exact campus_not_authorised _ rfl (h _ rfl)

end OESS.Access
