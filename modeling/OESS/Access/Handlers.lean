import OESS.Access.Roles

namespace OESS.Access

inductive NetworkType where
  | openflow | vpnMpls | evpnVxlan | nso | nsoVpnMpls
  deriving DecidableEq

inductive Kind where
  | circuit | vrf
  deriving DecidableEq

/-- A circuit or VRF; `workgroup` owns it. -/
structure Connection where
  kind : Kind
  (id workgroup : Nat)
  description : String
  lastModifiedBy : Nat
  decom : Bool

/-- A request that names a connection and a workgroup; `completes`: the rest gets to its commit. -/
structure Request where
  username : String
  (workgroup connection : Nat)
  description : String
  completes : Bool

structure Service where
  directory : Directory
  connections : List Connection
  networkType : NetworkType

/-- A request ends with an error of its own, a death of Perl, or a later failure. -/
inductive Failure where
  | message (text : String)
  | died
  | incomplete

abbrev Response := Except Failure Connection

def NetworkType.layer3 : NetworkType → Bool
  | .vpnMpls | .nso | .nsoVpnMpls => true
  | _ => false

namespace Service

variable (s : Service) (r : Request)

def load (kind : Kind) (id : Nat) : Option Connection :=
  s.connections.find? fun c => c.kind==kind && c.id==id

def invalidUser : Response := .error (.message ("User '"++r.username++"' is invalid."))

def disabled : Response :=
  .error (.message ("Support for Layer 3 Connections is currently disabled. "++
    "Please contact your OESS administrator for more information."))

def modified (user : User) (c : Connection) : Connection :=
  {c with description := r.description,lastModifiedBy := user.id}

def decommissioned (user : User) (c : Connection) : Connection :=
  {c with lastModifiedBy := user.id,decom := true}

/-- Without the commit nothing is written. -/
def finish (c : Connection) : Response :=
  if r.completes=true then .ok c else .error .incomplete

/-- The circuit service's `update`: it looks at no workgroup. -/
def update : Response :=
  match s.directory.fetchUser r.username with
  | none => invalidUser r
  | some user =>
    match s.load .circuit r.connection with
    | none => .error (.message "Couldn't load Circuit from database.")
    | some c => finish r (modified r user c)

def provision : Response :=
  match s.directory.fetchUser r.username with
  | none => invalidUser r
  | some _ =>
    match s.directory.hasWorkgroupAccess r.username r.workgroup .normal with
    | .ok _ => s.update r
    | .error text =>
      if granted (s.directory.hasSystemAccess r.username .normal)=true then s.update r
      else .error (.message text)

/-- It asks for access in the workgroup that owns the circuit. -/
def remove : Response :=
  match s.directory.fetchUser r.username with
  | none => invalidUser r
  | some user =>
    match s.load .circuit r.connection with
    | none => .error (.message "Couldn't load Circuit from database.")
    | some c =>
      match s.directory.hasWorkgroupAccess r.username c.workgroup .normal with
      | .ok _ => finish r (decommissioned user c)
      | .error text =>
        if granted (s.directory.hasSystemAccess r.username .normal)=true then
          finish r (decommissioned user c)
        else .error (.message text)

/-- The description is set before the VRF is known to be found. -/
def provisionVrf : Response :=
  if s.networkType.layer3=false then disabled
  else
    match s.directory.fetchUser r.username with
    | none => invalidUser r
    | some user =>
      match s.directory.hasWorkgroupAccess r.username r.workgroup .normal with
      | .error text => .error (.message text)
      | .ok _ =>
        match s.load .vrf r.connection with
        | none => .error .died
        | some c => finish r (modified r user c)

/-- The second check follows the decommission and leaves it open. -/
def removeVrf : Response :=
  if s.networkType.layer3=false then disabled
  else
    match s.directory.fetchUser r.username with
    | none => invalidUser r
    | some user =>
      match s.directory.hasWorkgroupAccess r.username r.workgroup .normal with
      | .error _ => .error .died
      | .ok _ =>
        match s.load .vrf r.connection with
        | none => .error (.message ("Unable to find VRF: "++toString r.connection))
        | some c =>
          if s.directory.inWorkgroup user.id r.workgroup=false∧
              s.directory.loadedAdmin user.id=false then
            .error (.message ("User "++r.username++" is not in workgroup"))
          else finish r (decommissioned user c)

end Service

inductive Method where
  | provision | remove | provisionVrf | removeVrf

def Method.kind : Method → Kind
  | .provision | .remove => .circuit
  | .provisionVrf | .removeVrf => .vrf

def Service.handle (s : Service) (m : Method) (r : Request) : Response :=
  match m with
  | .provision => s.provision r
  | .remove => s.remove r
  | .provisionVrf => s.provisionVrf r
  | .removeVrf => s.removeVrf r

end OESS.Access
