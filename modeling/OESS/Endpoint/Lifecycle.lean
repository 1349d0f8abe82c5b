import OESS.Endpoint.Conflict

namespace OESS.Endpoint

/-- A loaded object always has a state. -/
structure Fields where
  (interface tag : Nat)
  innerTag : Option Nat
  state : State

inductive Failure where
  | message (text : String)
  | database

def tagError (tag : Nat) : Option String :=
  if tag < 1∨4095 < tag then some "Endpoint->\x7btag\x7d must be 1 to 4095 inclusive." else none

def validate (f : Fields) : Option String :=
  match f.innerTag with
  | some inner =>
    if inner < 1∨4094 < inner then some "Endpoint->\x7binner_tag\x7d must be 1 to 4094 inclusive."
    else tagError f.tag
  | none => tagError f.tag

def Row.circuitKey (r : Row) : Nat×Nat×Int×Nat := (r.interface,r.owner,r.endEpoch,r.tag)

def Kind.circuitEpId : Kind → Nat → Option Nat
  | .vrf,_ => none
  | .circuit,id => some id

def Kind.vrfEpId : Kind → Nat → Option Nat
  | .vrf,id => some id
  | .circuit,_ => none

namespace Tables

variable (t : Tables)

def duplicate (r : Row) : Bool :=
  r.kind==.circuit && t.rows.any fun r' =>
    r'.kind==.circuit && r'.id != r.id && decide (r'.circuitKey=r.circuitKey)

/-- The row is stored with the number that the table has given it. -/
def insert (r : Row) : Except Failure Tables :=
  if r.key∈t.rows.map Row.key then .error .database
  else if t.duplicate r=true then .error .database
  else .ok {t with rows := t.rows++[r]}

variable (kind : Kind)

def create (id owner : Nat) (f : Fields) : Except Failure Tables :=
  match t.findAvailableUnit f.interface f.tag f.innerTag none none with
  | none => .error (.message "Couldn't create Endpoint: Couldn't find an available Unit.")
  | some unit =>
    match validate f with
    | some text => .error (.message ("Couldn't create Endpoint: "++text))
    | none =>
      t.insert ⟨kind,id,owner,f.interface,f.tag,f.innerTag,unit,-1,some f.state⟩

/-- What an edit writes: only the VRF table keeps an inner tag that is not given. -/
def written (f : Fields) (unit : Nat) (r : Row) : Row :=
  {r with
    interface := f.interface
    tag := f.tag
    innerTag := match r.kind,f.innerTag with
      | .vrf,none => r.innerTag
      | _,innerTag => innerTag
    unit := unit
    state := some f.state}

def updateRow (key : Kind×Nat) (write : Row → Row) (r : Row) : Row :=
  if r.key=key then write r else r

def updateRows (key : Kind×Nat) (write : Row → Row) : Tables :=
  {t with rows := t.rows.map (updateRow key write)}

def updateDb (id : Nat) (f : Fields) : Except Failure Tables :=
  match validate f with
  | some text => .error (.message text)
  | none =>
    match t.findAvailableUnit f.interface f.tag f.innerTag (kind.circuitEpId id)
        (kind.vrfEpId id) with
    | none => .error (.message "Couldn't update Endpoint: Couldn't find an available Unit.")
    | some unit =>
      if (t.rows.any fun r => r.key==(kind,id) && t.duplicate (written f unit r))=true then
        .error .database
      else .ok (t.updateRows (kind,id) (written f unit))

/-- For an endpoint of a circuit there is no function: it dies. -/
def decom (id : Nat) : Tables :=
  match kind with
  | .vrf => t.updateRows (.vrf,id) fun r => {r with state := some .decom}
  | .circuit => t

def remove (id : Nat) : Tables :=
  {t with rows := t.rows.filter fun r =>
    !(r.key==(kind,id) && (kind==.vrf || r.endEpoch==-1))}

def decomConnection (owner : Nat) : Tables :=
  {t with connections := t.connections.filter fun c => c != (kind,owner)}

end Tables

inductive MoveType where
  | all | vrf | circuit
  deriving DecidableEq

/-- In `used_vlans`: the number 1, or the inner tags. -/
inductive VlanUse where
  | single
  | pairs (inners : List Nat)

/-- Perl dies when an outer tag already holds the number 1. -/
def noteVlan (vlans : Nat → Option VlanUse) (r : Row) : Option (Nat → Option VlanUse) :=
  match r.innerTag with
  | none => some (Function.update vlans r.tag (some .single))
  | some inner =>
    match vlans r.tag with
    | some .single => none
    | some (.pairs inners) => some (Function.update vlans r.tag (some (.pairs (inner::inners))))
    | none => some (Function.update vlans r.tag (some (.pairs [inner])))

/-- The VLAN is in use on the destination. -/
def vlanTaken (vlans : Nat → Option VlanUse) (r : Row) : Bool :=
  match r.innerTag,vlans r.tag with
  | _,some .single => true
  | some inner,some (.pairs inners) => inners.contains inner
  | _,_ => false

structure Move where
  tables : Tables
  died : Bool

namespace Tables

/-- Active VRF endpoints, and a circuit's only endpoint there in any state, which is active once
loaded. -/
def endpointsOnInterface (t : Tables) (interface : Nat) (type : MoveType) : List Row :=
  (if type=.all∨type=.vrf then
    t.rows.filter fun r => r.kind==.vrf && r.interface==interface && r.state==some .active
  else [])++
  (if type=.all∨type=.circuit then
    (t.rows.filter fun r => r.kind==.circuit && r.interface==interface && r.endEpoch==-1 &&
      (t.rows.filter fun r' => r'.kind==.circuit && r'.interface==interface &&
        r'.endEpoch==-1 && r'.owner==r.owner).length==1).map
      fun r => {r with state := some .active}
  else [])

/-- One endpoint is moved; with an inner tag and its unit in use, the process dies. -/
def moveOne (vlans : Nat → Option VlanUse) (units : List Nat) (dest : Nat) (m : Move) (r : Row) :
    Move :=
  if m.died=true then m
  else if vlanTaken vlans r=true then m
  else if r.unit∈units∧r.innerTag≠none then {m with died := true}
  else
    match m.tables.updateDb r.kind r.id ⟨dest,r.tag,r.innerTag,r.state.getD .active⟩ with
    | .ok t => {m with tables := t}
    | .error _ => m

def moveEndpoints (t : Tables) (orig dest : Nat) (type : MoveType) : Move :=
  match (t.endpointsOnInterface dest .all).foldlM noteVlan (fun _ => none) with
  | none => ⟨t,true⟩
  | some vlans =>
    (t.endpointsOnInterface orig type).foldl
      (moveOne vlans ((t.endpointsOnInterface dest .all).map Row.unit) dest) ⟨t,false⟩

end Tables

inductive Event where
  | create (kind : Kind) (id owner : Nat) (f : Fields)
  | edit (kind : Kind) (id : Nat) (f : Fields)
  | move (orig dest : Nat) (type : MoveType)
  | decom (kind : Kind) (id : Nat)
  | remove (kind : Kind) (id : Nat)
  | decomConnection (kind : Kind) (owner : Nat)

/-- A failed request leaves the tables as they were. -/
def commit (t : Tables) : Except Failure Tables → Tables
  | .ok t' => t'
  | .error _ => t

def step (t : Tables) : Event → Tables
  | .create kind id owner f => commit t (t.create kind id owner f)
  | .edit kind id f => commit t (t.updateDb kind id f)
  | .move orig dest type => (t.moveEndpoints orig dest type).tables
  | .decom kind id => t.decom kind id
  | .remove kind id => t.remove kind id
  | .decomConnection kind owner => t.decomConnection kind owner

end OESS.Endpoint
