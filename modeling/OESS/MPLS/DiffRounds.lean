import Mathlib.Logic.Function.Basic

namespace OESS.MPLS

/-- The values of `pending_diff` and of the state in memory. -/
inductive PendingDiff where
  | none | pending | error
  deriving DecidableEq

inductive Status where
  | success | failure | blocked

/-- What a switch process meets: whether the device tells what to remove and is connected, whether
nothing is configured, the readable diff unless there is an error, and whether an edit works. -/
structure View where
  (toBeRemoved connected unconfigured : Bool)
  deviceDiff : Option String
  edited : Bool
  deriving DecidableEq

def largeDiff (diff : String) : Bool := 500 < diff.length

def editConfig (v : View) : Status×Bool := (if v.edited then .success else .failure,true)

def deviceDiff (v : View) (force : Bool) : Status×Bool :=
  if !v.connected then (.failure,false)
  else if v.unconfigured then (.success,false)
  else if force then editConfig v
  else
    match v.deviceDiff with
    | none => (.failure,false)
    | some diff =>
      if diff="" then (.success,false)
      else if largeDiff diff then (.blocked,false)
      else editConfig v

def switchDiff (v : View) (force : Bool) : Status×Bool :=
  if !v.toBeRemoved then (.failure,false) else deviceDiff v force

/-- A request to a switch process, not awaited any more when the sender has gone. -/
structure Request where
  node : Nat
  (force awaited : Bool)

structure Reply where
  node : Nat
  status : Status

/-- A diff was requested or worked on, a blocked reply recorded, a flag cleared by an admin. -/
inductive Entry where
  | requested (node : Nat) (force : Bool)
  | worked (node : Nat) (force : Bool) (view : View) (installed : Bool)
  | blocked (node : Nat)
  | cleared (node : Nat)
  deriving DecidableEq

/-- The flags in the database, the cache and the memory of FWDCTL, the messages and the history. -/
structure State where
  (db cache : Nat → PendingDiff)
  child : Nat → Option PendingDiff
  requests : List Request
  replies : List Reply
  log : List Entry

/-- Messages are picked from anywhere in their queues. -/
inductive Event where
  | restart
  | updateCache
  | makeBaby (node : Nat)
  | round (node : Nat)
  | work (i : Nat) (view : View)
  | loseRequest (i : Nat)
  | reply (i : Nat)
  | loseReply (i : Nat)
  | clear (node : Nat)

namespace State

variable (s : State)

/-- `new` fills the cache; replies to the old process are lost. -/
def restart : State :=
  {s with
    cache := s.db
    child := fun _ => none
    requests := s.requests.map fun r => {r with awaited := false}
    replies := []}

variable (node : Nat)

def makeBaby : State :=
  if (s.child node).isSome then s
  else {s with child := Function.update s.child node (some (s.cache node))}

/-- One turn of `diff`. An admin may act between two. -/
def round : State :=
  match s.child node with
  | none => s
  | some flag =>
    let force : Bool := flag=.pending∧s.db node=.none
    {s with
      child := if force then Function.update s.child node (some .none) else s.child
      requests := s.requests++[⟨node,force,true⟩]
      log := s.log++[.requested node force]}

def work (i : Nat) (v : View) : State :=
  match s.requests[i]? with
  | none => s
  | some r =>
    {s with
      requests := s.requests.eraseIdx i
      replies := if r.awaited then s.replies++[⟨r.node,(switchDiff v r.force).1⟩] else s.replies
      log := s.log++[.worked r.node r.force v (switchDiff v r.force).2]}

/-- Clearing in between leaves the same as after both. -/
def setPendingDiff (flag : PendingDiff) : State :=
  {s with
    db := Function.update s.db node flag
    child := Function.update s.child node (some flag)}

def callback (r : Reply) : State :=
  match r.status with
  | .blocked => {s.setPendingDiff r.node .pending with log := s.log++[.blocked r.node]}
  | .failure => s.setPendingDiff r.node .error
  | .success => s.setPendingDiff r.node .none

def reply (i : Nat) : State :=
  match s.replies[i]? with
  | none => s
  | some r => {s with replies := s.replies.eraseIdx i}.callback r

/-- `set_diff_approval` and `approve_diff`. -/
def clear : State :=
  {s with
    db := Function.update s.db node .none
    log := s.log++[.cleared node]}

def start : State := ⟨fun _ => .none,fun _ => .none,fun _ => none,[],[],[]⟩

end State

def step (s : State) : Event → State
  | .restart => s.restart
  | .updateCache => {s with cache := s.db}
  | .makeBaby node => s.makeBaby node
  | .round node => s.round node
  | .work i view => s.work i view
  | .loseRequest i => {s with requests := s.requests.eraseIdx i}
  | .reply i => s.reply i
  | .loseReply i => {s with replies := s.replies.eraseIdx i}
  | .clear node => s.clear node

end OESS.MPLS
