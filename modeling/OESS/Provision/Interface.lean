import Mathlib.Data.List.Basic

namespace OESS.Provision

inductive Controller where
  | openflow | netconf | nso
  deriving DecidableEq

inductive Topic where
  | ofFwdctl | mplsFwdctl | nsoFwdctl

def Controller.topic : Controller → Topic
  | .openflow => .ofFwdctl
  | .netconf => .mplsFwdctl
  | .nso => .nsoFwdctl

def fwdctlTopicForConnection : List Controller → Except String Topic
  | [] => .error "Unexpected controller '' found for connection endpoints."
  | c::cs =>
    if cs.all (fun c' => c'==c)=true then .ok c.topic
    else .error "Connection endpoints are not on the same controller."

theorem fwdctlTopicForConnection_ok {cs : List Controller} {topic : Topic}
    (h : fwdctlTopicForConnection cs=.ok topic) : ∀ a∈cs,∀ b∈cs,a=b := by
  cases cs with
  | nil => cases h
  | cons c cs =>
    simp only [fwdctlTopicForConnection] at h
    split_ifs at h with hall
    have hsame (a : Controller) (ha : a∈c::cs) : a=c := by
      obtain rfl|ha := List.mem_cons.mp ha
      · rfl
      · simpa using List.all_eq_true.mp hall a ha
    intro a ha b hb
    exact (hsame a ha).trans (hsame b hb).symm

inductive CloudType where
  | awsHostedConnection | awsHostedVinterface | gcpPartnerInterconnect | azureExpressRoute
  | oracleFastConnect
  deriving DecidableEq

/-- `bandwidth` is the capacity of the port. -/
structure Interface where
  controller : Controller
  cloudInterconnectType : Option CloudType
  bandwidth : Int

structure Speed where
  rate : Int
  (adminOnly requiresApproval : Bool)

structure Selector where
  cloudInterconnectType : CloudType
  (minBandwidth maxBandwidth : Int)
  speeds : List Speed

/-- Azure pairs may be oversubscribed. -/
def Interface.provisionableBandwidth (i : Interface) : Option Int :=
  i.cloudInterconnectType.map fun cloud =>
    if cloud=.azureExpressRoute then i.bandwidth*4 else i.bandwidth

namespace BandwidthValidator

variable (selectors : List Selector) (i : Interface) (cloud : CloudType)

def speeds : List Speed :=
  match selectors.find? fun s => s.cloudInterconnectType==cloud &&
      !(decide (i.bandwidth>s.maxBandwidth) || decide (i.bandwidth < s.minBandwidth)) with
  | some s => s.speeds
  | none => []

def requiresApproval (bandwidth : Int) : Bool :=
  (speeds selectors i cloud).any fun s => s.rate==bandwidth && s.requiresApproval

def isBandwidthValid (bandwidth : Int) (isAdmin : Bool) : Bool :=
  (speeds selectors i cloud).any fun s => s.rate==bandwidth && !(s.adminOnly && !isAdmin)

end BandwidthValidator

namespace Interface

variable (selectors : List Selector) (i : Interface)

def isBandwidthValid (bandwidth : Int) (isAdmin : Bool) : Bool :=
  match i.cloudInterconnectType with
  | none => bandwidth==0
  | some .awsHostedVinterface => true
  | some cloud => BandwidthValidator.isBandwidthValid selectors i cloud bandwidth isAdmin

/-- Whether the user is an admin makes no difference. -/
def bandwidthRequiresApproval (bandwidth : Int) : Bool :=
  match i.cloudInterconnectType with
  | none => bandwidth != 0
  | some cloud => BandwidthValidator.requiresApproval selectors i cloud bandwidth

end Interface

end OESS.Provision
