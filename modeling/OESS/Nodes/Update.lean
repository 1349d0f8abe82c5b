import OESS.Framework.Runs

namespace OESS.Nodes

open Runs

/-- The columns of `node` that an update can set. -/
inductive NodeField where
  | name | shortName | longitude | latitude | operationalStateMpls | vlanTagRange | pendingDiff

/-- Columns of `node_instantiation` that may change. -/
inductive VersionedField where
  | adminState | vendor | model | swVersion | mgmtAddr | loopbackAddress | tcpPort | controller
  deriving DecidableEq

def versionedFields : List VersionedField :=
  [.adminState,.vendor,.model,.swVersion,.mgmtAddr,.loopbackAddress,.tcpPort,.controller]

structure Instantiation where
  fields : VersionedField → Option String
  dpid : String
  (openflow mpls : Option Nat)
  startEpoch : Nat

/-- A node with its live instantiation and the ended ones; `others` are columns never set. -/
structure Node where
  fields : NodeField → Option String
  others : String → Option String
  live : Instantiation
  ended : List (Nat×Instantiation)

/-- The fields set. `accepted`: the table takes the node's. -/
structure Call where
  fields : NodeField → Option String
  versioned : VersionedField → Option String
  (openflow mpls : Option Nat)
  accepted : Bool
  now : Nat

/-- `ne`, and `!=` for the port; NULL is the empty text. -/
def differs (value : String) (stored : Option String) : VersionedField → Bool
  | .tcpPort => value.toInt?.getD 0 != (stored.bind String.toInt?).getD 0
  | _ => value != stored.getD ""

namespace Call

variable (c : Call) (i : Instantiation)

def changes (f : VersionedField) : Bool :=
  match c.versioned f with
  | some value => differs value (i.fields f) f
  | none => false

def modified : Bool := versionedFields.any (c.changes i)

/-- What `openflow` and `mpls` were is not looked at. -/
def nextVersion : Instantiation where
  fields := fun f => if c.changes i f then c.versioned f else i.fields f
  dpid := i.dpid
  openflow := some (c.openflow.getD 0)
  mpls := match c.mpls with
    | some (n+1) => some (n+1)
    | _ => some 1
  startEpoch := c.now

end Call

/-- A row ended in this second keeps the live one. -/
def update (n : Node) (c : Call) : Node :=
  if c.accepted=false then n else
  let written : Node := {n with fields := fun f => (c.fields f).or (n.fields f)}
  if c.modified n.live=true∧∀ e∈n.ended,e.1≠c.now then
    {written with ended := n.ended++[(c.now,n.live)],live := c.nextVersion n.live}
  else written

/-- What the call does not set is as before, start times apart. -/
structure Framed (n n' : Node) (c : Call) : Prop where
  fields : ∀ f,c.fields f=none → n'.fields f=n.fields f
  others : n'.others=n.others
  versioned : ∀ f,c.versioned f=none → n'.live.fields f=n.live.fields f
  dpid : n'.live.dpid=n.live.dpid
  openflow : c.openflow=none → n'.live.openflow=n.live.openflow
  mpls : c.mpls=none → n'.live.mpls=n.live.mpls

/-- A new version takes for unset protocols what they were. -/
def Carries (n : Node) (c : Call) : Prop :=
  c.accepted=true → c.modified n.live=true → (∀ e∈n.ended,e.1≠c.now) →
    (c.openflow=none → n.live.openflow=some 0)∧(c.mpls=none → n.live.mpls=some 1)

theorem Call.nextVersion_kept (c : Call) (i : Instantiation) {f : VersionedField}
    (h : c.versioned f=none) : (c.nextVersion i).fields f=i.fields f := by
  simp [nextVersion,changes,h]

theorem update_framed_iff (n : Node) (c : Call) : Framed n (update n c) c ↔ Carries n c := by
  unfold update Carries
  split_ifs with haccepted hversion
  · simp only [haccepted,Bool.false_eq_true,false_implies,iff_true]
    constructor <;> simp
  · constructor
    · intro h _ _ _
      refine ⟨fun ho => ?_,fun hm => ?_⟩
      · simpa [Call.nextVersion,ho] using (h.openflow ho).symm
      · simpa [Call.nextVersion,hm] using (h.mpls hm).symm
    · intro h
      obtain ⟨hopenflow,hmpls⟩ := h (by simpa using haccepted) hversion.1 hversion.2
      constructor
      · intro f hf
        simp [hf]
      · rfl
      · intro f hf
        exact c.nextVersion_kept n.live hf
      · rfl
      · intro ho
        simp [Call.nextVersion,ho,hopenflow ho]
      · intro hm
        simp [Call.nextVersion,hm,hmpls hm]
  · constructor
    · intro _ _ hmodified hends
      exact absurd ⟨hmodified,hends⟩ hversion
    · intro _
      constructor
      · intro f hf
        simp [hf]
      all_goals simp

/-- In every sequence of calls, exactly those that carry the protocols over change nothing else. -/
theorem updates_framed_iff (n : Node) (calls : List Call) :
    StepsOk update (fun n c => Framed n (update n c) c) n calls ↔ StepsOk update Carries n calls := by
  constructor
  · exact stepsOk_of_step (P := fun _ => True) (fun n c _ h => ⟨trivial,(update_framed_iff n c).mp h⟩)
      trivial
  · exact stepsOk_of_step (P := fun _ => True) (fun n c _ h => ⟨trivial,(update_framed_iff n c).mpr h⟩)
      trivial

/-- An OpenFlow node gets a new software version. -/
def upgrade : Call where
  fields := fun _ => none
  versioned := fun f => if f=.swVersion then some "2" else none
  openflow := none
  mpls := none
  accepted := true
  now := 9

theorem upgrade_drops_openflow :
    ¬Framed ⟨fun _ => none,fun _ => none,⟨fun _ => none,"1",some 1,some 0,5⟩,[]⟩
      (update ⟨fun _ => none,fun _ => none,⟨fun _ => none,"1",some 1,some 0,5⟩,[]⟩ upgrade) upgrade := by
  intro h
  exact absurd (h.openflow rfl) (by decide)

end OESS.Nodes
