import OESS.Framework.Loops
import OESS.Paths.Instantiated
import OESS.Vlans.Ranges

namespace OESS.Vlans

open OESS.OpenFlow (PathType)
open OESS.Master (Circuit PathState)
open OESS.Paths (PathTable Request)
open OESS.Loops Option

/-- A row of `link_path_membership`. -/
structure Membership where
  (link path : Nat)
  (aVlan zVlan : Int)
  deriving DecidableEq

/-- The rows, with the two keys of the table. -/
structure MembershipTable where
  rows : List Membership
  aKeys : (rows.map fun m => (m.link,m.aVlan)).Nodup
  zKeys : (rows.map fun m => (m.link,m.zVlan)).Nodup

namespace MembershipTable

variable (t : MembershipTable)

def close (ended : Membership → Bool) : MembershipTable where
  rows := t.rows.filter fun m => !ended m
  aKeys := (List.Sublist.map _ List.filter_sublist).nodup t.aKeys
  zKeys := (List.Sublist.map _ List.filter_sublist).nodup t.zKeys

def endPath : Option Nat → MembershipTable
  | none => t
  | some path => t.close fun m => m.path==path

def insert (m : Membership) : Option MembershipTable :=
  if h : (m.link,m.aVlan)∈t.rows.map (fun m => (m.link,m.aVlan))∨
      (m.link,m.zVlan)∈t.rows.map (fun m => (m.link,m.zVlan)) then none
  else some {
    rows := t.rows++[m]
    aKeys := Lookup.nodup_map_snoc t.aKeys (not_or.mp h).1
    zKeys := Lookup.nodup_map_snoc t.zKeys (not_or.mp h).2}

theorem close_sublist (ended : Membership → Bool) : (t.close ended).rows.Sublist t.rows :=
  List.filter_sublist

theorem endPath_sublist (path : Option Nat) : (t.endPath path).rows.Sublist t.rows := by
  cases path with
  | none => exact List.Sublist.refl t.rows
  | some path => exact t.close_sublist _

theorem rows_insert {t t' : MembershipTable} {m : Membership} (h : t.insert m=some t') :
    t'.rows=t.rows++[m] := by
  unfold insert at h
  split_ifs at h
  cases h
  rfl

end MembershipTable

/-- `tertiary`: that a circuit in memory knows. -/
structure Store where
  base : Paths.Store
  members : MembershipTable
  tertiary : Nat → Option Nat

def Network.usedOn (net : Network) (interface : Nat) (m : Membership) : Option Int :=
  match net.ends m.link with
  | none => none
  | some (a,z) =>
    if a=interface then some m.aVlan
    else if z=interface then some m.zVlan
    else none

namespace Store

variable (net : Network) (s : Store)

/-- Both allocators look at paths with a live instantiation. -/
def used (interface : Nat) : List Int :=
  (s.members.rows.filter fun m => s.base.paths.Instantiated m.path).filterMap (net.usedOn interface)

def firstAvailable (node interface : Nat) : Option Int :=
  (net.allowedVlans node).find? fun tag => tag∉s.used net interface

def getAvailableInternalVlan (interface : Nat) : Option Int :=
  s.firstAvailable net (net.node interface) interface

def getAvailableInternalVlanId (node interface : Nat) : Option Int :=
  s.firstAvailable net node interface

/-- Not without link and path, or with a key taken. -/
def insertMembership (m : Membership) : Option Store :=
  if (net.link m.link).isNone=true∨¬∃ p∈s.base.paths.rows,p.id=m.path then none
  else (s.members.insert m).map fun members => {s with members}

def addLink (path link : Nat) : Option Store := do
  let l ← net.link link
  let (a,z) ← l.ends.filter fun _ => l.nodesLive
  let aVlan ← s.getAvailableInternalVlan net a
  let zVlan ← s.getAvailableInternalVlan net z
  s.insertMembership net ⟨link,path,aVlan,zVlan⟩

def addLinks (path : Nat) : Store → List Nat → Store×Bool
  | s,[] => (s,true)
  | s,link::links =>
    match s.addLink net path link with
    | none => (s,false)
    | some s' => addLinks path s' links

def removeLink (path link : Nat) : Store :=
  {s with members := s.members.close fun m => m.link==link && m.path==path}

/-- Endpoints seen, and the VLANs of the link. -/
structure Assignment where
  seen : List Nat
  (aVlan zVlan : Option Int)

/-- An endpoint that was seen before gets no VLAN again. -/
def assignEndpoint (a : Nat) (x : Assignment) (interface : Nat) : Option Assignment :=
  if interface∈x.seen then some x
  else (s.getAvailableInternalVlanId net (net.node interface) interface).map fun vlan =>
    if a=interface then ⟨interface::x.seen,some vlan,x.zVlan⟩
    else ⟨interface::x.seen,x.aVlan,some vlan⟩

def linkEndpoints (a z : Nat) : List Nat := if a=z then [a] else [a,z]

/-- A VLAN left out cannot be inserted. -/
def assignLink (path : Nat) (x : Store×List Nat) (link : Nat) : Option (Store×List Nat) := do
  let (a,z) ← net.ends link
  let y ← (linkEndpoints a z).foldlM (x.1.assignEndpoint net a) ⟨x.2,none,none⟩
  let aVlan ← y.aVlan
  let zVlan ← y.zVlan
  let s' ← x.1.insertMembership net ⟨link,path,aVlan,zVlan⟩
  return (s',y.seen)

variable (circuit : Nat)

def assignLinks (type : PathType) (links : List Nat) : Option Store :=
  match s.base.paths.row circuit type with
  | none => if links=[] then some s else none
  | some p => (links.foldlM (assignLink net p.id) (s,[])).map Prod.fst

/-- The outcome of the inserts is not looked at. -/
def addComputed (circuit path : Nat) (links : List Nat) : Store := links.foldl (fun s link =>
    (s.insertMembership net ⟨link,path,(circuit : Int)+5000,(circuit : Int)+5000⟩).getD s) s

section Base

variable {net : Network} {s s' : Store} {path link : Nat} {m : Membership}

theorem insertMembership_cases (h : s.insertMembership net m=some s') :
    ∃ members,members.rows=s.members.rows++[m]∧s'={s with members} := by
  unfold insertMembership at h
  split_ifs at h
  obtain ⟨members,hmembers,rfl⟩ := map_eq_some_iff.mp h
  exact ⟨members,MembershipTable.rows_insert hmembers,rfl⟩

theorem insertMembership_base (h : s.insertMembership net m=some s') : s'.base=s.base := by
  obtain ⟨members,-,rfl⟩ := insertMembership_cases h
  rfl

theorem addLink_cases (h : s.addLink net path link=some s') :
    ∃ a z aVlan zVlan,net.ends link=some (a,z)∧s.firstAvailable net (net.node a) a=some aVlan∧
      s.firstAvailable net (net.node z) z=some zVlan∧
      s.insertMembership net ⟨link,path,aVlan,zVlan⟩=some s' := by
  obtain ⟨l,hl,h⟩ := bind_eq_some_iff.mp h
  obtain ⟨⟨a,z⟩,hends,h⟩ := bind_eq_some_iff.mp h
  obtain ⟨aVlan,ha,h⟩ := bind_eq_some_iff.mp h
  obtain ⟨zVlan,hz,h⟩ := bind_eq_some_iff.mp h
  have hends' : net.ends link=some (a,z) := by
    rw [Network.ends,hl]
    exact (filter_eq_some_iff.mp hends).1
  exact ⟨a,z,aVlan,zVlan,hends',ha,hz,h⟩

theorem addLink_base (h : s.addLink net path link=some s') : s'.base=s.base := by
  obtain ⟨a,z,aVlan,zVlan,-,-,-,h⟩ := addLink_cases h
  exact insertMembership_base h

theorem addLinks_base (links : List Nat) : (addLinks net path s links).1.base=s.base := by
  induction links generalizing s with
  | nil => rfl
  | cons link links ih =>
    unfold addLinks
    cases h : s.addLink net path link with
    | none => rfl
    | some s' => exact ih.trans (addLink_base h)

structure Assigned (net : Network) (s : Store) (a z : Nat) (x : Assignment) : Prop where
  aVlan : ∀ v,x.aVlan=some v → s.firstAvailable net (net.node a) a=some v
  zVlan : ∀ v,x.zVlan=some v → s.firstAvailable net (net.node z) z=some v

theorem Assigned.endpoint {a z i : Nat} {x y : Assignment} (hx : Assigned net s a z x)
    (hi : i∈linkEndpoints a z) (h : s.assignEndpoint net a x i=some y) : Assigned net s a z y := by
  have hi : i=a∨i=z := by
    unfold linkEndpoints at hi
    split_ifs at hi <;> simp_all
  unfold assignEndpoint at h
  split_ifs at h with hseen ha
  · cases h
    exact hx
  · obtain ⟨vlan,hvlan,rfl⟩ := map_eq_some_iff.mp h
    subst ha
    refine ⟨?_,hx.zVlan⟩
    rintro v ⟨⟩
    exact hvlan
  · obtain ⟨vlan,hvlan,rfl⟩ := map_eq_some_iff.mp h
    obtain rfl := hi.resolve_left (Ne.symm ha)
    refine ⟨hx.aVlan,?_⟩
    rintro v ⟨⟩
    exact hvlan

theorem assignLink_cases {seen seen' : List Nat}
    (h : assignLink net path (s,seen) link=some (s',seen')) :
    ∃ a z aVlan zVlan,net.ends link=some (a,z)∧s.firstAvailable net (net.node a) a=some aVlan∧
      s.firstAvailable net (net.node z) z=some zVlan∧
      s.insertMembership net ⟨link,path,aVlan,zVlan⟩=some s' := by
  obtain ⟨⟨a,z⟩,hends,h⟩ := bind_eq_some_iff.mp h
  obtain ⟨y,hy,h⟩ := bind_eq_some_iff.mp h
  obtain ⟨aVlan,ha,h⟩ := bind_eq_some_iff.mp h
  obtain ⟨zVlan,hz,h⟩ := bind_eq_some_iff.mp h
  obtain ⟨t,ht,h⟩ := bind_eq_some_iff.mp h
  cases h
  have hassigned : Assigned net s a z y := by
    refine foldlM_some_invariant ?_ ⟨?_,?_⟩ hy
    · intro i hi x y hx
      exact hx.endpoint hi
    all_goals rintro v ⟨⟩
  exact ⟨a,z,aVlan,zVlan,hends,hassigned.aVlan aVlan ha,hassigned.zVlan zVlan hz,ht⟩

theorem assignLinks_base {circuit : Nat} {type : PathType} {links : List Nat}
    (h : s.assignLinks net circuit type links=some s') : s'.base=s.base := by
  unfold assignLinks at h
  split at h
  · split_ifs at h
    cases h
    rfl
  case h_2 p hp =>
    obtain ⟨⟨t,seen⟩,ht,rfl⟩ := map_eq_some_iff.mp h
    refine foldlM_some_invariant (I := fun x : Store×List Nat => x.1.base=s.base) ?_ rfl ht
    rintro link - ⟨s₁,seen₁⟩ ⟨s₂,seen₂⟩ hbase hstep
    obtain ⟨a,z,aVlan,zVlan,-,-,-,hinsert⟩ := assignLink_cases hstep
    exact (insertMembership_base hinsert).trans hbase

theorem removeLinks_base (path : Nat) (links : List Nat) :
    (links.foldl (fun s link => s.removeLink path link) s).base=s.base := by
  induction links generalizing s with
  | nil => rfl
  | cons link links ih => exact ih

theorem addComputed_base (circuit : Nat) (links : List Nat) :
    (s.addComputed net circuit path links).base=s.base := by
  unfold addComputed
  induction links generalizing s with
  | nil => rfl
  | cons link links ih =>
    rw [List.foldl_cons,ih]
    cases h : s.insertMembership net ⟨link,path,(circuit : Int)+5000,(circuit : Int)+5000⟩ with
    | none => rfl
    | some s' => exact insertMembership_base h

end Base

variable (links : List Nat)

def createPath (type : PathType) : Store :=
  let members := s.members.endPath ((s.base.paths.row circuit type).map Paths.Path.id)
  let paths := s.base.paths.createPath circuit type
  let created : Store := {s with base := {s.base with paths},members}
  match paths.row circuit type with
  | none => created
  | some p => created.addComputed net circuit p.id links

/-- A caller that looks at the error rolls back. -/
def create (type : PathType) (state : PathState) (links : List Nat) (rollsBack : Bool) : Store :=
  if (s.base.paths.row circuit type).isSome=true then s
  else
    let paths := s.base.paths.create circuit type state
    let created : Store := {s with base := {s.base with paths}}
    match paths.row circuit type with
    | none => s
    | some p =>
      let added := addLinks net p.id created links
      if (rollsBack && !added.2)=true then s else added.1

def update (path : Nat) (state : PathState) (remove add : List Nat) (rollsBack : Bool) : Store :=
  if ∃ p∈s.base.paths.rows,p.id=path then
    let paths := s.base.paths.updatePath path state
    let updated : Store := {s with base := {s.base with paths}}
    let removed := remove.foldl (fun s link => s.removeLink path link) updated
    let added := addLinks net path removed add
    if (rollsBack && !added.2)=true then s else added.1
  else s

def withBase (base : Option Paths.Store) : Option Store := base.map fun base => {s with base}

def changeActivePath (new : PathType) : Option Store :=
  s.withBase (s.base.changeActivePath circuit new)

/-- Links of the path in memory are ended. -/
def rewire (circuit path : Nat) (links : List Nat) : Store :=
  {s with members := s.members.endPath (s.tertiary circuit)}.addComputed net circuit path links

/-- The tertiary path is followed if instantiated, and else created. -/
def updateTertiary : Option Store :=
  let c := s.base.memory circuit
  match (s.base.paths.row circuit .tertiary).filter fun p => !p.liveOnes.isEmpty with
  | some p =>
    if Paths.Store.compareLinks c.tertiaryLinks links=true then s.changeActivePath circuit .tertiary
    else (s.rewire net circuit p.id links).changeActivePath circuit .tertiary
  | none =>
    let paths := s.base.paths.createPath circuit .tertiary
    let known : Store := {s with
      base := s.base.remember circuit {c with tertiaryLinks := links}
      tertiary := Function.update s.tertiary circuit
        ((paths.row circuit .tertiary).map Paths.Path.id)}
    some (((known.createPath net circuit links .tertiary).changeActivePath circuit
      .tertiary).getD known)

def updateMplsPath : Option Store :=
  let c := s.base.memory circuit
  if links=[] then none
  else if c.type≠.mpls then none
  else if (!c.links.isEmpty && Paths.Store.compareLinks c.links links)=true then
    s.changeActivePath circuit .primary
  else if (!c.backupLinks.isEmpty && Paths.Store.compareLinks c.backupLinks links)=true then
    s.changeActivePath circuit .backup
  else s.updateTertiary net circuit links

def loadTertiary : Store :=
  let found := (s.base.paths.row circuit .tertiary).filter fun p =>
    p.liveOnes.any fun i => i.state≠.decom
  {s with tertiary := Function.update s.tertiary circuit (found.map Paths.Path.id)}

/-- Both, or nothing. MPLS circuits have no backup path. -/
def assignPaths (r : Request) : Option Store := do
  let primary ← s.assignLinks net circuit .primary r.links
  let both ← primary.assignLinks net circuit .backup (if r.type=.mpls then [] else r.backupLinks)
  return both.loadTertiary circuit

def provisionCircuit (r : Request) : Option Store := do
  let base ← s.base.provisionCircuit circuit r
  {s with base}.assignPaths net circuit r

def manual (m : Membership) : Bool :=
  s.base.paths.rows.any fun p => p.id==m.path && p.circuit==circuit && p.type≠.tertiary

/-- It first ends the links of both manual paths. -/
def editCircuit (r : Request) (tertiaryLinks : List Nat) : Option Store := do
  let base ← s.base.editCircuit circuit r tertiaryLinks
  {s with base,members := s.members.close (s.manual circuit)}.assignPaths net circuit r

end Store

inductive Event where
  | changePath (circuit : Nat)
  | changeActivePath (circuit : Nat) (new : PathType)
  | setPathState (path : Nat) (state : PathState)
  | updateCircuitPathState (circuit : Nat) (old new : PathState)
  | updateMplsPath (circuit : Nat) (links : List Nat)
  | provisionCircuit (circuit : Nat) (r : Request)
  | editCircuit (circuit : Nat) (r : Request) (tertiaryLinks : List Nat)
  | createPath (circuit : Nat) (links : List Nat) (type : PathType)
  | create (circuit : Nat) (type : PathType) (state : PathState) (links : List Nat)
    (rollsBack : Bool)
  | addLink (path link : Nat)
  | removeLink (path link : Nat)
  | update (path : Nat) (state : PathState) (remove add : List Nat) (rollsBack : Bool)

def Store.step (net : Network) (s : Store) : Event → Store
  | .changePath circuit => (s.withBase (s.base.changePath circuit)).getD s
  | .changeActivePath circuit new => (s.changeActivePath circuit new).getD s
  | .setPathState path state =>
    {s with base := {s.base with paths := s.base.paths.setPathState path state}}
  | .updateCircuitPathState circuit old new =>
    {s with base := {s.base with paths := s.base.paths.updateCircuitPathState circuit old new}}
  | .updateMplsPath circuit links => (s.updateMplsPath net circuit links).getD s
  | .provisionCircuit circuit r => (s.provisionCircuit net circuit r).getD s
  | .editCircuit circuit r tertiaryLinks => (s.editCircuit net circuit r tertiaryLinks).getD s
  | .createPath circuit links type => s.createPath net circuit links type
  | .create circuit type state links rollsBack => s.create net circuit type state links rollsBack
  | .addLink path link => (s.addLink net path link).getD s
  | .removeLink path link => s.removeLink path link
  | .update path state remove add rollsBack => s.update net path state remove add rollsBack

end OESS.Vlans
