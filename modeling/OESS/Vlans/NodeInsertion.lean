import Mathlib.Data.List.Perm.Subperm
import OESS.Framework.Multigraphs
import OESS.Vlans.PathObjects

namespace OESS.NodeInsertion

open Lookup Loops Vlans
open Master (CircuitType)
open OpenFlow (CircuitState)
open PathObjects (liveLinks)
open List hiding lookup

/-- `up`, and whether it is of the MPLS network. -/
structure LinkRow where
  (id a z : Nat)
  (up mpls : Bool)
  deriving DecidableEq

/-- Links in the order of the database. `zFirst`: the query for the ends of the link lists the Z end
first. -/
structure Topology where
  links : List LinkRow
  node : Nat → Nat
  vlanTagRange : Nat → Option (List RangeElement)
  zFirst : Nat → Bool
  ids : (links.map LinkRow.id).Nodup
  proper : ∀ r∈links,r.a≠r.z

/-- The store, with the types of circuits. -/
structure Db where
  store : Store
  type : Nat → CircuitType

namespace Topology

variable (t : Topology)

def network : Network where
  link k := (lookup LinkRow.id k t.links).map fun r => ⟨some (r.a,r.z),true⟩
  node := t.node
  vlanTagRange := t.vlanTagRange

def endpoints (r : LinkRow) : Nat×Nat := if t.zFirst r.id=true then (r.z,r.a) else (r.a,r.z)

def linksAt (i : Nat) : List LinkRow := t.links.filter fun r => r.a=i∨r.z=i

/-- The last link at an interface that is up, apart from one. -/
def otherUp (link i : Nat) : Option LinkRow :=
  ((t.linksAt i).filter fun r => r.id≠link && r.up).getLast?

end Topology

def LinkRow.farEnd (r : LinkRow) (i : Nat) : Nat := if r.a=i then r.z else r.a

/-- A new link from an interface of the old one to the new node. -/
structure Side where
  link : LinkRow
  (kept new : Nat)

structure Found where
  node : Nat
  (first second : Side)

/-- If the new links end at two nodes, it is the value of a comparison, defined but no list. -/
inductive NewPath where
  | absent
  | mismatched
  | found (x : Found)

variable (t : Topology)

def findNewPath (l : LinkRow) : NewPath :=
  let e := t.endpoints l
  if (t.linksAt e.1).length < 2 then .absent
  else if (t.linksAt e.2).length < 2 then .absent
  else
    match t.otherUp l.id e.1,t.otherUp l.id e.2 with
    | some a,some z =>
      let first : Side := ⟨a,e.1,a.farEnd e.1⟩
      let second : Side := ⟨z,e.2,z.farEnd e.2⟩
      if t.node second.new=t.node first.new then .found ⟨t.node second.new,first,second⟩
      else .mismatched
    | _,_ => .absent

/-- The circuit is found, by states and type, as in `get_circuits_on_link`. -/
def finds (d : Db) (l : LinkRow) (circuit : Nat) : Bool :=
  decide (d.store.base.circuitState circuit∈
    [some CircuitState.active,some .reserved,some .provisioned,some .scheduled]) &&
  decide (d.type circuit=if l.mpls=true then .mpls else .openflow)

def pathRow (s : Store) (path : Nat) : Option Paths.Path :=
  lookup Paths.Path.id path s.base.paths.rows

def getCircuitsOnLink (d : Db) (l : LinkRow) : List Nat :=
  (d.store.members.rows.filter (·.link=l.id)).filterMap fun m =>
    ((pathRow d.store m.path).map Paths.Path.circuit).filter (finds d l)

/-- The memberships, as often as the path has live instantiations. -/
def circuitLinks (s : Store) (circuit : Nat) : List Membership :=
  s.members.rows.flatMap fun m =>
    match pathRow s m.path with
    | none => []
    | some p => if p.circuit=circuit then p.liveOnes.map fun _ => m else []

/-- The old VLAN goes to the end that is kept. -/
def Side.row (side : Side) (path : Nat) (fresh kept : Int) : Membership :=
  if side.new=side.link.a then ⟨side.link.id,path,fresh,kept⟩ else ⟨side.link.id,path,kept,fresh⟩

def put (net : Network) (s : Store) (m : Membership) : Store := (s.insertMembership net m).getD s

/-- Without free VLANs nothing comes in its place. -/
def replace (l : LinkRow) (x : Found) (s : Store) (m : Membership) : Store×Bool :=
  if m.link=l.id then
    let closed := s.removeLink m.path l.id
    match closed.getAvailableInternalVlanId t.network x.node x.first.new,
      closed.getAvailableInternalVlanId t.network x.node x.second.new with
    | some a,some z =>
      (put t.network (put t.network closed (x.first.row m.path a m.aVlan))
        (x.second.row m.path z m.zVlan),true)
    | _,_ => (closed,false)
  else (s,true)

def reroute (l : LinkRow) (x : Found) (s : Store) (circuit : Nat) : Store×Bool :=
  foldUntil (replace t l x) s (circuitLinks s circuit)

inductive Answer where
  | success
  | error (text : String)
  | died

/-- The decommissioned link keeps an instantiation with its interfaces; confirming the new links
does not move them. -/
def insertNodeInPath (d : Db) (l : LinkRow) : Store×Answer :=
  match findNewPath t l with
  | .absent => (d.store,.error "no new paths found")
  | .mismatched => (d.store,.died)
  | .found x =>
    let y := foldUntil (reroute t l x) d.store (getCircuitsOnLink d l)
    (y.1,if y.2=true then .success else .error "Internal Error finding available internal vlan")

section Sides

variable {t : Topology} {l : LinkRow} {x : Found}

/-- The link leads from the interface it keeps to the new one. -/
def Side.Joined (t : Topology) (side : Side) : Prop :=
  side.link∈t.links∧side.kept≠side.new∧
    (side.link.a=side.kept∧side.link.z=side.new∨side.link.a=side.new∧side.link.z=side.kept)

theorem network_ends (hl : l∈t.links) : t.network.ends l.id=some (l.a,l.z) := by
  simp [Network.ends,Topology.network,lookup_of_mem t.ids hl]

theorem joined_otherUp {link i : Nat} {r : LinkRow} (h : t.otherUp link i=some r) :
    Side.Joined t ⟨r,i,r.farEnd i⟩∧r.id≠link := by
  have hmem := mem_of_getLast? h
  simp only [Topology.linksAt,mem_filter,decide_eq_true_eq,Bool.and_eq_true] at hmem
  obtain ⟨⟨hr,hends⟩,hne,-⟩ := hmem
  have hproper := t.proper r hr
  refine ⟨⟨hr,?_⟩,by simpa using hne⟩
  unfold LinkRow.farEnd
  by_cases ha : r.a=i
  · simp only [if_pos ha]
    exact ⟨fun h => hproper (ha.trans h),.inl ⟨ha,trivial⟩⟩
  · simp only [if_neg ha]
    exact ⟨fun h => ha h.symm,.inr ⟨trivial,hends.resolve_left ha⟩⟩

theorem findNewPath_spec (h : findNewPath t l=.found x) :
    (x.first.Joined t∧x.first.link.id≠l.id)∧(x.second.Joined t∧x.second.link.id≠l.id)∧
      t.endpoints l=(x.first.kept,x.second.kept)∧
      t.node x.first.new=x.node∧t.node x.second.new=x.node := by
  unfold findNewPath at h
  simp only at h
  split_ifs at h
  cases ha : t.otherUp l.id (t.endpoints l).1 with
  | none => simp [ha] at h
  | some a =>
    cases hz : t.otherUp l.id (t.endpoints l).2 with
    | none => simp [hz] at h
    | some z =>
      simp only [ha,hz] at h
      split_ifs at h with hnode
      cases h
      exact ⟨joined_otherUp ha,joined_otherUp hz,rfl,hnode.symm,rfl⟩

variable {side : Side}

theorem Side.row_link (path : Nat) (fresh kept : Int) : (side.row path fresh kept).link=side.link.id := by
  unfold Side.row
  split_ifs <;> rfl

theorem Side.row_path (path : Nat) (fresh kept : Int) : (side.row path fresh kept).path=path := by
  unfold Side.row
  split_ifs <;> rfl

theorem usedOn_row (h : side.Joined t) (path : Nat) (fresh kept : Int) :
    t.network.usedOn side.new (side.row path fresh kept)=some fresh∧
      t.network.usedOn side.kept (side.row path fresh kept)=some kept := by
  obtain ⟨hmem,hne,hends⟩ := h
  unfold Network.usedOn
  rw [Side.row_link,network_ends hmem]
  unfold Side.row
  rcases hends with ⟨ha,hz⟩ | ⟨ha,hz⟩
  · simp [ha,hz,hne,hne.symm]
  · simp [ha,hz,hne.symm]

theorem ends_row {link : Nat} {e : Nat×Nat} (h : t.network.ends link=some e) :
    ∃ r∈t.links,r.id=link∧e=(r.a,r.z) := by
  simp only [Network.ends,Topology.network] at h
  cases hr : lookup LinkRow.id link t.links with
  | none => simp [hr] at h
  | some r =>
    simp only [hr,Option.map_some,Option.bind_some,Option.some.injEq] at h
    obtain ⟨hmem,hid⟩ := lookup_spec hr
    exact ⟨r,hmem,hid,h.symm⟩

theorem usedOn_end {m : Membership} {i : Nat} {v : Int} (h : t.network.usedOn i m=some v) :
    ∃ r∈t.links,r.id=m.link∧(r.a=i∨r.z=i) := by
  unfold Network.usedOn at h
  cases hends : t.network.ends m.link with
  | none => simp [hends] at h
  | some e =>
    obtain ⟨r,hmem,hid,rfl⟩ := ends_row hends
    refine ⟨r,hmem,hid,?_⟩
    simp only [hends] at h
    split_ifs at h with ha hz
    · exact .inl ha
    · exact .inr hz

end Sides

section Progress

variable {t : Topology} {d : Db} {l : LinkRow} {x : Found} {s : Store}

/-- The first is of the end listed first. -/
def Found.side (x : Found) : Bool → Side
  | true => x.first
  | false => x.second

/-- The new links lead from the old one's ends to two interfaces of the node, and no path uses it
yet. -/
structure Inserted (t : Topology) (d : Db) (l : LinkRow) (x : Found) : Prop where
  link : l∈t.links
  found : findNewPath t l=.found x
  apart : ∀ b,x.node≠t.node (x.side b).kept
  interfaces : x.first.new≠x.second.new
  unused : ∀ m∈d.store.members.rows,∀ r∈t.links,r.id=m.link → t.node r.a≠x.node∧t.node r.z≠x.node

section

variable (h : Inserted t d l x)
include h

theorem Inserted.joined (b : Bool) : (x.side b).Joined t := by
  obtain ⟨hfirst,hsecond,-⟩ := findNewPath_spec h.found
  cases b
  · exact hsecond.1
  · exact hfirst.1

theorem Inserted.ne_old (b : Bool) : (x.side b).link.id≠l.id := by
  obtain ⟨hfirst,hsecond,-⟩ := findNewPath_spec h.found
  cases b
  · exact hsecond.2
  · exact hfirst.2

theorem Inserted.node_new (b : Bool) : t.node (x.side b).new=x.node := by
  obtain ⟨-,-,-,hfirst,hsecond⟩ := findNewPath_spec h.found
  cases b
  · exact hsecond
  · exact hfirst

theorem Inserted.new_ne_kept (b c : Bool) : (x.side b).new≠(x.side c).kept := by
  intro heq
  apply h.apart c
  rw [← heq,h.node_new b]

theorem Inserted.new_ne_new {b c : Bool} (hbc : b≠c) : (x.side b).new≠(x.side c).new := by
  cases b <;> cases c
  · exact absurd rfl hbc
  · exact h.interfaces.symm
  · exact h.interfaces
  · exact absurd rfl hbc

theorem Inserted.end_ne {b c : Bool} (hbc : b≠c) :
    (x.side c).link.a≠(x.side b).new∧(x.side c).link.z≠(x.side b).new := by
  have hkept := h.new_ne_kept b c
  have hnew := h.new_ne_new hbc
  obtain ⟨-,-,⟨ha,hz⟩ | ⟨ha,hz⟩⟩ := h.joined c
  · exact ⟨ha ▸ hkept.symm,hz ▸ hnew.symm⟩
  · exact ⟨ha ▸ hnew.symm,hz ▸ hkept.symm⟩

theorem Inserted.links_ne {b c : Bool} (hbc : b≠c) : (x.side b).link.id≠(x.side c).link.id := by
  intro heq
  have hsame := inj_on_of_nodup_map t.ids (h.joined b).1 (h.joined c).1 heq
  have hend := h.end_ne hbc
  rw [← hsame] at hend
  obtain ⟨-,-,⟨-,hz⟩ | ⟨ha,-⟩⟩ := h.joined b
  · exact hend.2 hz
  · exact hend.1 ha

end

variable {m : Membership} {v : Int}

theorem Inserted.usedOn_none (h : Inserted t d l x) (b : Bool) (hm : m∈d.store.members.rows) :
    t.network.usedOn (x.side b).new m≠some v := by
  intro hused
  obtain ⟨r,hr,hid,hend⟩ := usedOn_end hused
  obtain ⟨ha,hz⟩ := h.unused m hm r hr hid
  rcases hend with hend | hend
  · exact ha (hend ▸ h.node_new b)
  · exact hz (hend ▸ h.node_new b)

theorem Inserted.not_on_side (h : Inserted t d l x) (b : Bool) (hm : m∈d.store.members.rows) :
    m.link≠(x.side b).link.id := by
  intro hlink
  obtain ⟨ha,hz⟩ := h.unused m hm (x.side b).link (h.joined b).1 hlink.symm
  obtain ⟨-,-,⟨-,hend⟩ | ⟨hend,-⟩⟩ := h.joined b
  · exact hz (hend ▸ h.node_new b)
  · exact ha (hend ▸ h.node_new b)

def Affected (d : Db) (l : LinkRow) (m : Membership) : Prop :=
  m∈d.store.members.rows∧m.link=l.id∧
    ∃ p,pathRow d.store m.path=some p∧p.liveOnes≠[]∧finds d l p.circuit=true

theorem Affected.instantiated (h : Affected d l m) : d.store.base.paths.Instantiated m.path := by
  obtain ⟨-,-,p,hp,hlive,-⟩ := h
  obtain ⟨hmem,hid⟩ := lookup_spec hp
  exact ⟨p,hmem,hid,hlive⟩

/-- A replaced membership, with the VLANs of the new interfaces. -/
structure Replacement where
  old : Membership
  fresh : Bool → Int

def keptVlan (m : Membership) : Bool → Int
  | true => m.aVlan
  | false => m.zVlan

def Replacement.row (x : Found) (b : Bool) (y : Replacement) : Membership :=
  (x.side b).row y.old.path (y.fresh b) (keptVlan y.old b)

def Replacement.rows (x : Found) (y : Replacement) : List Membership := [y.row x true,y.row x false]

/-- The old link is off the paths in `closed`, and the memberships in `done` were replaced. -/
structure Progress (t : Topology) (d : Db) (l : LinkRow) (x : Found) (s : Store) (closed : List Nat)
    (done : List Replacement) : Prop where
  base : s.base=d.store.base
  rows : s.members.rows=(d.store.members.rows.filter fun m => ¬(m.link=l.id∧m.path∈closed))++
    done.flatMap (Replacement.rows x)
  affected : ∀ y∈done,Affected d l y.old∧y.old.path∈closed
  closed : ∀ path∈closed,∃ m,Affected d l m∧m.path=path
  distinct : (done.map Replacement.old).Nodup
  fresh : ∀ b,(done.map (·.fresh b)).Nodup
  allowed : ∀ y∈done,∀ b,y.fresh b∈t.network.allowedVlans x.node

variable {closed : List Nat} {done : List Replacement}

theorem Progress.start (t : Topology) (d : Db) (l : LinkRow) (x : Found) :
    Progress t d l x d.store [] [] :=
  ⟨rfl,by simp,by simp,by simp,by simp,by simp,by simp⟩

theorem mem_replacements : m∈done.flatMap (Replacement.rows x) ↔ ∃ y∈done,∃ b,m=y.row x b := by
  simp [Replacement.rows,or_comm]

theorem Progress.mem_rows (h : Progress t d l x s closed done) :
    m∈s.members.rows ↔ (m∈d.store.members.rows∧¬(m.link=l.id∧m.path∈closed))∨
      ∃ y∈done,∃ b,m=y.row x b := by
  rw [h.rows,mem_append,mem_replacements,mem_filter,decide_eq_true_eq]

theorem Replacement.row_link (y : Replacement) (b : Bool) : (y.row x b).link=(x.side b).link.id :=
  Side.row_link _ _ _

theorem Replacement.row_path (y : Replacement) (b : Bool) : (y.row x b).path=y.old.path :=
  Side.row_path _ _ _

section

variable (h : Progress t d l x s closed done)
include h

theorem Progress.mem_side (hx : Inserted t d l x) (b : Bool) (hm : m∈s.members.rows)
    (hlink : m.link=(x.side b).link.id) : ∃ y∈done,m=y.row x b := by
  rcases h.mem_rows.mp hm with ⟨hold,-⟩ | ⟨y,hy,c,rfl⟩
  · exact absurd hlink (hx.not_on_side b hold)
  rw [Replacement.row_link] at hlink
  by_cases hbc : b=c
  · exact ⟨y,hy,hbc ▸ rfl⟩
  · exact absurd hlink.symm (hx.links_ne hbc)

theorem Progress.usedOn_new (hx : Inserted t d l x) (b : Bool) (hm : m∈s.members.rows)
    (hused : t.network.usedOn (x.side b).new m=some v) : ∃ y∈done,m=y.row x b∧y.fresh b=v := by
  rcases h.mem_rows.mp hm with ⟨hold,-⟩ | ⟨y,hy,c,rfl⟩
  · exact absurd hused (hx.usedOn_none b hold)
  by_cases hbc : b=c
  · subst hbc
    rw [Replacement.row,(usedOn_row (hx.joined b) _ _ _).1] at hused
    exact ⟨y,hy,rfl,Option.some.inj hused⟩
  obtain ⟨r,hr,hid,hend⟩ := usedOn_end hused
  rw [Replacement.row_link] at hid
  have hsame := inj_on_of_nodup_map t.ids hr (hx.joined c).1 hid
  have hne := hx.end_ne hbc
  rw [← hsame] at hne
  rcases hend with hend | hend
  · exact absurd hend hne.1
  · exact absurd hend hne.2

theorem Progress.mem_used (hx : Inserted t d l x) (b : Bool) :
    v∈s.used t.network (x.side b).new ↔ ∃ y∈done,y.fresh b=v := by
  rw [Store.used,mem_filterMap]
  constructor
  · intro ⟨m,hm,hused⟩
    obtain ⟨y,hy,-,hfresh⟩ := h.usedOn_new hx b (mem_filter.mp hm).1 hused
    exact ⟨y,hy,hfresh⟩
  · rintro ⟨y,hy,rfl⟩
    refine ⟨y.row x b,mem_filter.mpr ⟨h.mem_rows.mpr (.inr ⟨y,hy,b,rfl⟩),?_⟩,?_⟩
    · rw [decide_eq_true_eq,Replacement.row_path,h.base]
      exact (h.affected y hy).1.instantiated
    · exact (usedOn_row (hx.joined b) _ _ _).1

end

end Progress

section Steps

variable {t : Topology} {d : Db} {l : LinkRow} {x : Found} {s : Store} {closed : List Nat}
  {done : List Replacement} {m : Membership}

theorem put_rows {net : Network} (hlink : (net.link m.link).isSome=true)
    (hpath : ∃ p∈s.base.paths.rows,p.id=m.path)
    (hfree : ∀ r∈s.members.rows,r.link=m.link → r.aVlan≠m.aVlan∧r.zVlan≠m.zVlan) :
    (put net s m).members.rows=s.members.rows++[m]∧(put net s m).base=s.base := by
  have hknown : ¬((net.link m.link).isNone=true∨¬∃ p∈s.base.paths.rows,p.id=m.path) := by
    rw [not_or,not_not,Option.isNone_iff_eq_none]
    exact ⟨Option.ne_none_iff_isSome.mpr hlink,hpath⟩
  have hkeys : ¬((m.link,m.aVlan)∈s.members.rows.map (fun m => (m.link,m.aVlan))∨
      (m.link,m.zVlan)∈s.members.rows.map (fun m => (m.link,m.zVlan))) := by
    simp only [mem_map,Prod.mk.injEq,not_or,not_exists,not_and]
    exact ⟨fun r hr hl => (hfree r hr hl).1,fun r hr hl => (hfree r hr hl).2⟩
  rw [put,Store.insertMembership,MembershipTable.insert,if_neg hknown,dif_neg hkeys]
  exact ⟨rfl,rfl⟩

theorem put_clash {net : Network} (h : (m.link,m.aVlan)∈s.members.rows.map (fun m => (m.link,m.aVlan))∨
    (m.link,m.zVlan)∈s.members.rows.map (fun m => (m.link,m.zVlan))) : put net s m=s := by
  unfold put Store.insertMembership MembershipTable.insert
  split_ifs
  · rfl
  · rfl

theorem keptVlan_injective (b : Bool) {m' : Membership} (hm : m∈d.store.members.rows)
    (hm' : m'∈d.store.members.rows) (hlink : m.link=m'.link) (hkept : keptVlan m b=keptVlan m' b) :
    m=m' := by
  cases b with
  | true => exact inj_on_of_nodup_map d.store.members.aKeys hm hm' (Prod.ext hlink hkept)
  | false => exact inj_on_of_nodup_map d.store.members.zKeys hm hm' (Prod.ext hlink hkept)

section

variable (h : Progress t d l x s closed done)
include h

theorem Progress.close (hx : Inserted t d l x) (hm : Affected d l m) :
    Progress t d l x (s.removeLink m.path l.id) (m.path::closed) done := by
  refine ⟨h.base,?_,?_,?_,h.distinct,h.fresh,h.allowed⟩
  · have hold : (d.store.members.rows.filter fun r => ¬(r.link=l.id∧r.path∈closed)).filter
        (fun r => !(r.link==l.id && r.path==m.path))=
        d.store.members.rows.filter fun r => ¬(r.link=l.id∧r.path∈m.path::closed) := by
      rw [filter_filter]
      apply filter_congr
      intro r _
      by_cases hlink : r.link=l.id <;> by_cases hpath : r.path=m.path <;> simp [hlink,hpath]
    have hnew : (done.flatMap (Replacement.rows x)).filter
        (fun r => !(r.link==l.id && r.path==m.path))=done.flatMap (Replacement.rows x) := by
      apply filter_eq_self.mpr
      intro r hr
      obtain ⟨y,-,b,rfl⟩ := mem_replacements.mp hr
      simp [Replacement.row_link,hx.ne_old b]
    simp only [Store.removeLink,MembershipTable.close,h.rows,filter_append]
    rw [hold,hnew]
  · intro y hy
    obtain ⟨haffected,hclosed⟩ := h.affected y hy
    exact ⟨haffected,mem_cons_of_mem _ hclosed⟩
  · intro path hpath
    rcases mem_cons.mp hpath with rfl | hpath
    · exact ⟨m,hm,rfl⟩
    · exact h.closed path hpath

/-- The new VLAN is free, the kept one was not used twice. -/
theorem Progress.keys_free (hx : Inserted t d l x) (hm : Affected d l m)
    (hnew : m∉done.map Replacement.old) (b : Bool) {v : Int}
    (hv : v∉s.used t.network (x.side b).new) {r : Membership} (hr : r∈s.members.rows)
    (hlink : r.link=(x.side b).link.id) : r.aVlan≠((x.side b).row m.path v (keptVlan m b)).aVlan∧
      r.zVlan≠((x.side b).row m.path v (keptVlan m b)).zVlan := by
  obtain ⟨y,hy,rfl⟩ := h.mem_side hx b hr hlink
  have hfresh : y.fresh b≠v := by
    intro heq
    exact hv ((h.mem_used hx b).mpr ⟨y,hy,heq⟩)
  have hkept : keptVlan y.old b≠keptVlan m b := by
    intro heq
    obtain ⟨⟨hmem,hold,-⟩,-⟩ := h.affected y hy
    apply hnew
    rw [← keptVlan_injective b hmem hm.1 (hold.trans hm.2.1.symm) heq]
    exact mem_map_of_mem hy
  unfold Replacement.row Side.row
  split_ifs
  · exact ⟨hfresh,hkept⟩
  · exact ⟨hkept,hfresh⟩

theorem Progress.put_again (b : Bool) {y : Replacement} (hy : y∈done) (v : Int) :
    put t.network s ((x.side b).row y.old.path v (keptVlan y.old b))=s := by
  have hmem : y.row x b∈s.members.rows := h.mem_rows.mpr (.inr ⟨y,hy,b,rfl⟩)
  apply put_clash
  by_cases hend : (x.side b).new=(x.side b).link.a
  · right
    refine mem_map.mpr ⟨y.row x b,hmem,?_⟩
    simp [Replacement.row,Side.row,hend]
  · left
    refine mem_map.mpr ⟨y.row x b,hmem,?_⟩
    simp [Replacement.row,Side.row,hend]

theorem Progress.put_both (hx : Inserted t d l x) (hm : Affected d l m) (hclosed : m.path∈closed)
    (hnew : m∉done.map Replacement.old) {a z : Int}
    (ha : a∈t.network.allowedVlans x.node∧a∉s.used t.network x.first.new)
    (hz : z∈t.network.allowedVlans x.node∧z∉s.used t.network x.second.new) :
    Progress t d l x (put t.network (put t.network s (x.first.row m.path a m.aVlan))
      (x.second.row m.path z m.zVlan)) closed (done++[⟨m,fun b => if b=true then a else z⟩]) := by
  have hlink (b : Bool) : (t.network.link (x.side b).link.id).isSome=true := by
    simp [Topology.network,lookup_of_mem t.ids (hx.joined b).1]
  have hpath : ∃ p∈s.base.paths.rows,p.id=m.path := by
    obtain ⟨p,hp,hid,-⟩ := hm.instantiated
    exact ⟨p,h.base ▸ hp,hid⟩
  set rowA := x.first.row m.path a m.aVlan with hrowA
  set rowZ := x.second.row m.path z m.zVlan with hrowZ
  have hlinkA : rowA.link=(x.side true).link.id := Side.row_link _ _ _
  have hlinkZ : rowZ.link=(x.side false).link.id := Side.row_link _ _ _
  obtain ⟨hrowsA,hbaseA⟩ : (put t.network s rowA).members.rows=s.members.rows++[rowA]∧
      (put t.network s rowA).base=s.base := by
    apply put_rows
    · exact hlinkA ▸ hlink true
    · rwa [Side.row_path]
    · intro r hr hl
      exact h.keys_free hx hm hnew true ha.2 hr (hl.trans hlinkA)
  obtain ⟨hrowsZ,hbaseZ⟩ : (put t.network (put t.network s rowA) rowZ).members.rows=
      (s.members.rows++[rowA])++[rowZ]∧(put t.network (put t.network s rowA) rowZ).base=s.base := by
    rw [← hrowsA,← hbaseA]
    apply put_rows
    · exact hlinkZ ▸ hlink false
    · rwa [hbaseA,Side.row_path]
    · intro r hr hl
      rw [hrowsA] at hr
      rcases Runs.mem_snoc.mp hr with hr | rfl
      · exact h.keys_free hx hm hnew false hz.2 hr (hl.trans hlinkZ)
      · rw [hlinkA,hlinkZ] at hl
        exact absurd hl (hx.links_ne (by simp))
  refine ⟨hbaseZ.trans h.base,?_,?_,h.closed,nodup_map_snoc h.distinct hnew,?_,?_⟩
  · rw [hrowsZ,h.rows]
    simp [Replacement.rows,Replacement.row,Found.side,keptVlan,hrowA,hrowZ]
  · exact Runs.forall_mem_snoc h.affected ⟨hm,hclosed⟩
  · intro b
    apply nodup_map_snoc (h.fresh b)
    intro hmem
    obtain ⟨y,hy,heq⟩ := mem_map.mp hmem
    cases b with
    | true => exact ha.2 ((h.mem_used hx true).mpr ⟨y,hy,heq⟩)
    | false => exact hz.2 ((h.mem_used hx false).mpr ⟨y,hy,heq⟩)
  · apply Runs.forall_mem_snoc h.allowed
    intro b
    cases b with
    | true => exact ha.1
    | false => exact hz.1

end

theorem available {b : Bool} {v : Int}
    (h : s.getAvailableInternalVlanId t.network x.node (x.side b).new=some v) :
    v∈t.network.allowedVlans x.node∧v∉s.used t.network (x.side b).new := by
  exact ⟨mem_of_find?_eq_some h,by simpa using find?_some h⟩

theorem Progress.exhausted (h : Progress t d l x s closed done) (hx : Inserted t d l x) {b : Bool}
    (hnone : s.getAvailableInternalVlanId t.network x.node (x.side b).new=none) :
    t.network.allowedVlans x.node⊆done.map fun y => y.fresh b := by
  intro v hv
  have hused : v∈s.used t.network (x.side b).new := by simpa using find?_eq_none.mp hnone v hv
  obtain ⟨y,hy,hfresh⟩ := (h.mem_used hx b).mp hused
  exact mem_map.mpr ⟨y,hy,hfresh⟩

theorem Progress.replace (h : Progress t d l x s closed done) (hx : Inserted t d l x)
    (hm : Affected d l m) :
    ∃ done',Progress t d l x (replace t l x s m).1 (m.path::closed) done'∧done⊆done'∧
      ((NodeInsertion.replace t l x s m).2=true → m∈done'.map Replacement.old)∧
      ((NodeInsertion.replace t l x s m).2=false →
        done'=done∧∃ b,t.network.allowedVlans x.node⊆done.map (·.fresh b)) := by
  have hclose := h.close hx hm
  rw [NodeInsertion.replace,if_pos hm.2.1]
  simp only
  generalize s.removeLink m.path l.id=u at hclose
  cases ha : u.getAvailableInternalVlanId t.network x.node x.first.new with
  | none => exact ⟨done,hclose,List.Subset.refl done,by simp,fun _ => ⟨rfl,true,hclose.exhausted hx ha⟩⟩
  | some a =>
    cases hz : u.getAvailableInternalVlanId t.network x.node x.second.new with
    | none => exact ⟨done,hclose,List.Subset.refl done,by simp,fun _ => ⟨rfl,false,hclose.exhausted hx hz⟩⟩
    | some z =>
      by_cases hnew : m∈done.map Replacement.old
      · obtain ⟨y,hy,rfl⟩ := mem_map.mp hnew
        have hagain (b : Bool) (v : Int) := hclose.put_again b hy v
        have hfirst : put t.network u (x.first.row y.old.path a y.old.aVlan)=u := hagain true a
        have hsecond : put t.network u (x.second.row y.old.path z y.old.zVlan)=u := hagain false z
        simp only [hfirst,hsecond]
        exact ⟨done,hclose,List.Subset.refl done,fun _ => hnew,by simp⟩
      · have hboth := hclose.put_both hx hm mem_cons_self hnew
          (available (b := true) ha) (available (b := false) hz)
        exact ⟨_,hboth,subset_append_left _ _,by simp,by simp⟩

end Steps

section Runs

variable {t : Topology} {d : Db} {l : LinkRow} {x : Found} {s : Store} {closed : List Nat}
  {done : List Replacement} {m : Membership}

def users (d : Db) (l : LinkRow) : List Paths.Path :=
  d.store.base.paths.rows.filter fun p => p.liveOnes≠[]∧l.id∈liveLinks d.store p.id

theorem mem_liveLinks {path link : Nat} :
    link∈liveLinks s path ↔ ∃ m∈s.members.rows,m.path=path∧m.link=link := by
  simp [liveLinks,and_assoc]

theorem paths_nodup (d : Db) : (d.store.base.paths.rows.map Paths.Path.id).Nodup :=
  d.store.base.paths.ordered.imp (fun h => ne_of_lt h)

theorem pathRow_of_mem {p : Paths.Path} (hp : p∈d.store.base.paths.rows) :
    pathRow d.store p.id=some p := lookup_of_mem (paths_nodup d) hp

theorem affected_iff : Affected d l m ↔ m∈d.store.members.rows∧m.link=l.id∧
    ∃ p∈users d l,p.id=m.path∧finds d l p.circuit=true := by
  constructor
  · intro ⟨hm,hlink,p,hp,hlive,hfinds⟩
    obtain ⟨hmem,hid⟩ := lookup_spec hp
    refine ⟨hm,hlink,p,mem_filter.mpr ⟨hmem,?_⟩,hid,hfinds⟩
    rw [decide_eq_true_eq]
    exact ⟨hlive,mem_liveLinks.mpr ⟨m,hm,hid.symm,hlink⟩⟩
  · intro ⟨hm,hlink,p,hp,hid,hfinds⟩
    obtain ⟨hmem,hlive⟩ := mem_filter.mp hp
    rw [decide_eq_true_eq] at hlive
    exact ⟨hm,hlink,p,hid ▸ pathRow_of_mem hmem,hlive.1,hfinds⟩

/-- The old link is once on each path, and VLANs suffice for all. -/
structure Enough (t : Topology) (d : Db) (l : LinkRow) (x : Found) : Prop where
  once : ∀ m m',Affected d l m → Affected d l m' → m.path=m'.path → m=m'
  room : (users d l).length≤(t.network.allowedVlans x.node).dedup.length

theorem Progress.paths_nodup (h : Progress t d l x s closed done) (he : Enough t d l x) :
    (done.map (·.old.path)).Nodup := by
  have hmap : (done.map (·.old.path))=(done.map Replacement.old).map Membership.path := by
    rw [map_map]
    rfl
  rw [hmap]
  apply Nodup.map_on _ h.distinct
  intro r hr r' hr' hpath
  obtain ⟨y,hy,rfl⟩ := mem_map.mp hr
  obtain ⟨y',hy',rfl⟩ := mem_map.mp hr'
  exact he.once _ _ (h.affected y hy).1 (h.affected y' hy').1 hpath

theorem Progress.replaced_of_exhausted (h : Progress t d l x s closed done) (he : Enough t d l x)
    {b : Bool} (hall : t.network.allowedVlans x.node⊆done.map (·.fresh b))
    (hm : Affected d l m) : m∈done.map Replacement.old := by
  have hpaths := h.paths_nodup he
  have hsub : (done.map (·.old.path))⊆(users d l).map Paths.Path.id := by
    intro path hpath
    obtain ⟨y,hy,rfl⟩ := mem_map.mp hpath
    obtain ⟨-,-,p,hp,hid,-⟩ := affected_iff.mp (h.affected y hy).1
    exact mem_map.mpr ⟨p,hp,hid⟩
  have hlength : ((users d l).map Paths.Path.id).length≤(done.map (·.old.path)).length := by
    have hdedup : (t.network.allowedVlans x.node).dedup⊆done.map fun y => y.fresh b :=
      fun v hv => hall (mem_dedup.mp hv)
    have hle := (subperm_of_subset (nodup_dedup _) hdedup).length_le
    have hroom := he.room
    simp only [length_map] at hle ⊢
    omega
  have hperm := (subperm_of_subset hpaths hsub).perm_of_length_le hlength
  obtain ⟨-,-,p,hp,hid,-⟩ := affected_iff.mp hm
  have hmem : m.path∈done.map fun y => y.old.path := by
    rw [hperm.mem_iff,← hid]
    exact mem_map_of_mem hp
  obtain ⟨y,hy,hpath⟩ := mem_map.mp hmem
  rw [he.once m y.old hm (h.affected y hy).1 hpath.symm]
  exact mem_map_of_mem hy

/-- If VLANs suffice, paths off the old link have the new ones. -/
def Underway (t : Topology) (d : Db) (l : LinkRow) (x : Found) (s : Store) : Prop :=
  ∃ closed done,Progress t d l x s closed done∧
    (Enough t d l x → ∀ path∈closed,∃ y∈done,y.old.path=path)

def Replaced (x : Found) (m : Membership) (s : Store) : Prop :=
  ∃ v,(x.side true).row m.path v (keptVlan m true)∈s.members.rows

def Keeps (l : LinkRow) (s s' : Store) : Prop := ∀ r∈s.members.rows,r.link≠l.id → r∈s'.members.rows

theorem Progress.replaced_iff (h : Progress t d l x s closed done) (hx : Inserted t d l x)
    (hm : Affected d l m) : Replaced x m s ↔ m∈done.map Replacement.old := by
  constructor
  · intro ⟨v,hv⟩
    obtain ⟨y,hy,hrow⟩ := h.mem_side hx true hv (Side.row_link _ _ _)
    obtain ⟨⟨hmem,hold,-⟩,-⟩ := h.affected y hy
    have hkept := congrArg (t.network.usedOn (x.side true).kept) hrow
    rw [(usedOn_row (hx.joined true) _ _ _).2,Replacement.row,(usedOn_row (hx.joined true) _ _ _).2] at hkept
    rw [keptVlan_injective true hm.1 hmem (hm.2.1.trans hold.symm) (Option.some.inj hkept)]
    exact mem_map_of_mem hy
  · intro hmem
    obtain ⟨y,hy,rfl⟩ := mem_map.mp hmem
    exact ⟨y.fresh true,h.mem_rows.mpr (.inr ⟨y,hy,true,rfl⟩)⟩

theorem replaced_keeps {s s' : Store} (hx : Inserted t d l x) (hkeeps : Keeps l s s')
    (hr : Replaced x m s) : Replaced x m s' := by
  obtain ⟨v,hv⟩ := hr
  refine ⟨v,hkeeps _ hv ?_⟩
  rw [Side.row_link]
  exact hx.ne_old true

theorem Progress.keeps {s' : Store} {closed' : List Nat} {done' : List Replacement}
    (h : Progress t d l x s closed done) (h' : Progress t d l x s' closed' done')
    (hdone : done⊆done') : Keeps l s s' := by
  intro r hr hlink
  rcases h.mem_rows.mp hr with ⟨hmem,-⟩ | ⟨y,hy,b,rfl⟩
  · exact h'.mem_rows.mpr (.inl ⟨hmem,fun hclosed => hlink hclosed.1⟩)
  · exact h'.mem_rows.mpr (.inr ⟨y,hdone hy,b,rfl⟩)

theorem keeps_refl (s : Store) : Keeps l s s := fun _ hr _ => hr

theorem keeps_trans {s u v : Store} (h : Keeps l s u) (h' : Keeps l u v) : Keeps l s v :=
  fun r hr hlink => h' r (h r hr hlink) hlink

theorem underway_replace (hx : Inserted t d l x) (hs : Underway t d l x s)
    (hm : m.link=l.id → Affected d l m) :
    Underway t d l x (replace t l x s m).1∧Keeps l s (replace t l x s m).1∧
      ((replace t l x s m).2=true → Enough t d l x → m.link=l.id → Replaced x m (replace t l x s m).1)∧
      ((replace t l x s m).2=false → Enough t d l x →
        ∀ r,Affected d l r → Replaced x r (replace t l x s m).1) := by
  by_cases hlink : m.link=l.id
  · have hm := hm hlink
    obtain ⟨closed,done,h,hclosed⟩ := hs
    obtain ⟨done',h',hsub,hok,hfail⟩ := h.replace hx hm
    have hstop (hfalse : (replace t l x s m).2=false) (he : Enough t d l x) (r : Membership)
        (hr : Affected d l r) : r∈done'.map Replacement.old := by
      obtain ⟨rfl,b,hall⟩ := hfail hfalse
      exact h'.replaced_of_exhausted he hall hr
    refine ⟨⟨_,done',h',?_⟩,h.keeps h' hsub,?_,?_⟩
    · intro he path hpath
      rcases mem_cons.mp hpath with rfl | hpath
      · have hmem : m∈done'.map Replacement.old := by
          cases hb : (replace t l x s m).2 with
          | true => exact hok hb
          | false => exact hstop hb he m hm
        obtain ⟨y,hy,rfl⟩ := mem_map.mp hmem
        exact ⟨y,hy,rfl⟩
      · obtain ⟨y,hy,hold⟩ := hclosed he path hpath
        exact ⟨y,hsub hy,hold⟩
    · intro htrue _ _
      exact (h'.replaced_iff hx hm).mpr (hok htrue)
    · intro hfalse he r hr
      exact (h'.replaced_iff hx hr).mpr (hstop hfalse he r hr)
  · have hsame : replace t l x s m=(s,true) := if_neg hlink
    rw [hsame]
    exact ⟨hs,keeps_refl s,fun _ _ h => absurd h hlink,by simp⟩

theorem mem_circuitLinks {circuit : Nat} : m∈circuitLinks s circuit ↔
    m∈s.members.rows∧∃ p,pathRow s m.path=some p∧p.circuit=circuit∧p.liveOnes≠[] := by
  rw [circuitLinks,mem_flatMap]
  constructor
  · intro ⟨r,hr,hm⟩
    split at hm
    · cases hm
    next p hp =>
      split_ifs at hm with hcircuit
      · obtain ⟨i,hi,rfl⟩ := mem_map.mp hm
        exact ⟨hr,p,hp,hcircuit,ne_nil_of_mem hi⟩
      · exact absurd hm not_mem_nil
  · intro ⟨hm,p,hp,hcircuit,hlive⟩
    obtain ⟨i,hi⟩ := exists_mem_of_ne_nil _ hlive
    refine ⟨m,hm,?_⟩
    simp only [hp,if_pos hcircuit]
    exact mem_map.mpr ⟨i,hi,rfl⟩

theorem Progress.pathRow (h : Progress t d l x s closed done) (path : Nat) :
    pathRow s path=NodeInsertion.pathRow d.store path := by
  unfold NodeInsertion.pathRow
  rw [h.base]

theorem Progress.mem_old (h : Progress t d l x s closed done) (hx : Inserted t d l x)
    (hm : m∈s.members.rows) (hlink : m.link=l.id) : m∈d.store.members.rows∧m.path∉closed := by
  rcases h.mem_rows.mp hm with ⟨hmem,hopen⟩ | ⟨y,-,b,rfl⟩
  · exact ⟨hmem,fun hpath => hopen ⟨hlink,hpath⟩⟩
  · rw [Replacement.row_link] at hlink
    exact absurd hlink (hx.ne_old b)

def Moved (d : Db) (l : LinkRow) (x : Found) (circuit : Nat) (s : Store) : Prop :=
  ∀ m p,Affected d l m → pathRow d.store m.path=some p → p.circuit=circuit → Replaced x m s

theorem underway_reroute {circuit : Nat} (hx : Inserted t d l x) (hs : Underway t d l x s)
    (hcircuit : finds d l circuit=true) :
    Underway t d l x (reroute t l x s circuit).1∧Keeps l s (reroute t l x s circuit).1∧
      ((reroute t l x s circuit).2=true → Enough t d l x →
        Moved d l x circuit (reroute t l x s circuit).1)∧
      ((reroute t l x s circuit).2=false → Enough t d l x →
        ∀ r,Affected d l r → Replaced x r (reroute t l x s circuit).1) := by
  obtain ⟨closed,done,h,hclosed⟩ := id hs
  have haffected : ∀ m∈circuitLinks s circuit,m.link=l.id → Affected d l m := by
    intro m hm hlink
    obtain ⟨hmem,p,hp,rfl,hlive⟩ := mem_circuitLinks.mp hm
    exact ⟨(h.mem_old hx hmem hlink).1,hlink,p,h.pathRow m.path ▸ hp,hlive,hcircuit⟩
  obtain ⟨hunder,hkeeps,hreached,hstop⟩ := @foldUntil_spec _ _
    (replace t l x) (Underway t d l x) (fun s => Enough t d l x → ∀ r,Affected d l r → Replaced x r s)
    (Keeps l) (fun m s => Enough t d l x → m.link=l.id → Replaced x m s) _ _
    keeps_refl (fun _ _ _ => keeps_trans)
    (fun m s u hkeeps hr he hlink => replaced_keeps hx hkeeps (hr he hlink))
    (fun m hm s hs => underway_replace hx hs (haffected m hm)) hs
  refine ⟨hunder,hkeeps,?_,hstop⟩
  intro hok he m p hm hp hcircuit
  by_cases hopen : m.path∈closed
  · -- an earlier turn has replaced it
    obtain ⟨y,hy,hpath⟩ := hclosed he m.path hopen
    have hold := he.once y.old m (h.affected y hy).1 hm hpath
    apply replaced_keeps hx hkeeps
    exact (h.replaced_iff hx hm).mpr (hold ▸ mem_map_of_mem hy)
  · have hmem : m∈s.members.rows := h.mem_rows.mpr (.inl ⟨hm.1,fun hc => hopen hc.2⟩)
    obtain ⟨-,hlink,q,hq,hlive,-⟩ := id hm
    have hpq : q=p := Option.some.inj (hq.symm.trans hp)
    subst hpq
    have hin : m∈circuitLinks s circuit :=
      mem_circuitLinks.mpr ⟨hmem,q,(h.pathRow m.path).trans hq,hcircuit,hlive⟩
    exact hreached hok m hin he hlink

/-- The call makes progress, to its end if there is room. -/
theorem insertNodeInPath_progress (hx : Inserted t d l x) :
    ∃ closed done,Progress t d l x (insertNodeInPath t d l).1 closed done∧
      (Enough t d l x → ∀ m,Affected d l m → m∈done.map Replacement.old) := by
  have hresult : (insertNodeInPath t d l).1=
      (foldUntil (reroute t l x) d.store (getCircuitsOnLink d l)).1 := by
    rw [insertNodeInPath,hx.found]
  have hfinds : ∀ circuit∈getCircuitsOnLink d l,finds d l circuit=true := by
    intro circuit hmem
    obtain ⟨m,-,hm⟩ := mem_filterMap.mp hmem
    exact (Option.filter_eq_some_iff.mp hm).2
  obtain ⟨⟨closed,done,h,-⟩,-,hreached,hstop⟩ := @foldUntil_spec _ _
    (reroute t l x) (Underway t d l x) (fun s => Enough t d l x → ∀ r,Affected d l r → Replaced x r s)
    (Keeps l) (fun circuit s => Enough t d l x → Moved d l x circuit s) _ _
    keeps_refl (fun _ _ _ => keeps_trans)
    (fun circuit s u hkeeps hr he m p hm hp hc => replaced_keeps hx hkeeps (hr he m p hm hp hc))
    (fun circuit hc s hs => underway_reroute hx hs (hfinds circuit hc))
    ⟨[],[],Progress.start t d l x,by simp⟩
  rw [hresult]
  refine ⟨closed,done,h,?_⟩
  intro he m hm
  apply (h.replaced_iff hx hm).mp
  cases hok : (foldUntil (reroute t l x) d.store (getCircuitsOnLink d l)).2 with
  | false => exact hstop hok he m hm
  | true =>
    obtain ⟨hmem,hlink,p,hp,-,hcircuit⟩ := id hm
    have hin : p.circuit∈getCircuitsOnLink d l := by
      refine mem_filterMap.mpr ⟨m,mem_filter.mpr ⟨hmem,by simpa using hlink⟩,?_⟩
      simp [hp,hcircuit]
    exact hreached hok p.circuit hin he m p hm hp rfl

end Runs

end OESS.NodeInsertion
