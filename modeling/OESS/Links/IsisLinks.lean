import OESS.Framework.Runs
import OESS.Links.Calls

namespace OESS.Links

open Lookup Option List

namespace Instantiation

def joins (i : Instantiation) (a z : Nat) : Bool :=
  (i.interfaceA==a && i.interfaceZ==z) || (i.interfaceA==z && i.interfaceZ==a)

def otherEnd (i : Instantiation) (id : Nat) : Nat :=
  if i.interfaceA=id then i.interfaceZ else i.interfaceA

end Instantiation

namespace Isis

structure Adjacency where
  (remoteNode remoteIp : String)

variable (t : Tables)

/-- The node filed by name and short name, a later one in an earlier's place. -/
def nodeInfo (key : String) : Option Node := (t.nodes.filter fun n =>
    n.current.any fun c => c.controller==.netconf && !c.decom && c.mpls).reverse.find? fun n =>
      n.name=key∨n.shortName.getD ""=key

def getInterfaceIdByNames (node interface : String) : Option Nat :=
  (lookup Node.name node t.nodes).bind fun n =>
    (t.interfaces.find? fun f => f.name=interface∧f.node=n.id).map (·.id)

/-- A known adjacency, and the second of its turn. -/
structure Entry where
  (a z nodeA nodeZ : Nat)
  (name ipA ipZ : String)
  now : Nat

def Entry.instantiation (e : Entry) (link : Nat) (state : LinkState) : Instantiation :=
  ⟨link,none,state,e.a,some e.ipA,e.z,some e.ipZ⟩

/-- The adjacencies in order, the interfaces by address, the clock. -/
structure Report where
  adjs : List (String×List (String×Adjacency))
  intfs : String → Option String
  clock : String → String → Nat

variable (r : Report) (t : Tables)

def Report.entry (x : String×String×Adjacency) : Option Entry := do
  let intfZ ← r.intfs x.2.2.remoteIp
  let adjsZ ← lookup Prod.fst x.2.2.remoteNode r.adjs
  let adjZ ← lookup Prod.fst intfZ adjsZ.2
  let nodeA ← nodeInfo t x.1
  let nodeZ ← nodeInfo t x.2.2.remoteNode
  let a ← getInterfaceIdByNames t nodeA.name x.2.1
  let z ← getInterfaceIdByNames t nodeZ.name intfZ
  return {
    a := a
    z := z
    nodeA := nodeA.id
    nodeZ := nodeZ.id
    name := x.1++"-"++x.2.1++"--"++x.2.2.remoteNode++"-"++intfZ
    ipA := adjZ.2.remoteIp
    ipZ := x.2.2.remoteIp
    now := r.clock x.1 x.2.1}

/-- A current instantiation joins the interfaces, in whatever state. -/
def joined (a z : Nat) : Bool := t.instantiations.any fun i => i.ended==none && i.joins a z

def nodeOf (id : Nat) : Option Nat := (lookup Interface.id id t.interfaces).map (·.node)

def linksTo (id node : Nat) : List Instantiation :=
  (t.instantiations.filter fun i => i.ended==none && i.state != .decom && i.ends.contains id).filter
    fun i => nodeOf t (i.otherEnd id)==some node

variable (e : Entry)

/-- Nobody looks at the results of the two calls. -/
def relink (i : Instantiation) : Tables :=
  let t₁ := (t.endCurrent i.link e.now).getD t
  (t₁.insertInstantiation (e.instantiation i.link i.state)).getD t₁

/-- Take a link from its other end to the interface `new`. -/
def move (i : Instantiation) (keep new : Nat) : Tables :=
  relink ((t.setRole (some (i.otherEnd keep)) none .unknown).setRole (some new) none .trunk) e i

def attach : Tables :=
  match lookup Link.name e.name t.links with
  | some l => (t.insertInstantiation (e.instantiation l.id .available)).getD t
  | none =>
    match t.insertLink e.name none .up (some 1) with
    | none => t
    | some t₁ => (t₁.insertInstantiation (e.instantiation t.nextLink .available)).getD t₁

def connect : Tables :=
  if joined t e.a e.z then t
  else
    match linksTo t e.a e.nodeZ,linksTo t e.z e.nodeA with
    -- whether or not there is a link at the other interface too
    | i::_,_ => move t e i e.a e.z
    | [],i::_ => move t e i e.z e.a
    | [],[] => attach t e

def Report.handleAdjacency (x : String×String×Adjacency) : Tables :=
  match r.entry t x with
  | none => t
  | some e => connect t e

def Report.all : List (String×String×Adjacency) := r.adjs.flatMap fun n => n.2.map fun x => (n.1,x)

def Report.handleLinks : Tables := r.all.foldl r.handleAdjacency t

section Ground

variable {t u : Tables}

theorem nodeInfo_ground (h : Ground t u) (key : String) : nodeInfo u key=nodeInfo t key := by
  rw [nodeInfo,nodeInfo,h.1]

theorem getInterfaceIdByNames_ground (h : Ground t u) (node interface : String) :
    getInterfaceIdByNames u node interface=getInterfaceIdByNames t node interface := by
  rw [getInterfaceIdByNames,h.1]
  congr 1
  funext n
  exact h.find_interface interface n.id

theorem entry_ground (r : Report) (h : Ground t u) (x : String×String×Adjacency) :
    r.entry u x=r.entry t x := by
  simp only [Report.entry,nodeInfo_ground h,getInterfaceIdByNames_ground h]

theorem hasInterface_of_names {node interface : String} {id : Nat}
    (h : getInterfaceIdByNames t node interface=some id) : t.HasInterface id := by
  obtain ⟨n,-,hn⟩ := bind_eq_some_iff.mp h
  obtain ⟨f,hf,rfl⟩ := map_eq_some_iff.mp hn
  exact mem_map_of_mem (mem_of_find?_eq_some hf)

theorem entry_spec {r : Report} {x : String×String×Adjacency} {e : Entry} (h : r.entry t x=some e) :
    t.HasInterface e.a∧t.HasInterface e.z∧∃ nodeA nodeZ intfZ,nodeInfo t x.1=some nodeA∧
      nodeInfo t x.2.2.remoteNode=some nodeZ∧r.intfs x.2.2.remoteIp=some intfZ∧
      getInterfaceIdByNames t nodeA.name x.2.1=some e.a∧
      getInterfaceIdByNames t nodeZ.name intfZ=some e.z := by
  obtain ⟨intfZ,hintf,h⟩ := bind_eq_some_iff.mp h
  obtain ⟨adjsZ,-,h⟩ := bind_eq_some_iff.mp h
  obtain ⟨adjZ,-,h⟩ := bind_eq_some_iff.mp h
  obtain ⟨nodeA,hnodeA,h⟩ := bind_eq_some_iff.mp h
  obtain ⟨nodeZ,hnodeZ,h⟩ := bind_eq_some_iff.mp h
  obtain ⟨a,ha,h⟩ := bind_eq_some_iff.mp h
  obtain ⟨z,hz,h⟩ := bind_eq_some_iff.mp h
  cases h
  exact ⟨hasInterface_of_names ha,hasInterface_of_names hz,nodeA,nodeZ,intfZ,hnodeA,hnodeZ,hintf,
    ha,hz⟩

theorem getD_cases {α : Type} {o : Option α} {d : α} (P : α → Prop) (hd : P d)
    (hs : ∀ a,o=some a → P a) : P (o.getD d) := by
  cases ho : o with
  | none => exact hd
  | some a => exact hs a ho

theorem insertInstantiation_ground {i : Instantiation} :
    Ground t ((t.insertInstantiation i).getD t) := by
  apply getD_cases (Ground t)
  · exact ⟨rfl,rfl⟩
  · intro u h
    obtain ⟨-,-,hf,hn,-⟩ := Tables.insertInstantiation_spec h
    exact ⟨hn,by rw [hf]⟩

theorem relink_ground (t : Tables) (e : Entry) (i : Instantiation) : Ground t (relink t e i) := by
  refine Ground.trans ?_ insertInstantiation_ground
  apply getD_cases (Ground t)
  · exact ⟨rfl,rfl⟩
  · intro u h
    obtain ⟨-,-,hf,hn,-⟩ := Tables.endCurrent_spec h
    exact ⟨hn,by rw [hf]⟩

theorem setRole_ground (t : Tables) (a z : Option Nat) (r : Role) : Ground t (t.setRole a z r) :=
  ⟨rfl,Tables.setRole_places a z r⟩

theorem connect_ground (t : Tables) (e : Entry) : Ground t (connect t e) := by
  have hmove (i : Instantiation) (keep new : Nat) : Ground t (move t e i keep new) :=
    ((setRole_ground t _ _ _).trans (setRole_ground _ _ _ _)).trans (relink_ground _ e i)
  have hattach : Ground t (attach t e) := by
    unfold attach
    split
    · exact insertInstantiation_ground
    cases hl : t.insertLink e.name none .up (some 1) with
    | none => exact ⟨rfl,rfl⟩
    | some t₁ =>
      obtain ⟨-,-,-,hf,hn,-⟩ := Tables.insertLink_spec hl
      have hfirst : Ground t t₁ := ⟨hn,by rw [hf]⟩
      exact hfirst.trans insertInstantiation_ground
  unfold connect
  split_ifs
  · exact ⟨rfl,rfl⟩
  split
  · exact hmove _ _ _
  · exact hmove _ _ _
  · exact hattach

end Ground

def Report.entries : List Entry := r.all.filterMap (r.entry t)

/-- Nodes and interfaces do not change under the loop. -/
theorem handleLinks_eq : r.handleLinks t=(r.entries t).foldl connect t := by
  have hloop (xs : List (String×String×Adjacency)) (u : Tables) (h : Ground t u) :
      xs.foldl r.handleAdjacency u=(xs.filterMap (r.entry t)).foldl connect u := by
    induction xs generalizing u with
    | nil => rfl
    | cons x xs ih =>
      rw [foldl_cons,Report.handleAdjacency,entry_ground r h]
      cases he : r.entry t x with
      | none =>
        rw [filterMap_cons_none he]
        exact ih u h
      | some e =>
        rw [filterMap_cons_some he]
        exact ih _ (h.trans (connect_ground u e))
  exact hloop r.all t ⟨rfl,rfl⟩

end Isis

end OESS.Links
