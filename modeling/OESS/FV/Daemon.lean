import OESS.Framework.Lookup

namespace OESS.FV

open OESS.Lookup Option
open List hiding lookup

inductive NodeStatus where
  | up | down
  deriving DecidableEq

inductive LinkStatus where
  | up | down | unknown
  deriving DecidableEq

/-- A node object; one made by a lookup has that key alone. -/
structure Node where
  id : Nat
  dpid : Option Nat
  status : Option NodeStatus

def Node.keyed (key : Nat) (n : Node) : Bool := n.id=key∨n.dpid=some key

/-- The last object that was stored under the key. -/
def entry (nodes : List Node) (key : Nat) : Option Node := nodes.reverse.find? (Node.keyed key)

def setStatus (nodes : List Node) (key : Nat) (status : NodeStatus) : List Node :=
  match entry nodes key with
  | none => nodes++[⟨key,none,some status⟩]
  | some _ => (nodes.reverse.replaceF fun n =>
      if n.keyed key then some {n with status := some status} else none).reverse

/-- The datapath is undefined when the node is not loaded. -/
structure End where
  dpid : Option Nat
  port : Nat
  deriving DecidableEq

structure Link where
  name : String
  (a z : End)
  fvStatus : LinkStatus
  lastVerified : Int
  deriving DecidableEq

def Link.At (l : Link) (d : Nat) : Prop := l.a.dpid=some d∨l.z.dpid=some d

/-- A packet heard: the node and port it came from, and its time. -/
structure Heard where
  (dpid port : Nat)
  timestamp : Int
  deriving DecidableEq

/-- The state of the daemon: links by name, where a link's datapath is a key of the nodes. -/
structure Fv where
  nodes : List Node
  links : List Link
  lastHeard : Nat×Nat → Option Heard
  distinct : (links.map Link.name).Nodup
  known : ∀ l∈links,∀ d,l.At d → (entry nodes d).isSome=true

def Fv.new : Fv := ⟨[],[],fun _ => none,by simp,by simp⟩

structure DbNode where
  (id dpid : Nat)
  operational : Bool

structure DbInterface where
  (node port : Nat)

structure DbLink where
  name : String
  (a z : DbInterface)

/-- Current OpenFlow nodes and links of the database. -/
structure Snapshot where
  nodes : List DbNode
  links : List DbLink
  distinct : (links.map DbLink.name).Nodup

namespace Snapshot

variable (db : Snapshot)

def entry (key : Nat) : Option DbNode := db.nodes.reverse.find? fun n => n.id=key∨n.dpid=key

/-- The datapath of a node, found by its id, then by its datapath id. -/
def dpidOf (node : Nat) : Option Nat :=
  (db.entry node).bind fun n => (db.entry n.dpid).map DbNode.dpid

def endOf (i : DbInterface) : End := ⟨db.dpidOf i.node,i.port⟩

/-- A lookup makes the id a key of the hash. -/
def lookedUp : List Node := db.links.flatMap fun l => [⟨l.a.node,none,none⟩,⟨l.z.node,none,none⟩]

end Snapshot

variable {nodes : List Node} {key d : Nat} {status : NodeStatus}

theorem entry_isSome : (entry nodes d).isSome=true ↔ ∃ n∈nodes,n.keyed d=true := by
  rw [entry,find?_isSome]
  simp only [mem_reverse]

theorem replaceF_keeps {f : Node → Option Node} {p : Node → Bool} (l : List Node)
    (hf : ∀ n m,f n=some m → p m=p n) (h : ∃ n∈l,p n=true) : ∃ n∈l.replaceF f,p n=true := by
  induction l with
  | nil => exact h
  | cons n l ih =>
    obtain ⟨m,hm,hp⟩ := h
    rw [replaceF]
    cases hfn : f n with
    | some k =>
      rcases mem_cons.mp hm with rfl | hrest
      · exact ⟨k,mem_cons_self,(hf _ k hfn).trans hp⟩
      · exact ⟨m,mem_cons_of_mem k hrest,hp⟩
    | none =>
      rcases mem_cons.mp hm with rfl | hrest
      · exact ⟨m,mem_cons_self,hp⟩
      · obtain ⟨k,hk,hpk⟩ := ih ⟨m,hrest,hp⟩
        exact ⟨k,mem_cons_of_mem n hk,hpk⟩

theorem entry_setStatus (h : (entry nodes d).isSome=true) :
    (entry (setStatus nodes key status) d).isSome=true := by
  rw [entry_isSome] at h ⊢
  obtain ⟨n,hn,hkeyed⟩ := h
  unfold setStatus
  cases entry nodes key with
  | none => exact ⟨n,mem_append_left _ hn,hkeyed⟩
  | some e =>
    simp only [mem_reverse]
    refine replaceF_keeps _ ?_ ⟨n,mem_reverse.mpr hn,hkeyed⟩
    intro n m hm
    split_ifs at hm
    cases hm
    rfl

namespace Fv

variable (s : Fv)

def link (name : String) : Option Link := lookup Link.name name s.links

def statusAt (key : Nat) : Option NodeStatus := (entry s.nodes key).bind Node.status

/-- A missing status compares like that of a node down. -/
def down (e : End) : Bool :=
  match e.dpid with
  | none => true
  | some d => s.statusAt d≠some .up

def heardAt (e : End) : Option Heard := e.dpid.bind fun d => s.lastHeard (d,e.port)

def modify (f : Link → Link) (hf : ∀ l,(f l).name=l.name∧(f l).a=l.a∧(f l).z=l.z) : Fv where
  nodes := s.nodes
  links := s.links.map f
  lastHeard := s.lastHeard
  distinct := by
    have hnames : (s.links.map f).map Link.name=s.links.map Link.name := by
      rw [List.map_map]
      exact List.map_congr_left fun l _ => (hf l).1
    rw [hnames]
    exact s.distinct
  known := by
    intro l hl d hd
    obtain ⟨k,hk,rfl⟩ := List.mem_map.mp hl
    rw [Link.At,(hf k).2.1,(hf k).2.2] at hd
    exact s.known k hk d hd

def mark (name : String) (status : LinkStatus) (t : Int) : Fv :=
  s.modify (fun l => if l.name=name then {l with fvStatus := status,lastVerified := t} else l) (by
      intro l
      split_ifs <;> exact ⟨rfl,rfl,rfl⟩)

def markStatus (name : String) (status : LinkStatus) : Fv :=
  s.modify (fun l => if l.name=name then {l with fvStatus := status} else l) (by
      intro l
      split_ifs <;> exact ⟨rfl,rfl,rfl⟩)

/-- A link that a reload has dropped is marked under the empty name. -/
def markBlank (t : Int) : Fv :=
  if h : ""∈s.links.map Link.name then s.mark "" .unknown t
  else {
    nodes := s.nodes
    links := s.links++[⟨"",⟨none,0⟩,⟨none,0⟩,.unknown,t⟩]
    lastHeard := s.lastHeard
    distinct := nodup_map_snoc s.distinct h
    known := by
      intro l hl d hd
      rcases List.mem_append.mp hl with hl | hl
      · exact s.known l hl d hd
      · rw [List.mem_singleton.mp hl] at hd
        rcases hd with hd | hd <;> cases hd}

/-- A node keeps the status that its datapath has had. -/
def loadNode (n : DbNode) : Node := ⟨n.id,some n.dpid,
    match entry s.nodes n.dpid with
    | some e => e.status
    | none => some (if n.operational then .up else .down)⟩

/-- A link keeps what it was found to be under its name. -/
def loadLink (db : Snapshot) (t : Int) (l : DbLink) : Link :=
  match s.link l.name with
  | some old => ⟨l.name,db.endOf l.a,db.endOf l.z,old.fvStatus,old.lastVerified⟩
  | none => ⟨l.name,db.endOf l.a,db.endOf l.z,.unknown,t⟩

theorem loadLink_fields (db : Snapshot) (t : Int) (l : DbLink) : (s.loadLink db t l).name=l.name∧
    (s.loadLink db t l).a=db.endOf l.a∧(s.loadLink db t l).z=db.endOf l.z := by
  unfold loadLink
  cases s.link l.name <;> exact ⟨rfl,rfl,rfl⟩

def loadNodes (db : Snapshot) : List Node := db.lookedUp++db.nodes.map s.loadNode

variable {db : Snapshot}

theorem entry_loadNodes {n : DbNode} (h : db.entry key=some n) :
    entry (s.loadNodes db) key=some (s.loadNode n) := by
  have hkeyed : (Node.keyed key∘s.loadNode)=fun n : DbNode => decide (n.id=key∨n.dpid=key) := by
    funext m
    simp [Node.keyed,loadNode]
  rw [entry,loadNodes,reverse_append,find?_append,← map_reverse,find?_map,hkeyed]
  have hfind : db.nodes.reverse.find? (fun n => decide (n.id=key∨n.dpid=key))=some n := h
  rw [hfind]
  rfl

theorem dpidOf_spec {node d : Nat} (h : db.dpidOf node=some d) : ∃ m∈db.nodes,m.dpid=d := by
  obtain ⟨n,-,hn⟩ := bind_eq_some_iff.mp h
  obtain ⟨m,hm,rfl⟩ := map_eq_some_iff.mp hn
  exact ⟨m,mem_reverse.mp (mem_of_find?_eq_some hm),rfl⟩

theorem entry_of_dpid {m : DbNode} (hm : m∈db.nodes) : ∃ n,db.entry m.dpid=some n := by
  refine isSome_iff_exists.mp ?_
  rw [Snapshot.entry,find?_isSome]
  exact ⟨m,mem_reverse.mpr hm,by simp⟩

def loadState (db : Snapshot) (t : Int) : Fv where
  nodes := s.loadNodes db
  links := db.links.map (s.loadLink db t)
  lastHeard := s.lastHeard
  distinct := by
    have hnames : (db.links.map (s.loadLink db t)).map Link.name=db.links.map DbLink.name := by
      rw [List.map_map]
      exact List.map_congr_left fun l _ => (s.loadLink_fields db t l).1
    rw [hnames]
    exact db.distinct
  known := by
    intro l hl d hd
    obtain ⟨k,-,rfl⟩ := List.mem_map.mp hl
    obtain ⟨-,ha,hz⟩ := s.loadLink_fields db t k
    have hloaded : ∃ m∈db.nodes,m.dpid=d := by
      rcases hd with hd | hd
      · rw [ha] at hd
        exact dpidOf_spec hd
      · rw [hz] at hd
        exact dpidOf_spec hd
    obtain ⟨m,hm,rfl⟩ := hloaded
    obtain ⟨n,hn⟩ := entry_of_dpid hm
    rw [s.entry_loadNodes hn]
    rfl

def datapath (dpid : Nat) (status : NodeStatus) : Fv where
  nodes := setStatus s.nodes dpid status
  links := s.links
  lastHeard := s.lastHeard
  distinct := s.distinct
  known := fun l hl d hd => entry_setStatus (s.known l hl d hd)

def datapathLeave (dpid : Nat) : Fv := s.datapath dpid .down

def datapathJoin (dpid : Nat) : Fv := s.datapath dpid .up

def fvPacketIn (dst : Nat×Nat) (p : Heard) : Fv :=
  {s with lastHeard := fun k => if k=dst then some p else s.lastHeard k}

def forget (l : Link) (heard : Nat×Nat → Option Heard) : Nat×Nat → Option Heard := fun k =>
  if l.a.dpid=some k.1∧l.a.port=k.2∨l.z.dpid=some k.1∧l.z.port=k.2 then none else heard k

/-- A port that came up makes its links unknown. -/
def portStatus (dpid port : Nat) (linkStatus : Option Nat) (t : Int) : Fv :=
  if linkStatus=some 1 then
    let touched (l : Link) : Bool := l.a=⟨some dpid,port⟩∨l.z=⟨some dpid,port⟩
    {s.modify (fun l => if touched l then {l with fvStatus := .unknown,lastVerified := t} else l)
      (by
        intro l
        split_ifs <;> exact ⟨rfl,rfl,rfl⟩) with
      lastHeard := (s.links.filter touched).foldl (fun h l => forget l h) s.lastHeard}
  else s

/-- The packets heard at the two ends came from the right nodes and interfaces. -/
def linedUp (l : Link) (atA atZ : Heard) : Bool :=
  l.z.dpid=some atA.dpid∧l.z.port=atA.port∧l.a.dpid=some atZ.dpid∧l.a.port=atZ.port

def checkLink (timeout t : Int) (db : Snapshot) (name : String) : Fv :=
  match s.link name with
  | none => s.markBlank t
  | some l =>
    if s.down l.a then s.mark name .unknown t
    else if s.down l.z then s.mark name .unknown t
    else match s.heardAt l.a,s.heardAt l.z with
      | some atA,some atZ =>
        if linedUp l atA atZ then
          if t-atA.timestamp<timeout∧t-atZ.timestamp<timeout then s.mark name .up t
          else match l.fvStatus with
            | .up => s.markStatus name .down
            | .unknown => if t-l.lastVerified>timeout then s.mark name .down t else s
            | .down => s
        else s.loadState db t
      | _,_ =>
        match l.fvStatus with
        | .up => s.mark name .down t
        | .unknown => if t-l.lastVerified>timeout then s.mark name .down t else s
        | .down => s

/-- One round over the links that there are at the beginning; each reload reads anew. -/
def doWork (timeout t : Int) (overloaded : Bool) (db : String → Snapshot) : Fv :=
  if overloaded then
    s.modify (fun l => {l with fvStatus := .unknown,lastVerified := t}) fun _ => ⟨rfl,rfl,rfl⟩
  else (s.links.map Link.name).foldl (fun u name => u.checkLink timeout t (db name) name) s

end Fv

inductive Event where
  | packet (dst : Nat×Nat) (p : Heard)
  | port (dpid port : Nat) (linkStatus : Option Nat) (t : Int)
  | link (db : Snapshot) (t : Int)
  | leave (dpid : Nat)
  | join (dpid : Nat)
  | work (t : Int) (overloaded : Bool) (db : String → Snapshot)

def Fv.step (timeout : Int) (s : Fv) : Event → Fv
  | .packet dst p => s.fvPacketIn dst p
  | .port dpid port linkStatus t => s.portStatus dpid port linkStatus t
  | .link db t => s.loadState db t
  | .leave dpid => s.datapathLeave dpid
  | .join dpid => s.datapathJoin dpid
  | .work t overloaded db => s.doWork timeout t overloaded db

def run (timeout : Int) (events : List Event) : Fv := events.foldl (Fv.step timeout) Fv.new

/-- Port 1 of datapath 11 and port 2 of 12 are joined. -/
def wire : Snapshot := ⟨[⟨1,11,true⟩,⟨2,12,true⟩],[⟨"a-z",⟨1,1⟩,⟨2,2⟩⟩],by decide⟩

def wireHeard : List Event := [.link wire 0,.packet (11,1) ⟨12,2,1000⟩,.packet (12,2) ⟨11,1,1000⟩]

end OESS.FV
