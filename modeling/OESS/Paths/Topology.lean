import OESS.Framework.Multigraphs
import OESS.Master.ChangePath
import Mathlib.Data.List.Induction

namespace OESS.Paths.Topology

open Multigraphs List
open Master (LinkStatus Circuit CircuitType getPathStatus)
open OpenFlow (PathType)

structure Link where
  (name nodeA nodeZ : Nat)

def Link.ends (l : Link) : Option (Nat×Nat) := some (l.nodeA,l.nodeZ)

/-- What is assumed of the module `Graph::Undirected`: an edge that is there, in either direction, is
not added again, and `has_a_cycle` is about the edges that were added. -/
structure GraphModule (G : Type) where
  new : G
  addEdge : G → Nat → Nat → G
  hasACycle : G → Bool
  edges : G → List (Nat×Nat)
  edges_new : edges new=[]
  edges_addEdge : ∀ g a z,edges (addEdge g a z)=
    if (a,z)∈edges g∨(z,a)∈edges g then edges g else edges g++[(a,z)]
  hasACycle_iff : ∀ g,hasACycle g=true ↔ ¬Acyclic some {e | e∈edges g}

variable {G : Type} (lib : GraphModule G) (path : List Link)

def GraphModule.ofLinks : G := path.foldl (fun g l => lib.addEdge g l.nodeA l.nodeZ) lib.new

def pathIsLoopFree : Bool := !lib.hasACycle (lib.ofLinks path)

theorem pathIsLoopFree_acyclic :
    pathIsLoopFree lib path=true ↔ Acyclic some {e | e∈lib.edges (lib.ofLinks path)} := by
  rw [pathIsLoopFree,Bool.not_eq_true',← Bool.not_eq_true,lib.hasACycle_iff,not_not]

/-- What the graph of a list of links keeps of them. -/
structure Drawn (path : List Link) (edges : List (Nat×Nat)) : Prop where
  sound : ∀ e∈edges,∃ l∈path,l.ends=some e
  covers : ∀ l∈path,∃ e∈edges,∀ u v,Joins some e u v ↔ Joins Link.ends l u v
  simple : Simple some {e | e∈edges}

theorem Drawn.addEdge {path : List Link} {g : G} (h : Drawn path (lib.edges g)) (l : Link) :
    Drawn (path++[l]) (lib.edges (lib.addEdge g l.nodeA l.nodeZ)) := by
  rw [lib.edges_addEdge]
  split_ifs with hold
  · refine ⟨fun e he => ?_,?_,h.simple⟩
    · obtain ⟨k,hk,hends⟩ := h.sound e he
      exact ⟨k,mem_append_left _ hk,hends⟩
    · intro k hk
      rcases mem_append.mp hk with hk | hk
      · exact h.covers k hk
      rw [mem_singleton.mp hk]
      rcases hold with hold | hold
      · exact ⟨_,hold,fun _ _ => Iff.rfl⟩
      · refine ⟨_,hold,fun u v => ?_⟩
        simp only [Joins,Link.ends]
        grind
  · refine ⟨?_,?_,?_⟩
    · have := h.sound
      simp only [Link.ends] at this ⊢
      grind
    · intro k hk
      rcases mem_append.mp hk with hk | hk
      · obtain ⟨e,he,hsame⟩ := h.covers k hk
        exact ⟨e,mem_append_left _ he,hsame⟩
      · rw [mem_singleton.mp hk]
        exact ⟨_,by simp,fun _ _ => Iff.rfl⟩
    · have := h.simple
      simp only [Simple,Joins,Set.mem_ofPred_eq] at this ⊢
      grind

theorem drawn_ofLinks : Drawn path (lib.edges (lib.ofLinks path)) := by
  induction path using reverseRecOn with
  | nil =>
    rw [GraphModule.ofLinks,foldl_nil,lib.edges_new]
    exact ⟨by simp,by simp,by simp [Simple]⟩
  | append_singleton path l ih =>
    rw [GraphModule.ofLinks,foldl_concat]
    exact ih.addEdge lib l

theorem pathIsLoopFree_of_acyclic {path : List Link} (h : Acyclic Link.ends {l | l∈path}) :
    pathIsLoopFree lib path=true := by
  have hdrawn := drawn_ofLinks lib path
  rw [pathIsLoopFree_acyclic]
  apply hdrawn.simple.acyclic _ h
  intro e he
  obtain ⟨l,hl,hends⟩ := hdrawn.sound e he
  exact ⟨l,hl,by simp [Joins,hends]⟩

/-- The check says loop-free exactly of acyclic links, unless all their cycles are made of parallel
links. -/
theorem pathIsLoopFree_iff (path : List Link) :
    (pathIsLoopFree lib path=true ↔ Acyclic Link.ends {l | l∈path}) ↔
      Simple Link.ends {l | l∈path}∨
        ∃ ring : Set (Nat×Nat),(∀ e∈ring,∃ l∈path,l.ends=some e)∧Simple some ring∧
          ¬Acyclic some ring := by
  have hdrawn := drawn_ofLinks lib path
  constructor
  · intro hiff
    by_cases hfree : pathIsLoopFree lib path=true
    · exact .inl (hiff.mp hfree).simple
    · exact .inr ⟨_,hdrawn.sound,hdrawn.simple,mt (pathIsLoopFree_acyclic lib path).mpr hfree⟩
  · intro hcond
    refine ⟨fun hfree => ?_,pathIsLoopFree_of_acyclic lib⟩
    rw [pathIsLoopFree_acyclic] at hfree
    rcases hcond with hsimple | ⟨ring,hring,hsimple,hcycle⟩
    · exact hsimple.acyclic hdrawn.covers hfree
    refine absurd (hsimple.acyclic ?_ hfree) hcycle
    intro e he
    obtain ⟨l,hl,hends⟩ := hring e he
    obtain ⟨e',he',hsame⟩ := hdrawn.covers l hl
    exact ⟨e',he',fun u v => by rw [hsame,Joins,Joins,hends]⟩

/-- A library that keeps its edges in a list. -/
noncomputable def edgeLists : GraphModule (List (Nat×Nat)) where
  new := []
  addEdge edges a z := if (a,z)∈edges∨(z,a)∈edges then edges else edges++[(a,z)]
  hasACycle edges := @decide _ (Classical.propDecidable (¬Acyclic some {e | e∈edges}))
  edges := id
  edges_new := rfl
  edges_addEdge _ _ _ := rfl
  hasACycle_iff _ := @decide_eq_true_iff _ (Classical.propDecidable _)

/-- Two links between the same nodes are one edge, and the check does not see their cycle. -/
theorem pathIsLoopFree_parallel : ¬(pathIsLoopFree edgeLists [⟨1,10,20⟩,⟨2,10,20⟩]=true ↔
    Acyclic Link.ends {l | l∈[⟨1,10,20⟩,⟨2,10,20⟩]}) := by
  have hedges : edgeLists.edges (edgeLists.ofLinks [⟨1,10,20⟩,⟨2,10,20⟩])=[(10,20)] := rfl
  intro h
  have hfree : pathIsLoopFree edgeLists [⟨1,10,20⟩,⟨2,10,20⟩]=true := by
    rw [pathIsLoopFree_acyclic,hedges]
    intro e he u v hj hconnected
    have he : e=(10,20) := by simpa using he
    subst he
    rcases Relation.ReflTransGen.cases_head hconnected with rfl | ⟨_,⟨k,hk,_⟩,_⟩
    · simp [Joins] at hj
      omega
    · exact hk.2 (by simpa using hk.1)
  have hsimple := (h.mp hfree).simple ⟨1,10,20⟩ (by simp) ⟨2,10,20⟩ (by simp) 10 20 (.inl rfl) (.inl rfl)
  simp at hsimple

/-- A row of `get_current_links`. -/
structure CurrentLink where
  name : Nat
  status : LinkStatus
  (openflow mpls : Bool)

def CurrentLink.ofType (l : CurrentLink) : CircuitType → Bool
  | .openflow => l.openflow
  | .mpls => l.mpls

def statusOf (links : List CurrentLink) (name : Nat) : LinkStatus :=
  if links.any fun l => l.name=name∧l.status=.down then .down
  else if links.any fun l => l.name=name∧l.status=.unknown then .unknown
  else .up

/-- The parameter `link_status`, or the database without it. -/
inductive States where
  | given (linkStatus : Nat → LinkStatus)
  | current (links : List CurrentLink)

def States.all : States → Nat → LinkStatus
  | .given linkStatus => linkStatus
  | .current links => statusOf links

def States.ofType (t : CircuitType) : States → Nat → LinkStatus
  | .given linkStatus => linkStatus
  | .current links => statusOf (links.filter (·.ofType t))

/-- Only links of the circuit's type are asked for. -/
def circuitPathStatus (c : Circuit) (p : PathType) (states : States) : LinkStatus :=
  c.pathStatus (states.ofType c.type) p

/-- `is_path_up`, with the same loop over the links. -/
def isPathUp (links : List Nat) (states : States) : LinkStatus := getPathStatus states.all links

variable (states : List LinkStatus)

def summary : LinkStatus :=
  if .down∈states then .down else if .unknown∈states then .unknown else .up

def firstNotUp : Option LinkStatus := states.find? (·≠.up)

theorem getPathStatus_eq (linkStatus : Nat → LinkStatus) (ls : List Nat) :
    getPathStatus linkStatus ls=(firstNotUp (ls.map linkStatus)).getD .up := by
  induction ls with
  | nil => rfl
  | cons l ls ih => cases h : linkStatus l <;> simp_all [getPathStatus,firstNotUp]

theorem firstNotUp_summary_iff : (firstNotUp states).getD .up=summary states ↔
      (.down∈states → firstNotUp states=some .down) := by
  induction states with
  | nil => simp [firstNotUp,summary]
  | cons s states ih => cases s <;> simp_all [firstNotUp,summary]

theorem firstNotUp_inj {states states' : List LinkStatus}
    (h : (firstNotUp states).getD .up=(firstNotUp states').getD .up) :
    firstNotUp states=firstNotUp states' := by
  have hup (states : List LinkStatus) : firstNotUp states≠some .up := by
    intro hsome
    simpa using find?_some hsome
  cases hfirst : firstNotUp states <;> cases hother : firstNotUp states' <;> simp_all

/-- If no down link is behind an unknown one and links of other types than the circuit's do not
matter. -/
theorem pathStatus_summary_iff (c : Circuit) (p : PathType) (states : States) :
    (circuitPathStatus c p states=summary ((c.getPath p).map states.all)∧
        isPathUp (c.getPath p) states=summary ((c.getPath p).map states.all)) ↔
      (.down∈(c.getPath p).map states.all →
          firstNotUp ((c.getPath p).map states.all)=some .down)∧
        firstNotUp ((c.getPath p).map (states.ofType c.type))=
          firstNotUp ((c.getPath p).map states.all) := by
  rw [circuitPathStatus,Circuit.pathStatus,isPathUp,getPathStatus_eq,getPathStatus_eq,
    ← firstNotUp_summary_iff]
  constructor
  · intro ⟨hcircuit,hall⟩
    exact ⟨hall,firstNotUp_inj (hcircuit.trans hall.symm)⟩
  · intro ⟨hall,hsame⟩
    exact ⟨by rw [hsame,hall],hall⟩

theorem pathStatus_unknown_first :
    let states := States.given fun l => if l=1 then .unknown else .down
    circuitPathStatus ⟨1,.openflow,[1,2],[],[],.primary,0⟩ .primary states=.unknown∧
      isPathUp [1,2] states=.unknown∧states.all 2=.down := by decide

end OESS.Paths.Topology
