import OESS.Links.Calls

namespace OESS.Links.Nso

open Lookup Option
open List hiding lookup

structure Endpoint where
  (device ifFull : String)
  ip : Option String

structure Backbone where
  name : String
  inService : Bool
  endpoints : List Endpoint

structure End where
  id : Nat
  ip : Option String

def Backbone.linkState (b : Backbone) : LinkState := if b.inService then .active else .available

def Backbone.status (b : Backbone) : Status := if b.inService then .up else .down

variable (t : Tables)

/-- More than one row of the subquery is an error. -/
def getInterface (name shortName : String) : Option Nat :=
  match t.nodes.filter fun n => n.shortName=some shortName with
  | [n] => (t.interfaces.find? fun f => f.name=name∧f.node=n.id).map (·.id)
  | _ => none

def lookupEnds (b : Backbone) : Option (End×End) :=
  if b.endpoints.length=2 then
    match b.endpoints.filterMap fun e =>
      (getInterface t e.ifFull e.device).map fun id => End.mk id e.ip with
    | [a,z] => some (a,z)
    | _ => none
  else none

structure Row where
  link : Link
  current : Instantiation
  deriving DecidableEq

def row (l : Link) : Option Row :=
  (t.current l.id).bind fun i => if i.state=.decom then none else some ⟨l,i⟩

def controllerOf (id : Nat) : Option Controller :=
  (lookup Interface.id id t.interfaces).bind fun f =>
    (lookup Node.id f.node t.nodes).bind fun n => n.current.map (·.controller)

variable (r : Row)

def Row.managed : Bool :=
  controllerOf t r.current.interfaceA=some .nso && controllerOf t r.current.interfaceZ=some .nso

/-- `OESS::DB::Link::fetch_all` for the controller NSO. -/
def fetchAll : List Row := (t.links.filterMap (row t)).filter (Row.managed t)

/-- Addresses are not compared. -/
def Row.changed (b : Backbone) (e : End×End) : Bool :=
  !((e.1.id==r.current.interfaceA && e.2.id==r.current.interfaceZ) ||
      (e.1.id==r.current.interfaceZ && e.2.id==r.current.interfaceA)) ||
    b.linkState != r.current.state || b.status != r.link.status

def Backbone.model (b : Backbone) (e : End×End) : Model :=
  ⟨b.name,none,b.status,some 1,e.1.id,e.1.ip,e.2.id,e.2.ip⟩

def Row.change (b : Backbone) (e : End×End) : Change :=
  ⟨r.link.id,b.linkState,e.1.id,e.1.ip,e.2.id,e.2.ip,none,some b.status,none,none⟩

def Row.retirement : Change :=
  ⟨r.link.id,.decom,r.current.interfaceA,r.current.ipA,r.current.interfaceZ,r.current.ipZ,none,
    some .down,none,none⟩

def nameOf : String := r.link.name

/-- One backbone: the tables and the links not met yet. -/
def sync (now : Nat) (s : Tables×List Row) (b : Backbone) : Tables×List Row :=
  match lookupEnds s.1 b with
  | none => s
  | some e =>
    match lookup nameOf b.name s.2 with
    | none => ((s.1.create (b.model e)).1,s.2)
    | some r =>
      (if r.changed b e then (s.1.update now (r.change b e)).1 else s.1,
        s.2.filter fun q => nameOf q≠b.name)

def retire (now : Nat) (t : Tables) (r : Row) : Tables := (t.update now r.retirement).1

/-- `order` is the order in which the hash gives its keys. -/
def linkHandler (order : List Row → List Row) (now : Nat) (t : Tables) (report : List Backbone) :
    Tables :=
  let s := report.foldl (sync now) (t,fetchAll t)
  (order s.2).foldl (retire now) s.1

section Ground

variable {t u : Tables}

theorem getInterface_ground (h : Ground t u) (name shortName : String) :
    getInterface u name shortName=getInterface t name shortName := by
  unfold getInterface
  rw [h.1]
  split
  · exact h.find_interface name _
  · rfl

theorem lookupEnds_ground (h : Ground t u) (b : Backbone) : lookupEnds u b=lookupEnds t b := by
  simp only [lookupEnds,getInterface_ground h]

theorem controllerOf_ground (h : Ground t u) (id : Nat) : controllerOf u id=controllerOf t id := by
  have hread (v : Tables) : controllerOf v id=
      (lookup Prod.fst id (v.interfaces.map Tables.place)).bind fun p =>
        (lookup Node.id p.2.1 v.nodes).bind fun n => n.current.map (·.controller) := by
    rw [controllerOf,lookup,lookup,find?_map,bind_map]
    rfl
  rw [hread,hread,h.1,h.2]

theorem managed_ground (h : Ground t u) (r : Row) : r.managed u=r.managed t := by
  simp only [Row.managed,controllerOf_ground h]

theorem hasInterface_of_getInterface {name shortName : String} {id : Nat}
    (h : getInterface t name shortName=some id) : t.HasInterface id := by
  unfold getInterface at h
  split at h
  · obtain ⟨f,hf,rfl⟩ := map_eq_some_iff.mp h
    exact mem_map_of_mem (mem_of_find?_eq_some hf)
  · cases h

theorem lookupEnds_known {b : Backbone} {e : End×End} (h : lookupEnds t b=some e) :
    t.HasInterface e.1.id∧t.HasInterface e.2.id := by
  unfold lookupEnds at h
  split_ifs at h
  split at h
  · rename_i a z hlist
    cases h
    have hmem : ∀ x∈[a,z],t.HasInterface x.id := by
      intro x hx
      rw [← hlist,mem_filterMap] at hx
      obtain ⟨p,-,hp⟩ := hx
      obtain ⟨id,hid,rfl⟩ := map_eq_some_iff.mp hp
      exact hasInterface_of_getInterface hid
    exact ⟨hmem a (by simp),hmem z (by simp)⟩
  · cases h

theorem controllerOf_known {id : Nat} {c : Controller} (h : controllerOf t id=some c) :
    t.HasInterface id := by
  obtain ⟨f,hf,-⟩ := bind_eq_some_iff.mp h
  obtain ⟨hmem,rfl⟩ := lookup_spec hf
  exact mem_map_of_mem hmem

end Ground

section Rows

variable {t u : Tables} {r : Row} {l : Link}

def live (t : Tables) (name : String) : List Row := (t.links.filter (·.name=name)).filterMap (row t)

theorem lookup_id (hl : l∈t.links) : lookup Link.id l.id t.links=some l :=
  lookup_of_mem t.linkIds hl

theorem filter_name (hl : l∈t.links) : t.links.filter (·.name=l.name)=[l] :=
  filter_key t.linkNames hl

theorem live_eq (hl : l∈t.links) : live t l.name=(row t l).toList := by
  rw [live,filter_name hl]
  cases hr : row t l <;> simp [hr]

theorem live_none {name : String} (h : name∉t.links.map Link.name) : live t name=[] := by
  have hnil : t.links.filter (·.name=name)=[] := by
    rw [filter_eq_nil_iff]
    intro l hl hn
    exact h (mem_map.mpr ⟨l,hl,by simpa using hn⟩)
  rw [live,hnil,filterMap_nil]

theorem row_eq_some : row t l=some r ↔ t.current l.id=some r.current∧r.link=l∧
    r.current.state≠.decom := by
  rw [row,bind_eq_some_iff]
  constructor
  · intro ⟨i,hi,hif⟩
    split_ifs at hif with hd
    cases hif
    exact ⟨hi,rfl,hd⟩
  · intro ⟨hc,hl,hd⟩
    refine ⟨r.current,hc,?_⟩
    rw [if_neg hd,← hl]

theorem mem_fetchAll : r∈fetchAll t ↔ r.link∈t.links∧row t r.link=some r∧r.managed t=true := by
  rw [fetchAll,mem_filter,mem_filterMap]
  constructor
  · intro ⟨⟨l,hl,hr⟩,hm⟩
    have hlink := (row_eq_some.mp hr).2.1
    subst hlink
    exact ⟨hl,hr,hm⟩
  · intro ⟨hl,hr,hm⟩
    exact ⟨⟨r.link,hl,hr⟩,hm⟩

theorem fetchAll_names : ((fetchAll t).map nameOf).Nodup := by
  have hsub : ((t.links.filterMap (row t)).map nameOf).Sublist (t.links.map Link.name) := by
    induction t.links with
    | nil => exact Sublist.slnil
    | cons l links ih =>
      cases hr : row t l with
      | none =>
        rw [filterMap_cons_none hr]
        exact ih.cons _
      | some r =>
        rw [filterMap_cons_some hr,map_cons]
        have hname : nameOf r=l.name := by rw [nameOf,(row_eq_some.mp hr).2.1]
        rw [hname]
        exact ih.cons_cons _
  exact t.linkNames.sublist ((filter_sublist.map _).trans hsub)

theorem row_sameLink (h : Tables.SameLink t u l.id) : row u l=row t l := by
  unfold row
  rw [Tables.current_of_history h.2]

theorem live_sameLink (hl : l∈t.links) (h : Tables.SameLink t u l.id) :
    l∈u.links∧live u l.name=live t l.name := by
  have hu : l∈u.links := by
    have hfind := h.1
    rw [lookup_id hl] at hfind
    exact (lookup_spec hfind).1
  exact ⟨hu,by rw [live_eq hu,live_eq hl,row_sameLink h]⟩

end Rows

def firstOf (report : List Backbone) (name : String) : Option (Backbone×(End×End)) :=
  report.findSome? fun b => if b.name=name then (lookupEnds t b).map fun e => (b,e) else none

section FirstOf

variable {t : Tables} {report : List Backbone} {name : String} {b : Backbone} {e : End×End}

theorem firstOf_skip (h : b.name=name → lookupEnds t b=none) :
    firstOf t (b::report) name=firstOf t report name := by
  unfold firstOf
  rw [findSome?_cons]
  by_cases hb : b.name=name
  · rw [if_pos hb,h hb,map_none]
  · rw [if_neg hb]

theorem firstOf_here (h : lookupEnds t b=some e) : firstOf t (b::report) b.name=some (b,e) := by
  rw [firstOf,findSome?_cons,if_pos rfl,h,map_some]

theorem firstOf_spec {p : Backbone×(End×End)} (h : firstOf t report name=some p) :
    p.1∈report∧p.1.name=name∧lookupEnds t p.1=some p.2 := by
  obtain ⟨b,hb,hp⟩ := exists_of_findSome?_eq_some h
  split_ifs at hp with hn
  obtain ⟨e,he,rfl⟩ := map_eq_some_iff.mp hp
  exact ⟨hb,hn,he⟩

theorem firstOf_of_mem (hb : b∈report) (he : lookupEnds t b=some e) :
    ∃ p,firstOf t report b.name=some p := by
  rw [← ne_none_iff_exists']
  intro h
  have hnone := findSome?_eq_none_iff.mp h b hb
  rw [if_pos rfl,he] at hnone
  cases hnone

theorem firstOf_ground {u : Tables} (h : Ground t u) (report : List Backbone) (name : String) :
    firstOf u report name=firstOf t report name := by
  simp only [firstOf,lookupEnds_ground h]

end FirstOf

end OESS.Links.Nso
