import OESS.Vlans.Separate

namespace OESS.PathObjects

open Runs Vlans Store
open OpenFlow (PathType)
open Master (PathState)
open List hiding beq_eq_decide

/-- A path by link ids, with the changes queued. -/
structure PathObject where
  pathId : Option Nat
  type : PathType
  state : PathState
  (links linksToAdd linksToRemove : List Nat)

structure Session where
  store : Store
  object : PathObject

namespace PathObject

def addLink (link : Nat) (o : PathObject) : PathObject :=
  {o with linksToAdd := o.linksToAdd++[link],links := o.links++[link]}

def removeLink (link : Nat) (o : PathObject) : PathObject :=
  {o with links := o.links.filter fun l => l≠link
          linksToRemove := o.linksToRemove++o.links.filter (·=link)}

/-- Nothing of a create that fails is taken back. -/
def create (net : Network) (s : Store) (circuit : Nat) (o : PathObject) : Session×Bool :=
  if (s.base.paths.row circuit o.type).isSome=true then (⟨s,o⟩,false)
  else
    let id := s.base.paths.nextId
    let paths := s.base.paths.create circuit o.type o.state
    let added := Store.addLinks net id {s with base := {s.base with paths}} o.links
    (⟨added.1,if added.2=true then {o with pathId := some id} else o⟩,added.2)

def endLinks (removes : Nat → Bool) (path : Nat) : Store → List Nat → Store×Bool
  | s,[] => (s,true)
  | s,link::links =>
    if removes link=true then endLinks removes path (s.removeLink path link) links else (s,false)

/-- Removals first; both queues are kept. -/
def update (net : Network) (removes : Nat → Bool) (s : Store) (o : PathObject) : Store×Bool :=
  match o.pathId with
  | none => (s,false)
  | some id =>
    if ∃ p∈s.base.paths.rows,p.id=id then
      let paths := s.base.paths.updatePath id o.state
      let ended := endLinks removes id {s with base := {s.base with paths}} o.linksToRemove
      if ended.2=true then Store.addLinks net id ended.1 o.linksToAdd else ended
    else (s,false)

end PathObject

/-- Whether the database can end a link's memberships (a key may be in the way) is up to it. -/
inductive Call where
  | create (circuit : Nat)
  | addLink (link : Nat)
  | removeLink (link : Nat)
  | update (removes : Nat → Bool)

def Call.Saves : Call → Prop
  | .create _ | .update _ => True
  | _ => False

def perform (net : Network) (x : Session) : Call → Session×Bool
  | .create circuit => x.object.create net x.store circuit
  | .addLink link => ({x with object := x.object.addLink link},true)
  | .removeLink link => ({x with object := x.object.removeLink link},true)
  | .update removes =>
    let y := x.object.update net removes x.store
    ({x with store := y.1},y.2)

def step (net : Network) (x : Session) (c : Call) : Session := (perform net x c).1

def liveLinks (s : Store) (path : Nat) : List Nat :=
  (s.members.rows.filter (·.path=path)).map Membership.link

/-- The database has the links of the object, each once. -/
def Synced (x : Session) : Prop :=
  ∃ path∈x.object.pathId,x.object.links.Nodup∧(liveLinks x.store path).Perm x.object.links

section Operations

variable {net : Network} {s s' : Store} {path k : Nat}

theorem liveLinks_addLink {link : Nat} (h : s.addLink net path link=some s') :
    liveLinks s' k=liveLinks s k++if path=k then [link] else [] := by
  obtain ⟨a,z,aVlan,zVlan,-,-,-,hinsert⟩ := addLink_cases h
  obtain ⟨members,hrows,rfl⟩ := insertMembership_cases hinsert
  simp only [liveLinks,hrows]
  by_cases hk : path=k <;> simp [hk]

theorem liveLinks_addLinks (net : Network) (links : List Nat) (s : Store) (path : Nat) :
    ∃ done,done<+:links∧((Store.addLinks net path s links).2=true → done=links)∧
    ∀ k,liveLinks (Store.addLinks net path s links).1 k=
      liveLinks s k++if path=k then done else [] := by
  induction links generalizing s with
  | nil => exact ⟨[], nil_prefix,fun _ => rfl,by simp [Store.addLinks]⟩
  | cons link links ih =>
    unfold Store.addLinks
    cases hadd : s.addLink net path link with
    | none => exact ⟨[], nil_prefix,by simp,by simp⟩
    | some s' =>
      obtain ⟨done,hdone,hall,hlive⟩ := ih s'
      refine ⟨link::done,cons_prefix_cons.mpr ⟨rfl,hdone⟩,?_,?_⟩
      · intro hok
        rw [hall hok]
      · intro k
        rw [hlive k,liveLinks_addLink hadd]
        by_cases hk : path=k <;> simp [hk]

theorem liveLinks_removeLink (link : Nat) :
    liveLinks (s.removeLink path link) k=(liveLinks s k).filter fun l => ¬(path=k∧l=link) := by
  simp only [liveLinks,Store.removeLink,MembershipTable.close,filter_map,filter_filter]
  congr 1
  apply filter_congr
  intro m _
  by_cases hm : m.path=k
  · by_cases hk : path=k
    · rw [beq_eq_decide]
      simp [hm,hk]
    · have hne : ¬k=path := fun h => hk h.symm
      simp [hm,hk,hne]
  · simp [hm]

variable (removes : Nat → Bool)

theorem liveLinks_endLinks (links : List Nat) (s : Store) (path : Nat) :
    ∃ done,done<+:links∧((PathObject.endLinks removes path s links).2=true → done=links)∧
    ∀ k,liveLinks (PathObject.endLinks removes path s links).1 k=
      (liveLinks s k).filter fun l => ¬(path=k∧l∈done) := by
  induction links generalizing s with
  | nil => exact ⟨[], nil_prefix,fun _ => rfl,by simp [PathObject.endLinks]⟩
  | cons link links ih =>
    unfold PathObject.endLinks
    by_cases hr : removes link=true
    · obtain ⟨done,hdone,hall,hlive⟩ := ih (s.removeLink path link)
      rw [if_pos hr]
      refine ⟨link::done,cons_prefix_cons.mpr ⟨rfl,hdone⟩,?_,?_⟩
      · intro hok
        rw [hall hok]
      · intro k
        rw [hlive k,liveLinks_removeLink,filter_filter]
        apply filter_congr
        intro l _
        by_cases hk : path=k <;> by_cases hl : l=link <;> simp [hk,hl]
    · rw [if_neg hr]
      exact ⟨[], nil_prefix,by simp,by simp⟩

theorem endLinks_base (links : List Nat) :
    (PathObject.endLinks removes path s links).1.base=s.base := by
  induction links generalizing s with
  | nil => rfl
  | cons link links ih =>
    unfold PathObject.endLinks
    split_ifs
    · exact ih
    · rfl

theorem nextId_create {t : Paths.PathTable} {circuit : Nat} {type : PathType} (state : PathState)
    (h : t.row circuit type=none) : (t.create circuit type state).nextId=t.nextId+1 := by
  unfold Paths.PathTable.create
  split
  · rfl
  · simp_all

theorem create_cases (net : Network) (s : Store) (circuit : Nat) (o : PathObject) :
    o.create net s circuit=(⟨s,o⟩,false)∨∃ s' done ok,o.create net s circuit=
        (⟨s',if ok=true then {o with pathId := some s.base.paths.nextId} else o⟩,ok)∧
      (ok=true → done=o.links)∧s'.base.paths.nextId=s.base.paths.nextId+1∧
      ∀ k,liveLinks s' k=liveLinks s k++if s.base.paths.nextId=k then done else [] := by
  unfold PathObject.create
  by_cases hrow : (s.base.paths.row circuit o.type).isSome=true
  · rw [if_pos hrow]
    exact .inl rfl
  rw [if_neg hrow]
  have hnone : s.base.paths.row circuit o.type=none := by simpa using hrow
  set created : Store := {s with
    base := {s.base with paths := s.base.paths.create circuit o.type o.state}}
  obtain ⟨done,-,hall,hlive⟩ := liveLinks_addLinks net o.links created s.base.paths.nextId
  refine .inr ⟨_,done,_,rfl,hall,?_,hlive⟩
  rw [addLinks_base]
  exact nextId_create o.state hnone

theorem update_cases (net : Network) (removes : Nat → Bool) (s : Store) (o : PathObject) :
    o.update net removes s=(s,false)∨∃ id∈o.pathId,∃ s' gone done ok,
      o.update net removes s=(s',ok)∧gone<+:o.linksToRemove∧done<+:o.linksToAdd∧
      (ok=true → gone=o.linksToRemove∧done=o.linksToAdd)∧(done=[]∨gone=o.linksToRemove)∧
      s'.base.paths.nextId=s.base.paths.nextId∧
      ∀ k,liveLinks s' k=((liveLinks s k).filter fun l => ¬(id=k∧l∈gone))++
        if id=k then done else [] := by
  unfold PathObject.update
  cases hid : o.pathId with
  | none => exact .inl rfl
  | some id =>
    simp only
    set updated : Store := {s with base := {s.base with paths := s.base.paths.updatePath id o.state}}
    obtain ⟨gone,hgone,hall,hremoved⟩ := liveLinks_endLinks removes o.linksToRemove updated id
    set ended := PathObject.endLinks removes id updated o.linksToRemove
    split_ifs with hrow hended
    · obtain ⟨done,hdone,hadded,hlive⟩ := liveLinks_addLinks net o.linksToAdd ended.1 id
      have hremoves : gone=o.linksToRemove := hall hended
      refine .inr ⟨id,rfl,_,gone,done,_,rfl,hgone,hdone,?_,.inr hremoves,?_,?_⟩
      · intro hok
        exact ⟨hremoves,hadded hok⟩
      · rw [addLinks_base,endLinks_base]
        rfl
      · intro k
        rw [hlive,hremoved]
        rfl
    · refine .inr ⟨id,rfl,ended.1,gone,[],ended.2,rfl,hgone, nil_prefix,?_,.inl rfl,?_,?_⟩
      · intro hok
        exact absurd hok hended
      · rw [endLinks_base]
        rfl
      · intro k
        rw [hremoved,ite_self,append_nil]
        rfl
    · exact .inl rfl

end Operations

section Events

variable {net : Network} {s : Store}

theorem endLinks_all (path : Nat) (links : List Nat) :
    PathObject.endLinks (fun _ => true) path s links=
      (links.foldl (fun s link => s.removeLink path link) s,true) := by
  induction links generalizing s with
  | nil => rfl
  | cons link links ih => exact ih

theorem create_store (circuit : Nat) (o : PathObject) :
    (o.create net s circuit).1.store=s.create net circuit o.type o.state o.links false := by
  unfold PathObject.create Store.create
  by_cases hrow : (s.base.paths.row circuit o.type).isSome=true
  · rw [if_pos hrow,if_pos hrow]
  have hnone : s.base.paths.row circuit o.type=none := by simpa using hrow
  have hcreated := congrFun (congrFun (Paths.PathTable.row_create o.state hnone) circuit) o.type
  rw [if_neg hrow,if_neg hrow]
  simp only [hcreated,Paths.PathTable.setRow_same,Function.update_self,Bool.false_and,
    Bool.false_eq_true,if_false]

theorem update_store {o : PathObject} {id : Nat} (h : o.pathId=some id) :
    (o.update net (fun _ => true) s).1=
      s.update net id o.state o.linksToRemove o.linksToAdd false := by
  simp only [PathObject.update,Store.update,h,endLinks_all,Bool.false_and,Bool.false_eq_true,if_false]
  split_ifs <;> rfl

/-- A call as an event of the store of all paths. -/
def Call.event (o : PathObject) : Call → Option Event
  | .create circuit => some (.create circuit o.type o.state o.links false)
  | .update _ => o.pathId.map fun id => .update id o.state o.linksToRemove o.linksToAdd false
  | _ => none

/-- A call is its event where all memberships can be ended. -/
theorem step_event (net : Network) (x : Session) (c : Call)
    (h : ∀ removes,c=.update removes → removes=fun _ => true) :
    (step net x c).store=((c.event x.object).map fun e => x.store.step net e).getD x.store := by
  cases c with
  | create circuit => exact create_store circuit x.object
  | addLink link | removeLink link => rfl
  | update removes =>
    obtain rfl := h removes rfl
    cases hid : x.object.pathId with
    | none => simp [step,perform,PathObject.update,Call.event,hid]
    | some id =>
      simp only [Call.event,hid]
      exact update_store hid

variable (hs : Sound net s) (removes : Nat → Bool)
include hs

theorem endLinks_sound (path : Nat) (links : List Nat) :
    Sound net (PathObject.endLinks removes path s links).1 := by
  induction links generalizing s with
  | nil => exact hs
  | cons link links ih =>
    unfold PathObject.endLinks
    split_ifs
    · exact ih (hs.removeLink path link)
    · exact hs

theorem update_sound (o : PathObject) : Sound net (o.update net removes s).1 := by
  unfold PathObject.update
  split
  · exact hs
  next id _ =>
    dsimp only
    split_ifs with hpath
    · refine (endLinks_sound (hs.of_paths fun x hx => hx.updatePath id o.state) ..).addLinks ?_ _
      rw [endLinks_base]
      exact Paths.PathTable.instantiated_modify (f := Paths.Path.restate o.state) (fun _ => rfl) hpath
        (Paths.Path.liveOnes_restate_ne_nil o.state)
    · exact endLinks_sound (hs.of_paths fun x hx => hx.updatePath id o.state) ..
    · exact hs

end Events

variable {net : Network} {x : Session}

theorem nodup_snoc {l : List Nat} {a : Nat} (hl : l.Nodup) (ha : a∉l) : (l++[a]).Nodup := by
  rw [← concat_eq_append]
  exact hl.concat ha

def Owned (s : Store) : Prop := ∀ k,s.base.paths.nextId ≤ k → liveLinks s k=[]

/-- A link is added once, an added one not removed, and an update finds no link on the path that it
is to add, unless it removes it before. -/
def Careful (x : Session) : Call → Prop
  | .create _ => True
  | .addLink link => link∉x.object.links
  | .removeLink link => link∉x.object.linksToAdd
  | .update _ => ∀ path∈x.object.pathId,∀ link∈x.object.linksToAdd,
      link∈liveLinks x.store path → link∈x.object.linksToRemove

/-- The queues lead from database to memory. -/
structure Tracked (x : Session) : Prop where
  owned : Owned x.store
  known : ∀ path∈x.object.pathId,path<x.store.base.paths.nextId
  distinct : x.object.links.Nodup
  added : x.object.linksToAdd.Nodup
  queued : ∀ link∈x.object.linksToAdd,link∈x.object.links
  saved : ∀ link∈x.object.links,link∉x.object.linksToAdd →
    link∉x.object.linksToRemove∧∃ path∈x.object.pathId,link∈liveLinks x.store path
  held : ∀ path∈x.object.pathId,∀ link∈liveLinks x.store path,
    link∈x.object.linksToRemove∨link∈x.object.links
  once : ∀ path∈x.object.pathId,(liveLinks x.store path).Nodup

/-- The object is new, or has its links loaded. -/
def Initial (x : Session) : Prop :=
  Owned x.store∧(∀ path∈x.object.pathId,path<x.store.base.paths.nextId)∧x.object.linksToAdd=[]∧
    x.object.linksToRemove=[]∧(x.object.pathId=none∧x.object.links=[]∨Synced x)

theorem Initial.tracked (h : Initial x) : Tracked x := by
  obtain ⟨howned,hknown,hadd,hremove,⟨hid,hlinks⟩ | ⟨path,hpath,hnodup,hperm⟩⟩ := h
  · refine ⟨howned,hknown,?_,?_,?_,?_,?_,?_⟩ <;> simp [hid,hlinks,hadd]
  refine ⟨howned,hknown,hnodup,by simp [hadd],by simp [hadd],?_,?_,?_⟩
  · intro link hlink _
    exact ⟨by simp [hremove],path,hpath,hperm.mem_iff.mpr hlink⟩
  · intro k hk link hlink
    obtain rfl := Option.mem_unique hk hpath
    exact .inr (hperm.mem_iff.mp hlink)
  · intro k hk
    obtain rfl := Option.mem_unique hk hpath
    exact hperm.nodup_iff.mpr hnodup

theorem Tracked.addLink {link : Nat} (h : Tracked x) (hnew : link∉x.object.links) :
    Tracked {x with object := x.object.addLink link} := by
  have hfresh : link∉x.object.linksToAdd := fun hmem => hnew (h.queued link hmem)
  refine ⟨h.owned,h.known,nodup_snoc h.distinct hnew,nodup_snoc h.added hfresh,?_,?_,?_,h.once⟩
  · intro l hl
    rcases mem_append.mp hl with hl | hl
    · exact mem_append_left _ (h.queued l hl)
    · exact mem_append_right _ hl
  · intro l hl hnot
    simp only [PathObject.addLink,mem_append,not_or] at hl hnot
    exact h.saved l (hl.resolve_right hnot.2) hnot.1
  · intro path hpath l hl
    exact (h.held path hpath l hl).imp_right (mem_append_left _)

theorem Tracked.removeLink {link : Nat} (h : Tracked x) (hnot : link∉x.object.linksToAdd) :
    Tracked {x with object := x.object.removeLink link} := by
  refine ⟨h.owned,h.known,h.distinct.filter _,h.added,?_,?_,?_,h.once⟩
  · intro l hl
    have hne : l≠link := fun heq => hnot (heq ▸ hl)
    exact mem_filter.mpr ⟨h.queued l hl,by simpa using hne⟩
  · intro l hl hadd
    simp only [PathObject.removeLink,mem_filter,decide_eq_true_eq] at hl
    obtain ⟨hremove,hlive⟩ := h.saved l hl.1 hadd
    refine ⟨?_,hlive⟩
    simp [PathObject.removeLink,hremove,hl.2]
  · intro path hpath l hl
    simp only [PathObject.removeLink,mem_append,mem_filter,decide_eq_true_eq]
    rcases h.held path hpath l hl with hr | hm
    · exact .inl (.inl hr)
    · by_cases hlink : l=link
      · exact .inl (.inr ⟨hm,hlink⟩)
      · exact .inr ⟨hm,hlink⟩

/-- A create keeps the object tracked; after a failure it stays with its path. -/
theorem Tracked.create (net : Network) (circuit : Nat) (h : Tracked x) :
    Tracked (x.object.create net x.store circuit).1∧((x.object.create net x.store circuit).2=true →
        Synced (x.object.create net x.store circuit).1) := by
  obtain hsame | ⟨s',done,ok,hcreate,hall,hnext,hlive⟩ := create_cases net x.store circuit x.object
  · rw [hsame]
    exact ⟨h,by simp⟩
  rw [hcreate]
  set id := x.store.base.paths.nextId
  have hnew : liveLinks s' id=done := by
    rw [hlive,h.owned id (Nat.le_refl _)]
    simp
  have howned : Owned s' := by
    intro k hk
    have hne : id≠k := by omega
    rw [hlive,if_neg hne,h.owned k (by omega)]
    rfl
  cases ok with
  | true =>
    have hlinks : liveLinks s' id=x.object.links := by rw [hnew,hall rfl]
    refine ⟨⟨howned,?_,h.distinct,h.added,h.queued,?_,?_,?_⟩,?_⟩
    · intro path hpath
      obtain rfl : id=path := Option.some.inj hpath
      simp only [hnext]
      omega
    · intro link hlink hadd
      refine ⟨(h.saved link hlink hadd).1,id,rfl,?_⟩
      simpa only [hlinks]
    · intro path hpath link hlink
      obtain rfl : id=path := Option.some.inj hpath
      simp only [hlinks] at hlink
      exact .inr hlink
    · intro path hpath
      obtain rfl : id=path := Option.some.inj hpath
      simp only [hlinks]
      exact h.distinct
    · intro _
      refine ⟨id,rfl,h.distinct,?_⟩
      simp only [hlinks]
      exact Perm.refl _
  | false =>
    have hold (path : Nat) (hpath : path∈x.object.pathId) :
        liveLinks s' path=liveLinks x.store path := by
      have hne : id≠path := Nat.ne_of_gt (h.known path hpath)
      rw [hlive,if_neg hne,append_nil]
    refine ⟨⟨howned,?_,h.distinct,h.added,h.queued,?_,?_,?_⟩,by simp⟩
    · intro path hpath
      have hlt := h.known path hpath
      simp only [hnext]
      omega
    · intro link hlink hadd
      obtain ⟨hremove,path,hpath,hmem⟩ := h.saved link hlink hadd
      refine ⟨hremove,path,hpath,?_⟩
      rwa [hold path hpath]
    · intro path hpath link hlink
      rw [hold path hpath] at hlink
      exact h.held path hpath link hlink
    · intro path hpath
      rw [hold path hpath]
      exact h.once path hpath

/-- An update that is stopped half-way leaves what is needed. -/
theorem Tracked.update (net : Network) {removes : Nat → Bool} (h : Tracked x)
    (hc : Careful x (.update removes)) :
    Tracked {x with store := (x.object.update net removes x.store).1}∧
      ((x.object.update net removes x.store).2=true →
        Synced {x with store := (x.object.update net removes x.store).1}) := by
  obtain hsame | ⟨id,hid,s',gone,done,ok,hupdate,hgone,hdone,hall,horder,hnext,hlive⟩ :=
    update_cases net removes x.store x.object
  · rw [hsame]
    exact ⟨h,by simp⟩
  rw [hupdate]
  have hlinks : liveLinks s' id=((liveLinks x.store id).filter (·∉gone))++done := by
    rw [hlive]
    simp
  have hmem {link : Nat} : link∈liveLinks s' id ↔
      (link∈liveLinks x.store id∧link∉gone)∨link∈done := by
    rw [hlinks]
    simp
  have hqueued (link : Nat) (hlink : link∈done) : link∈x.object.linksToAdd := hdone.subset hlink
  have honce : (liveLinks s' id).Nodup := by
    rw [hlinks,nodup_append]
    refine ⟨(h.once id hid).filter _,h.added.sublist hdone.sublist,?_⟩
    intro a ha b hb hab
    subst hab
    simp only [mem_filter,decide_eq_true_eq] at ha
    -- a link that is about to be added has been removed before, if it was there
    have hremove := hc id hid a (hqueued a hb) ha.1
    rcases horder with hnil | hgone'
    · rw [hnil] at hb
      cases hb
    · exact ha.2 (hgone' ▸ hremove)
  have htracked : Tracked {x with store := s'} := by
    refine ⟨?_,?_,h.distinct,h.added,h.queued,?_,?_,?_⟩
    · intro k hk
      simp only [hnext] at hk
      have hne : id≠k := by
        have hlt := h.known id hid
        omega
      rw [hlive,if_neg hne,h.owned k hk]
      rfl
    · intro path hpath
      simp only [hnext]
      exact h.known path hpath
    · intro link hlink hadd
      obtain ⟨hremove,path,hpath,hlive'⟩ := h.saved link hlink hadd
      obtain rfl := Option.mem_unique hpath hid
      refine ⟨hremove,path,hpath,hmem.mpr (.inl ⟨hlive',?_⟩)⟩
      exact fun hg => hremove (hgone.subset hg)
    · intro path hpath link hlink
      obtain rfl := Option.mem_unique hpath hid
      rcases hmem.mp hlink with ⟨hold,-⟩ | hnew
      · exact h.held path hpath link hold
      · exact .inr (h.queued link (hqueued link hnew))
    · intro path hpath
      obtain rfl := Option.mem_unique hpath hid
      exact honce
  refine ⟨htracked,?_⟩
  intro hok
  obtain ⟨rfl,rfl⟩ := hall hok
  refine ⟨id,hid,h.distinct,(perm_ext_iff_of_nodup honce h.distinct).mpr ?_⟩
  intro link
  rw [hmem]
  constructor
  · rintro (⟨hold,hnot⟩ | hnew)
    · exact (h.held id hid link hold).resolve_left hnot
    · exact h.queued link hnew
  · intro hlink
    by_cases hadd : link∈x.object.linksToAdd
    · exact .inr hadd
    · obtain ⟨hremove,path,hpath,hlive'⟩ := h.saved link hlink hadd
      obtain rfl := Option.mem_unique hpath hid
      exact .inl ⟨hlive',hremove⟩

/-- After a successful save the database has the links of the object. -/
def SavesLinks (net : Network) (x : Session) (c : Call) : Prop :=
  c.Saves → (perform net x c).2=true → Synced (perform net x c).1

theorem Tracked.step {c : Call} (h : Tracked x) (hc : Careful x c) :
    Tracked (step net x c)∧SavesLinks net x c := by
  cases c with
  | create circuit =>
    obtain ⟨htracked,hsynced⟩ := h.create net circuit
    exact ⟨htracked,fun _ => hsynced⟩
  | addLink link => exact ⟨h.addLink hc,False.elim⟩
  | removeLink link => exact ⟨h.removeLink hc,False.elim⟩
  | update removes =>
    obtain ⟨htracked,hsynced⟩ := h.update net hc
    exact ⟨htracked,fun _ => hsynced⟩

/-- In every sequence of careful calls a successful save leaves the database with the links of the
object. -/
theorem careful_savesLinks {net : Network} {x : Session} {calls : List Call} (hx : Initial x)
    (hcalls : StepsOk (step net) Careful x calls) : StepsOk (step net) (SavesLinks net) x calls :=
  stepsOk_of_step (fun _ _ h hc => h.step hc) hx.tracked hcalls

def AddsNew (x : Session) : Call → Prop
  | .addLink link => link∉x.object.links
  | _ => True

def blank : Session := ⟨Store.empty,⟨none,.primary,.active,[],[],[]⟩⟩

def createdAndUpdated : List Call := [.addLink 1,.create 5,.update fun _ => true]

def addedAndRemoved : List Call := [.create 5,.addLink 1,.removeLink 1,.update fun _ => true]

theorem initial_blank : Initial blank := by
  refine ⟨?_,?_,rfl,rfl,.inl ⟨rfl,rfl⟩⟩
  · intro k _
    rfl
  · simp [blank]

theorem update_repeats_links : Initial blank∧
    (StepsOk (step twoLinks) AddsNew blank createdAndUpdated∧
      ¬StepsOk (step twoLinks) (SavesLinks twoLinks) blank createdAndUpdated)∧
    (StepsOk (step twoLinks) AddsNew blank addedAndRemoved∧
      ¬StepsOk (step twoLinks) (SavesLinks twoLinks) blank addedAndRemoved) := by
  refine ⟨initial_blank,⟨?_,?_⟩,?_,?_⟩
  · exact ⟨by simp [AddsNew,blank],trivial,trivial,trivial⟩
  · intro h
    obtain ⟨path,hpath,-,hperm⟩ := h.2.2.1 trivial (by decide +kernel)
    have hid : path=0 := Option.mem_unique hpath (by decide +kernel)
    subst hid
    exact absurd hperm.length_eq (by decide +kernel)
  · have hnew : 1∉(step twoLinks blank (.create 5)).object.links := by decide +kernel
    exact ⟨trivial,hnew,trivial,trivial,trivial⟩
  · intro h
    obtain ⟨path,hpath,-,hperm⟩ := h.2.2.2.1 trivial (by decide +kernel)
    have hid : path=0 := Option.mem_unique hpath (by decide +kernel)
    subst hid
    exact absurd hperm.length_eq (by decide +kernel)

def loaded : Session :=
  ⟨([.addLink 1,.create 5].foldl (step twoLinks) blank).store,⟨some 0,.primary,.active,[1],[],[]⟩⟩

theorem initial_loaded : Initial loaded := by
  have hrows : loaded.store.members.rows=[⟨1,0,100,100⟩] := by decide +kernel
  have hnext : loaded.store.base.paths.nextId=1 := by decide +kernel
  refine ⟨?_,?_,rfl,rfl,.inr ⟨0,rfl,by decide,by decide +kernel⟩⟩
  · intro k hk
    have hne : ¬0=k := by omega
    simp [liveLinks,hrows,hne]
  · intro path hpath
    have hid : path=0 := Option.mem_unique hpath rfl
    omega

/-- A run that takes one link off and puts another one on. -/
theorem loaded_savesLinks :
    let calls : List Call := [.removeLink 1,.addLink 2,.update fun _ => true]
    StepsOk (step twoLinks) Careful loaded calls∧StepsOk (step twoLinks) (SavesLinks twoLinks) loaded calls∧
      liveLinks (calls.foldl (step twoLinks) loaded).store 0=[2] := by
  have hcareful : StepsOk (step twoLinks) Careful loaded
      [.removeLink 1,.addLink 2,.update fun _ => true] := by
    have hnew : 2∉(step twoLinks loaded (.removeLink 1)).object.links := by decide +kernel
    refine ⟨by simp [Careful,loaded],hnew,?_,trivial⟩
    intro path hpath link hlink hlive
    have hid : path=0 := Option.mem_unique hpath (by decide +kernel)
    have htwo : link=2 := by simpa [step,perform,PathObject.addLink,PathObject.removeLink,loaded] using hlink
    subst hid htwo
    exact absurd hlive (by decide +kernel)
  exact ⟨hcareful,careful_savesLinks initial_loaded hcareful,by decide +kernel⟩

/-- VLANs stay separate under any calls, careful or not. -/
theorem calls_separate (hx : Sound net x.store) (calls : List Call) :
    Always (step net) (fun x => Separate net x.store) x calls := by
  induction calls generalizing x with
  | nil => exact hx.toSeparate
  | cons c calls ih =>
    refine ⟨hx.toSeparate,ih ?_⟩
    cases c with
    | create circuit => exact (create_store circuit x.object).symm ▸ hx.create false
    | addLink link | removeLink link => exact hx
    | update removes => exact update_sound hx removes x.object

theorem blank_separate :
    Always (step twoLinks) (fun x => Separate twoLinks x.store) blank createdAndUpdated :=
  calls_separate (sound_empty twoLinks) createdAndUpdated

section Edits

/-- `refusal`: what stops it before its commit. -/
structure EditRequest where
  circuit : Nat
  links : List String
  refusal : Option String

variable (net : Network)

/-- The link is instantiated between live nodes. -/
def visible (link : Nat) : Bool := (net.link link).any fun l => l.ends.isSome && l.nodesLive

/-- The primary path with its links, as `load_paths` and `get_path` give it. -/
def loadPrimary (s : Store) (circuit : Nat) : Option PathObject :=
  ((s.base.paths.row circuit .primary).filter (·.liveOnes≠[])).map fun p =>
    ⟨some p.id,p.type,p.state,(liveLinks s p.id).filter (visible net),[],[]⟩

variable (names : Nat → String)

/-- For links not named. `remove_link` takes an id, but is given the word `name`, which counts as 0,
and a name. Links named and not there get no call, and no call saves the path. -/
def editCalls (requested : List String) (o : PathObject) : List Call :=
  ((o.links.map names).dedup.filter fun name => name∉requested).map fun _ => .removeLink 0

/-- What the edit does after a request that is not refused. -/
def edit (s : Store) (r : EditRequest) :
    Except String (Store×Option PathObject) :=
  match r.refusal with
  | some text => .error text
  | none =>
    match loadPrimary net s r.circuit with
    | none => .ok (s,none)
    | some o =>
      let x := (editCalls names r.links o).foldl (step net) ⟨s,o⟩
      .ok (x.store,some x.object)

def HasLinks (s : Store) (path : Nat) (requested : List String) : Prop :=
  ∀ name,name∈requested ↔ ∃ link∈liveLinks s path,names link=name

theorem editCalls_store (requested : List String)
    (o : PathObject) (x : Session) :
    ((editCalls names requested o).foldl (step net) x).store=x.store := by
  unfold editCalls
  generalize (o.links.map names).dedup.filter (fun name => name∉requested)=left
  induction left generalizing x with
  | nil => rfl
  | cons name left ih => exact ih _

theorem edit_accepted (s : Store) {r : EditRequest}
    (h : r.refusal=none) : ∃ o,edit net names s r=.ok (s,o) := by
  rw [edit,h]
  cases ho : loadPrimary net s r.circuit with
  | none => exact ⟨none,rfl⟩
  | some o =>
    have hstore := editCalls_store net names r.links o ⟨s,o⟩
    simp only at hstore ⊢
    rw [hstore]
    exact ⟨_,rfl⟩

/-- After an edit the path has the named links iff it had them before. -/
theorem edit_links_iff (net : Network) (names : Nat → String) (s : Store) (r : EditRequest)
    (path : Paths.Path) (y : Store×Option PathObject)
    (hpath : s.base.paths.row r.circuit .primary=some path) (hy : edit net names s r=.ok y) :
    y.1.base.paths.row r.circuit .primary=some path∧
      (HasLinks names y.1 path.id r.links ↔ HasLinks names s path.id r.links) := by
  have hstore : y.1=s := by
    cases hr : r.refusal with
    | some text => simp [edit,hr] at hy
    | none =>
      obtain ⟨o,ho⟩ := edit_accepted net names s hr
      rw [ho,Except.ok.injEq] at hy
      rw [← hy]
  rw [hstore]
  exact ⟨hpath,Iff.rfl⟩

def cityNames : Nat → String
  | 1 => "chic-indi"
  | 2 => "chic-clev"
  | _ => ""

/-- Link 2 is named, the path stays on link 1. -/
theorem edit_keeps_old_link : loaded.store.base.paths.row 5 .primary=
      some ⟨0,5,.primary,.active,[⟨.active,true⟩]⟩∧
    ∃ y,edit twoLinks cityNames loaded.store ⟨5,["chic-clev"],none⟩=.ok y∧
      liveLinks y.1 0=[1]∧¬HasLinks cityNames y.1 0 ["chic-clev"] := by
  have hlive : liveLinks loaded.store 0=[1] := by decide +kernel
  have hedit : ∃ o,edit twoLinks cityNames loaded.store ⟨5,["chic-clev"],none⟩=
      .ok (loaded.store,o) := edit_accepted _ _ _ rfl
  obtain ⟨o,ho⟩ := hedit
  refine ⟨by decide +kernel,_,ho,hlive,?_⟩
  intro h
  obtain ⟨link,hlink,hname⟩ := (h "chic-clev").mp (by simp)
  rw [hlive,mem_singleton] at hlink
  subst hlink
  exact absurd hname (by decide)

theorem edit_names_old_link : ∃ y,edit twoLinks cityNames loaded.store ⟨5,["chic-indi"],none⟩=.ok y∧
    HasLinks cityNames y.1 0 ["chic-indi"] := by
  have hlive : liveLinks loaded.store 0=[1] := by decide +kernel
  have hpath : loaded.store.base.paths.row 5 .primary=
      some ⟨0,5,.primary,.active,[⟨.active,true⟩]⟩ := by decide +kernel
  have hedit : ∃ o,edit twoLinks cityNames loaded.store ⟨5,["chic-indi"],none⟩=
      .ok (loaded.store,o) := edit_accepted _ _ _ rfl
  obtain ⟨o,ho⟩ := hedit
  refine ⟨_,ho,?_⟩
  apply (edit_links_iff twoLinks cityNames loaded.store _ _ _ hpath ho).2.mpr
  intro name
  rw [hlive]
  simp [cityNames,eq_comm]

end Edits

end OESS.PathObjects
