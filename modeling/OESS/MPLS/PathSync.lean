import Mathlib.Data.List.TakeWhile
import Mathlib.Data.List.Perm.Subperm
import OESS.Framework.Loops
import OESS.Paths.Changes

namespace OESS.MPLS.PathSync

open OESS.Lookup
open OESS.OpenFlow (PathType)
open OESS.Master (PathState)
open OESS.Paths (Path PathTable)
open List

/-- An undefined address is the empty key. -/
structure KnownLink where
  id : Nat
  (ipA ipZ : String)

/-- The paths, with `link_path_membership` as pairs of path and link. -/
structure Store where
  paths : PathTable
  members : List (Nat×Nat)
  owned : ∀ m∈members,m.1<paths.nextId

namespace Store

variable (s : Store)

def linksOf (path : Nat) : List Nat := (s.members.filter (·.1=path)).map Prod.snd

def path (circuit : Nat) (type : PathType) : Option Path :=
  (s.paths.row circuit type).filter fun p => p.liveOnes != []

def update (path : Nat) (state : PathState) : Store where
  paths := s.paths.updatePath path state
  members := s.members
  owned := s.owned

/-- A membership needs its path. -/
def addLinks (path : Nat) (links : List Nat) : Store :=
  if h : path<s.paths.nextId then {
    paths := s.paths
    members := s.members++links.map fun l => (path,l)
    owned := by
      intro m hm
      rcases List.mem_append.mp hm with hm | hm
      · exact s.owned m hm
      · obtain ⟨l,-,rfl⟩ := List.mem_map.mp hm
        exact h}
  else s

def removeLinks (path : Nat) (links : List Nat) : Store where
  paths := s.paths
  members := s.members.filter fun m => ¬(m.1=path∧m.2∈links)
  owned := fun m hm => s.owned m (List.mem_filter.mp hm).1

/-- One path of a type; links are added until one fails. -/
def createTertiary (circuit : Nat) (adds : Nat → Bool) (links : List Nat) : Store :=
  match h : s.paths.row circuit .tertiary with
  | some _ => s
  | none => {
      paths := s.paths.insert circuit .tertiary .active [⟨.active,true⟩] h
      members := s.members++(links.takeWhile adds).map fun l => (s.paths.nextId,l)
      owned := by
        intro m hm
        rcases List.mem_append.mp hm with hm | hm
        · exact Nat.lt_succ_of_lt (s.owned m hm)
        · obtain ⟨l,-,rfl⟩ := List.mem_map.mp hm
          exact Nat.lt_succ_self _}

end Store

/-- Nothing may be missing or left. -/
def compareLinks : List Nat → List Nat → Bool
  | [],rest => rest.isEmpty
  | l::own,rest => if rest.contains l then compareLinks own (rest.filter (·≠l)) else false

theorem compareLinks_iff (own target : List Nat) :
    compareLinks own target=true ↔ own.Nodup∧∀ l,l∈own ↔ l∈target := by
  induction own generalizing target with
  | nil =>
    rw [compareLinks,List.isEmpty_iff]
    constructor
    · intro h
      simp [h]
    · intro ⟨_,h⟩
      rw [eq_nil_iff_forall_not_mem]
      intro l hl
      exact absurd ((h l).mpr hl) not_mem_nil
  | cons k own ih =>
    rw [compareLinks]
    split_ifs with hk
    · have hk' : k∈target := by simpa using hk
      rw [ih,nodup_cons]
      constructor
      · intro ⟨hnodup,hsame⟩
        have hnot : k∉own := by
          intro hmem
          have hk := (hsame k).mp hmem
          simp at hk
        refine ⟨⟨hnot,hnodup⟩,fun l => ?_⟩
        by_cases hl : l=k
        · subst hl
          simp [hk']
        · have hiff := hsame l
          rw [mem_cons,hiff]
          simp [hl]
      · intro ⟨⟨hnot,hnodup⟩,hsame⟩
        refine ⟨hnodup,fun l => ?_⟩
        have hiff := hsame l
        by_cases hl : l=k
        · subst hl
          simp [hnot]
        · simp only [mem_cons,hl,false_or] at hiff
          simp [hiff,hl]
    · constructor
      · intro h
        cases h
      · intro ⟨_,hsame⟩
        have hmem := (hsame k).mp mem_cons_self
        exact absurd (by simpa using hmem) hk

theorem circuitLinks_iff (a z : List Nat) : Paths.Store.compareLinks a z=true ↔
    a.length=z.length∧a⊆z := by
  simp [Paths.Store.compareLinks,subset_def]

/-- Both comparisons agree with equality up to order exactly unless a link is repeated. -/
theorem compareLinks_perm_iff (a z : List Nat) :
    ((Paths.Store.compareLinks a z=true ↔ a.Perm z) ↔
      (a.length=z.length → a⊆z → ∀ l∈a,a.count l≤z.count l))∧
    ((compareLinks a z=true ↔ a.Perm z) ↔
      ((∀ l,l∈a ↔ l∈z) → z.Nodup∨¬a.Nodup∧∃ l,a.count l≠z.count l)) := by
  constructor
  · rw [circuitLinks_iff]
    constructor
    · intro h hlen hsub l _
      exact Nat.le_of_eq ((h.mp ⟨hlen,hsub⟩).count_eq l)
    · intro h
      refine ⟨fun ⟨hlen,hsub⟩ => ?_,fun hp => ⟨hp.length_eq,hp.subset⟩⟩
      exact (subperm_ext_iff.mpr (h hlen hsub)).perm_of_length_le (Nat.le_of_eq hlen.symm)
  · rw [compareLinks_iff]
    constructor
    · intro h hsame
      by_cases ha : a.Nodup
      · exact .inl ((h.mp ⟨ha,hsame⟩).nodup_iff.mp ha)
      refine .inr ⟨ha,Classical.not_forall.mp fun hcount => ha ?_⟩
      exact (h.mpr (perm_iff_count.mpr hcount)).1
    · intro h
      refine ⟨fun ⟨ha,hsame⟩ => ?_,fun hp => ?_⟩
      · exact (perm_ext_iff_of_nodup ha ((h hsame).resolve_right fun hz => hz.1 ha)).mpr hsame
      · have hsame (l : Nat) : l∈a ↔ l∈z := hp.mem_iff
        rcases h hsame with hz | ⟨-,l,hl⟩
        · exact ⟨hp.nodup_iff.mpr hz,hsame⟩
        · exact absurd (hp.count_eq l) hl

theorem compareLinks_repeated : ¬(Paths.Store.compareLinks [1,1] [1,2]=true ↔ [1,1].Perm [1,2])∧
      Paths.Store.compareLinks [1,2] [1,1]=false∧
      ¬(compareLinks [1] [1,1]=true ↔ [1].Perm [1,1])∧
      ¬(compareLinks [1,1] [1,1]=true ↔ [1,1].Perm [1,1]) := by
  decide

/-- The tables, the links of the network, those that `get_links` sees, the circuits with their LSPs
in the order of the hash, the hops, the circuits there are, and the links that can be added. -/
structure Call where
  store : Store
  links : List KnownLink
  visible : Nat → Bool
  known : ∀ l∈links,visible l.id=true
  circuits : List (Nat×List String)
  distinct : (circuits.map Prod.fst).Nodup
  lspPaths : String → Option (List String)
  present : Nat → Bool
  adds : Nat → Nat → Bool

namespace Call

variable (x : Call)

/-- The last link with an address has it. -/
def ipLink (ip : String) : Option Nat :=
  (x.links.reverse.find? fun l => l.ipA=ip∨l.ipZ=ip).map (·.id)

def hops (lsps : List String) : List String := lsps.flatMap fun lsp => (x.lspPaths lsp).getD []

def ckt (lsps : List String) : List Nat := ((x.hops lsps).filterMap x.ipLink).dedup

variable (s : Store)

def seen (path : Nat) : List Nat := (s.linksOf path).filter x.visible

def matching (p : Path) (target : List Nat) : Bool := compareLinks (x.seen s p.id) target

variable (circuit : Nat)

/-- The state, the removals, the additions until one fails. -/
def resync (d : Path) (target : List Nat) : Store :=
  let own := x.seen s d.id
  ((s.update d.id .active).removeLinks d.id (own.filter (·∉target))).addLinks d.id
    ((target.filter (·∉own)).takeWhile (x.adds circuit))

def primaryActive (target : List Nat) : Bool :=
  (s.path circuit .primary).any fun p => x.matching s p target

def primaryStep (active : Bool) : Store :=
  match s.path circuit .primary with
  | none => s
  | some p =>
    if active then
      if p.state=.active then s else s.update p.id .active
    else
      if p.state=.active then s.update p.id .deploying else s

def tertiaryStep (target : List Nat) (active : Bool) : Store :=
  match s.path circuit .tertiary with
  | none => if active then s else s.createTertiary circuit (x.adds circuit) target
  | some d =>
    if active then
      if d.state=.active then s.update d.id .deploying else s
    else if x.matching s d target then
      if d.state=.active then s else s.update d.id .active
    else x.resync s circuit d target

def processCircuit (entry : Nat×List String) : Store :=
  if x.present entry.1 then
    let target := x.ckt entry.2
    let active := x.primaryActive s entry.1 target
    x.tertiaryStep (primaryStep s entry.1 active) entry.1 target active
  else s

def processPaths : Store := x.circuits.foldl x.processCircuit x.store

end Call

section Operations

variable {s : Store} {circuit k path : Nat} {type type' : PathType} {p : Path} {state : PathState}

section

variable (h : s.path circuit type=some p)
include h

theorem path_spec : s.paths.row circuit type=some p∧p.liveOnes≠[] := by
  obtain ⟨hrow,hlive⟩ := Option.filter_eq_some_iff.mp h
  exact ⟨hrow,by simpa using hlive⟩

theorem path_id_lt : p.id<s.paths.nextId := s.paths.fresh p (PathTable.row_spec (path_spec h).1).1

theorem row_update (state : PathState) (k : Nat) (type' : PathType) :
    (s.update p.id state).paths.row k type'=
      if k=circuit∧type'=type then some (p.restate state) else s.paths.row k type' :=
  PathTable.row_modify_apply (path_spec h).1 (Path.restate state) (fun _ => rfl) k type'

theorem path_update (state : PathState) (k : Nat) (type' : PathType) :
    (s.update p.id state).path k type'=
      if k=circuit∧type'=type then some (p.restate state) else s.path k type' := by
  rw [Store.path,row_update h]
  split_ifs
  · rw [Option.filter_some,Path.liveOnes_restate]
    rfl
  · rfl

end

@[simp]
theorem linksOf_update : (s.update path state).linksOf k=s.linksOf k := rfl

variable (links : List Nat) {l : Nat} {u : Store}

@[simp]
theorem path_removeLinks : (s.removeLinks path links).path circuit type=s.path circuit type := rfl

theorem mem_linksOf : l∈s.linksOf path ↔ (path,l)∈s.members := by
  simp only [Store.linksOf,mem_map,mem_filter,decide_eq_true_eq,Prod.exists,exists_eq_right]

theorem mem_removeLinks {links : List Nat} :
    l∈(s.removeLinks path links).linksOf k ↔ l∈s.linksOf k∧¬(k=path∧l∈links) := by
  rw [mem_linksOf,mem_linksOf,Store.removeLinks,mem_filter,decide_eq_true_eq]

theorem path_addLinks : (s.addLinks path links).path circuit type=s.path circuit type := by
  unfold Store.addLinks
  split_ifs <;> rfl

theorem mem_addLinks (h : path<s.paths.nextId) {links : List Nat} :
    l∈(s.addLinks path links).linksOf k ↔ l∈s.linksOf k∨k=path∧l∈links := by
  rw [mem_linksOf,mem_linksOf]
  rw [Store.addLinks,dif_pos h]
  simp only [mem_append,mem_map,Prod.mk.injEq,exists_eq_right_right]
  rw [and_comm (a := l∈links),eq_comm (a := path)]

theorem linksOf_eq_of_members {extra : List (Nat×Nat)} (h : u.members=s.members++extra)
    (hextra : ∀ m∈extra,m.1≠k) : u.linksOf k=s.linksOf k := by
  have hnone : extra.filter (·.1=k)=[] := by
    rw [filter_eq_nil_iff]
    intro m hm
    simpa using hextra m hm
  rw [Store.linksOf,Store.linksOf,h,filter_append,hnone,append_nil]

theorem linksOf_addLinks (hk : k≠path) : (s.addLinks path links).linksOf k=s.linksOf k := by
  unfold Store.addLinks
  split_ifs
  · refine linksOf_eq_of_members rfl ?_
    intro m hm
    obtain ⟨l,-,rfl⟩ := mem_map.mp hm
    exact Ne.symm hk
  · rfl

theorem linksOf_removeLinks (hk : k≠path) : (s.removeLinks path links).linksOf k=s.linksOf k := by
  rw [Store.linksOf,Store.removeLinks,filter_filter]
  congr 1
  refine filter_congr fun m _ => ?_
  by_cases hm : m.1=k
  · simp [hm,hk]
  · simp [hm]

def SameCircuit (circuit : Nat) (s u : Store) : Prop :=
  (∀ type,u.paths.row circuit type=s.paths.row circuit type)∧
    ∀ type p,s.paths.row circuit type=some p → u.linksOf p.id=s.linksOf p.id

theorem SameCircuit.refl (circuit : Nat) (s : Store) : SameCircuit circuit s s :=
  ⟨fun _ => rfl,fun _ _ _ => rfl⟩

theorem SameCircuit.trans {v : Store} (h : SameCircuit circuit s u) (h' : SameCircuit circuit u v) :
    SameCircuit circuit s v := by
  refine ⟨fun type => (h'.1 type).trans (h.1 type),?_⟩
  intro type p hp
  have hu : u.paths.row circuit type=some p := (h.1 type).trans hp
  exact (h'.2 type p hu).trans (h.2 type p hp)

theorem SameCircuit.path_eq (h : SameCircuit circuit s u) (type : PathType) :
    u.path circuit type=s.path circuit type := by
  unfold Store.path
  rw [h.1]

theorem SameCircuit.linksOf_eq (h : SameCircuit circuit s u) (hp : s.path circuit type=some p) :
    u.linksOf p.id=s.linksOf p.id :=
  h.2 type p (path_spec hp).1

theorem row_id_ne {q : Path} (hp : s.paths.row circuit type=some p)
    (hq : s.paths.row k type'=some q) (h : k≠circuit) : q.id≠p.id := by
  obtain ⟨hpm,hpc,-⟩ := PathTable.row_spec hp
  obtain ⟨hqm,hqc,-⟩ := PathTable.row_spec hq
  intro hid
  have hqp : q=p := inj_on_of_nodup_map PathTable.ids_nodup hqm hpm hid
  rw [hqp,hpc] at hqc
  exact h hqc.symm

theorem sameCircuit_update (h : s.path circuit type=some p) (state : PathState)
    (hk : k≠circuit) : SameCircuit k s (s.update p.id state) := by
  refine ⟨fun type' => ?_,fun _ _ _ => rfl⟩
  rw [row_update h,if_neg fun hc => hk hc.1]

theorem createTertiary_some (h : s.paths.row circuit .tertiary=some p) (adds : Nat → Bool)
    (links : List Nat) : s.createTertiary circuit adds links=s := by
  unfold Store.createTertiary
  split
  · rfl
  · rename_i hnone
    rw [h] at hnone
    cases hnone

theorem createTertiary_spec (h : s.paths.row circuit .tertiary=none) (adds : Nat → Bool)
    (links : List Nat) :
    (∀ k type,(s.createTertiary circuit adds links).paths.row k type=
      if k=circuit∧type=.tertiary then
        some ⟨s.paths.nextId,circuit,.tertiary,.active,[⟨.active,true⟩]⟩
      else s.paths.row k type)∧
    (s.createTertiary circuit adds links).members=
      s.members++(links.takeWhile adds).map fun l => (s.paths.nextId,l) := by
  unfold Store.createTertiary
  split
  · rename_i hsome
    rw [h] at hsome
    cases hsome
  · exact ⟨PathTable.row_insert_apply h,rfl⟩

theorem sameCircuit_create (adds : Nat → Bool) (links : List Nat) (hk : k≠circuit) :
    SameCircuit k s (s.createTertiary circuit adds links) := by
  cases hrow : s.paths.row circuit .tertiary with
  | some d =>
    rw [createTertiary_some hrow]
    exact SameCircuit.refl k s
  | none =>
    obtain ⟨hrows,hmembers⟩ := createTertiary_spec hrow adds links
    constructor
    · intro type'
      rw [hrows,if_neg fun hc => hk hc.1]
    · intro type' q hq
      have hlt := s.paths.fresh q (PathTable.row_spec hq).1
      refine linksOf_eq_of_members hmembers ?_
      intro m hm
      obtain ⟨l,-,rfl⟩ := mem_map.mp hm
      exact Nat.ne_of_gt hlt

end Operations

namespace Call

variable (x : Call) {s : Store} {circuit k : Nat} {target : List Nat} {active : Bool}

theorem sameCircuit_primaryStep (hk : k≠circuit) : SameCircuit k s (primaryStep s circuit active) := by
  unfold primaryStep
  cases hp : s.path circuit .primary with
  | none => exact SameCircuit.refl k s
  | some p =>
    dsimp only
    split_ifs
    · exact SameCircuit.refl k s
    · exact sameCircuit_update hp .active hk
    · exact sameCircuit_update hp .deploying hk
    · exact SameCircuit.refl k s

variable {d : Path}

theorem sameCircuit_resync (hd : s.path circuit .tertiary=some d) (hk : k≠circuit) :
    SameCircuit k s (x.resync s circuit d target) := by
  have hfirst := sameCircuit_update hd .active hk
  refine hfirst.trans ⟨fun type => ?_,?_⟩
  · unfold resync Store.addLinks
    dsimp only
    split_ifs <;> rfl
  · intro type q hq
    have hq' : s.paths.row k type=some q := (hfirst.1 type).symm.trans hq
    have hne := row_id_ne (path_spec hd).1 hq' hk
    rw [resync,linksOf_addLinks _ hne,linksOf_removeLinks _ hne]

theorem sameCircuit_tertiaryStep (hk : k≠circuit) :
    SameCircuit k s (x.tertiaryStep s circuit target active) := by
  unfold tertiaryStep
  cases hd : s.path circuit .tertiary with
  | none =>
    split_ifs
    · exact SameCircuit.refl k s
    · exact sameCircuit_create _ _ hk
  | some d =>
    dsimp only
    split_ifs
    · exact sameCircuit_update hd .deploying hk
    · exact SameCircuit.refl k s
    · exact SameCircuit.refl k s
    · exact sameCircuit_update hd .active hk
    · exact x.sameCircuit_resync hd hk

theorem sameCircuit_processCircuit (s : Store) (entry : Nat×List String) (k : Nat)
    (hk : k≠entry.1) : SameCircuit k s (x.processCircuit s entry) := by
  unfold processCircuit
  split_ifs
  · exact (sameCircuit_primaryStep hk).trans (x.sameCircuit_tertiaryStep hk)
  · exact SameCircuit.refl k s

/-- The link has an address on the hops of the LSPs. -/
def OnHops (lsps : List String) (l : Nat) : Prop :=
  ∃ k∈x.links,k.id=l∧(k.ipA∈x.hops lsps∨k.ipZ∈x.hops lsps)

def IsActive (s : Store) (circuit : Nat) (type : PathType) : Prop :=
  ∃ p,s.path circuit type=some p∧p.state=.active

/-- One of the two paths is active, with the links on the hops. -/
def Settled (s : Store) (entry : Nat×List String) : Prop :=
  ∃ type p,(type=.primary∧¬IsActive s entry.1 .tertiary∨
      type=.tertiary∧¬IsActive s entry.1 .primary)∧
    s.path entry.1 type=some p∧p.state=.active∧∀ l,l∈s.linksOf p.id ↔ x.OnHops entry.2 l

/-- The map has each link on the hops for an address there. -/
def Unambiguous (lsps : List String) : Prop :=
  ∀ l,x.OnHops lsps l → ∃ ip∈x.hops lsps,x.ipLink ip=some l

/-- The visible links of the primary path are those on the hops, each once. -/
def PrimaryFits (s : Store) (entry : Nat×List String) : Prop :=
  ∃ p,s.path entry.1 .primary=some p∧(x.seen s p.id).Nodup∧∀ l,l∈x.seen s p.id ↔ x.OnHops entry.2 l

/-- The tertiary path has only visible links, and the missing ones can be added; or there never was
one, and all can. -/
def TertiaryCan (s : Store) (entry : Nat×List String) : Prop :=
  match s.path entry.1 .tertiary with
  | some d => (∀ l∈s.linksOf d.id,x.visible l=true)∧
      ∀ l,x.OnHops entry.2 l → l∉s.linksOf d.id → x.adds entry.1 l=true
  | none => s.paths.row entry.1 .tertiary=none∧∀ l,x.OnHops entry.2 l → x.adds entry.1 l=true

/-- Addresses are unambiguous. A primary path with the links on the hops has no invisible others;
without one the tertiary path can take the links. -/
def Ready (s : Store) (entry : Nat×List String) : Prop := x.Unambiguous entry.2∧
    (x.PrimaryFits s entry → ∀ p∈s.path entry.1 .primary,∀ l∈s.linksOf p.id,x.visible l=true)∧
    (¬x.PrimaryFits s entry → x.TertiaryCan s entry)

variable {entry : Nat×List String} {l : Nat} {lsps : List String}

theorem onHops_of_mem_ckt (h : l∈x.ckt lsps) : x.OnHops lsps l := by
  obtain ⟨ip,hip,hlink⟩ := mem_filterMap.mp (mem_dedup.mp h)
  obtain ⟨k,hk,rfl⟩ := Option.map_eq_some_iff.mp hlink
  have hmem : k∈x.links := mem_reverse.mp (mem_of_find?_eq_some hk)
  have hend : k.ipA=ip∨k.ipZ=ip := by simpa using find?_some hk
  refine ⟨k,hmem,rfl,?_⟩
  rcases hend with rfl | rfl
  · exact .inl hip
  · exact .inr hip

theorem mem_ckt_iff (hclear : x.Unambiguous lsps) : l∈x.ckt lsps ↔ x.OnHops lsps l := by
  refine ⟨x.onHops_of_mem_ckt,fun hl => ?_⟩
  exact mem_dedup.mpr (mem_filterMap.mpr (hclear l hl))

theorem unambiguous_iff : x.Unambiguous lsps ↔ ∀ l,x.OnHops lsps l → l∈x.ckt lsps := by
  refine forall₂_congr fun l _ => ?_
  rw [ckt,mem_dedup,mem_filterMap]

theorem visible_of_onHops (h : x.OnHops lsps l) : x.visible l=true := by
  obtain ⟨k,hk,rfl,-⟩ := h
  exact x.known k hk

theorem settled_congr {u : Store} (h : SameCircuit entry.1 s u) :
    x.Settled u entry ↔ x.Settled s entry := by
  simp only [Settled,IsActive,h.path_eq]
  refine exists₂_congr fun type p => and_congr_right fun _ => and_congr_right fun hp => ?_
  rw [h.linksOf_eq hp]

theorem primaryActive_iff (hclear : x.Unambiguous entry.2) :
    x.primaryActive s entry.1 (x.ckt entry.2)=true ↔ x.PrimaryFits s entry := by
  have hfits (p : Path) : x.matching s p (x.ckt entry.2)=true ↔
      (x.seen s p.id).Nodup∧∀ l,l∈x.seen s p.id ↔ x.OnHops entry.2 l := by
    rw [matching,compareLinks_iff]
    simp only [x.mem_ckt_iff hclear]
  simp only [primaryActive,PrimaryFits,Option.any_eq_true,hfits]

theorem ready_congr {u : Store} (h : SameCircuit entry.1 s u) :
    x.Ready u entry ↔ x.Ready s entry := by
  have hfits : x.PrimaryFits u entry ↔ x.PrimaryFits s entry := by
    unfold PrimaryFits seen
    rw [h.path_eq]
    refine exists_congr fun p => and_congr_right fun hp => ?_
    rw [h.linksOf_eq hp]
  have hprimary : (∀ p∈s.path entry.1 .primary,∀ l∈u.linksOf p.id,x.visible l=true) ↔
      ∀ p∈s.path entry.1 .primary,∀ l∈s.linksOf p.id,x.visible l=true :=
    forall₂_congr fun p hp => by rw [h.linksOf_eq hp]
  have htertiary : x.TertiaryCan u entry ↔ x.TertiaryCan s entry := by
    unfold TertiaryCan
    rw [h.path_eq,h.1]
    cases hd : s.path entry.1 .tertiary with
    | none => rfl
    | some d => simp only [h.linksOf_eq hd]
  unfold Ready
  rw [hfits,h.path_eq,hprimary,htertiary]

theorem members_primaryStep : (primaryStep s circuit active).members=s.members := by
  unfold primaryStep
  cases s.path circuit .primary with
  | none => rfl
  | some p =>
    dsimp only
    split_ifs <;> rfl

theorem linksOf_primaryStep (path : Nat) :
    (primaryStep s circuit active).linksOf path=s.linksOf path := by
  rw [Store.linksOf,members_primaryStep]
  rfl

theorem row_primaryStep :
    (primaryStep s circuit active).paths.row circuit .tertiary=s.paths.row circuit .tertiary := by
  unfold primaryStep
  cases hp : s.path circuit .primary with
  | none => rfl
  | some p =>
    dsimp only
    split_ifs
    · rfl
    · rw [row_update hp,if_neg (by simp)]
    · rw [row_update hp,if_neg (by simp)]
    · rfl

theorem path_primaryStep :
    (primaryStep s circuit active).path circuit .tertiary=s.path circuit .tertiary := by
  unfold Store.path
  rw [row_primaryStep]

theorem primaryStep_active {p : Path} (hp : s.path circuit .primary=some p) :
    ∃ q,(primaryStep s circuit true).path circuit .primary=some q∧q.id=p.id∧q.state=.active := by
  rw [primaryStep,hp]
  by_cases hactive : p.state=.active
  · simp only [hactive]
    exact ⟨p,hp,rfl,hactive⟩
  · simp only [hactive,if_true,if_false]
    refine ⟨p.restate .active,?_,rfl,rfl⟩
    rw [path_update hp,if_pos ⟨rfl,rfl⟩]

theorem not_isActive_primaryStep : ¬IsActive (primaryStep s circuit false) circuit .primary := by
  intro ⟨q,hq,hstate⟩
  unfold primaryStep at hq
  split at hq
  next hp =>
    cases hp.symm.trans hq
  next p hp =>
    by_cases hactive : p.state=.active
    · simp only [hactive,Bool.false_eq_true,if_true,if_false] at hq
      rw [path_update hp,if_pos ⟨rfl,rfl⟩] at hq
      cases hq
      cases hstate
    · simp only [hactive] at hq
      cases hp.symm.trans hq
      exact hactive hstate

theorem tertiaryStep_active (s : Store) (circuit : Nat) (target : List Nat) :
    (x.tertiaryStep s circuit target true).members=s.members∧
    ¬IsActive (x.tertiaryStep s circuit target true) circuit .tertiary := by
  unfold tertiaryStep
  cases hd : s.path circuit .tertiary with
  | none =>
    refine ⟨rfl,fun ⟨q,hq,_⟩ => ?_⟩
    cases hd.symm.trans hq
  | some d =>
    dsimp only
    rw [if_pos rfl]
    split_ifs with hactive
    · refine ⟨rfl,fun ⟨q,hq,hstate⟩ => ?_⟩
      rw [path_update hd,if_pos ⟨rfl,rfl⟩] at hq
      cases hq
      cases hstate
    · refine ⟨rfl,fun ⟨q,hq,hstate⟩ => ?_⟩
      cases hd.symm.trans hq
      exact hactive hstate

theorem path_tertiaryStep :
    (x.tertiaryStep s circuit target active).path circuit .primary=s.path circuit .primary := by
  unfold tertiaryStep
  cases hd : s.path circuit .tertiary with
  | none =>
    split_ifs
    · rfl
    cases hrow : s.paths.row circuit .tertiary with
    | some d => rw [createTertiary_some hrow]
    | none =>
      unfold Store.path
      rw [(createTertiary_spec hrow _ _).1,if_neg (by simp)]
  | some d =>
    have hother (state : PathState) :
        (s.update d.id state).path circuit .primary=s.path circuit .primary := by
      rw [path_update hd,if_neg (by simp)]
    dsimp only
    split_ifs
    · exact hother .deploying
    · rfl
    · rfl
    · exact hother .active
    · rw [resync,path_addLinks,path_removeLinks,hother]

/-- Links not seen or wanted, and wanted ones that can be added. -/
def Resynced (s : Store) (circuit : Nat) (d : Path) (target : List Nat) (l : Nat) : Prop :=
  l∈s.linksOf d.id∧¬(l∈x.seen s d.id∧l∉target)∨
    l∈(target.filter (·∉x.seen s d.id)).takeWhile (x.adds circuit)

theorem mem_resync (hd : s.path circuit .tertiary=some d) (target : List Nat) (l : Nat) :
    l∈(x.resync s circuit d target).linksOf d.id ↔ x.Resynced s circuit d target l := by
  have hid : d.id<s.paths.nextId := path_id_lt hd
  have hlt : d.id<((s.update d.id .active).removeLinks d.id
      ((x.seen s d.id).filter (·∉target))).paths.nextId := hid
  have hgone : l∈(x.seen s d.id).filter (·∉target) ↔ l∈x.seen s d.id∧l∉target := by simp
  rw [resync,Resynced,mem_addLinks hlt,mem_removeLinks,linksOf_update,hgone]
  simp only [true_and]

theorem tertiaryStep_some (hd : s.path circuit .tertiary=some d) (target : List Nat) :
    ∃ q,(x.tertiaryStep s circuit target false).path circuit .tertiary=some q∧q.state=.active∧
      ∀ l,l∈(x.tertiaryStep s circuit target false).linksOf q.id ↔
        x.Resynced s circuit d target l := by
  rw [tertiaryStep,hd]
  cases hmatch : x.matching s d target with
  | true =>
    obtain ⟨-,hsame⟩ := (compareLinks_iff _ _).mp hmatch
    have hnone : target.filter (·∉x.seen s d.id)=[] := by
      rw [filter_eq_nil_iff]
      intro l hl
      simpa using (hsame l).mpr hl
    have hlinks (l : Nat) : l∈s.linksOf d.id ↔ x.Resynced s circuit d target l := by
      rw [Resynced,hnone,hsame l]
      simp
    by_cases hactive : d.state=.active
    · simp only [hmatch,hactive]
      exact ⟨d,hd,hactive,hlinks⟩
    · simp only [hmatch,hactive,Bool.false_eq_true,if_true,if_false]
      refine ⟨d.restate .active,?_,rfl,hlinks⟩
      rw [path_update hd,if_pos ⟨rfl,rfl⟩]
  | false =>
    simp only [hmatch,Bool.false_eq_true,if_false]
    refine ⟨d.restate .active,?_,rfl,?_⟩
    · rw [resync,path_addLinks,path_removeLinks,path_update hd,if_pos ⟨rfl,rfl⟩]
    · exact fun l => x.mem_resync hd target l

theorem tertiaryStep_none (hrow : s.paths.row circuit .tertiary=none) (target : List Nat) :
    ∃ q,(x.tertiaryStep s circuit target false).path circuit .tertiary=some q∧q.state=.active∧
      ∀ l,l∈(x.tertiaryStep s circuit target false).linksOf q.id ↔
        l∈target.takeWhile (x.adds circuit) := by
  have hpath : s.path circuit .tertiary=none := by rw [Store.path,hrow,Option.filter_none]
  obtain ⟨hrows,hmembers⟩ := createTertiary_spec hrow (x.adds circuit) target
  rw [tertiaryStep,hpath]
  simp only [Bool.false_eq_true,if_false]
  refine ⟨⟨s.paths.nextId,circuit,.tertiary,.active,[⟨.active,true⟩]⟩,?_,rfl,?_⟩
  · rw [Store.path,hrows,if_pos ⟨rfl,rfl⟩]
    rfl
  · intro l
    -- no membership can name a path that was not there
    have hfresh : (s.paths.nextId,l)∉s.members := by
      intro hmem
      exact Nat.lt_irrefl _ (s.owned _ hmem)
    rw [mem_linksOf,hmembers]
    simp [hfresh]

theorem takeWhile_spec {adds : Nat → Bool} {links : List Nat} (h : l∈links.takeWhile adds) :
    l∈links∧adds l=true :=
  ⟨(takeWhile_sublist _).subset h,mem_takeWhile_imp h⟩

theorem links_primary_iff {p : Path} (hmatch : x.matching s p (x.ckt lsps)=true) :
    (∀ l,l∈s.linksOf p.id ↔ x.OnHops lsps l) ↔
      x.Unambiguous lsps∧∀ l∈s.linksOf p.id,x.visible l=true := by
  obtain ⟨-,hsame⟩ := (compareLinks_iff _ _).mp hmatch
  rw [unambiguous_iff]
  constructor
  · intro h
    constructor
    · intro l hl
      exact (hsame l).mp (mem_filter.mpr ⟨(h l).mpr hl,x.visible_of_onHops hl⟩)
    · intro l hl
      exact x.visible_of_onHops ((h l).mp hl)
  · intro ⟨hclear,hvisible⟩ l
    constructor
    · intro hl
      have hseen : l∈x.seen s p.id := mem_filter.mpr ⟨hl,hvisible l hl⟩
      exact x.onHops_of_mem_ckt ((hsame l).mp hseen)
    · intro hl
      exact (mem_filter.mp ((hsame l).mpr (hclear l hl))).1

theorem links_tertiary_iff : (∀ l,x.Resynced s circuit d (x.ckt lsps) l ↔ x.OnHops lsps l) ↔
    x.Unambiguous lsps∧(∀ l∈s.linksOf d.id,x.visible l=true)∧
      ∀ l,x.OnHops lsps l → l∉s.linksOf d.id → x.adds circuit l=true := by
  have hseen (l : Nat) : l∈x.seen s d.id ↔ l∈s.linksOf d.id∧x.visible l=true := mem_filter
  have hwanted (l : Nat) : l∈(x.ckt lsps).filter (·∉x.seen s d.id) ↔
      l∈x.ckt lsps∧l∉x.seen s d.id := by simp
  rw [unambiguous_iff]
  constructor
  · intro h
    refine ⟨fun l hl => ?_,fun l hl => ?_,fun l hl hnot => ?_⟩
    · rcases (h l).mpr hl with ⟨hold,hkept⟩ | hadded
      · by_contra hnot
        exact hkept ⟨(hseen l).mpr ⟨hold,x.visible_of_onHops hl⟩,hnot⟩
      · exact ((hwanted l).mp (takeWhile_spec hadded).1).1
    · by_contra hhidden
      -- a link that is not seen is not removed
      have hkept : ¬(l∈x.seen s d.id∧l∉x.ckt lsps) := fun hc => hhidden ((hseen l).mp hc.1).2
      exact hhidden (x.visible_of_onHops ((h l).mp (.inl ⟨hl,hkept⟩)))
    · rcases (h l).mpr hl with ⟨hold,-⟩ | hadded
      · exact absurd hold hnot
      · exact (takeWhile_spec hadded).2
  · intro ⟨hclear,hvisible,hadds⟩ l
    have hsame (l : Nat) : l∈x.seen s d.id ↔ l∈s.linksOf d.id := by
      rw [hseen]
      exact ⟨And.left,fun hl => ⟨hl,hvisible l hl⟩⟩
    have hall : ∀ l∈(x.ckt lsps).filter (·∉x.seen s d.id),x.adds circuit l=true := by
      intro l hl
      obtain ⟨hckt,hnot⟩ := (hwanted l).mp hl
      exact hadds l (x.onHops_of_mem_ckt hckt) fun hold => hnot ((hsame l).mpr hold)
    rw [Resynced,takeWhile_eq_self_iff.mpr hall,hwanted]
    constructor
    · rintro (⟨hold,hkept⟩ | ⟨hckt,-⟩)
      · by_contra hnot
        exact hkept ⟨(hsame l).mpr hold,fun hckt => hnot (x.onHops_of_mem_ckt hckt)⟩
      · exact x.onHops_of_mem_ckt hckt
    · intro hl
      by_cases hin : l∈x.seen s d.id
      · exact .inl ⟨(hsame l).mp hin,fun hc => hc.2 (hclear l hl)⟩
      · exact .inr ⟨hclear l hl,hin⟩

theorem links_new_iff : (∀ l,l∈(x.ckt lsps).takeWhile (x.adds circuit) ↔ x.OnHops lsps l) ↔
    x.Unambiguous lsps∧∀ l,x.OnHops lsps l → x.adds circuit l=true := by
  rw [unambiguous_iff]
  constructor
  · intro h
    exact ⟨fun l hl => (takeWhile_spec ((h l).mpr hl)).1,
      fun l hl => (takeWhile_spec ((h l).mpr hl)).2⟩
  · intro ⟨hclear,hadds⟩ l
    have hall : ∀ l∈x.ckt lsps,x.adds circuit l=true :=
      fun l hl => hadds l (x.onHops_of_mem_ckt hl)
    rw [takeWhile_eq_self_iff.mpr hall]
    exact ⟨x.onHops_of_mem_ckt,hclear l⟩

theorem settled_iff {type : PathType} (h : type=.primary∧¬IsActive s entry.1 .tertiary∨
    type=.tertiary∧¬IsActive s entry.1 .primary) : x.Settled s entry ↔
    ∃ q,s.path entry.1 type=some q∧q.state=.active∧∀ l,l∈s.linksOf q.id ↔ x.OnHops entry.2 l := by
  constructor
  · intro ⟨other,p,hother,hp,hactive,hlinks⟩
    rcases h with ⟨rfl,h⟩ | ⟨rfl,h⟩ <;> rcases hother with ⟨rfl,-⟩ | ⟨rfl,-⟩
    · exact ⟨p,hp,hactive,hlinks⟩
    · exact absurd ⟨p,hp,hactive⟩ h
    · exact absurd ⟨p,hp,hactive⟩ h
    · exact ⟨p,hp,hactive,hlinks⟩
  · intro ⟨q,hq⟩
    exact ⟨type,q,h,hq⟩

theorem exists_some_iff {o : Option Path} {q : Path} {P : Path → Prop} (h : o=some q) :
    (∃ p,o=some p∧P p) ↔ P q := by
  simp [h]

theorem settled_of_active (hactive : x.primaryActive s entry.1 (x.ckt entry.2)=true) :
    x.Settled (x.tertiaryStep (primaryStep s entry.1 true) entry.1 (x.ckt entry.2) true) entry ↔
      x.Unambiguous entry.2∧∀ p∈s.path entry.1 .primary,∀ l∈s.linksOf p.id,x.visible l=true := by
  obtain ⟨p,hp,hmatch⟩ : ∃ p,s.path entry.1 .primary=some p∧x.matching s p (x.ckt entry.2)=true := by
    simpa [primaryActive,Option.any_eq_true] using hactive
  obtain ⟨q,hq,hid,hstate⟩ := primaryStep_active hp
  obtain ⟨hmembers,hter⟩ := x.tertiaryStep_active (primaryStep s entry.1 true) entry.1 (x.ckt entry.2)
  have hlinks (path : Nat) : (x.tertiaryStep (primaryStep s entry.1 true) entry.1 (x.ckt entry.2)
      true).linksOf path=s.linksOf path := by
    rw [Store.linksOf,hmembers,members_primaryStep]
    rfl
  rw [x.settled_iff (.inl ⟨rfl,hter⟩),path_tertiaryStep,exists_some_iff hq,hid,hp]
  simp only [hlinks,hstate,true_and,Option.mem_some_iff,forall_eq']
  exact x.links_primary_iff hmatch

theorem settled_of_inactive :
    x.Settled (x.tertiaryStep (primaryStep s entry.1 false) entry.1 (x.ckt entry.2) false) entry ↔
      x.Unambiguous entry.2∧x.TertiaryCan s entry := by
  have hpri : ¬IsActive (x.tertiaryStep (primaryStep s entry.1 false) entry.1 (x.ckt entry.2) false)
      entry.1 .primary := by
    rw [IsActive,path_tertiaryStep]
    exact not_isActive_primaryStep
  rw [x.settled_iff (.inr ⟨rfl,hpri⟩),TertiaryCan]
  cases hd : s.path entry.1 .tertiary with
  | some d =>
    obtain ⟨q,hq,hstate,hlinks⟩ := x.tertiaryStep_some (path_primaryStep.trans hd) (x.ckt entry.2)
    rw [exists_some_iff hq]
    simp only [hstate,hlinks,Resynced,seen,linksOf_primaryStep,true_and]
    exact x.links_tertiary_iff
  | none =>
    cases hrow : s.paths.row entry.1 .tertiary with
    | some d =>
      have hnone : (x.tertiaryStep (primaryStep s entry.1 false) entry.1 (x.ckt entry.2) false).path
          entry.1 .tertiary=none := by
        rw [tertiaryStep,path_primaryStep,hd]
        simp only [Bool.false_eq_true,if_false]
        rw [createTertiary_some (row_primaryStep.trans hrow),path_primaryStep,hd]
      simp [hnone]
    | none =>
      obtain ⟨q,hq,hstate,hlinks⟩ :=
        x.tertiaryStep_none (row_primaryStep.trans hrow) (x.ckt entry.2)
      rw [exists_some_iff hq]
      simp only [hstate,hlinks,true_and]
      exact x.links_new_iff

theorem settled_processCircuit (hpresent : x.present entry.1=true) :
    x.Settled (x.processCircuit s entry) entry ↔ x.Ready s entry := by
  rw [processCircuit,if_pos hpresent]
  dsimp only
  cases hactive : x.primaryActive s entry.1 (x.ckt entry.2) with
  | true =>
    rw [x.settled_of_active hactive]
    refine and_congr_right fun hclear => ?_
    have hfits : x.PrimaryFits s entry := (x.primaryActive_iff hclear).mp hactive
    simp only [hfits,true_implies,not_true_eq_false,false_implies,and_true]
  | false =>
    rw [x.settled_of_inactive]
    refine and_congr_right fun hclear => ?_
    have hfits : ¬x.PrimaryFits s entry := by
      rw [← x.primaryActive_iff hclear,hactive]
      exact Bool.false_ne_true
    simp only [hfits,false_implies,not_false_eq_true,true_implies,true_and]

/-- All listed circuits are settled after the call exactly if each was ready before. -/
theorem processPaths_settled_iff :
    (∀ entry∈x.circuits,x.present entry.1=true → x.Settled x.processPaths entry) ↔
      ∀ entry∈x.circuits,x.present entry.1=true → x.Ready x.store entry := by
  refine forall₃_congr fun entry hentry hpresent => ?_
  obtain ⟨u,hu,hlast⟩ := Loops.foldl_turn SameCircuit.refl (fun _ _ _ _ => SameCircuit.trans)
    x.sameCircuit_processCircuit x.distinct hentry x.store
  calc x.Settled x.processPaths entry
      ↔ x.Settled (x.processCircuit u entry) entry := x.settled_congr hlast
    _ ↔ x.Ready u entry := x.settled_processCircuit hpresent
    _ ↔ x.Ready x.store entry := x.ready_congr hu

end Call

/-- No path; an LSP over two links, one without a free VLAN. -/
def crowded : Call where
  store := {
    paths := ⟨[],1,by simp,by simp,by simp⟩
    members := []
    owned := by simp}
  links := [⟨1,"10.0.0.1","10.0.0.2"⟩,⟨2,"10.0.1.1","10.0.1.2"⟩]
  visible := fun _ => true
  known := fun _ _ => rfl
  circuits := [(7,["lsp-7"])]
  distinct := by decide
  lspPaths := fun _ => some ["10.0.0.2","10.0.1.2"]
  present := fun _ => true
  adds := fun _ l => l≠2

theorem crowded_part_active : (crowded.processPaths.path 7 .tertiary).map
      (fun p => (p.state,crowded.processPaths.linksOf p.id))=some (.active,[1])∧
    crowded.OnHops ["lsp-7"] 2∧¬crowded.Settled crowded.processPaths (7,["lsp-7"]) := by
  have hpath : crowded.processPaths.path 7 .tertiary=
      some ⟨1,7,.tertiary,.active,[⟨.active,true⟩]⟩ := by decide +kernel
  have hmembers : crowded.processPaths.linksOf 1=[1] := by decide +kernel
  have hprimary : crowded.processPaths.path 7 .primary=none := by decide +kernel
  have hhops : crowded.OnHops ["lsp-7"] 2 :=
    ⟨⟨2,"10.0.1.1","10.0.1.2"⟩,by simp [crowded],rfl,.inr (by simp [Call.hops,crowded])⟩
  refine ⟨?_,hhops,?_⟩
  · rw [hpath,Option.map_some,hmembers]
  · intro ⟨type,p,hother,hp,_,hset⟩
    rcases hother with ⟨rfl,-⟩ | ⟨rfl,-⟩
    · cases hprimary.symm.trans hp
    cases hpath.symm.trans hp
    have hmem := (hset 2).mpr hhops
    rw [hmembers] at hmem
    simp at hmem

end OESS.MPLS.PathSync
