import OESS.Framework.Runs
import OESS.Vlans.Memberships

namespace OESS.Vlans

open OESS.OpenFlow (PathType)
open OESS.Master (PathState)
open OESS.Paths (PathTable Request)
open OESS.Loops OESS.Runs List Option Store

def Network.uses (net : Network) (m : Membership) : List (Nat×Int) :=
  match net.ends m.link with
  | none => []
  | some (a,z) => [(a,m.aVlan),(z,m.zVlan)]

/-- Each VLAN is used once on an interface and allowed there. -/
structure Separate (net : Network) (s : Store) : Prop where
  distinct : s.members.rows.Pairwise fun m m' => (net.uses m).Disjoint (net.uses m')
  allowed : ∀ m∈s.members.rows,∀ u∈net.uses m,u.2∈net.allowedVlans (net.node u.1)

/-- Allocators see all, and a loop link has one VLAN. -/
structure Sound (net : Network) (s : Store) : Prop extends Separate net s where
  instantiated : ∀ m∈s.members.rows,s.base.paths.Instantiated m.path
  loops : ∀ m∈s.members.rows,∀ i,net.ends m.link=some (i,i) → m.aVlan=m.zVlan

section Allocation

variable {net : Network} {s s' : Store} {path link : Nat}

variable {m : Membership} {v : Int}

theorem usedOn_of_uses {i : Nat} (hloop : net.ends m.link=some (i,i) → m.aVlan=m.zVlan)
    (h : (i,v)∈net.uses m) : net.usedOn i m=some v := by
  unfold Network.uses at h
  unfold Network.usedOn
  cases hends : net.ends m.link with
  | none =>
    rw [hends] at h
    cases h
  | some ends =>
    obtain ⟨a,z⟩ := ends
    rw [hends] at h hloop
    simp only [mem_cons,not_mem_nil,or_false] at h
    dsimp only
    obtain ⟨rfl,rfl⟩ | ⟨rfl,rfl⟩ := h
    · exact if_pos rfl
    split_ifs with ha hz
    · rw [hloop (by rw [ha])]
    · rfl
    · exact absurd rfl hz

theorem firstAvailable_spec {node i : Nat} (h : s.firstAvailable net node i=some v) :
    v∈net.allowedVlans node∧v∉s.used net i :=
  ⟨mem_of_find?_eq_some h,by simpa using find?_some h⟩

section

variable (hs : Sound net s)
include hs

theorem Sound.fresh {node i : Nat} (h : s.firstAvailable net node i=some v) :
    ∀ m∈s.members.rows,(i,v)∉net.uses m := by
  intro m hm hu
  apply (firstAvailable_spec h).2
  refine mem_filterMap.mpr ⟨m,mem_filter.mpr ⟨hm,?_⟩,usedOn_of_uses (hs.loops m hm i) hu⟩
  exact decide_eq_true (hs.instantiated m hm)

theorem Sound.insert (hpath : s.base.paths.Instantiated m.path)
    (hfresh : ∀ m'∈s.members.rows,(net.uses m').Disjoint (net.uses m))
    (hallowed : ∀ u∈net.uses m,u.2∈net.allowedVlans (net.node u.1))
    (hloop : ∀ i,net.ends m.link=some (i,i) → m.aVlan=m.zVlan)
    (h : s.insertMembership net m=some s') : Sound net s' := by
  obtain ⟨members,hrows,rfl⟩ := insertMembership_cases h
  have hmem : ∀ P : Membership → Prop,(∀ m'∈s.members.rows,P m') → P m →
      ∀ m'∈members.rows,P m' := by
    intro P hold hnew
    rw [hrows]
    exact forall_mem_snoc hold hnew
  refine ⟨⟨?_,hmem _ hs.allowed hallowed⟩,hmem _ hs.instantiated hpath,hmem _ hs.loops hloop⟩
  rw [hrows,pairwise_append]
  refine ⟨hs.distinct,pairwise_singleton _ _,?_⟩
  intro m' hm' m'' hm''
  exact mem_singleton.mp hm'' ▸ hfresh m' hm'

theorem Sound.allocate {a z : Nat} {aVlan zVlan : Int} (hpath : s.base.paths.Instantiated path)
    (hends : net.ends link=some (a,z)) (ha : s.firstAvailable net (net.node a) a=some aVlan)
    (hz : s.firstAvailable net (net.node z) z=some zVlan)
    (h : s.insertMembership net ⟨link,path,aVlan,zVlan⟩=some s') : Sound net s' := by
  have huses : net.uses ⟨link,path,aVlan,zVlan⟩=[(a,aVlan),(z,zVlan)] := by rw [Network.uses,hends]
  have heach : ∀ u∈net.uses ⟨link,path,aVlan,zVlan⟩,u=(a,aVlan)∨u=(z,zVlan) := by
    rw [huses]
    simp
  apply hs.insert hpath _ _ _ h
  · intro m hm u hu hnew
    obtain rfl | rfl := heach u hnew
    · exact hs.fresh ha m hm hu
    · exact hs.fresh hz m hm hu
  · intro u hu
    obtain rfl | rfl := heach u hu
    · exact (firstAvailable_spec ha).1
    · exact (firstAvailable_spec hz).1
  · intro i hi
    rw [hends] at hi
    cases hi
    exact some.inj (ha.symm.trans hz)

theorem Sound.insert_unwired (hpath : s.base.paths.Instantiated m.path)
    (hends : net.ends m.link=none) (h : s.insertMembership net m=some s') : Sound net s' := by
  have huses : net.uses m=[] := by rw [Network.uses,hends]
  refine hs.insert hpath ?_ ?_ ?_ h
  · simp [huses]
  · simp [huses]
  · simp [hends]

theorem Sound.addLink (hpath : s.base.paths.Instantiated path) (h : s.addLink net path link=some s') :
    Sound net s' := by
  obtain ⟨a,z,aVlan,zVlan,hends,ha,hz,h⟩ := addLink_cases h
  exact hs.allocate hpath hends ha hz h

theorem Sound.addLinks (hpath : s.base.paths.Instantiated path) (links : List Nat) :
    Sound net (Store.addLinks net path s links).1 := by
  induction links generalizing s with
  | nil => exact hs
  | cons link links ih =>
    unfold Store.addLinks
    cases h : s.addLink net path link with
    | none => exact hs
    | some s' =>
      apply ih (hs.addLink hpath h)
      rwa [addLink_base h]

theorem Sound.assignLinks {circuit : Nat} {type : PathType} {links : List Nat}
    (hpath : links≠[] → ∀ p,s.base.paths.row circuit type=some p → p.liveOnes≠[])
    (h : s.assignLinks net circuit type links=some s') : Sound net s' := by
  unfold Store.assignLinks at h
  split at h
  next hrow =>
    split_ifs at h
    cases h
    exact hs
  next p hrow =>
    obtain ⟨⟨t,seen⟩,ht,rfl⟩ := map_eq_some_iff.mp h
    -- the loop writes memberships of one path only
    refine (foldlM_some_invariant (I := fun x : Store×List Nat => Sound net x.1∧x.1.base=s.base)
      ?_ ⟨hs,rfl⟩ ht).1
    rintro link hlink ⟨s₁,seen₁⟩ ⟨s₂,seen₂⟩ ⟨hs₁,hbase⟩ hstep
    obtain ⟨a,z,aVlan,zVlan,hends,ha,hz,hinsert⟩ := assignLink_cases hstep
    have hlive : s₁.base.paths.Instantiated p.id := by
      rw [hbase]
      exact PathTable.instantiated_of_row hrow (hpath (ne_nil_of_mem hlink) p hrow)
    exact ⟨hs₁.allocate hlive hends ha hz hinsert, (insertMembership_base hinsert).trans hbase⟩

theorem Sound.addComputed {circuit : Nat} {links : List Nat}
    (hpath : s.base.paths.Instantiated path) (hlinks : ∀ l∈links,net.ends l=none) :
    Sound net (s.addComputed net circuit path links) := by
  unfold Store.addComputed
  induction links generalizing s with
  | nil => exact hs
  | cons link links ih =>
    rw [foldl_cons]
    have hrest : ∀ l∈links,net.ends l=none := fun l hl => hlinks l (mem_cons_of_mem link hl)
    cases h : s.insertMembership net ⟨link,path,(circuit : Int)+5000,(circuit : Int)+5000⟩ with
    | none => exact ih hs hpath hrest
    | some s' =>
      refine ih (hs.insert_unwired hpath (hlinks link mem_cons_self) h) ?_ hrest
      rwa [getD_some,insertMembership_base h]

end

end Allocation

/-- Links are added to a path with a live instantiation, and no VLAN is computed for a link with
one. -/
def Allocates (net : Network) (s : Store) : Event → Prop
  | .updateMplsPath circuit links =>
    let c := s.base.memory circuit
    links=[]∨c.type≠.mpls∨
    (!c.links.isEmpty && Paths.Store.compareLinks c.links links)=true∨
    (!c.backupLinks.isEmpty && Paths.Store.compareLinks c.backupLinks links)=true∨
    (Paths.Store.compareLinks c.tertiaryLinks links=true∧
      ∃ p∈s.base.paths.row circuit .tertiary,p.liveOnes≠[])∨
    ∀ l∈links,net.ends l=none
  | .createPath _ links _ => ∀ l∈links,net.ends l=none
  | .addLink path _ => s.base.paths.Instantiated path
  | _ => True

instance (net : Network) (s : Store) : (e : Event) → Decidable (Allocates net s e)
  | .changePath _ | .changeActivePath _ _ | .setPathState _ _ => isTrue trivial
  | .updateCircuitPathState _ _ _ => isTrue trivial
  | .updateMplsPath _ _ => inferInstanceAs (Decidable (_∨_))
  | .provisionCircuit _ _ | .editCircuit _ _ _ => isTrue trivial
  | .createPath _ links _ => inferInstanceAs (Decidable (∀ l∈links,net.ends l=none))
  | .create _ _ _ _ _ => isTrue trivial
  | .addLink path _ => inferInstanceAs (Decidable (s.base.paths.Instantiated path))
  | .removeLink _ _ | .update _ _ _ _ _ => isTrue trivial

section Steps

variable {net : Network} {s s' : Store} {circuit path : Nat} {links : List Nat} {type : PathType}

section

variable (hs : Sound net s)
include hs

theorem Sound.of_sublist (hrows : s'.members.rows.Sublist s.members.rows)
    (hpaths : ∀ m∈s'.members.rows,s'.base.paths.Instantiated m.path) : Sound net s' :=
  ⟨⟨hs.distinct.sublist hrows,fun m hm => hs.allowed m (hrows.subset hm)⟩,hpaths,
    fun m hm => hs.loops m (hrows.subset hm)⟩

theorem Sound.of_paths {base : Paths.Store} {tertiary : Nat → Option Nat}
    (hpaths : ∀ x,s.base.paths.Instantiated x → base.paths.Instantiated x) :
    Sound net ⟨base,s.members,tertiary⟩ :=
  hs.of_sublist (Sublist.refl _) fun m hm => hpaths m.path (hs.instantiated m hm)

theorem Sound.removeLink (path link : Nat) : Sound net (s.removeLink path link) := by
  apply hs.of_sublist (s.members.close_sublist _)
  intro m hm
  exact hs.instantiated m ((s.members.close_sublist _).subset hm)

theorem Sound.changeActivePath {new : PathType} (h : s.changeActivePath circuit new=some s') :
    Sound net s' := by
  obtain ⟨base,hbase,rfl⟩ := map_eq_some_iff.mp h
  exact hs.of_paths fun x hx => Paths.Store.changeActivePath_instantiated hx hbase

theorem Sound.createPath (hlinks : ∀ l∈links,net.ends l=none) :
    Sound net (s.createPath net circuit links type) := by
  unfold Store.createPath
  have hrows := s.members.endPath_sublist ((s.base.paths.row circuit type).map Paths.Path.id)
  have hcreated : Sound net {s with
      base := {s.base with paths := s.base.paths.createPath circuit type}
      members := s.members.endPath ((s.base.paths.row circuit type).map Paths.Path.id)} := by
    apply hs.of_sublist hrows
    intro m hm
    exact (hs.instantiated m (hrows.subset hm)).createPath circuit type
  obtain ⟨q,hrow,hlive,-,-⟩ := PathTable.row_createPath s.base.paths circuit type
  have hq : (s.base.paths.createPath circuit type).row circuit type=some q := by
    rw [hrow,PathTable.setRow_same,Function.update_self]
  simp only [hq]
  refine hcreated.addComputed (PathTable.instantiated_of_row hq ?_) hlinks
  rw [hlive]
  exact cons_ne_nil _ _

theorem Sound.rewire (hpath : s.base.paths.Instantiated path) (hlinks : ∀ l∈links,net.ends l=none) :
    Sound net (s.rewire net circuit path links) := by
  have hrows := s.members.endPath_sublist (s.tertiary circuit)
  refine Sound.addComputed (hs.of_sublist hrows ?_) hpath hlinks
  intro m hm
  exact hs.instantiated m (hrows.subset hm)

theorem Sound.getD {x : Option Store} (h : ∀ s',x=some s' → Sound net s') :
    Sound net (x.getD s) := by
  cases x with
  | none => exact hs
  | some s' => exact h s' rfl

theorem Sound.updateTertiary
    (hwired : (Paths.Store.compareLinks (s.base.memory circuit).tertiaryLinks links=true∧
      ∃ p∈s.base.paths.row circuit .tertiary,p.liveOnes≠[])∨∀ l∈links,net.ends l=none) :
    Sound net ((s.updateTertiary net circuit links).getD s) := by
  unfold Store.updateTertiary
  dsimp only
  split
  case h_1 p hp =>
    obtain ⟨hrow,hlive⟩ := filter_eq_some_iff.mp hp
    have hpath : s.base.paths.Instantiated p.id :=
      PathTable.instantiated_of_row hrow (by simpa using hlive)
    split_ifs with hsame
    · exact hs.getD fun s' => hs.changeActivePath
    · have hcut := hwired.resolve_left fun hw => hsame hw.1
      exact hs.getD fun s' => (hs.rewire hpath hcut).changeActivePath
  case h_2 hnone =>
    have hcut : ∀ l∈links,net.ends l=none := by
      refine hwired.resolve_left ?_
      rintro ⟨-,p,hp,hlive⟩
      rw [mem_def.mp hp] at hnone
      simp [hlive] at hnone
    have hknown : Sound net {s with
        base := s.base.remember circuit {s.base.memory circuit with tertiaryLinks := links}
        tertiary := Function.update s.tertiary circuit
          (((s.base.paths.createPath circuit .tertiary).row circuit .tertiary).map Paths.Path.id)} :=
      hs.of_paths fun x hx => hx
    exact hknown.getD fun s' => (hknown.createPath hcut).changeActivePath

theorem Sound.updateMplsPath (h : Allocates net s (.updateMplsPath circuit links)) :
    Sound net ((s.updateMplsPath net circuit links).getD s) := by
  unfold Store.updateMplsPath
  dsimp only
  split_ifs with hlinks htype hprimary hbackup
  · exact hs
  · exact hs
  · exact hs.getD fun s' => hs.changeActivePath
  · exact hs.getD fun s' => hs.changeActivePath
  · have h := (h.resolve_left hlinks).resolve_left htype
    exact hs.updateTertiary ((h.resolve_left hprimary).resolve_left hbackup)

end

variable {state : PathState} {r : Request}

theorem Sound.create (hs : Sound net s) (rollsBack : Bool) :
    Sound net (s.create net circuit type state links rollsBack) := by
  unfold Store.create
  dsimp only
  split_ifs with hrow
  · exact hs
  have hnone : s.base.paths.row circuit type=none := by simpa using hrow
  have hcreated : Sound net
      {s with base := {s.base with paths := s.base.paths.create circuit type state}} :=
    hs.of_paths fun x hx => hx.create circuit type state
  split
  · exact hs
  case h_2 p hp =>
    have hlive : p.liveOnes≠[] := by
      rw [PathTable.row_create state hnone,PathTable.setRow_same,Function.update_self] at hp
      cases hp
      simp [Paths.Path.liveOnes]
    split_ifs
    · exact hs
    · exact hcreated.addLinks (PathTable.instantiated_of_row hp hlive) links

theorem Sound.removeLinks (hs : Sound net s) (path : Nat) (links : List Nat) :
    Sound net (links.foldl (fun s link => s.removeLink path link) s) := by
  induction links generalizing s with
  | nil => exact hs
  | cons link links ih => exact ih (hs.removeLink path link)

theorem Sound.update {remove add : List Nat} (hs : Sound net s) (rollsBack : Bool) :
    Sound net (s.update net path state remove add rollsBack) := by
  unfold Store.update
  dsimp only
  split_ifs with hpath
  · exact hs
  · have hupdated : Sound net
        {s with base := {s.base with paths := s.base.paths.updatePath path state}} :=
      hs.of_paths fun x hx => hx.updatePath path state
    refine (hupdated.removeLinks path remove).addLinks ?_ add
    rw [removeLinks_base]
    exact PathTable.instantiated_modify (f := Paths.Path.restate state) (fun _ => rfl) hpath
      (Paths.Path.liveOnes_restate_ne_nil state)
  · exact hs

theorem Sound.assignPaths (hs : Sound net s) (hsupplied : s.base.paths.Supplied circuit r)
    (h : s.assignPaths net circuit r=some s') : Sound net s' := by
  obtain ⟨s₁,h₁,h⟩ := bind_eq_some_iff.mp h
  obtain ⟨s₂,h₂,h⟩ := bind_eq_some_iff.mp h
  cases h
  have hs₁ := hs.assignLinks hsupplied.primary h₁
  have hs₂ : Sound net s₂ := by
    refine hs₁.assignLinks ?_ h₂
    rw [assignLinks_base h₁]
    intro hlinks
    split_ifs at hlinks with htype
    · exact absurd rfl hlinks
    · exact hsupplied.backup hlinks htype
  exact hs₂.of_paths fun x hx => hx

theorem Sound.provisionCircuit (hs : Sound net s) (h : s.provisionCircuit net circuit r=some s') :
    Sound net s' := by
  obtain ⟨base,hbase,h⟩ := bind_eq_some_iff.mp h
  unfold Paths.Store.provisionCircuit at hbase
  split_ifs at hbase with hrefused
  cases hbase
  have hnew : ∀ p∈s.base.paths.rows,p.circuit≠circuit := by
    intro p hp hcircuit
    exact hrefused (.inr (.inl ⟨p,hp,hcircuit⟩))
  refine Sound.assignPaths (hs.of_paths ?_) (PathTable.supplied_provision circuit r hnew) h
  exact fun x hx => hx.provision circuit r

theorem Sound.editCircuit {tertiaryLinks : List Nat} (hs : Sound net s)
    (h : s.editCircuit net circuit r tertiaryLinks=some s') : Sound net s' := by
  obtain ⟨base,hbase,h⟩ := bind_eq_some_iff.mp h
  unfold Paths.Store.editCircuit at hbase
  split_ifs at hbase
  cases hbase
  refine Sound.assignPaths (hs.of_sublist (s.members.close_sublist _) ?_)
    (PathTable.supplied_edit circuit r) h
  intro m hm
  obtain ⟨hm,hkept⟩ := mem_filter.mp hm
  refine (hs.instantiated m hm).edit circuit r ?_
  rintro p hp hid ⟨hcircuit,htype⟩
  have hended : s.manual circuit m=true :=
    any_eq_true.mpr ⟨p,hp,by simp [hid,hcircuit,htype]⟩
  rw [hended] at hkept
  cases hkept

theorem sound_step {e : Event} (hs : Sound net s) (h : Allocates net s e) :
    Sound net (s.step net e) := by
  cases e with
  | changePath circuit =>
    refine hs.getD fun s' hs' => ?_
    obtain ⟨base,hbase,rfl⟩ := map_eq_some_iff.mp hs'
    exact hs.of_paths fun x hx => Paths.Store.changePath_instantiated hx hbase
  | changeActivePath circuit new => exact hs.getD fun s' => hs.changeActivePath
  | setPathState path state =>
    exact hs.of_paths fun x hx => hx.setPathState path state
  | updateCircuitPathState circuit old new =>
    exact hs.of_paths fun x hx => hx.updateCircuitPathState circuit old new
  | updateMplsPath circuit links => exact hs.updateMplsPath h
  | provisionCircuit circuit r => exact hs.getD fun s' => hs.provisionCircuit
  | editCircuit circuit r tertiaryLinks => exact hs.getD fun s' => hs.editCircuit
  | createPath circuit links type => exact hs.createPath h
  | create circuit type state links rollsBack => exact hs.create rollsBack
  | addLink path link => exact hs.getD fun s' => hs.addLink h
  | removeLink path link => exact hs.removeLink path link
  | update path state remove add rollsBack => exact hs.update rollsBack

end Steps

/-- Internal VLANs stay separate in runs that leave them to the allocators. -/
theorem internalVlans_separate {net : Network} {s : Store} {events : List Event}
    (hs : Sound net s) (hevents : StepsOk (Store.step net) (Allocates net) s events) :
    Always (Store.step net) (Separate net) s events := by
  have halways := always_of_step (fun _ _ => sound_step) hs hevents
  exact halways.mono fun _ h => h.toSeparate

def twoLinks : Network where
  link
    | 1 => some ⟨some (10,20),true⟩
    | 2 => some ⟨some (10,30),true⟩
    | _ => none
  node := id
  vlanTagRange := fun _ => some [.span 100 102]

def Store.empty : Store := ⟨Paths.Store.empty,⟨[],List.nodup_nil,List.nodup_nil⟩,fun _ => none⟩

theorem sound_empty (net : Network) : Sound net Store.empty where
  distinct := Pairwise.nil
  allowed := by simp [Store.empty]
  instantiated := by simp [Store.empty]
  loops := by simp [Store.empty]

/-- A run until VLANs are used up; one is given again. -/
def sharedRun : List Event :=
  [.provisionCircuit 1 ⟨[1],[2],.openflow,.active,0,false,true⟩,
    .create 2 .primary .active [1] true,.addLink 2 2,.update 1 .available [2] [] true,.addLink 2 2]

theorem sharedRun_separate : StepsOk (Store.step twoLinks) (Allocates twoLinks) Store.empty sharedRun∧
    Always (Store.step twoLinks) (Separate twoLinks) Store.empty sharedRun∧
    (sharedRun.foldl (Store.step twoLinks) Store.empty).members.rows=
      [⟨1,0,100,100⟩,⟨1,2,102,101⟩,⟨2,2,101,100⟩] := by
  have hrun : StepsOk (Store.step twoLinks) (Allocates twoLinks) Store.empty sharedRun :=
    ⟨trivial,trivial,by decide +kernel,trivial,by decide +kernel,trivial⟩
  exact ⟨hrun,internalVlans_separate (sound_empty twoLinks) hrun,by decide +kernel⟩

/-- The tertiary path that discovery reports gets a VLAN that no node allows. -/
theorem updateMplsPath_computes_vlan : Sound twoLinks Store.empty∧
    ¬Always (Store.step twoLinks) (Separate twoLinks) Store.empty
      [.provisionCircuit 1 ⟨[],[],.mpls,.active,0,false,true⟩,.updateMplsPath 1 [1]] := by
  refine ⟨sound_empty twoLinks,?_⟩
  intro h
  have hallowed := h.2.2.allowed ⟨1,0,5001,5001⟩ (by decide +kernel) (10,5001) (by decide +kernel)
  have hle : (5001 : Int) ≤ maxVlanTag := twoLinks.allowedVlans_le _ _ hallowed
  exact absurd hle (by decide)

end OESS.Vlans
