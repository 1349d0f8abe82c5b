import OESS.Paths.Changes

namespace OESS.Paths

open OESS.OpenFlow (PathType)
open OESS.Master (PathState CircuitType)
open List Path

namespace Path

variable {p : Path}

theorem liveOnes_switchLive_ne_nil (change : PathState → PathState) (h : p.liveOnes≠[]) :
    (p.switchLive change).liveOnes≠[] := by
  obtain ⟨i,hi⟩ := exists_mem_of_ne_nil _ h
  obtain ⟨hmem,hlive⟩ := mem_filter.mp hi
  refine ne_nil_of_mem (a := {i with state := change i.state}) (mem_filter.mpr ⟨?_,hlive⟩)
  exact mem_map.mpr ⟨i,hmem,if_pos hlive⟩

theorem liveOnes_instantiate_ne_nil (s : PathState) (p : Path) : (p.instantiate s).liveOnes≠[] := by
  simp

theorem liveOnes_restate_ne_nil (s : PathState) (p : Path) : (p.restate s).liveOnes≠[] := by simp

end Path

namespace PathTable

variable {t : PathTable} {x : Nat}

def Instantiated (t : PathTable) (x : Nat) : Prop := ∃ p∈t.rows,p.id=x∧p.liveOnes≠[]
  deriving Decidable

variable {f : Path → Path}

theorem Instantiated.mapRows (h : t.Instantiated x) (hf : ∀ p,(f p).key=p.key)
    (hlive : ∀ p,p.id=x → p.liveOnes≠[] → (f p).liveOnes≠[]) : (t.mapRows f hf).Instantiated x := by
  obtain ⟨p,hp,hid,hp'⟩ := h
  exact ⟨f p,mem_map_of_mem hp,(congrArg Prod.fst (hf p)).trans hid,hlive p hid hp'⟩

theorem Instantiated.modify (h : t.Instantiated x) (y : Nat) (hf : ∀ p,(f p).key=p.key)
    (hlive : ∀ p,p.liveOnes≠[] → (f p).liveOnes≠[]) : (t.modify y f hf).Instantiated x := by
  apply h.mapRows
  intro p _ hp
  split_ifs
  · exact hlive p hp
  · exact hp

theorem instantiated_modify (hf : ∀ p,(f p).key=p.key) (hx : ∃ p∈t.rows,p.id=x)
    (hlive : ∀ p,(f p).liveOnes≠[]) : (t.modify x f hf).Instantiated x := by
  obtain ⟨p,hp,rfl⟩ := hx
  refine ⟨f p,mem_map.mpr ⟨p,hp,if_pos rfl⟩,congrArg Prod.fst (hf p),hlive p⟩

theorem Instantiated.insert (h : t.Instantiated x) {circuit : Nat} {type : PathType}
    {state : PathState} {instantiations : List Instantiation} (hnone : t.row circuit type=none) :
    (t.insert circuit type state instantiations hnone).Instantiated x := by
  obtain ⟨p,hp,hid,hlive⟩ := h
  exact ⟨p,mem_append_left _ hp,hid,hlive⟩

theorem instantiated_of_row {circuit : Nat} {type : PathType} {p : Path}
    (h : t.row circuit type=some p) (hlive : p.liveOnes≠[]) : t.Instantiated p.id :=
  ⟨p,(row_spec h).1,rfl,hlive⟩

section Operations

variable (circuit : Nat) (type : PathType)

section

variable (h : t.Instantiated x)
include h

theorem Instantiated.setPathState (y : Nat) (s : PathState) : (t.setPathState y s).Instantiated x :=
  h.modify y _ fun p _ => p.liveOnes_restate_ne_nil s

theorem Instantiated.updatePath (y : Nat) (s : PathState) : (t.updatePath y s).Instantiated x :=
  h.modify y _ fun p _ => p.liveOnes_restate_ne_nil s

theorem Instantiated.updateCircuitPathState (old new : PathState) :
    (t.updateCircuitPathState circuit old new).Instantiated x := by
  apply h.mapRows
  intro p _ hp
  split_ifs
  · exact liveOnes_switchLive_ne_nil _ hp
  · exact hp

theorem Instantiated.createPath : (t.createPath circuit type).Instantiated x := by
  unfold PathTable.createPath
  split
  · exact h.insert _
  · exact h.modify _ _ fun p _ => liveOnes_instantiate_ne_nil _ _

variable (s : PathState)

theorem Instantiated.create : (t.create circuit type s).Instantiated x := by
  unfold PathTable.create
  split
  · exact h.insert _
  · exact h

theorem Instantiated.provision (r : Request) : (t.provision circuit r).Instantiated x := by
  unfold PathTable.provision
  dsimp only
  split_ifs
  · exact h
  · exact h.create circuit .primary .active
  · exact h.create circuit .backup .available
  · exact (h.create circuit .primary .active).create circuit .backup .available

theorem Instantiated.closeManual
    (hother : ∀ p∈t.rows,p.id=x → ¬(p.circuit=circuit∧p.type≠.tertiary)) :
    (t.closeManual circuit).Instantiated x := by
  obtain ⟨p,hp,hid,hlive⟩ := h
  refine ⟨p,mem_map.mpr ⟨p,hp,?_⟩,hid,hlive⟩
  exact if_neg (hother p hp hid)

theorem Instantiated.editPath (links : List Nat) (circuitType : CircuitType) :
    (t.editPath circuit type links circuitType).Instantiated x := by
  unfold PathTable.editPath
  split_ifs
  · split
    · exact h
    · exact h.setPathState _ _
  · exact h
  · split
    · exact h.insert _
    · exact h.modify _ _ fun p _ => p.liveOnes_instantiate_ne_nil _

theorem Instantiated.edit (r : Request)
    (hother : ∀ p∈t.rows,p.id=x → ¬(p.circuit=circuit∧p.type≠.tertiary)) :
    (t.edit circuit r).Instantiated x :=
  ((h.closeManual circuit hother).editPath circuit .primary r.links r.type).editPath circuit .backup
    r.backupLinks r.type

end

variable {circuitType : CircuitType}

theorem row_editPath_other {links : List Nat} {k : Nat} {type' : PathType}
    (h : ¬(k=circuit∧type'=type)) :
    (t.editPath circuit type links circuitType).row k type'=t.row k type' := by
  unfold PathTable.editPath
  split_ifs
  · split
    · rfl
    case h_2 p hp => exact (row_modify_apply hp _ _ k type').trans (if_neg h)
  · rfl
  · split
    case h_1 hp => exact (row_insert_apply hp k type').trans (if_neg h)
    case h_2 p hp => exact (row_modify_apply hp _ _ k type').trans (if_neg h)

theorem liveOnes_editPath {links : List Nat} {p : Path} (hlinks : links≠[])
    (hskip : ¬(type=.backup∧circuitType=.mpls))
    (h : (t.editPath circuit type links circuitType).row circuit type=some p) : p.liveOnes≠[] := by
  unfold PathTable.editPath at h
  rw [if_neg hlinks,if_neg hskip] at h
  split at h
  case h_1 hp =>
    have hrow := (row_insert_apply hp circuit type).symm.trans h
    rw [if_pos ⟨rfl,rfl⟩] at hrow
    cases hrow
    simp [Path.liveOnes]
  case h_2 q hq =>
    have hrow := (row_modify_apply hq _ _ circuit type).symm.trans h
    rw [if_pos ⟨rfl,rfl⟩] at hrow
    cases hrow
    exact liveOnes_instantiate_ne_nil _ _

/-- Paths given links have live instantiations. -/
structure Supplied (t : PathTable) (circuit : Nat) (r : Request) : Prop where
  primary : r.links≠[] → ∀ p,t.row circuit .primary=some p → p.liveOnes≠[]
  backup : r.backupLinks≠[] → r.type≠.mpls → ∀ p,t.row circuit .backup=some p → p.liveOnes≠[]

theorem supplied_edit (r : Request) : Supplied (t.edit circuit r) circuit r := by
  constructor
  · intro hlinks p hp
    rw [PathTable.edit,row_editPath_other circuit .backup (by simp)] at hp
    exact liveOnes_editPath circuit .primary hlinks (by simp) hp
  · intro hlinks htype p hp
    exact liveOnes_editPath circuit .backup hlinks (fun h => htype h.2) hp

theorem supplied_provision (r : Request) (hnew : ∀ p∈t.rows,p.circuit≠circuit) :
    Supplied (t.provision circuit r) circuit r := by
  obtain ⟨x,hrow⟩ := row_provision r hnew
  constructor
  · intro hlinks p hp
    rw [hrow,setRow_apply,if_neg (by simp),setRow_apply,if_pos ⟨rfl,rfl⟩,if_neg hlinks] at hp
    cases hp
    simp [Path.liveOnes]
  · intro hlinks htype p hp
    rw [hrow,setRow_apply,if_pos ⟨rfl,rfl⟩,if_neg (not_or.mpr ⟨hlinks,htype⟩)] at hp
    cases hp
    simp [Path.liveOnes]

end Operations

end PathTable

namespace Store

variable {s s' : Store} {x circuit : Nat}

theorem changePath_instantiated (h : s.paths.Instantiated x) (hs : s.changePath circuit=some s') :
    s'.paths.Instantiated x := by
  obtain ⟨old,new,-,-,rfl⟩ := changePath_cases hs
  have hparked : (s.paths.modify old.id (·.close.instantiate .available)).Instantiated x :=
    h.modify old.id _ fun p _ => liveOnes_instantiate_ne_nil _ _
  exact hparked.modify new.id (f := Path.switchLive fun _ => .active) (fun _ => rfl)
    fun p hp => liveOnes_switchLive_ne_nil _ hp

theorem changeActivePath_instantiated {new : PathType} (h : s.paths.Instantiated x)
    (hs : s.changeActivePath circuit new=some s') : s'.paths.Instantiated x := by
  unfold changeActivePath at hs
  dsimp only at hs
  split_ifs at hs
  · cases hs
    exact h
  split at hs
  · cases hs
    refine (h.modify _ (settle_key _) ?_).modify _ (settle_key _) ?_
    all_goals exact fun p _ => liveOnes_restate_ne_nil _ _
  · cases hs

end Store

end OESS.Paths
