import OESS.OpenFlow.CircuitFlows
import Mathlib.Data.List.Nodup

namespace OESS.Master

open OpenFlow (PathType CircuitState)
open List

inductive LinkStatus where
  | down | up | unknown
  deriving DecidableEq

/-- In a condition of Perl only 0 is false. -/
def LinkStatus.truthy : LinkStatus → Bool
  | .down => false
  | .up | .unknown => true

/-- The status of a path, by the names of its links in order. -/
def getPathStatus (linkStatus : Nat → LinkStatus) : List Nat → LinkStatus
  | [] => .up
  | l::ls =>
    match linkStatus l with
    | .down => .down
    | .unknown => .unknown
    | .up => getPathStatus linkStatus ls

theorem getPathStatus_up (linkStatus : Nat → LinkStatus) (ls : List Nat) :
    getPathStatus linkStatus ls=.up ↔ ∀ l∈ls,linkStatus l=.up := by
  induction ls with
  | nil => simp [getPathStatus]
  | cons l ls ih =>
    cases h : linkStatus l <;> simp [getPathStatus,h,ih]

theorem getPathStatus_unknown {linkStatus : Nat → LinkStatus} {ls : List Nat}
    (h : getPathStatus linkStatus ls=.unknown) : ∃ l∈ls,linkStatus l=.unknown := by
  induction ls with
  | nil => simp [getPathStatus] at h
  | cons l ls ih =>
    cases hl : linkStatus l with
    | down => simp [getPathStatus,hl] at h
    | unknown => exact ⟨l,mem_cons_self,hl⟩
    | up =>
      simp only [getPathStatus,hl] at h
      obtain ⟨k,hk,hu⟩ := ih h
      exact ⟨k,mem_cons_of_mem l hk,hu⟩

theorem truthy_iff (s : LinkStatus) : s.truthy=true ↔ s=.up∨s=.unknown := by
  cases s <;> simp [LinkStatus.truthy]

inductive CircuitType where
  | openflow | mpls
  deriving DecidableEq

structure Circuit where
  circuitId : Nat
  type : CircuitType
  (links backupLinks tertiaryLinks : List Nat)
  activePath : PathType
  restoreToPrimary : Nat

namespace Circuit

variable (c : Circuit)

def getPath : PathType → List Nat
  | .backup => c.backupLinks
  | .tertiary => c.tertiaryLinks
  | .primary => c.links

def hasBackupPath : Bool := !c.backupLinks.isEmpty

/-- What both callers call the alternate path. -/
def alternatePath : PathType :=
  if c.activePath=.primary then .backup else .primary

def switched : Circuit := {c with activePath := c.alternatePath}

variable (c : Circuit)

@[simp]
theorem switched_circuitId : c.switched.circuitId=c.circuitId := rfl

@[simp]
theorem switched_type : c.switched.type=c.type := rfl

@[simp]
theorem switched_activePath : c.switched.activePath=c.alternatePath := rfl

@[simp]
theorem switched_getPath (p : PathType) : c.switched.getPath p=c.getPath p := by cases p <;> rfl

def activeLinks : List Nat := c.getPath c.activePath

def pathStatus (linkStatus : Nat → LinkStatus) (p : PathType) : LinkStatus :=
  getPathStatus linkStatus (c.getPath p)

theorem alternatePath_ne : c.alternatePath≠c.activePath := by
  unfold alternatePath
  split_ifs with h
  · rw [h]
    exact PathType.noConfusion
  · exact fun e => h e.symm

end Circuit

/-- `path_state` of a path's live instantiation. -/
inductive PathState where
  | active | available | deploying | decom
  deriving DecidableEq

structure PathRow where
  (pathId circuitId : Nat)
  pathType : PathType
  links : List Nat
  state : PathState

structure CircuitRow where
  circuitId : Nat
  type : CircuitType
  state : CircuitState

structure LinkRow where
  linkId : Nat
  (endA endZ : Nat×Nat)

/-- `restorations`: changes to the primary path scheduled. -/
structure Tables where
  circuits : List CircuitRow
  paths : List PathRow
  links : List LinkRow
  restorations : List Nat
  linkState : Nat → LinkStatus
  (operationalState adminState : Nat×Nat → LinkStatus)

namespace Tables

def setPathState (t : Tables) (pathId : Nat) (s : PathState) : Tables :=
  {t with paths := t.paths.map fun p => if p.pathId=pathId then {p with state := s} else p}

def pathIn (t : Tables) (circuitId : Nat) (s : PathState) : Option PathRow :=
  t.paths.find? fun p => p.circuitId=circuitId∧p.state=s

def activePath (t : Tables) (circuitId : Nat) : Option PathType :=
  (t.pathIn circuitId .active).map PathRow.pathType

end Tables

/-- The tables, and those a transaction started from. -/
structure Session where
  tables : Tables
  saved : Option Tables

namespace Session

def startTransaction (s : Session) : Session := {s with saved := some s.tables}

/-- Outside a transaction each statement is committed. -/
def rollback (s : Session) : Session :=
  match s.saved with
  | none => s
  | some t => ⟨t,none⟩

def commit (s : Session) : Session := {s with saved := none}

end Session

/-- `change_path` without a transaction of its own. -/
def changePath (c : Circuit) (s : Session) : Session×Option Circuit :=
  if c.type≠.openflow then (s,none)
  else if !c.hasBackupPath then (s,none)
  else
    match s.tables.pathIn c.circuitId .active with
    | none => (s.rollback,none)
    | some old =>
      let parked := s.tables.setPathState old.pathId .available
      match s.tables.pathIn c.circuitId .available with
      | none => (Session.rollback {s with tables := parked},none)
      | some new =>
        let moved : Session := {s with tables := parked.setPathState new.pathId .active}
        if s.tables.circuits.any fun r => r.circuitId=c.circuitId then
          (moved,some c.switched)
        else (moved.rollback,none)

/-- Ids are keys, and no path crosses a link twice. -/
structure Tables.Keyed (t : Tables) : Prop where
  circuitIds : (t.circuits.map CircuitRow.circuitId).Nodup
  pathIds : (t.paths.map PathRow.pathId).Nodup
  pathTypes : (t.paths.map fun p => (p.circuitId,p.pathType)).Nodup
  links : ∀ p∈t.paths,p.links.Nodup

/-- The database and the object in memory agree on a circuit. -/
structure Synced (t : Tables) (c : Circuit) : Prop where
  row : ∃ r∈t.circuits,r.circuitId=c.circuitId
  links : ∀ p∈t.paths,p.circuitId=c.circuitId → p.links=c.getPath p.pathType
  active : ∀ p∈t.paths,p.circuitId=c.circuitId → (p.state=.active ↔ p.pathType=c.activePath)
  onPath : ∃ p∈t.paths,p.circuitId=c.circuitId∧p.pathType=c.activePath
  twoPaths : c.type=.openflow → ∀ p∈t.paths,p.circuitId=c.circuitId →
    p.pathType≠.tertiary∧(p.state=.active∨p.state=.available)
  backup : c.type=.openflow → c.hasBackupPath=true →
    ∃ p∈t.paths,p.circuitId=c.circuitId∧p.pathType=c.alternatePath

variable {t : Tables} {c : Circuit}

theorem Tables.Keyed.congr {u : Tables} (h : t.Keyed) (hc : u.circuits=t.circuits)
    (hp : u.paths=t.paths) : u.Keyed := by
  obtain ⟨h1,h2,h3,h4⟩ := h
  rw [← hc] at h1
  rw [← hp] at h2 h3 h4
  exact ⟨h1,h2,h3,h4⟩

theorem Synced.congr {u : Tables} (h : Synced t c) (hc : u.circuits=t.circuits)
    (hp : u.paths=t.paths) : Synced u c := by
  obtain ⟨h1,h2,h3,h4,h5,h6⟩ := h
  rw [← hc] at h1
  rw [← hp] at h2 h3 h4 h5 h6
  exact ⟨h1,h2,h3,h4,h5,h6⟩

/-- The circuit is on path `dest`, its other paths wait. -/
def PathRow.switchTo (id : Nat) (dest : PathType) (p : PathRow) : PathRow :=
  if p.circuitId=id then {p with state := if p.pathType=dest then .active else .available} else p

def Tables.switchTo (t : Tables) (id : Nat) (dest : PathType) : Tables :=
  {t with paths := t.paths.map (PathRow.switchTo id dest)}

variable (id : Nat) (dest : PathType) (p : PathRow)

@[simp]
theorem switchTo_pathId : (p.switchTo id dest).pathId=p.pathId := by
  unfold PathRow.switchTo
  split_ifs <;> rfl

@[simp]
theorem switchTo_circuitId : (p.switchTo id dest).circuitId=p.circuitId := by
  unfold PathRow.switchTo
  split_ifs <;> rfl

@[simp]
theorem switchTo_pathType : (p.switchTo id dest).pathType=p.pathType := by
  unfold PathRow.switchTo
  split_ifs <;> rfl

@[simp]
theorem switchTo_links : (p.switchTo id dest).links=p.links := by
  unfold PathRow.switchTo
  split_ifs <;> rfl

theorem mem_switchTo (t : Tables) :
    p∈(t.switchTo id dest).paths ↔ ∃ q∈t.paths,q.switchTo id dest=p := mem_map

theorem Tables.Keyed.switchTo (h : t.Keyed) (id : Nat) (dest : PathType) :
    (t.switchTo id dest).Keyed := by
  refine ⟨h.circuitIds,?_,?_,?_⟩
  · simpa [Tables.switchTo,Function.comp_def] using h.pathIds
  · simpa [Tables.switchTo,Function.comp_def] using h.pathTypes
  · intro p hp
    obtain ⟨q,hq,rfl⟩ := (mem_switchTo id dest p t).mp hp
    simpa using h.links q hq

theorem Synced.switchTo_other (h : Synced t c) {id : Nat} (hid : c.circuitId≠id) (dest : PathType) :
    Synced (t.switchTo id dest) c := by
  have same : ∀ p : PathRow,p.circuitId=c.circuitId → p.switchTo id dest=p := by
    intro p hp
    rw [PathRow.switchTo,if_neg (hp ▸ hid)]
  have back : ∀ p∈(t.switchTo id dest).paths,p.circuitId=c.circuitId → p∈t.paths := by
    intro p hp hc
    obtain ⟨q,hq,rfl⟩ := (mem_switchTo id dest p t).mp hp
    rw [switchTo_circuitId] at hc
    rwa [same q hc]
  have forth : ∀ p∈t.paths,p.circuitId=c.circuitId → p∈(t.switchTo id dest).paths :=
    fun p hp hc => (mem_switchTo id dest p t).mpr ⟨p,hp,same p hc⟩
  refine ⟨h.row,fun p hp hc => h.links p (back p hp hc) hc,
    fun p hp hc => h.active p (back p hp hc) hc,?_,
    fun ho p hp hc => h.twoPaths ho p (back p hp hc) hc,?_⟩
  · obtain ⟨p,hp,hc,hty⟩ := h.onPath
    exact ⟨p,forth p hp hc,hc,hty⟩
  · intro ho hb
    obtain ⟨p,hp,hc,hty⟩ := h.backup ho hb
    exact ⟨p,forth p hp hc,hc,hty⟩

theorem Synced.switchTo_alternate (h : Synced t c) (ho : c.type=.openflow)
    (hb : c.hasBackupPath=true) : Synced (t.switchTo c.circuitId c.alternatePath) c.switched := by
  have hact : c.activePath≠.tertiary := by
    obtain ⟨p,hp,hc,hty⟩ := h.onPath
    exact hty ▸ (h.twoPaths ho p hp hc).1
  refine ⟨h.row,?_,?_,?_,?_,?_⟩
  · intro p hp hc
    obtain ⟨q,hq,rfl⟩ := (mem_switchTo _ _ p t).mp hp
    rw [switchTo_circuitId] at hc
    rw [switchTo_links,switchTo_pathType]
    exact h.links q hq hc
  · intro p hp hc
    obtain ⟨q,hq,rfl⟩ := (mem_switchTo _ _ p t).mp hp
    rw [switchTo_circuitId,Circuit.switched_circuitId] at hc
    rw [PathRow.switchTo]
    split_ifs with hty <;> simp [hty]
  · obtain ⟨p,hp,hc,hty⟩ := h.backup ho hb
    exact ⟨_,(mem_switchTo _ _ _ t).mpr ⟨p,hp,rfl⟩,by simpa using hc,by simpa using hty⟩
  · intro _ p hp hc
    obtain ⟨q,hq,rfl⟩ := (mem_switchTo _ _ p t).mp hp
    rw [switchTo_circuitId,Circuit.switched_circuitId] at hc
    refine ⟨by simpa using (h.twoPaths ho q hq hc).1,?_⟩
    rw [PathRow.switchTo]
    split_ifs <;> simp
  · intro _ _
    obtain ⟨p,hp,hc,hty⟩ := h.onPath
    refine ⟨_,(mem_switchTo _ _ _ t).mpr ⟨p,hp,rfl⟩,by simpa using hc,?_⟩
    cases hp : c.activePath <;> simp_all [Circuit.alternatePath]

theorem pathIn_eq {id : Nat} {s : PathState} {a : PathRow} (ha : a∈t.paths) (hc : a.circuitId=id)
    (hs : a.state=s) (hu : ∀ p∈t.paths,p.circuitId=id → p.state=s → p=a) :
    t.pathIn id s=some a := by
  have hsome : (t.pathIn id s).isSome := by
    rw [Tables.pathIn,find?_isSome]
    exact ⟨a,ha,by simp [hc,hs]⟩
  obtain ⟨p,hp⟩ := Option.isSome_iff_exists.mp hsome
  have hmem : p∈t.paths := mem_of_find?_eq_some hp
  have hkey := find?_some hp
  simp only [decide_eq_true_eq] at hkey
  rw [hp,hu p hmem hkey.1 hkey.2]

theorem Tables.Keyed.eq_of_pathId (h : t.Keyed) {p q : PathRow} (hp : p∈t.paths) (hq : q∈t.paths)
    (he : p.pathId=q.pathId) : p=q :=
  inj_on_of_nodup_map h.pathIds hp hq he

theorem Tables.Keyed.eq_of_pathType (h : t.Keyed) {p q : PathRow} (hp : p∈t.paths) (hq : q∈t.paths)
    (hc : p.circuitId=q.circuitId) (hty : p.pathType=q.pathType) : p=q :=
  inj_on_of_nodup_map h.pathTypes hp hq (by rw [hc,hty])

theorem Synced.tables_activePath (hk : t.Keyed) (h : Synced t c) :
    t.activePath c.circuitId=some c.activePath := by
  obtain ⟨p,hp,hc,hty⟩ := h.onPath
  have hfound : t.pathIn c.circuitId .active=some p := by
    refine pathIn_eq hp hc ((h.active p hp hc).mpr hty) fun q hq hqc hst => ?_
    exact hk.eq_of_pathType hq hp (hqc.trans hc.symm) (((h.active q hq hqc).mp hst).trans hty.symm)
  rw [Tables.activePath,hfound,Option.map_some,hty]

theorem changePath_eq {s : Session} (hk : s.tables.Keyed) (h : Synced s.tables c)
    (ho : c.type=.openflow) (hb : c.hasBackupPath=true) :
    changePath c s=({s with tables := s.tables.switchTo c.circuitId c.alternatePath},
      some c.switched) := by
  obtain ⟨a,ha,hac,haty⟩ := h.onPath
  obtain ⟨b,hb',hbc,hbty⟩ := h.backup ho hb
  have hastate : a.state=.active := (h.active a ha hac).mpr haty
  have hbstate : b.state=.available := by
    have hne : b.state≠.active := by
      rw [Ne,h.active b hb' hbc,hbty]
      exact c.alternatePath_ne
    exact ((h.twoPaths ho b hb' hbc).2).resolve_left hne
  have sorted : ∀ p∈s.tables.paths,p.circuitId=c.circuitId → p=a∨p=b := by
    intro p hp hc
    by_cases hty : p.pathType=c.activePath
    · exact .inl (hk.eq_of_pathType hp ha (hc.trans hac.symm) (hty.trans haty.symm))
    refine .inr (hk.eq_of_pathType hp hb' (hc.trans hbc.symm) ?_)
    have hp3 := (h.twoPaths ho p hp hc).1
    have ha3 := (h.twoPaths ho a ha hac).1
    rw [hbty,Circuit.alternatePath]
    cases hq : c.activePath <;> cases hr : p.pathType <;> simp_all
  have hold : s.tables.pathIn c.circuitId .active=some a := by
    refine pathIn_eq ha hac hastate fun p hp hc hst => ?_
    refine (sorted p hp hc).resolve_right fun he => ?_
    rw [he,hbstate] at hst
    cases hst
  have hnew : s.tables.pathIn c.circuitId .available=some b := by
    refine pathIn_eq hb' hbc hbstate fun p hp hc hst => ?_
    refine (sorted p hp hc).resolve_left fun he => ?_
    rw [he,hastate] at hst
    cases hst
  have hrow : (s.tables.circuits.any fun r => decide (r.circuitId=c.circuitId))=true := by
    obtain ⟨r,hr,hid⟩ := h.row
    exact any_eq_true.mpr ⟨r,hr,decide_eq_true hid⟩
  have hpaths : (s.tables.setPathState a.pathId .available).setPathState b.pathId .active=
      s.tables.switchTo c.circuitId c.alternatePath := by
    simp only [Tables.setPathState,map_map]
    congr 1
    refine map_congr_left fun p hp => ?_
    by_cases hc : p.circuitId=c.circuitId
    · have hab : a.pathId≠b.pathId := by
        intro he
        have := hk.eq_of_pathId ha hb' he
        rw [this,hbstate] at hastate
        cases hastate
      rcases sorted p hp hc with rfl | rfl
      · simp [PathRow.switchTo,hc,haty,hab,c.alternatePath_ne.symm]
      · simp [PathRow.switchTo,hc,hbty,hab.symm]
    · have hpa : p.pathId≠a.pathId := fun he => hc (hk.eq_of_pathId hp ha he ▸ hac)
      have hpb : p.pathId≠b.pathId := fun he => hc (hk.eq_of_pathId hp hb' he ▸ hbc)
      simp [PathRow.switchTo,hc,hpa,hpb]
  rw [changePath,if_neg (by simp [ho]),if_neg (by simp [hb]),hold,hnew]
  dsimp only
  rw [if_pos hrow,hpaths]

end OESS.Master
