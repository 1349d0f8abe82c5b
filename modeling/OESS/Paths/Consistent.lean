import OESS.Paths.Agreement
import OESS.Framework.Runs

namespace OESS.Paths

open OESS.OpenFlow (PathType CircuitState)
open OESS.Master (Circuit CircuitType PathState)
open OESS.Runs Option Function PathTable Store Path

variable (s : Store)

/-- Nothing to do, a failure, or the new path is instantiated. -/
def Ready (circuit : Nat) (new : PathType) : Prop :=
  (s.memory circuit).activePath=new∨s.paths.row circuit (s.memory circuit).activePath=none∨
  s.circuitState circuit≠some .active∨
  ∀ p∈s.paths.row circuit new,∀ i∈p.current,i.live=true∧i.state≠.decom
  deriving Decidable

/-- The selected path is ready, or created. -/
def MplsReady (circuit : Nat) (links : List Nat) : Prop :=
  let c := s.memory circuit
  if (!c.links.isEmpty && Store.compareLinks c.links links)=true then Ready s circuit .primary
  else if (!c.backupLinks.isEmpty && Store.compareLinks c.backupLinks links)=true then
    Ready s circuit .backup
  else if ((s.paths.row circuit .tertiary).any (!·.liveOnes.isEmpty))=true then
    Ready s circuit .tertiary
  else c.activePath=.tertiary → s.paths.row circuit .tertiary=none
  deriving Decidable

/-- The state is active for the path in memory, else inactive. -/
def Suits (p : Path) (state : PathState) : Prop :=
  if state=.active then p.type=(s.memory p.circuit).activePath
  else s.circuitState p.circuit=some .active → p.type≠(s.memory p.circuit).activePath
  deriving Decidable

/-- The path row is in the state of the instantiation. -/
def EditFits (row : Option Path) (type : PathType) (links : List Nat) (circuitType : CircuitType) :
    Prop :=
  links≠[] →
    if type=.backup∧circuitType=.mpls then ∀ p∈row,p.state=.decom
    else match row with
      | none => type≠.backup
      | some p => p.state=PathTable.editState type

def TertiaryActive (circuit : Nat) : Prop :=
  ∃ p∈s.paths.row circuit .tertiary,p.Active
  deriving Decidable

structure EditReady (s : Store) (circuit : Nat) (r : Request) : Prop where
  primary : EditFits (s.paths.row circuit .primary) .primary r.links r.type
  backup : EditFits (s.paths.row circuit .backup) .backup r.backupLinks r.type
  tertiary : TertiaryActive s circuit → r.links=[]
  running : r.state=.active → r.links≠[]∨TertiaryActive s circuit

def Aligned : Event → Prop
  | .changePath circuit =>
    (s.memory circuit).type≠.openflow∨(s.memory circuit).hasBackupPath=false∨
    s.paths.pathIn circuit .active=none∨s.paths.pathIn circuit .available=none∨
    s.circuitState circuit=none
  | .changeActivePath circuit new => Ready s circuit new
  | .updateMplsPath circuit links =>
    links=[]∨(s.memory circuit).type≠.mpls∨MplsReady s circuit links
  | .setPathState path state => ∀ p∈s.paths.rows,p.id=path → Suits s p state
  | .updatePath path state => ∀ p∈s.paths.rows,p.id=path → Suits s p state
  | .updateCircuitPathState circuit old new =>
    old=new∨∀ p∈s.paths.rows,p.circuit=circuit → p.inState old=false
  | .provisionCircuit _ r => r.completes=true → r.state=.active → r.links≠[]
  | .editCircuit circuit r _ => r.scheduled=true∨r.completes=false∨EditReady s circuit r
  | .createPath circuit type =>
    type=(s.memory circuit).activePath∧∀ p∈s.paths.row circuit type,p.state=.active
  | .create circuit type state =>
    s.paths.row circuit type≠none∨(state=.active → type=(s.memory circuit).activePath)

variable (circuit : Nat)

instance : (row : Option Path) → (type : PathType) → (links : List Nat) →
    (circuitType : CircuitType) → Decidable (EditFits row type links circuitType)
  | none,_,_,_ => inferInstanceAs (Decidable (_ → ite _ _ (_≠_)))
  | some _,_,_,_ => inferInstanceAs (Decidable (_ → ite _ _ (_=_)))

instance (r : Request) : Decidable (EditReady s circuit r) :=
  decidable_of_iff (EditFits (s.paths.row circuit .primary) .primary r.links r.type∧
      EditFits (s.paths.row circuit .backup) .backup r.backupLinks r.type∧
      (TertiaryActive s circuit → r.links=[])∧
      (r.state=.active → r.links≠[]∨TertiaryActive s circuit))
    ⟨fun h => ⟨h.1,h.2.1,h.2.2.1,h.2.2.2⟩,fun h => ⟨h.primary,h.backup,h.tertiary,h.running⟩⟩

instance : (e : Event) → Decidable (Aligned s e)
  | .changePath _ => inferInstanceAs (Decidable (_∨_))
  | .changeActivePath _ _ => inferInstanceAs (Decidable (Ready _ _ _))
  | .updateMplsPath _ _ => inferInstanceAs (Decidable (_∨_))
  | .setPathState path state | .updatePath path state =>
    inferInstanceAs (Decidable (∀ p∈s.paths.rows,p.id=path → Suits s p state))
  | .updateCircuitPathState _ _ _ => inferInstanceAs (Decidable (_∨_))
  | .provisionCircuit _ r =>
    inferInstanceAs (Decidable (r.completes=true → r.state=.active → r.links≠[]))
  | .editCircuit _ _ _ => inferInstanceAs (Decidable (_∨_))
  | .createPath _ _ => inferInstanceAs (Decidable (_∧_))
  | .create _ _ _ => inferInstanceAs (Decidable (_∨_))

section Steps

variable {s : Store} {circuit : Nat} {type new : PathType}

variable {paths t : PathTable} {links tertiaryLinks : List Nat} {state : PathState} {r : Request}
  {circuitType : CircuitType}

theorem Good.setRow (hs : Good s) {p : Path}
    (hpaths : paths.row=PathTable.setRow s.paths.row circuit type (some p)) (hsound : p.Sound)
    (honly : p.Active → type=(s.memory circuit).activePath)
    (hruns : s.circuitState circuit=some .active → type=(s.memory circuit).activePath → p.Active) :
    Good {s with paths} := by
  have hsame : SameBut circuit s {s with paths} := by
    refine ⟨?_,fun _ _ => rfl,fun _ _ => rfl⟩
    intro k hk
    rw [hpaths]
    exact setRow_other hk type (some p)
  apply hs.of_sameBut hsame
  have hrow : paths.row circuit=update (s.paths.row circuit) type (some p) := by
    rw [hpaths,setRow_same]
  rw [hrow]
  exact (hs circuit).update hsound honly hruns

theorem changePath_refused (h : Aligned s (.changePath circuit)) : s.changePath circuit=none := by
  unfold Store.changePath
  obtain h | h | h | h | h := h
  · simp [h]
  · simp [h]
  · simp [h]
  · rw [h]
    simp only
    split_ifs
    · rfl
    · rfl
    · cases s.paths.pathIn circuit .active <;> rfl
  · rw [h]
    simp only [isNone_none]
    split_ifs
    · rfl
    · rfl
    · cases s.paths.pathIn circuit .active with
      | none => rfl
      | some old => cases s.paths.pathIn circuit .available <;> rfl

theorem changeActivePath_cases {s' : Store} (hne : (s.memory circuit).activePath≠new)
    (h : s.changeActivePath circuit new=some s') :
    ∃ cur next,s.paths.row circuit (s.memory circuit).activePath=some cur∧
      s.paths.row circuit new=some next∧
      s'.paths.row=PathTable.setRow (PathTable.setRow s.paths.row circuit
        (s.memory circuit).activePath (some (cur.settle .available))) circuit new
        (some (next.settle .active))∧
      s'.memory=update s.memory circuit {s.memory circuit with activePath := new}∧
      s'.circuitState=s.circuitState := by
  unfold Store.changeActivePath at h
  rw [if_neg hne] at h
  split at h
  case h_2 => cases h
  case h_1 cur next hcur hnext =>
    cases h
    refine ⟨cur,next,hcur,hnext,?_,rfl,rfl⟩
    have hparked := row_modify hcur (Path.settle .available) (settle_key .available)
    have hnext' : (s.paths.modify cur.id (Path.settle .available)
        (settle_key .available)).row circuit new=some next := by
      rw [hparked,setRow_same,update_of_ne (Ne.symm hne),hnext]
    have hmoved := row_modify hnext' (Path.settle .active) (settle_key .active)
    rwa [hparked] at hmoved

theorem changeActivePath_good {s₀ s' : Store} (hs : Good s₀) (hsame : SameBut circuit s₀ s)
    (hothers : ∀ type≠new,s.paths.row circuit type=s₀.paths.row circuit type)
    (hmemory : (s.memory circuit).activePath=(s₀.memory circuit).activePath)
    (hready : s.circuitState circuit=some .active →
      ∀ p∈s.paths.row circuit new,∀ i∈p.current,i.live=true∧i.state≠.decom)
    (hne : (s.memory circuit).activePath≠new) (h : s.changeActivePath circuit new=some s') :
    Good s' := by
  obtain ⟨cur,next,-,hnext,hrow,hmem,hstate⟩ := changeActivePath_cases hne h
  have hsame' : SameBut circuit s₀ s' := by
    refine ⟨?_,?_,?_⟩
    · intro k hk
      rw [hrow,setRow_other hk,setRow_other hk,hsame.row k hk]
    · intro k hk
      rw [hmem,update_of_ne hk,hsame.activePath k hk]
    · intro k hk
      rw [hstate,hsame.state k hk]
  apply hs.of_sameBut hsame'
  rw [hrow,hmem,hstate,setRow_same,setRow_same,update_self]
  apply agrees_move
  · intro type p htype hp
    rw [hothers type htype] at hp
    exact (hs circuit).sound type p hp
  · intro type p htype hp hactive
    rw [hothers type htype] at hp
    rw [hmemory]
    exact (hs circuit).only type p hp hactive
  · exact sound_settle _ _
  · exact not_active_parked cur
  · exact sound_settle _ _
  · intro hrunning
    rw [Path.settle,active_restate]
    exact nextState_of_ready (hready hrunning next hnext)

section

variable (hs : Good s)
include hs

theorem Good.changeActivePath (hready : Ready s circuit new) :
    Good ((s.changeActivePath circuit new).getD s) := by
  by_cases hne : (s.memory circuit).activePath=new
  · have hsame : s.changeActivePath circuit new=some s := by rw [Store.changeActivePath,if_pos hne]
    rwa [hsame]
  · cases h : s.changeActivePath circuit new with
    | none => exact hs
    | some s' =>
      refine changeActivePath_good hs ⟨fun _ _ => rfl,fun _ _ => rfl,fun _ _ => rfl⟩
        (fun _ _ => rfl) rfl ?_ hne h
      intro hrunning
      obtain ⟨cur,next,hcur,-⟩ := changeActivePath_cases hne h
      obtain hready | hready | hready | hready := hready
      · exact absurd hready hne
      · rw [hcur] at hready
        cases hready
      · exact absurd hrunning hready
      · exact hready

theorem Good.createTertiary (hnone : (s.memory circuit).activePath=.tertiary → s.paths.row circuit .tertiary=none) :
    Good ((Store.changeActivePath {s with paths := s.paths.createPath circuit .tertiary} circuit
      .tertiary).getD s) := by
  obtain ⟨q,hrow,hlive,hcurrent,hstate⟩ :=
    row_createPath s.paths circuit .tertiary
  by_cases hne : (s.memory circuit).activePath=.tertiary
  · have hsame : Store.changeActivePath {s with paths := s.paths.createPath circuit .tertiary} circuit
        .tertiary=some {s with paths := s.paths.createPath circuit .tertiary} := by
      rw [Store.changeActivePath,if_pos hne]
    rw [hsame]
    rw [hnone hne] at hstate
    refine hs.setRow hrow (sound_of_single hlive hstate) (fun _ => hne.symm) ?_
    intro _ _
    exact (active_of_single hlive).mpr rfl
  · cases h : Store.changeActivePath {s with paths := s.paths.createPath circuit .tertiary} circuit
        .tertiary with
    | none => exact hs
    | some s' =>
      apply changeActivePath_good (s := {s with paths := s.paths.createPath circuit .tertiary}) hs
        ⟨?_,fun _ _ => rfl,fun _ _ => rfl⟩ ?_ rfl ?_ hne h
      · intro k hk
        exact hrow ▸ setRow_other hk _ _
      · intro type htype
        rw [hrow,setRow_same,update_of_ne htype]
      · intro _ p hp i hi
        have hq : (s.paths.createPath circuit .tertiary).row circuit .tertiary=some q := by
          rw [hrow,setRow_same,update_self]
        have hpq : p=q := some.inj ((mem_def.mp hp).symm.trans hq)
        rw [hpq,hcurrent] at hi
        cases hi
        exact ⟨rfl,PathState.noConfusion⟩

theorem Good.updateMplsPath (h : Aligned s (.updateMplsPath circuit links)) :
    Good ((s.updateMplsPath circuit links).getD s) := by
  unfold Store.updateMplsPath
  dsimp only
  split_ifs with hlinks htype hprimary hbackup htertiary
  · exact hs
  · exact hs
  all_goals
    have hready : MplsReady s circuit links := (h.resolve_left hlinks).resolve_left htype
    unfold MplsReady at hready
  · rw [if_pos hprimary] at hready
    exact hs.changeActivePath hready
  · rw [if_neg hprimary,if_pos hbackup] at hready
    exact hs.changeActivePath hready
  · rw [if_neg hprimary,if_neg hbackup,if_pos htertiary] at hready
    exact hs.changeActivePath hready
  · rw [if_neg hprimary,if_neg hbackup,if_neg htertiary] at hready
    have hpath : ∀ k,((s.remember circuit {s.memory circuit with tertiaryLinks := links}).memory
        k).activePath=(s.memory k).activePath := by
      intro k
      by_cases hk : k=circuit
      · rw [hk,remember_same]
      · rw [remember_other s _ hk]
    have hknown : Good (s.remember circuit {s.memory circuit with tertiaryLinks := links}) := by
      intro k
      rw [hpath k]
      exact hs k
    apply hknown.createTertiary
    rwa [hpath circuit]

theorem Good.restate {x : Nat} (h : ∀ p∈s.paths.rows,p.id=x → Suits s p state) :
    Good {s with paths := s.paths.modify x (Path.restate state)} := by
  obtain hrow | ⟨p,hp,hid,hrow⟩ :=
    row_modify_cases x (Path.restate state) fun _ => rfl
  · intro k
    rw [hrow]
    exact hs k
  have hsuits := h p hp hid
  unfold Suits at hsuits
  apply hs.setRow hrow sound_restate
  · intro hactive
    rwa [if_pos (active_restate.mp hactive)] at hsuits
  · intro hrunning htype
    by_contra hidle
    rw [active_restate] at hidle
    rw [if_neg hidle] at hsuits
    exact hsuits hrunning htype

theorem Good.updateCircuitPathState {old new : PathState}
    (h : Aligned s (.updateCircuitPathState circuit old new)) :
    Good {s with paths := s.paths.updateCircuitPathState circuit old new} := by
  have hsame : ∀ p∈s.paths.rows,(if p.circuit=circuit then
      p.switchLive fun state => if state=old then new else state else p)=p := by
    intro p hp
    split_ifs with hcircuit
    · apply switchLive_eq_self
      intro i hi
      split_ifs with hstate
      · obtain h | h := h
        · rw [hstate,h]
        · have hin : p.inState old=true := inState_iff.mpr ⟨i,hi,hstate⟩
          rw [h p hp hcircuit] at hin
          cases hin
      · rfl
    · rfl
  have hrow : (s.paths.updateCircuitPathState circuit old new).row=s.paths.row := by
    funext k type
    rw [PathTable.updateCircuitPathState,row_mapRows]
    cases hp : s.paths.row k type with
    | none => rfl
    | some p => exact congrArg some (hsame p (row_spec hp).1)
  intro k
  rw [hrow]
  exact hs k

theorem Good.createPath (h : Aligned s (.createPath circuit type)) :
    Good {s with paths := s.paths.createPath circuit type} := by
  obtain ⟨q,hrow,hlive,-,hstate⟩ := row_createPath s.paths circuit type
  have hactive : q.state=.active := by
    rw [hstate]
    cases hp : s.paths.row circuit type with
    | none => rfl
    | some p => exact h.2 p hp
  apply hs.setRow hrow (sound_of_single hlive hactive) fun _ => h.1
  intro _ _
  exact (active_of_single hlive).mpr rfl

theorem Good.create (h : Aligned s (.create circuit type state)) :
    Good {s with paths := s.paths.create circuit type state} := by
  cases hp : s.paths.row circuit type with
  | some p =>
    rwa [create_of_some state hp]
  | none =>
    have honly := h.resolve_left fun hne => hne hp
    apply hs.setRow (row_create state hp) (sound_of_single rfl rfl)
    · intro hactive
      exact honly ((active_of_single rfl).mp hactive)
    · intro hrunning htype
      obtain ⟨p,hrow,-⟩ := (hs circuit).runs hrunning
      rw [← htype,hp] at hrow
      cases hrow

theorem Good.load (hothers : ∀ k≠circuit,paths.row k=s.paths.row k)
    (hsound : ∀ type p,paths.row circuit type=some p → p.Sound)
    (hone : ∀ type p type' p',paths.row circuit type=some p → p.Active →
      paths.row circuit type'=some p' → p'.Active → type=type')
    (hruns : r.state=.active → ∃ type p,paths.row circuit type=some p∧p.Active) :
    Good (s.load circuit r paths tertiaryLinks) := by
  have hsame : SameBut circuit s (s.load circuit r paths tertiaryLinks) := by
    refine ⟨hothers,?_,?_⟩
    · intro k hk
      rw [Store.load,remember_other _ _ hk]
    · intro k hk
      exact update_of_ne hk ..
  apply hs.of_sameBut hsame
  rw [Store.load,remember_same]
  apply agrees_load hsound hone
  intro hrunning
  have hstate : update s.circuitState circuit (some r.state) circuit=some .active := hrunning
  rw [update_self] at hstate
  exact hruns (some.inj hstate)

end

theorem editState_spec {q : Path}
    (hlive : q.liveOnes=[⟨PathTable.editState type,true⟩])
    (hstate : q.state=PathTable.editState type) : q.Sound∧(q.Active ↔ type≠.backup) := by
  refine ⟨sound_of_single hlive hstate,?_⟩
  rw [active_of_single hlive]
  cases type <;> simp [PathTable.editState]

theorem row_editPath (hclosed : ∀ p,t.row circuit type=some p → p.liveOnes=[])
    (hfits : EditFits (t.row circuit type) type links circuitType) :
    ∃ r,(t.editPath circuit type links circuitType).row=PathTable.setRow t.row circuit type r∧
      (∀ q,r=some q → q.Sound∧(q.Active → links≠[]∧type≠.backup))∧
      (links≠[] → type≠.backup → ∃ q,r=some q∧q.Active) := by
  unfold PathTable.editPath
  split_ifs with hlinks hskip
  · cases hp : t.row circuit type with
    | none =>
      refine ⟨none,?_,by simp,fun hne => absurd hlinks hne⟩
      dsimp only
      rw [← hp,setRow_self]
    | some p =>
      refine ⟨_,row_modify hp _ _,?_,fun hne => absurd hlinks hne⟩
      rintro q ⟨⟩
      refine ⟨sound_restate,?_⟩
      intro hactive
      cases active_restate.mp hactive
  · have hdecom := hfits hlinks
    rw [if_pos hskip] at hdecom
    refine ⟨t.row circuit type,by rw [setRow_self],?_,fun _ hne => absurd hskip.1 hne⟩
    intro q hq
    refine ⟨sound_of_closed (hclosed q hq) (hdecom q hq),?_⟩
    intro hactive
    exact absurd hactive (not_active_of_closed (hclosed q hq))
  · have hstate := hfits hlinks
    rw [if_neg hskip] at hstate
    split
    case h_1 h =>
      have hactive : PathState.active=PathTable.editState type := by
        cases type <;> simp_all [PathTable.editState]
      obtain ⟨hsound,hruns⟩ := editState_spec (q :=
        ⟨t.nextId,circuit,type,.active,[⟨PathTable.editState type,true⟩]⟩) rfl hactive
      refine ⟨_,row_insert h,?_,fun _ hne => ⟨_,rfl,hruns.mpr hne⟩⟩
      rintro q ⟨⟩
      exact ⟨hsound,fun hq => ⟨hlinks,hruns.mp hq⟩⟩
    case h_2 p h =>
      rw [h] at hstate
      have hlive : (p.instantiate (PathTable.editState type)).liveOnes=
          [⟨PathTable.editState type,true⟩] := by
        rw [liveOnes_instantiate,hclosed p h,List.nil_append]
      obtain ⟨hsound,hruns⟩ := editState_spec hlive hstate
      refine ⟨_,row_modify h _ _,?_,fun _ hne => ⟨_,rfl,hruns.mpr hne⟩⟩
      rintro q ⟨⟩
      exact ⟨hsound,fun hq => ⟨hlinks,hruns.mp hq⟩⟩

theorem EditFits.close {row : Option Path} (h : EditFits row type links circuitType) :
    EditFits (row.map Path.close) type links circuitType := by
  cases row with
  | none => exact h
  | some p =>
    intro hlinks
    have hstate := h hlinks
    split_ifs at hstate ⊢
    · rintro q ⟨⟩
      exact hstate p rfl
    · exact hstate

structure Edited (t t' : PathTable) (circuit : Nat) (r : Request) : Prop where
  others : ∀ k≠circuit,t'.row k=t.row k
  primary : ∀ p,t'.row circuit .primary=some p → p.Sound∧(p.Active → r.links≠[])
  backup : ∀ p,t'.row circuit .backup=some p → p.Sound∧¬p.Active
  tertiary : t'.row circuit .tertiary=t.row circuit .tertiary
  linked : r.links≠[] → ∃ p,t'.row circuit .primary=some p∧p.Active

theorem edited_of_rows {t' : PathTable} {rows : Nat → PathType → Option Path} {r₁ r₂ : Option Path}
    (hrows : ∀ k type,k≠circuit∨type=.tertiary → rows k type=t.row k type)
    (ht' : t'.row=PathTable.setRow (PathTable.setRow rows circuit .primary r₁) circuit .backup r₂)
    (hprimary : ∀ p,r₁=some p → p.Sound∧(p.Active → r.links≠[]))
    (hbackup : ∀ p,r₂=some p → p.Sound∧¬p.Active) (hlinked : r.links≠[] → ∃ p,r₁=some p∧p.Active) :
    Edited t t' circuit r := by
  have hat₁ : t'.row circuit .primary=r₁ := by simp [ht']
  have hat₂ : t'.row circuit .backup=r₂ := by simp [ht']
  have hother : ∀ k type,k≠circuit∨type=.tertiary → t'.row k type=t.row k type := by
    intro k type h
    rw [ht',setRow_apply,setRow_apply]
    obtain h | rfl := h <;> simp [*]
  refine ⟨?_,?_,?_,hother circuit .tertiary (.inr rfl),?_⟩
  · intro k hk
    exact funext fun type => hother k type (.inl hk)
  · rwa [hat₁]
  · rwa [hat₂]
  · rwa [hat₁]

theorem edited_edit (hprimary : EditFits (t.row circuit .primary) .primary r.links r.type)
    (hbackup : EditFits (t.row circuit .backup) .backup r.backupLinks r.type) :
    Edited t (t.edit circuit r) circuit r := by
  have hclose : ∀ type≠.tertiary,
      (t.closeManual circuit).row circuit type=(t.row circuit type).map Path.close := by
    intro type htype
    rw [row_closeManual]
    simp [htype]
  have hclosed : ∀ type,∀ p,(t.row circuit type).map Path.close=some p → p.liveOnes=[] := by
    intro type p hp
    obtain ⟨q,-,rfl⟩ := map_eq_some_iff.mp hp
    exact liveOnes_close
  have hrow₁ := hclose .primary (by decide)
  obtain ⟨r₁,hpaths₁,hsound₁,hlinked⟩ := row_editPath (hrow₁ ▸ hclosed .primary)
    (hrow₁ ▸ hprimary.close)
  -- the backup path is edited in the table that the primary path was edited in
  have hrow₂ : ((t.closeManual circuit).editPath circuit .primary r.links r.type).row circuit
      .backup=(t.row circuit .backup).map Path.close := by
    rw [hpaths₁,setRow_same,update_of_ne (by decide),hclose .backup (by decide)]
  obtain ⟨r₂,hpaths₂,hsound₂,-⟩ := row_editPath (hrow₂ ▸ hclosed .backup) (hrow₂ ▸ hbackup.close)
  rw [hpaths₁] at hpaths₂
  refine edited_of_rows ?_ hpaths₂ ?_ ?_ fun hlinks => hlinked hlinks (by decide)
  · intro k type h
    rw [row_closeManual]
    obtain h | rfl := h <;> simp [*]
  · intro p hp
    obtain ⟨hsound,hactive⟩ := hsound₁ p hp
    exact ⟨hsound,fun h => (hactive h).1⟩
  · intro p hp
    obtain ⟨hsound,hactive⟩ := hsound₂ p hp
    exact ⟨hsound,fun h => (hactive h).2 rfl⟩

theorem edited_provision (r : Request) (hnew : ∀ p∈t.rows,p.circuit≠circuit) :
    Edited t (t.provision circuit r) circuit r := by
  obtain ⟨x,hpaths⟩ := row_provision r hnew
  refine edited_of_rows (fun _ _ _ => rfl) hpaths ?_ ?_ ?_
  · intro p hp
    obtain ⟨hlinks,⟨⟩⟩ := ite_none_left_eq_some.mp hp
    exact ⟨sound_of_single rfl rfl,fun _ => hlinks⟩
  · intro p hp
    obtain ⟨-,⟨⟩⟩ := ite_none_left_eq_some.mp hp
    refine ⟨sound_of_single rfl rfl,?_⟩
    rw [active_of_single rfl]
    exact PathState.noConfusion
  · intro hlinks
    exact ⟨_,if_neg hlinks,(active_of_single rfl).mpr rfl⟩

theorem Good.load_edited (hs : Good s) (he : Edited s.paths paths circuit r)
    (htertiary : TertiaryActive s circuit → r.links=[])
    (hruns : r.state=.active → r.links≠[]∨TertiaryActive s circuit) :
    Good (s.load circuit r paths tertiaryLinks) := by
  have hactive : ∀ type p,paths.row circuit type=some p → p.Active →
      type=.primary∧r.links≠[]∨type=.tertiary∧TertiaryActive s circuit := by
    intro type p hp hactive
    cases type with
    | primary => exact .inl ⟨rfl,(he.primary p hp).2 hactive⟩
    | backup => exact absurd hactive (he.backup p hp).2
    | tertiary => exact .inr ⟨rfl,p,he.tertiary ▸ hp,hactive⟩
  apply hs.load he.others
  · intro type p hp
    cases type with
    | primary => exact (he.primary p hp).1
    | backup => exact (he.backup p hp).1
    | tertiary => exact (hs circuit).sound .tertiary p (he.tertiary ▸ hp)
  · intro type p type' p' hp hpa hp' hpa'
    obtain ⟨rfl,hlinks⟩ | ⟨rfl,hter⟩ := hactive type p hp hpa
    · obtain ⟨rfl,-⟩ | ⟨-,hter⟩ := hactive type' p' hp' hpa'
      · rfl
      · exact absurd (htertiary hter) hlinks
    · obtain ⟨-,hlinks⟩ | ⟨rfl,-⟩ := hactive type' p' hp' hpa'
      · exact absurd (htertiary hter) hlinks
      · rfl
  · intro hstate
    obtain hlinks | ⟨p,hp,hpa⟩ := hruns hstate
    · obtain ⟨q,hq,hqa⟩ := he.linked hlinks
      exact ⟨.primary,q,hq,hqa⟩
    · exact ⟨.tertiary,p,he.tertiary.trans hp,hpa⟩

theorem Good.editCircuit (hs : Good s) (h : Aligned s (.editCircuit circuit r tertiaryLinks)) :
    Good ((s.editCircuit circuit r tertiaryLinks).getD s) := by
  unfold Store.editCircuit
  split_ifs with hskip
  · exact hs
  · obtain ⟨hscheduled,hcompletes⟩ := not_or.mp hskip
    have hready := (h.resolve_left hscheduled).resolve_left hcompletes
    exact hs.load_edited (edited_edit hready.primary hready.backup) hready.tertiary hready.running

theorem Good.provisionCircuit (hs : Good s) (h : Aligned s (.provisionCircuit circuit r)) :
    Good ((s.provisionCircuit circuit r).getD s) := by
  unfold Store.provisionCircuit
  split_ifs with hskip
  · exact hs
  obtain ⟨-,hskip⟩ := not_or.mp hskip
  obtain ⟨hnew,hcompletes⟩ := not_or.mp hskip
  have hnew : ∀ p∈s.paths.rows,p.circuit≠circuit := fun p hp hc => hnew ⟨p,hp,hc⟩
  apply hs.load_edited (edited_provision r hnew)
  · rintro ⟨p,hp,-⟩
    obtain ⟨hmem,hcircuit,-⟩ := row_spec hp
    exact absurd hcircuit (hnew p hmem)
  · intro hstate
    exact .inl (h (Bool.not_eq_false _ ▸ hcompletes) hstate)

theorem good_step {e : Event} (hs : Good s) (h : Aligned s e) : Good (s.step e) := by
  cases e with
  | changePath circuit =>
    rwa [Store.step,changePath_refused h]
  | changeActivePath circuit new => exact hs.changeActivePath h
  | updateMplsPath circuit links => exact hs.updateMplsPath h
  | setPathState path state | updatePath path state => exact hs.restate h
  | updateCircuitPathState circuit old new => exact hs.updateCircuitPathState h
  | provisionCircuit circuit r => exact hs.provisionCircuit h
  | editCircuit circuit r tertiaryLinks => exact hs.editCircuit h
  | createPath circuit type => exact hs.createPath h
  | create circuit type state => exact hs.create h

end Steps

/-- The copies of the state agree in every run whose steps write them alike. -/
theorem paths_consistent {s : Store} {events : List Event} (hs : ∀ circuit,Consistent s circuit)
    (hevents : StepsOk Store.step Aligned s events) :
    Always Store.step (fun s => ∀ circuit,Consistent s circuit) s events := by
  have hgood : Good s := fun circuit => consistent_iff_agrees.mp (hs circuit)
  have halways := always_of_step (fun _ _ => good_step) hgood hevents
  exact halways.mono fun _ h circuit => consistent_iff_agrees.mpr (h circuit)

theorem consistent_empty (circuit : Nat) : Consistent Store.empty circuit where
  instantiated := by simp [Store.empty]
  oneActive := by simp [Store.empty]
  someActive := by simp [Store.empty]
  inMemory := by simp [Store.empty]

/-- A run to the path the network found and back. -/
def mplsRun : List Event :=
  [.provisionCircuit 1 ⟨[10],[],.mpls,.active,0,false,true⟩,.updateMplsPath 1 [20],
    .updateMplsPath 1 [10],.setPathState 1 .decom,
    .editCircuit 1 ⟨[10],[],.mpls,.active,0,false,true⟩ [20]]

theorem mplsRun_consistent : StepsOk Store.step Aligned Store.empty mplsRun∧
    Always Store.step (fun s => ∀ circuit,Consistent s circuit) Store.empty mplsRun := by
  have hrun : StepsOk Store.step Aligned Store.empty mplsRun :=
    ⟨by decide +kernel,by decide +kernel,by decide +kernel,by decide +kernel,by decide +kernel,
      trivial⟩
  exact ⟨hrun,paths_consistent consistent_empty hrun⟩

/-- After a fail over the old path's own state is still active, and its instantiation is not. -/
theorem changePath_leaves_state :
    ¬Always Store.step (fun s => ∀ circuit,Consistent s circuit) Store.empty
      [.provisionCircuit 1 ⟨[10],[20],.openflow,.active,0,false,true⟩,.changePath 1] := by
  intro h
  have hlast := h.2.2 1
  have hsound := hlast.instantiated
    ⟨0,1,.primary,.active,[⟨.active,false⟩,⟨.available,true⟩]⟩ (by decide +kernel) rfl
  obtain ⟨i,hi,hstate⟩ := hsound (.inl PathState.noConfusion)
  cases hi
  cases hstate

end OESS.Paths
