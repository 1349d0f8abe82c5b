import OESS.Paths.Changes

namespace OESS.Paths

open OESS.OpenFlow (PathType CircuitState)
open OESS.Master (Circuit CircuitType PathState)
open Option Function PathTable

/-- Each path is sound, and the active one is the only one and the one in memory. -/
structure Consistent (s : Store) (circuit : Nat) : Prop where
  instantiated : ∀ p∈s.paths.rows,p.circuit=circuit → p.Sound
  oneActive : ∀ p∈s.paths.rows,∀ q∈s.paths.rows,p.circuit=circuit → q.circuit=circuit →
    p.Active → q.Active → p=q
  someActive : s.circuitState circuit=some .active → ∃ p∈s.paths.rows,p.circuit=circuit∧p.Active
  inMemory : ∀ p∈s.paths.rows,p.circuit=circuit → p.Active → (s.memory circuit).activePath=p.type

/-- The paths by type are as they should be, where `active` is the one in memory. -/
structure Agrees (paths : PathType → Option Path) (active : PathType) (running : Prop) : Prop where
  sound : ∀ type p,paths type=some p → p.Sound
  only : ∀ type p,paths type=some p → p.Active → type=active
  runs : running → ∃ p,paths active=some p∧p.Active

theorem consistent_iff_agrees {s : Store} {circuit : Nat} : Consistent s circuit ↔
    Agrees (s.paths.row circuit) (s.memory circuit).activePath
      (s.circuitState circuit=some .active) := by
  constructor
  · intro h
    have only : ∀ type p,s.paths.row circuit type=some p → p.Active →
        type=(s.memory circuit).activePath := by
      intro type p hp hactive
      obtain ⟨hmem,hcircuit,rfl⟩ := row_spec hp
      exact (h.inMemory p hmem hcircuit hactive).symm
    refine ⟨?_,only,?_⟩
    · intro type p hp
      obtain ⟨hmem,hcircuit,-⟩ := row_spec hp
      exact h.instantiated p hmem hcircuit
    · intro hrunning
      obtain ⟨p,hmem,rfl,hactive⟩ := h.someActive hrunning
      have hrow := row_of_mem hmem
      exact ⟨p,only p.type p hrow hactive ▸ hrow,hactive⟩
  · intro h
    have inMemory : ∀ p∈s.paths.rows,p.circuit=circuit → p.Active →
        s.paths.row circuit (s.memory circuit).activePath=some p := by
      rintro p hp rfl hactive
      have hrow := row_of_mem hp
      exact h.only p.type p hrow hactive ▸ hrow
    refine ⟨?_,?_,?_,?_⟩
    · rintro p hp rfl
      exact h.sound p.type p (row_of_mem hp)
    · intro p hp q hq hpc hqc hpa hqa
      exact some.inj ((inMemory p hp hpc hpa).symm.trans (inMemory q hq hqc hqa))
    · intro hrunning
      obtain ⟨p,hrow,hactive⟩ := h.runs hrunning
      obtain ⟨hmem,hcircuit,-⟩ := row_spec hrow
      exact ⟨p,hmem,hcircuit,hactive⟩
    · rintro p hp rfl hactive
      exact (h.only p.type p (row_of_mem hp) hactive).symm

variable {paths : PathType → Option Path} {active type new : PathType} {running : Prop} {p q : Path}

theorem update_some_cases {r : Option Path} (h : update paths type r new=some q) :
    new=type∧r=some q∨new≠type∧paths new=some q := by
  rw [update_apply] at h
  split_ifs at h with htype
  · exact .inl ⟨htype,h⟩
  · exact .inr ⟨htype,h⟩

theorem Agrees.update (h : Agrees paths active running) (hsound : p.Sound)
    (honly : p.Active → type=active) (hruns : running → type=active → p.Active) :
    Agrees (update paths type (some p)) active running := by
  refine ⟨?_,?_,?_⟩
  · intro type' p' hp'
    obtain ⟨-,hp⟩ | ⟨-,hp'⟩ := update_some_cases hp'
    · exact some.inj hp ▸ hsound
    · exact h.sound type' p' hp'
  · intro type' p' hp' hactive
    obtain ⟨htype,hp⟩ | ⟨-,hp'⟩ := update_some_cases hp'
    · exact htype.trans (honly (some.inj hp ▸ hactive))
    · exact h.only type' p' hp' hactive
  · intro hrunning
    by_cases htype : type=active
    · refine ⟨p,?_,hruns hrunning htype⟩
      rw [htype,update_self]
    · obtain ⟨p',hp',hactive⟩ := h.runs hrunning
      refine ⟨p',?_,hactive⟩
      rw [update_of_ne (Ne.symm htype),hp']

theorem agrees_move (hsound : ∀ type p,type≠new → paths type=some p → p.Sound)
    (honly : ∀ type p,type≠new → paths type=some p → p.Active → type=active)
    (hp : p.Sound) (hidle : ¬p.Active) (hq : q.Sound) (hruns : running → q.Active) :
    Agrees (update (update paths active (some p)) new (some q)) new running := by
  refine ⟨?_,?_,fun hrunning => ⟨q,update_self ..,hruns hrunning⟩⟩
  · intro type' p' hp'
    obtain ⟨-,hq'⟩ | ⟨hnew,hp'⟩ := update_some_cases hp'
    · exact some.inj hq' ▸ hq
    · obtain ⟨-,hp''⟩ | ⟨-,hp''⟩ := update_some_cases hp'
      · exact some.inj hp'' ▸ hp
      · exact hsound type' p' hnew hp''
  · intro type' p' hp' hactive
    obtain ⟨htype,-⟩ | ⟨hnew,hp'⟩ := update_some_cases hp'
    · exact htype
    · obtain ⟨-,hp''⟩ | ⟨hother,hp''⟩ := update_some_cases hp'
      · exact absurd (some.inj hp'' ▸ hactive) hidle
      · exact absurd (honly type' p' hnew hp'' hactive) hother

theorem agrees_load {t : PathTable} {circuit : Nat} {circuitType : CircuitType}
    (hsound : ∀ type p,t.row circuit type=some p → p.Sound)
    (hone : ∀ type p type' p',t.row circuit type=some p → p.Active →
      t.row circuit type'=some p' → p'.Active → type=type')
    (hruns : running → ∃ type p,t.row circuit type=some p∧p.Active) :
    Agrees (t.row circuit) (t.loadedPath circuit circuitType) running := by
  refine ⟨hsound,?_,?_⟩
  · intro type p hp hactive
    obtain ⟨q,hq,hqactive⟩ := loadedPath_spec circuitType hp hactive
    exact hone type p _ q hp hactive hq hqactive
  · intro hrunning
    obtain ⟨type,p,hp,hactive⟩ := hruns hrunning
    exact loadedPath_spec circuitType hp hactive

def Good (s : Store) : Prop :=
  ∀ circuit,Agrees (s.paths.row circuit) (s.memory circuit).activePath
    (s.circuitState circuit=some .active)

structure SameBut (circuit : Nat) (s s' : Store) : Prop where
  row : ∀ k≠circuit,s'.paths.row k=s.paths.row k
  activePath : ∀ k≠circuit,(s'.memory k).activePath=(s.memory k).activePath
  state : ∀ k≠circuit,s'.circuitState k=s.circuitState k

theorem Good.of_sameBut {s s' : Store} {circuit : Nat} (hs : Good s) (hsame : SameBut circuit s s')
    (h : Agrees (s'.paths.row circuit) (s'.memory circuit).activePath
      (s'.circuitState circuit=some .active)) : Good s' := by
  intro k
  by_cases hk : k=circuit
  · exact hk ▸ h
  · rw [hsame.row k hk,hsame.activePath k hk,hsame.state k hk]
    exact hs k

end OESS.Paths
