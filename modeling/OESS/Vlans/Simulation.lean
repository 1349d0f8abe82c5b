import OESS.Vlans.Memberships

namespace OESS.Vlans

open OpenFlow (PathType)
open Paths (Request)
open Store

namespace Store

variable {net : Network} {s s' : Store} {circuit path : Nat} {links : List Nat} {type : PathType}

theorem withBase_getD (s₀ : Store) (base : Option Paths.Store) :
    ((s₀.withBase base).getD s).base=base.getD s.base := by
  cases base <;> rfl

theorem addLink_getD_base (path link : Nat) : ((s.addLink net path link).getD s).base=s.base := by
  cases h : s.addLink net path link with
  | none => rfl
  | some s' => exact addLink_base h

theorem changeActivePath_base {s₀ : Store} {base : Paths.Store} (new : PathType)
    (h : s₀.base=base) : ((s₀.changeActivePath circuit new).getD s).base=
      (base.changeActivePath circuit new).getD s.base := by
  subst h
  exact withBase_getD s₀ _

theorem createPath_base : (s.createPath net circuit links type).base=
    {s.base with paths := s.base.paths.createPath circuit type} := by
  unfold createPath
  dsimp only
  split
  · rfl
  · exact addComputed_base circuit links

variable {r : Request} {state : Master.PathState}

theorem assignPaths_base (h : s.assignPaths net circuit r=some s') : s'.base=s.base := by
  obtain ⟨s₁,h₁,h⟩ := Option.bind_eq_some_iff.mp h
  obtain ⟨s₂,h₂,h⟩ := Option.bind_eq_some_iff.mp h
  cases h
  exact (assignLinks_base h₂).trans (assignLinks_base h₁)

theorem updateMplsPath_base : ((s.updateMplsPath net circuit links).getD s).base=
    (s.base.updateMplsPath circuit links).getD s.base := by
  unfold updateMplsPath Paths.Store.updateMplsPath
  dsimp only
  split
  · rfl
  split
  · rfl
  split
  · exact changeActivePath_base .primary rfl
  split
  · exact changeActivePath_base .backup rfl
  rw [← Option.isSome_filter]
  unfold updateTertiary
  cases (s.base.paths.row circuit .tertiary).filter fun p => !p.liveOnes.isEmpty with
  | none => exact changeActivePath_base .tertiary createPath_base
  | some p =>
    simp only [Option.isSome_some,if_true]
    split_ifs
    · exact changeActivePath_base .tertiary rfl
    · exact changeActivePath_base .tertiary (addComputed_base circuit links)

theorem create_base (rollsBack : Bool) :
    (s.create net circuit type state links rollsBack).base=s.base∨
    (s.create net circuit type state links rollsBack).base=
      {s.base with paths := s.base.paths.create circuit type state} := by
  unfold create
  dsimp only
  split_ifs
  · exact .inl rfl
  split
  · exact .inl rfl
  · split_ifs
    · exact .inl rfl
    · exact .inr (addLinks_base links)

theorem update_base {remove add : List Nat} (rollsBack : Bool) :
    (s.update net path state remove add rollsBack).base=s.base∨
    (s.update net path state remove add rollsBack).base=
      {s.base with paths := s.base.paths.updatePath path state} := by
  unfold update
  dsimp only
  split_ifs
  · exact .inl rfl
  · exact .inr ((addLinks_base add).trans (removeLinks_base path remove))
  · exact .inl rfl

theorem assignPaths_getD_base {base : Option Paths.Store} {begin : Paths.Store → Store}
    (hbegin : ∀ b,(begin b).base=b) :
    ((base.bind fun b => (begin b).assignPaths net circuit r).getD s).base=s.base∨
    ((base.bind fun b => (begin b).assignPaths net circuit r).getD s).base=base.getD s.base := by
  cases base with
  | none => exact .inl rfl
  | some b =>
    rw [Option.bind_some]
    cases h : (begin b).assignPaths net circuit r with
    | none => exact .inl rfl
    | some s' => exact .inr ((assignPaths_base h).trans (hbegin b))

theorem provisionCircuit_base : ((s.provisionCircuit net circuit r).getD s).base=s.base∨
    ((s.provisionCircuit net circuit r).getD s).base=
      (s.base.provisionCircuit circuit r).getD s.base :=
  assignPaths_getD_base fun _ => rfl

theorem editCircuit_base {tertiaryLinks : List Nat} :
    ((s.editCircuit net circuit r tertiaryLinks).getD s).base=s.base∨
    ((s.editCircuit net circuit r tertiaryLinks).getD s).base=
      (s.base.editCircuit circuit r tertiaryLinks).getD s.base :=
  assignPaths_getD_base fun _ => rfl

end Store

/-- The event of the path model that an event is, if it is one. -/
def Event.base : Event → Option Paths.Event
  | changePath circuit => some (.changePath circuit)
  | changeActivePath circuit new => some (.changeActivePath circuit new)
  | setPathState path state => some (.setPathState path state)
  | updateCircuitPathState circuit old new => some (.updateCircuitPathState circuit old new)
  | updateMplsPath circuit links => some (.updateMplsPath circuit links)
  | provisionCircuit circuit r => some (.provisionCircuit circuit r)
  | editCircuit circuit r tertiaryLinks => some (.editCircuit circuit r tertiaryLinks)
  | createPath circuit _ type => some (.createPath circuit type)
  | create circuit type state _ _ => some (.create circuit type state)
  | addLink _ _ | removeLink _ _ => none
  | update path state _ _ _ => some (.updatePath path state)

/-- On the paths a step does nothing, or what its event does in the path model. -/
theorem step_base (net : Network) (s : Store) (e : Event) :
    (s.step net e).base=s.base∨∃ e'∈e.base,(s.step net e).base=s.base.step e' := by
  cases e with
  | changePath circuit => exact .inr ⟨_,rfl,withBase_getD s _⟩
  | changeActivePath circuit new => exact .inr ⟨_,rfl,changeActivePath_base new rfl⟩
  | setPathState path state | updateCircuitPathState circuit old new => exact .inr ⟨_,rfl,rfl⟩
  | updateMplsPath circuit links => exact .inr ⟨_,rfl,updateMplsPath_base⟩
  | provisionCircuit circuit r => exact provisionCircuit_base.imp_right fun h => ⟨_,rfl,h⟩
  | editCircuit circuit r tertiaryLinks => exact editCircuit_base.imp_right fun h => ⟨_,rfl,h⟩
  | createPath circuit links type => exact .inr ⟨_,rfl,createPath_base⟩
  | create circuit type state links rollsBack =>
    exact (create_base rollsBack).imp_right fun h => ⟨_,rfl,h⟩
  | addLink path link => exact .inl (addLink_getD_base path link)
  | removeLink path link => exact .inl rfl
  | update path state remove add rollsBack =>
    exact (update_base rollsBack).imp_right fun h => ⟨_,rfl,h⟩

/-- In every run each step is refused on the paths or is its event of the path model, and at every
point the paths are as the path model's run has them. -/
theorem run_base (net : Network) (s : Store) (events : List Event) :
    ∃ done : List (Option Paths.Event),List.Forall₂ (fun e d => d=none∨d=e.base) events done∧
      ∀ n,((events.take n).foldl (Store.step net) s).base=
        ((done.take n).filterMap id).foldl Paths.Store.step s.base := by
  induction events generalizing s with
  | nil => exact ⟨[],.nil,fun n => by simp⟩
  | cons e events ih =>
    obtain ⟨done,hdone,hrun⟩ := ih (s.step net e)
    obtain hsame | ⟨e',he,hstep⟩ := step_base net s e
    · refine ⟨none::done,.cons (.inl rfl) hdone,fun n => ?_⟩
      cases n with
      | zero => rfl
      | succ n => simpa [hsame] using hrun n
    · refine ⟨some e'::done,.cons (.inr he.symm) hdone,fun n => ?_⟩
      cases n with
      | zero => rfl
      | succ n => simpa [hstep] using hrun n

end OESS.Vlans
