import OESS.Database.Provisioned

namespace OESS.Database

open Transactions Transactions.Routine List

variable (c : Checks) (e : Env) (a : EditArgs) {d : Tables}

/-- No link of these paths stays live, the tertiary one apart; only path instantiations and links
change. -/
structure Released (ps : List Path) (d d' : Tables) : Prop where
  frame : d'={d with
    pathInstantiations := d'.pathInstantiations
    linkMemberships := d'.linkMemberships}
  rows : ∀ m∈d'.linkMemberships,∃ m₀∈d.linkMemberships,m.path=m₀.path∧
    (m.endEpoch=forever → m₀.endEpoch=forever∧∀ p∈ps,p.type≠.tertiary → m.path≠p.id)

theorem released_step {now : Int} (hnow : now≠forever) (p : Path) :
    Released [p] d ((d.endPathInstantiations p.id now).endLinkMemberships p.id now) := by
  refine ⟨rfl,fun m hm => ?_⟩
  obtain ⟨m₀,hm₀,rfl⟩ := mem_map.mp hm
  refine ⟨m₀,hm₀,?_,?_⟩
  · split_ifs <;> rfl
  · split_ifs with h
    · exact fun hlive => absurd hlive hnow
    intro hlive
    refine ⟨hlive,fun q hq _ hpath => ?_⟩
    rw [mem_singleton.mp hq] at hpath
    exact h ⟨hpath,hlive⟩

theorem Released.trans {ps qs : List Path} {d' d'' : Tables} (h : Released ps d d')
    (h' : Released qs d' d'') : Released (ps++qs) d d'' := by
  refine ⟨?_,fun m hm => ?_⟩
  · rw [h'.frame,h.frame]
  · obtain ⟨m₁,hm₁,hpath₁,hlive₁⟩ := h'.rows m hm
    obtain ⟨m₀,hm₀,hpath₀,hlive₀⟩ := h.rows m₁ hm₁
    refine ⟨m₀,hm₀,hpath₁.trans hpath₀,fun hm => ?_⟩
    obtain ⟨hlive,hqs⟩ := hlive₁ hm
    obtain ⟨hlive,hps⟩ := hlive₀ hlive
    refine ⟨hlive,fun p hp => ?_⟩
    rcases mem_append.mp hp with hp | hp
    · rw [hpath₁]
      exact hps p hp
    · exact hqs p hp

theorem releasePaths_yields (hnow : e.now≠forever) (ps : List Path) :
    Yields (each (fun p : Path =>
      if p.type=.tertiary then pure ()
      else do
        orElse (write (·.endPathInstantiations p.id e.now))
          (withdraw a.doCommit "Unable to decom path_instantiations")
        orElse (write (·.endLinkMemberships p.id e.now))
          (withdraw a.doCommit "Unable to decom link_path_membership")) ps) d
      fun _ d' => Released ps d d' := by
  induction ps generalizing d with
  | nil => exact .pure ⟨rfl,fun m hm => ⟨m,hm,rfl,fun h => ⟨h,fun _ hp => nomatch hp⟩⟩⟩
  | cons p ps ih =>
    refine .bind (Q := fun _ d' => Released [p] d d') ?_ fun _ d₁ h => ?_
    · refine .ite (fun ht => .pure ⟨rfl,fun m hm => ⟨m,hm,rfl,fun h => ⟨h,?_⟩⟩⟩) fun _ => ?_
      · intro q hq hno
        rw [mem_singleton.mp hq] at hno
        exact absurd ht hno
      · refine .step (.written (withdraw_barren _ _)) fun _ => ?_
        refine (Yields.written (withdraw_barren _ _)).mono fun _ d₂ hd => ?_
        rw [hd]
        exact released_step hnow p
    · exact ih.mono fun _ d' h' => h.trans h'

/-- No link is left if the loop has gone over all paths. -/
theorem Released.unlinked {k : Nat} {d' : Tables} (h : Released (d.pathsOf k) d d')
    (hkeyed : PathsKeyed k d) : d'.liveLinks k=[]∧PathsKeyed k d' := by
  have hpaths : d'.paths=d.paths := by rw [h.frame]
  refine ⟨?_,hpaths ▸ hkeyed.ids,fun m hm => ?_,hpaths ▸ hkeyed.types⟩
  · unfold Tables.liveLinks
    rw [filterMap_eq_nil_iff]
    intro m hm
    obtain ⟨m₀,-,-,hlive⟩ := h.rows m hm
    split_ifs with hm
    · cases hp : d'.pathOf k m.path with
      | none => rfl
      | some p =>
        unfold Tables.pathOf at hp
        rw [hpaths] at hp
        have hid : p.id=m.path∧p.circuit=k := by simpa using find?_some hp
        have hmem := mem_of_find?_eq_some hp
        have hof : p∈d.pathsOf k := mem_filter.mpr ⟨hmem,decide_eq_true hid.2⟩
        exact absurd hid.1.symm ((hlive hm).2 p hof (hkeyed.types p hmem hid.2))
    · rfl
  · obtain ⟨m₀,hm₀,hpath,-⟩ := h.rows m hm
    rw [hpaths,hpath]
    exact hkeyed.memberships m₀ hm₀

/-- The circuit as it is stored after an edit: the new instantiation, the ends that are not local
followed by `ends`, and `links` for its paths. -/
structure Edited (ends : List LiveEnd) (links : List (PathType×Nat)) (d d' : Tables) : Prop where
  circuits : d'.circuits=(d.updateCircuit a.circuitId a.toCircuitArgs (a.state.getD .active)
    (a.type.getD .openflow)).circuits
  instantiation : ∃ i,d'.circuitInstantiations=
    (d.endInstantiations a.circuitId e.now).circuitInstantiations++[i]∧i.circuit=a.circuitId∧
      i.endEpoch=forever∧i.state=a.state.getD .active
  ends : d'.liveEnds a.circuitId=
    ((d.liveEnds a.circuitId).filter fun x => ¬d.IsLocal x.interface)++ends
  links : d'.liveLinks a.circuitId=links
  actions : d'.scheduledActions=d.scheduledActions

/-- What ending the records of the circuit leaves behind: it is edited to no local ends and no
links, and the next steps can rely on the keys and the lookups. -/
structure Withdrawn (d d' : Tables) : Prop extends Edited e a [] [] d d' where
  macs : d'.MacsKeyed
  keyed : PathsKeyed a.circuitId d'
  port : d'.port=d.port
  linkId : d'.linkId=d.linkId

theorem endRecords_yields (hnow : e.now≠forever) (hexternal : a.doExternal=false)
    (hmacs : d.MacsKeyed) (hkeyed : PathsKeyed a.circuitId d) (user : Option Nat) :
    Yields (endRecords e a user) d fun _ d' => Withdrawn e a d d' := by
  refine .bind (.written (withdraw_barren _ _)) fun _ d₁ h₁ => ?_
  refine .bind (.written (withdraw_barren _ _)) fun _ d₂ h₂ => ?_
  refine .bind (.required (withdraw_barren _ _)) fun _ d₃ h₃ => ?_
  obtain ⟨user,-,h₃⟩ := Option.map_eq_some_iff.mp h₃
  let i : CircuitInstantiation := ⟨a.circuitId,a.bandwidth,a.state.getD .active,user,forever,e.now,
    a.loopNode,a.reason.getD "User requested circuit edit"⟩
  have hd₃ : d₃={d with
      circuits := d₁.circuits
      circuitInstantiations := d₂.circuitInstantiations++[i]} := by
    rw [← (Prod.mk.inj h₃).2,h₂,h₁]
    rfl
  have hd₂ : d₂.circuitInstantiations=
      (d.endInstantiations a.circuitId e.now).circuitInstantiations := by
    rw [h₂,h₁]
    rfl
  refine .bind (.written (withdraw_barren _ _)) fun _ d₄ h₄ => ?_
  rw [hexternal] at h₄
  refine .bind (.select _) fun paths d₅ h₅ => ?_
  rw [h₅.1,h₅.2]
  refine (releasePaths_yields e a hnow _).mono fun _ d' h => ?_
  have hkeyed₄ : PathsKeyed a.circuitId d₄ := by
    rw [h₄,hd₃]
    exact ⟨hkeyed.ids,hkeyed.memberships,hkeyed.types⟩
  obtain ⟨hlinks,hkeyed'⟩ := Released.unlinked h hkeyed₄
  have hsame : d'.circuits=d₁.circuits∧d'.circuitInstantiations=d₂.circuitInstantiations++[i]∧
      d'.scheduledActions=d.scheduledActions∧d'.port=d.port∧d'.linkId=d.linkId := by
    rw [h.frame,h₄,hd₃]
    exact ⟨rfl,rfl,rfl,rfl,rfl⟩
  exact {
    circuits := by rw [hsame.1,h₁]
    instantiation := ⟨i,by rw [hsame.2.1,hd₂],rfl,rfl,rfl⟩
    ends := by
      have hlast : d'.liveEnds a.circuitId=d₄.liveEnds a.circuitId := by
        rw [h.frame]
        rfl
      rw [hlast,h₄,liveEnds_endEdges hnow,hd₃,append_nil]
      rfl
    macs := by
      have hedges : (d₃.endEdges a.circuitId false e.now).edges.map Edge.id=d₃.edges.map Edge.id := by
        rw [Tables.endEdges,map_map]
        refine map_congr_left fun x _ => ?_
        rw [Function.comp_apply]
        split_ifs <;> rfl
      intro m hm
      rw [h.frame,h₄] at hm ⊢
      rw [hedges,hd₃]
      rw [hd₃] at hm
      exact hmacs m hm
    links := hlinks
    keyed := hkeyed'
    actions := hsame.2.2.1
    port := hsame.2.2.2.1
    linkId := hsame.2.2.2.2}

/-- The tables after an edit with these arguments. -/
def EditedAs (d : Tables) : Tables → Prop :=
  Edited e a (endsOf d.port c.macHex2num a.staticMac a.macAddresses a.endpoints)
    (linksOf d.linkId a.type .primary a.links++linksOf d.linkId a.type .backup a.backupLinks) d

theorem editRecords_yields (hnow : e.now≠forever) (hexternal : a.doExternal=false)
    (hremotes : a.remotes=[]) (hmacs : d.MacsKeyed) (hkeyed : PathsKeyed a.circuitId d)
    (user : Option Nat) : Yields (editRecords c e a user) d fun _ d' => EditedAs c e a d d' := by
  refine .bind (endRecords_yields e a hnow hexternal hmacs hkeyed user) fun _ d₁ h₁ => ?_
  refine .bind (editEndpoints_yields c e a h₁.macs _ _) fun _ d₂ h₂ => ?_
  rw [h₁.port] at h₂
  rw [hremotes]
  refine .bind (Q := fun _ d' => d'=d₂) (.pure rfl) fun _ d₃ h₃ => ?_
  rw [h₃]
  have hkeyed₂ : PathsKeyed a.circuitId d₂ := by
    rw [h₂.frame]
    exact ⟨h₁.keyed.ids,h₁.keyed.memberships,h₁.keyed.types⟩
  refine .bind (editPath_yields c e hkeyed₂ (by decide) a.links) fun _ d₄ h₄ => ?_
  refine (editPath_yields c e h₄.keyed (by decide) a.backupLinks).mono fun _ d' h₅ => ?_
  have hlinkId : d₄.linkId=d.linkId∧d₂.linkId=d.linkId := by
    rw [h₄.frame,h₂.frame]
    exact ⟨h₁.linkId,h₁.linkId⟩
  have hlinked := h₄.trans h₅
  rw [hlinkId.1,hlinkId.2] at hlinked
  have hsame : d'.circuits=d₁.circuits∧d'.circuitInstantiations=d₁.circuitInstantiations∧
      d'.scheduledActions=d₁.scheduledActions := by
    rw [hlinked.frame,h₂.frame]
    exact ⟨rfl,rfl,rfl⟩
  exact {
    circuits := hsame.1.trans h₁.circuits
    instantiation := hsame.2.1 ▸ h₁.instantiation
    ends := by
      have hlast : d'.liveEnds a.circuitId=d₂.liveEnds a.circuitId := by
        rw [hlinked.frame]
        rfl
      rw [hlast,h₂.ends,h₁.ends,append_nil]
    links := by
      have hfirst : d₂.liveLinks a.circuitId=d₁.liveLinks a.circuitId := by
        rw [h₂.frame]
        rfl
      rw [hlinked.links,hfirst,h₁.links,nil_append]
    actions := hsame.2.2.trans h₁.actions}

theorem editCircuit_yields (hnow : e.now≠forever) (htime : ¬a.provisionTime>e.now)
    (hexternal : a.doExternal=false) (hremotes : a.remotes=[]) (hmacs : d.MacsKeyed)
    (hkeyed : PathsKeyed a.circuitId d) :
    Yields (editCircuit c e a) d fun _ d' => EditedAs c e a d d' := by
  have hsane : Yields (if a.doSanityCheck then
      (c.circuitSanityCheck a.circuitId a.toCircuitArgs a.type).run else pure true) d
      fun _ d' => d'=d :=
    .ite (fun _ => .readOnly (Lookup.readOnly _)) fun _ => .pure rfl
  refine .step hsane fun _ => ?_
  refine .check (.fail _) fun _ => ?_
  have hstart : Yields (onlyIf a.doCommit startTransaction) d fun _ d' => d'=d :=
    .ite (fun _ => .beginOrDie) fun _ => .pure rfl
  refine .step hstart fun _ => ?_
  have hsteps : Yields (editSteps c e a) d fun _ d' => EditedAs c e a d d' := by
    refine .step (yields_lookup (.select _) (withdraw_barren _ _)) fun _ => ?_
    refine .read (yields_rowsOf _) fun user _ => ?_
    rw [if_neg htime]
    refine .bind (editRecords_yields c e a hnow hexternal hremotes hmacs hkeyed user)
      fun _ d₆ h₆ => .pure h₆
  refine .bind hsteps fun _ d₄ h₄ => ?_
  have hcommit : Yields (onlyIf a.doCommit (do let _ ← commit) : Query Unit) d₄
      fun _ d' => d'=d₄ := by
    refine .ite (fun _ => ?_) fun _ => .pure rfl
    exact .bind .commit fun _ d₅ h₅ => .pure h₅
  refine .step hcommit fun _ => ?_
  exact .pure h₄

end OESS.Database
