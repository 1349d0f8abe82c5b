import OESS.Database.CircuitCalls
import OESS.Database.LiveViews
import OESS.Framework.Results

namespace OESS.Database

open Transactions Transactions.Routine List Option

variable {α : Type} {d : Tables}

theorem yields_rowsOf (f : Tables → α) : Yields (rowsOf f) d fun r d' => d'=d∧r=f d := by
  refine .orElse .die ((Yields.select f).mono fun o d' ho r hr => ?_)
  rw [ho.2] at hr
  cases hr
  exact ⟨ho.1,rfl⟩

theorem yields_given {o : Option α} {y : Query α} (hy : Barren y) :
    Yields (orElse (pure o) y) d fun a d' => d'=d∧o=some a :=
  .orElse hy (.pure fun _ ha => ⟨rfl,ha⟩)

theorem yields_lookup {x : Query (Option α)} {y : Query α} (hx : ReadOnly x) (hy : Barren y) :
    Yields (orElse x y) d fun _ d' => d'=d :=
  .orElse hy ((Yields.readOnly hx).mono fun _ _ h _ _ => h)

theorem withdraw_barren (own : Bool) (error : String) : Barren (withdraw own error : Query α) :=
  .bind fun _ => .fail error

theorem yields_undoingIf {own : Bool} {x : Query α} {Q : α → Tables → Prop} (hx : Yields x d Q) :
    Yields (undoingIf own x) d Q := by
  cases own with
  | false => exact hx
  | true => exact .undoing hx

variable (c : Checks) (e : Env) {k : Nat}

def endsOf (port : Endpoint → Option Nat) (hex : Option String → Nat) (static : Bool) :
    List String → List Endpoint → List LiveEnd
  | _,[] => []
  | macs,p::ps =>
    (match port p,p.vlan with
      | some i,some v =>
        [⟨i,v,p.innerVlan,if static then (shiftMacs p.macNum macs).map hex else []⟩]
      | _,_ => [])++
      endsOf port hex static (if static then macs.drop p.macNum else macs) ps

def remoteEnd (d : Tables) (q : String×Option Int) : Option LiveEnd := do
  let i ← truthy (d.urnInterface q.1)
  let v ← q.2
  pure ⟨i,v,none,[]⟩

def Tables.Placed (d : Tables) (p : Endpoint) : Prop := ∃ i v,d.port p=some i∧p.vlan=some v

variable (a : CircuitArgs) (type : Option CircuitType) {d' : Tables} {ends : List LiveEnd}

theorem insertEdge_some {i : Option Nat} {vlan tag unit : Option Int} {now : Int} {edge : Nat}
    (h : d.insertEdge i k vlan tag unit now=some (edge,d')) :
    ∃ j v u,i=some j∧vlan=some v∧∀ ms : List Nat,
      {d' with edgeMacs := d'.edgeMacs++ms.map (⟨edge,·⟩)}=d.withEnd k ⟨j,v,tag,ms⟩ u now := by
  cases i with
  | none => cases h
  | some j =>
    cases vlan with
    | none => cases h
    | some v =>
      cases unit with
      | none => cases h
      | some u =>
        cases h
        exact ⟨j,v,u,rfl,rfl,fun ms => rfl⟩

theorem yields_end {i : Option Nat} {vlan tag unit : Option Int} {now : Int} {y : Query Nat}
    {static : Bool} {addresses : Nat → Query Unit} {ms : List Nat} {rest : Query Unit}
    {Q : Unit → Tables → Prop} (hy : Barren y)
    (hmacs : ∀ edge d₁,Yields (addresses edge) d₁ fun _ d' =>
      d'={d₁ with edgeMacs := d₁.edgeMacs++ms.map (⟨edge,·⟩)})
    (hrest : ∀ j v u,i=some j → vlan=some v →
      Yields rest (d.withEnd k ⟨j,v,tag,if static then ms else []⟩ u now) Q) :
    Yields (do
      let edge ← orElse (statement (·.insertEdge i k vlan tag unit now)) y
      onlyIf static (addresses edge)
      rest) d Q := by
  refine .bind (.required hy) fun edge d₁ hd => ?_
  obtain ⟨j,v,u,hi,hv,hend⟩ := insertEdge_some hd
  have hdone : Yields (onlyIf static (addresses edge)) d₁ fun _ d' =>
      d'=d.withEnd k ⟨j,v,tag,if static then ms else []⟩ u now := by
    refine .ite (fun hs => ?_) fun hs => .pure ?_
    · rw [hs]
      exact (hmacs edge d₁).mono fun _ d' h => h.trans (hend ms)
    · rw [Bool.not_eq_true] at hs
      rw [hs,← hend (if false then ms else [])]
      simp
  refine .step hdone fun _ => ?_
  exact hrest j v u hi hv

theorem port_of_frame (h : Connected k d ends d') : d'.port=d.port := by
  rw [h.frame]
  rfl

theorem remoteEnd_of_frame (h : Connected k d ends d') : remoteEnd d'=remoteEnd d := by
  rw [h.frame]
  rfl

theorem yields_macs {body : Option String → Query Unit} {edge : Nat}
    (hbody : ∀ mac d,Yields (body mac) d fun _ d' => d'=d.insertMac edge (c.macHex2num mac))
    (macs : List (Option String)) (d : Tables) :
    Yields (each body macs) d fun _ d' =>
      d'={d with edgeMacs := d.edgeMacs++(macs.map c.macHex2num).map (⟨edge,·⟩)} := by
  induction macs generalizing d with
  | nil =>
    apply Yields.pure
    simp
  | cons mac macs ih =>
    refine .bind (hbody mac d) fun _ d' hd => ?_
    refine (ih d').mono fun _ d'' hd' => ?_
    rw [hd',hd]
    simp [Tables.insertMac]

theorem addMacs_yields (p : Endpoint) (macs : List (Option String)) (edge : Nat) (d : Tables) :
    Yields (addMacs c a p edge macs) d fun _ d' =>
      d'={d with edgeMacs := d.edgeMacs++(macs.map c.macHex2num).map (⟨edge,·⟩)} := by
  refine .bind (.readOnly (Lookup.readOnly _)) fun limit d₁ hd => ?_
  subst hd
  cases limit with
  | some explanation => exact (Barren.abort _).yields
  | none =>
    apply yields_macs
    intro mac d
    refine .check (.abort _) fun _ => ?_
    exact .written (.abort _)

theorem editMacs_yields (a : EditArgs) (p : Endpoint) (macs : List (Option String)) (edge : Nat)
    (d : Tables) : Yields (editMacs c a p edge macs) d fun _ d' =>
      d'={d with edgeMacs := d.edgeMacs++(macs.map c.macHex2num).map (⟨edge,·⟩)} := by
  apply yields_macs
  intro mac d
  exact .written (withdraw_barren _ _)

theorem checkEndpoint_yields (p : Endpoint) :
    Yields (checkEndpoint c a type p) d fun r d' => d'=d∧d.port p=some r.1 := by
  refine .read (yields_rowsOf _) fun row hrow => ?_
  refine .read (yields_given (.abort _)) fun r hr => ?_
  have hport : d.port p=some r.1.id := by
    have hsome : (p.interface.bind fun i => d.interfaceRow p.node i)=some r :=
      hrow.symm.trans hr
    obtain ⟨i,hi,hrow⟩ := bind_eq_some_iff.mp hsome
    rw [Tables.port,hi,bind_some,hrow,map_some]
  refine .check (.abort _) fun _ => ?_
  refine .step (.readOnly (Lookup.readOnly _)) fun valid => ?_
  refine .check (.abort _) fun _ => ?_
  refine .step (yields_lookup (Lookup.readOnly _) (.abort _)) fun unit => ?_
  refine .step (.readOnly (Lookup.readOnly _)) fun avail => ?_
  refine .check (.abort _) fun _ => ?_
  refine .check (.abort _) fun _ => ?_
  exact .pure ⟨rfl,hport⟩

theorem endsOf_cons {port : Endpoint → Option Nat} {hex : Option String → Nat} {static : Bool}
    {macs : List String} {p : Endpoint} {ps : List Endpoint} {i : Nat} {v : Int}
    (hi : port p=some i) (hv : p.vlan=some v) : endsOf port hex static macs (p::ps)=
      ⟨i,v,p.innerVlan,if static then (shiftMacs p.macNum macs).map hex else []⟩::
        endsOf port hex static (if static then macs.drop p.macNum else macs) ps := by
  rw [endsOf,hi,hv]
  rfl

theorem provisionEndpoints_yields (hmacs : d.MacsKeyed) (seen macs : List String)
    (ps : List Endpoint) : Yields (provisionEndpoints c e a k type seen macs ps) d fun _ d' =>
      Connected k d (endsOf d.port c.macHex2num a.staticMac macs ps) d'∧∀ p∈ps,d.Placed p := by
  induction ps generalizing seen macs d with
  | nil => exact .pure ⟨connected_refl hmacs,fun _ hp => nomatch hp⟩
  | cons p ps ih =>
    refine .check (.abort _) fun _ => ?_
    refine .read (checkEndpoint_yields c a type p) fun r hr => ?_
    refine yields_end (.abort _) (addMacs_yields c a p _) fun j v u hj hv => ?_
    have hport : d.port p=some j := hr.trans hj
    have hend := connected_withEnd (k := k) hmacs ⟨j,v,p.innerVlan,
      if a.staticMac then (shiftMacs p.macNum macs).map c.macHex2num else []⟩ u e.now
    refine (ih hend.macs _ _).mono fun _ d' hd' => ?_
    obtain ⟨hrest,hplaced⟩ := hd'
    refine ⟨?_,fun q hq => ?_⟩
    · rw [endsOf_cons hport hv]
      exact hend.trans hrest
    · rcases mem_cons.mp hq with rfl | hq
      · exact ⟨j,v,hport,hv⟩
      · obtain ⟨i,w,hi,hw⟩ := hplaced q hq
        exact ⟨i,w,port_of_frame hend ▸ hi,hw⟩

theorem editEndpoints_yields (a : EditArgs) (hmacs : d.MacsKeyed) (macs : List String)
    (ps : List Endpoint) : Yields (editEndpoints c e a macs ps) d fun _ d' =>
      Connected a.circuitId d (endsOf d.port c.macHex2num a.staticMac macs ps) d' := by
  induction ps generalizing macs d with
  | nil => exact .pure (connected_refl hmacs)
  | cons p ps ih =>
    refine .read (yields_rowsOf _) fun interface hi => ?_
    refine .step (yields_lookup (Lookup.readOnly _) (.abort _)) fun unit => ?_
    refine yields_end (withdraw_barren _ _) (editMacs_yields c a p _) fun j v u hj hv => ?_
    have hport : d.port p=some j := hi.symm.trans hj
    have hend := connected_withEnd (k := a.circuitId) hmacs ⟨j,v,p.innerVlan,
      if a.staticMac then (shiftMacs p.macNum macs).map c.macHex2num else []⟩ u e.now
    refine (ih hend.macs _).mono fun _ d' hrest => ?_
    rw [endsOf_cons hport hv]
    exact hend.trans hrest

theorem provisionRemote_yields (hmacs : d.MacsKeyed) (q : String×Option Int) :
    Yields (provisionRemote c e k q) d fun _ d' =>
      ∃ x,remoteEnd d q=some x∧Connected k d [x] d' := by
  have hinterface : Yields (remoteInterface q.1) d fun i d' =>
      d'=d∧truthy (d.urnInterface q.1)=some i := by
    refine .read (yields_rowsOf _) fun found hf => ?_
    rw [← hf]
    exact yields_given (.abort _)
  refine .read hinterface fun i hi => ?_
  refine .step (.readOnly (Lookup.readOnly _)) fun unit => ?_
  refine .bind (.required (.abort _)) fun edge d₃ hd => ?_
  obtain ⟨j,v,u,hj,hv,hend⟩ := insertEdge_some hd
  have hnone : d₃=d.withEnd k ⟨j,v,none,[]⟩ u e.now := by
    rw [← hend []]
    simp
  refine .pure ⟨⟨j,v,none,[]⟩,?_,?_⟩
  · rw [remoteEnd,hi,hv]
    cases hj
    rfl
  · rw [hnone]
    exact connected_withEnd hmacs _ u e.now

theorem provisionRemotes_yields (hmacs : d.MacsKeyed) (qs : List (String×Option Int)) :
    Yields (each (provisionRemote c e k) qs) d fun _ d' =>
      Connected k d (qs.filterMap (remoteEnd d)) d'∧∀ q∈qs,∃ x,remoteEnd d q=some x := by
  induction qs generalizing d with
  | nil => exact .pure ⟨connected_refl hmacs,fun _ hq => nomatch hq⟩
  | cons q qs ih =>
    refine .bind (provisionRemote_yields c e hmacs q) fun _ d₁ hq => ?_
    obtain ⟨x,hx,hend⟩ := hq
    refine (ih hend.macs).mono fun _ d' hd' => ?_
    obtain ⟨hrest,hplaced⟩ := hd'
    rw [remoteEnd_of_frame hend] at hrest hplaced
    refine ⟨?_,fun r hr => ?_⟩
    · rw [filterMap_cons_some hx]
      exact hend.trans hrest
    · rcases mem_cons.mp hr with rfl | hr
      · exact ⟨x,hx⟩
      · exact hplaced r hr

section Links

variable (own : Bool)

def linksOf (link : String → Option Nat) (type : Option CircuitType) (pathType : PathType)
    (names : List String) : List (PathType×Nat) :=
  if names=[]∨pathType=.backup∧type=some .mpls then []
  else (names.filterMap link).map (pathType,·)

theorem linksOf_backup (link : String → Option Nat) (type : Option CircuitType)
    (names : List String) : linksOf link type .backup (if type=some .mpls then [] else names)=
      linksOf link type .backup names := by
  by_cases h : type=some .mpls
  · simp [linksOf,h]
  · rw [if_neg h]

variable (error : LinkEnd → String) {type pathType : PathType} {path : Nat} {p : Path}

theorem linkVlans_yields (seen : List Nat) (a z : Option Nat) (ends : List LinkEnd) :
    Yields (linkVlans c own error seen a z ends) d fun _ d' => d'=d := by
  induction ends generalizing seen a z with
  | nil => exact .pure rfl
  | cons p ps ih =>
    refine .ite (fun _ => ih _ _ _) fun _ => ?_
    refine .step (yields_lookup (Lookup.readOnly _) (withdraw_barren own _)) fun vlan => ?_
    exact .ite (fun _ => ih _ _ _) fun _ => .ite (fun _ => ih _ _ _) fun _ => ih _ _ _

theorem linked_insert (hkeyed : PathsKeyed k d) (hp : d.pathOf k path=some p)
    {link vlanA vlanZ : Option Nat} {now : Int} {u : Unit}
    (h : d.insertLinkMembership link path vlanA vlanZ now=some (u,d')) :
    ∃ l,link=some l∧d'.paths=d.paths∧Linked k d [(p.type,l)] d' := by
  have hid : path∈d.paths.map Path.id := by
    have heq : p.id=path∧p.circuit=k := by simpa using find?_some hp
    rw [← heq.1]
    exact mem_map_of_mem (mem_of_find?_eq_some hp)
  cases link with
  | none => cases h
  | some l =>
    cases vlanA with
    | none => cases h
    | some a =>
      cases vlanZ with
      | none => cases h
      | some z =>
        cases h
        refine ⟨l,rfl,rfl,rfl,⟨hkeyed.ids,?_,hkeyed.types⟩,liveLinks_insert hp⟩
        exact OESS.Runs.forall_mem_snoc hkeyed.memberships hid

theorem Linked.linkId {links : List (PathType×Nat)} (h : Linked k d links d') :
    d'.linkId=d.linkId := by
  rw [h.frame]
  rfl

theorem addLinks_yields (required : Bool) (error : LinkEnd → String) (hkeyed : PathsKeyed k d)
    (hp : d.pathOf k path=some p) (seen : List Nat) (names : List String) :
    Yields (addLinks c e own required error path seen names) d fun _ d' =>
      Linked k d ((names.filterMap d.linkId).map (p.type,·)) d' := by
  induction names generalizing seen d with
  | nil => exact .pure (linked_refl hkeyed)
  | cons name names ih =>
    refine .read (yields_rowsOf _) fun id hid => ?_
    refine .check (withdraw_barren own _) fun _ => ?_
    refine .step (.readOnly (getLinkEndpoints_readOnly id)) fun ends => ?_
    refine .step (linkVlans_yields c own error seen none none ends) fun r => ?_
    refine .bind (.required (withdraw_barren own _)) fun _ d₅ hd => ?_
    obtain ⟨l,hl,hpaths,hlinked⟩ := linked_insert hkeyed hp hd
    have hpath : d₅.pathOf k path=some p := by
      unfold Tables.pathOf at ⊢
      rwa [hpaths]
    refine (ih hlinked.keyed hpath r.1).mono fun _ d' hrest => ?_
    rw [hlinked.linkId] at hrest
    have hname : d.linkId name=some l := hid.symm.trans hl
    rw [filterMap_cons_some hname]
    exact hlinked.trans hrest

theorem fillPath_yields (required : Bool) (error : LinkEnd → String) (hkeyed : PathsKeyed k d)
    (hp : d.pathOf k path=some p) (htype : p.type=type) (names : List String) : Yields (do
      instantiatePath e own path type
      addLinks c e own required error path [] names) d fun _ d' =>
        Linked k d ((names.filterMap d.linkId).map (type,·)) d' := by
  have hinst (state : PathState) : Linked k d [] (d.insertPathInstantiation path state e.now) :=
    ⟨rfl,⟨hkeyed.ids,hkeyed.memberships,hkeyed.types⟩,(append_nil _).symm⟩
  refine .step (.written (withdraw_barren own _)) fun _ => ?_
  refine (addLinks_yields c e own required error (hinst _).keyed hp [] names).mono fun _ d' h => ?_
  rw [htype] at h
  exact (hinst _).trans h

section

variable (hkeyed : PathsKeyed k d)
include hkeyed

theorem insertPath_yields (htype : type≠.tertiary) (state : PathState) (mpls : MplsPathType)
    {y : Query Nat} (hy : Barren y) :
    Yields (orElse (statement fun d => some (d.insertPath type k state mpls)) y) d fun path d' =>
      Linked k d [] d'∧∃ p,d'.pathOf k path=some p∧p.type=type := by
  refine (Yields.required hy).mono fun path d' hd => ?_
  have hnew := pathsKeyed_insertPath hkeyed htype state mpls
  have hlinks := liveLinks_insertPath hkeyed type state mpls
  cases hd
  let p : Path := ⟨nextId (d.paths.map Path.id),type,k,state,mpls⟩
  refine ⟨⟨rfl,hnew,?_⟩,p,?_,rfl⟩
  · rwa [append_nil]
  · refine pathOf_of_mem hnew (p := p) ?_ rfl
    exact mem_append_right _ (mem_singleton.mpr rfl)

theorem provisionPath_yields (type : Option CircuitType) (htype : pathType≠.tertiary)
    (names : List String) : Yields (provisionPath c e k type pathType names) d fun _ d' =>
      Linked k d (linksOf d.linkId type pathType names) d' := by
  unfold provisionPath linksOf
  by_cases hno : names=[]∨pathType=.backup∧type=some .mpls
  · rw [if_pos hno,if_pos hno]
    exact .pure (linked_refl hkeyed)
  rw [if_neg hno,if_neg hno]
  refine .bind (insertPath_yields hkeyed htype _ _ (.abort _)) fun path d₁ hpath => ?_
  obtain ⟨hlinked,p,hp,hptype⟩ := hpath
  refine (fillPath_yields c e true true _ hlinked.keyed hp hptype names).mono fun _ d' h => ?_
  rw [hlinked.linkId] at h
  exact hlinked.trans h

theorem pathOf_pathId (h : d.pathId k type=some path) : ∃ p,d.pathOf k path=some p∧p.type=type := by
  obtain ⟨p,hp,rfl⟩ := map_eq_some_iff.mp h
  have hc : p.circuit=k∧p.type=type := by simpa using find?_some hp
  exact ⟨p,pathOf_of_mem hkeyed (mem_of_find?_eq_some hp) hc.1,hc.2⟩

theorem setPathState_yields (path : Nat) (state : PathState) :
    Yields (setPathState e path state) d fun _ d' => Linked k d [] d' := by
  refine .step (.written (.fail _)) fun _ => ?_
  refine .step (.written (.fail _)) fun _ => ?_
  have hset := pathsKeyed_setPathState hkeyed path state
  refine (Yields.written (.fail _)).mono fun _ d₃ hd => ?_
  rw [hd]
  refine ⟨rfl,⟨hset.ids,hset.memberships,hset.types⟩,?_⟩
  rw [append_nil]
  exact liveLinks_setPathState path state

end

theorem getPathId_yields (type : PathType) :
    Yields (getPathId k type) d fun o d' => d'=d∧o=d.pathId k type := by
  refine .bind (.select _) fun o d₁ ho => .pure ?_
  rw [ho.2]
  exact ⟨ho.1,rfl⟩

theorem editPath_yields {a : EditArgs} (hkeyed : PathsKeyed a.circuitId d)
    (htype : pathType≠.tertiary) (names : List String) :
    Yields (editPath c e a pathType names) d fun _ d' =>
      Linked a.circuitId d (linksOf d.linkId a.type pathType names) d' := by
  unfold editPath linksOf
  by_cases hnames : names=[]
  · rw [if_pos hnames,if_pos (.inl hnames)]
    refine .read (getPathId_yields pathType) fun found _ => ?_
    cases found with
    | none => exact .pure (linked_refl hkeyed)
    | some path => exact yields_undoingIf (setPathState_yields e hkeyed path .decom)
  · rw [if_neg hnames]
    by_cases hmpls : pathType=.backup∧a.type=some .mpls
    · rw [if_pos hmpls,if_pos (.inr hmpls)]
      exact .pure (linked_refl hkeyed)
    rw [if_neg hmpls,if_neg (fun h => h.elim hnames hmpls)]
    refine .read (getPathId_yields pathType) fun found hf => ?_
    have hpath : Yields (orElse (pure found)
        (orElse (statement fun d => some (d.insertPath pathType a.circuitId .active .none))
          (withdraw a.doCommit "Error while creating path record."))) d fun path d' =>
        Linked a.circuitId d [] d'∧∃ p,d'.pathOf a.circuitId path=some p∧p.type=pathType := by
      cases found with
      | none => exact insertPath_yields hkeyed htype _ _ (withdraw_barren _ _)
      | some path => exact .pure ⟨linked_refl hkeyed,pathOf_pathId hkeyed hf.symm⟩
    refine .bind hpath fun path d₂ hp => ?_
    obtain ⟨hlinked,p,hp,hptype⟩ := hp
    refine (fillPath_yields c e a.doCommit false _ hlinked.keyed hp hptype names).mono
      fun _ d' h => ?_
    rw [hlinked.linkId] at h
    exact hlinked.trans h

end Links

section Events

/-- Only actions of the circuit with the layouts are new. -/
structure Filed (k : Nat) (d : Tables) (layouts : List Layout) (d' : Tables) : Prop where
  frame : d'={d with scheduledActions := d'.scheduledActions}
  ids : (d'.scheduledActions.map ScheduledAction.id).Nodup
  removals : d'.pendingRemovals k=d.pendingRemovals k+layouts.countP Layout.isRemove
  layouts : ∀ x∈d'.scheduledActions,x∈d.scheduledActions∨x.layout∈layouts

theorem filed_refl (h : (d.scheduledActions.map ScheduledAction.id).Nodup) : Filed k d [] d :=
  ⟨rfl,h,rfl,fun _ hx => .inl hx⟩

theorem Filed.trans {d' d'' : Tables} {ls ms : List Layout} (h : Filed k d ls d')
    (h' : Filed k d' ms d'') : Filed k d (ls++ms) d'' := by
  refine ⟨?_,h'.ids,?_,fun x hx => ?_⟩
  · rw [h'.frame,h.frame]
  · rw [h'.removals,h.removals,countP_append,Nat.add_assoc]
  · rcases h'.layouts x hx with hx | hx
    · exact (h.layouts x hx).imp_right (mem_append_left ms)
    · exact .inr (mem_append_right ls hx)

theorem filed_insert (hids : (d.scheduledActions.map ScheduledAction.id).Nodup)
    {user : Option Nat} {workgroup : Nat} {now activation : Int} {layout : Layout} {u : Unit}
    (h : d.insertAction user workgroup k now activation layout=some (u,d')) :
    Filed k d [layout] d' := by
  obtain ⟨user,-,hd⟩ := map_eq_some_iff.mp h
  cases hd
  refine ⟨rfl,OESS.Lookup.nodup_map_snoc hids (not_mem_nextId _),?_,fun x hx => ?_⟩
  · unfold Tables.pendingRemovals
    cases hl : layout.isRemove <;> simp [hl]
  · rcases mem_append.mp hx with hx | hx
    · exact .inl hx
    · rw [mem_singleton.mp hx]
      exact .inr (mem_singleton.mpr rfl)

def removalOf (a : CircuitArgs) : List Layout :=
  if a.removeTime=forever then [] else [.remove a.name]

section

variable (hids : (d.scheduledActions.map ScheduledAction.id).Nodup)
include hids

theorem addRemoveEvent_yields (name : Option String) (workgroup : Nat) (removeTime : Int)
    (user : Option Nat) : Yields (addRemoveEvent e name workgroup removeTime user k) d fun _ d' =>
      Filed k d [.remove name] d' :=
  (Yields.required (.fail _)).mono fun _ _ h => filed_insert hids h

theorem removal_yields (a : CircuitArgs) {x : Query Unit}
    (hx : Yields x d fun _ d' => Filed k d [.remove a.name] d') :
    Yields (onlyIf (a.removeTime≠forever) x) d fun _ d' => Filed k d (removalOf a) d' := by
  refine .ite (fun h => ?_) fun h => .pure ?_
  · rwa [removalOf,if_neg h]
  · rw [removalOf,if_pos (not_not.mp h)]
    exact filed_refl hids

theorem addEvent_yields (a : CircuitArgs) (user : Option Nat) :
    Yields (addEvent e a user k) d fun _ d' =>
      Filed k d (.provision a.layout::removalOf a) d' := by
  refine .bind (.required (.fail _)) fun _ d₁ h => ?_
  have hfiled := filed_insert hids h
  have hremove := addRemoveEvent_yields e (k := k) hfiled.ids a.name a.workgroupId a.removeTime user
  exact (removal_yields hfiled.ids a hremove).mono fun _ d' h => hfiled.trans h

end

end Events

/-- Rows refer to circuits and paths that are there, and ids are keys. -/
structure Tables.Sound (d : Tables) : Prop where
  macs : d.MacsKeyed
  edges : ∀ x∈d.edges,x.circuit∈d.circuits.map Circuit.id
  instantiations : ∀ i∈d.circuitInstantiations,i.circuit∈d.circuits.map Circuit.id
  paths : ∀ p∈d.paths,p.circuit∈d.circuits.map Circuit.id
  pathIds : (d.paths.map Path.id).Nodup
  memberships : ∀ m∈d.linkMemberships,m.path∈d.paths.map Path.id
  actions : ∀ x∈d.scheduledActions,x.circuit∈d.circuits.map Circuit.id
  actionIds : (d.scheduledActions.map ScheduledAction.id).Nodup

/-- Before the first record: the user, the name and the type. -/
def provisionStart : Query (Nat×String×Option CircuitType) := do
  let r ← admission a
  startTransaction
  let uuid ← orElse (select fun _ => e.uuid) (fail "Internal error generating UUID.")
  let interface ← orElse (getInterfaceIdByNames a.nodes.head? a.interfaces.head?)
    (fail "Unable to find interface for endpoint")
  let avail ← (c.isExternalVlanAvailableOnInterface a.tags.head? interface).run
  pure (r.1,r.2.name++"-"++uuid,avail.map Prod.snd)

def provisionRecords (b : Nat×String×Option CircuitType) : Query Nat := do
  let circuit ← orElse (statement fun d => some (d.insertCircuit b.2.1 a (provisionState e a) b.2.2))
    (abort "Unable to create circuit record.")
  let _ ← statement fun d => d.insertInstantiation circuit a.bandwidth (provisionState e a)
    (some b.1) e.now none "Circuit Creation"
  onlyIf (provisionState e a=.scheduled∨provisionState e a=.reserved)
    (undoing (addEvent e a (some b.1) circuit))
  onlyIf (a.removeTime≠forever)
    (undoing (addRemoveEvent e a.name a.workgroupId a.removeTime (some b.1) circuit))
  provisionEndpoints c e a circuit b.2.2 [] a.macAddresses a.endpoints
  each (provisionRemote c e circuit) a.remotes
  provisionPath c e circuit b.2.2 .primary a.links
  provisionPath c e circuit b.2.2 .backup (if b.2.2=some .mpls then [] else a.backupLinks)
  let invalid ← (c.validatePaths circuit).run
  match invalid with
  | some error => abort error
  | none => pure circuit

theorem provisionCircuit_eq : provisionCircuit c e a=(do
    let b ← provisionStart c e a
    let circuit ← provisionRecords c e a b
    let _ ← commit
    pure (.circuit circuit none)) := by
  have hcreate (user : Nat) (name : String) (interface : Nat) :
      createCircuit c e a user name interface=
        (c.isExternalVlanAvailableOnInterface a.tags.head? interface).run >>= fun avail =>
          provisionRecords c e a (user,name,avail.map Prod.snd) := rfl
  simp only [provisionCircuit,provisionStart,hcreate,Routine.bind_assoc]
  rfl

theorem permission_yields : Yields (permission a) d fun _ d' => d'=d := by
  refine .read (yields_rowsOf _) fun user _ => ?_
  refine .read (yields_given (.fail _)) fun user _ => ?_
  have hgroup : ReadOnly (getWorkgroupDetails a.workgroupId) := .bind (.select _) fun _ => .pure _
  refine .step (yields_lookup hgroup (.fail _)) fun workgroup => ?_
  refine .step (.readOnly (rowsOf_readOnly _)) fun admin => ?_
  have hallowed : Yields (if admin then pure true else isUserInWorkgroup user a.workgroupId) d
      fun _ d' => d'=d := .ite (fun _ => .pure rfl) fun _ => .readOnly (rowsOf_readOnly _)
  refine .step hallowed fun allowed => ?_
  refine .check (.fail _) fun _ => ?_
  exact .pure rfl

theorem provisionStart_yields : Yields (provisionStart c e a) d fun _ d' => d'=d := by
  have hadmission : Yields (admission a) d fun _ d' => d'=d := by
    refine .check (.fail _) fun _ => ?_
    refine .step (permission_yields a) fun r => ?_
    have hlimit : ReadOnly (isWithinCircuitLimit a.workgroupId) := .bind (.select _) fun _ =>
        .bind (.select _) fun _ => .pure _
    have hends : ReadOnly (isWithinCircuitEndpointLimit a.workgroupId a.nodes.length) :=
      .bind (.select _) fun _ => .pure _
    have hlimits : Yields (checkLimits a) d fun _ d' => d'=d := by
      refine .step (.readOnly hlimit) fun _ => ?_
      refine .check (.fail _) fun _ => ?_
      refine .step (.readOnly hends) fun _ => ?_
      exact .ite (fun _ => (Barren.fail _).yields) fun _ => .pure rfl
    refine .step hlimits fun _ => ?_
    exact .pure rfl
  refine .step hadmission fun r => ?_
  refine .step .beginOrDie fun _ => ?_
  refine .step (yields_lookup (.select _) (.fail _)) fun _ => ?_
  have hinterface : ReadOnly (getInterfaceIdByNames a.nodes.head? a.interfaces.head?) :=
    .bind (.select _) fun _ => .pure _
  refine .step (yields_lookup hinterface (.fail _)) fun _ => ?_
  refine .step (.readOnly (Lookup.readOnly _)) fun _ => ?_
  exact .pure rfl

theorem Tables.Sound.unknown (h : d.Sound) (hk : k∉d.circuits.map Circuit.id) :
    d.liveEnds k=[]∧d.liveLinks k=[]∧d.pendingRemovals k=0∧PathsKeyed k d := by
  have hpaths (p : Path) (hp : p∈d.paths) : p.circuit≠k := fun hc => hk (hc ▸ h.paths p hp)
  refine ⟨?_,?_,?_,h.pathIds,h.memberships,fun p hp hc => absurd hc (hpaths p hp)⟩
  · rw [Tables.liveEnds,map_eq_nil_iff,filter_eq_nil_iff]
    intro x hx hc
    exact hk ((of_decide_eq_true hc).1 ▸ h.edges x hx)
  · rw [Tables.liveLinks,filterMap_eq_nil_iff]
    intro m _
    have hnone : d.pathOf k m.path=none := by
      rw [Tables.pathOf,find?_eq_none]
      intro p hp hc
      exact hpaths p hp (of_decide_eq_true hc).2
    rw [hnone]
    split_ifs <;> rfl
  · rw [Tables.pendingRemovals,length_eq_zero_iff,filter_eq_nil_iff]
    intro x hx hc
    exact hk ((of_decide_eq_true hc).1 ▸ h.actions x hx)

def filings : List Layout := (if provisionState e a=.scheduled∨provisionState e a=.reserved then
    .provision a.layout::removalOf a else [])++removalOf a

/-- Circuit `k` is new in `d'`, with the ends, links and actions that the arguments ask for. -/
structure Provisioned (type : Option CircuitType) (d : Tables) (k : Nat) (d' : Tables) : Prop where
  fresh : k=nextId (d.circuits.map Circuit.id)
  circuit : ∃ x,d'.circuits=d.circuits++[x]∧x.id=k∧x.state=provisionState e a∧x.type=type
  instantiation : ∃ i,d'.circuitInstantiations=d.circuitInstantiations++[i]∧i.circuit=k∧
    i.endEpoch=forever∧i.state=provisionState e a
  ends : d'.liveEnds k=endsOf d.port c.macHex2num a.staticMac a.macAddresses a.endpoints++
    a.remotes.filterMap (remoteEnd d)
  macs : d'.MacsKeyed
  links : d'.liveLinks k=linksOf d.linkId type .primary a.links++
    linksOf d.linkId type .backup a.backupLinks
  keyed : PathsKeyed k d'
  removals : d'.pendingRemovals k=(filings e a).countP Layout.isRemove
  filed : ∀ x∈d'.scheduledActions,x.circuit=k → x.layout∈filings e a
  actionIds : (d'.scheduledActions.map ScheduledAction.id).Nodup
  nodes : d'.nodes=d.nodes
  interfaces : d'.interfaces=d.interfaces
  linkTable : d'.links=d.links
  placed : (∀ p∈a.endpoints,d.Placed p)∧∀ q∈a.remotes,∃ x,remoteEnd d q=some x

theorem filings_yields (hids : (d.scheduledActions.map ScheduledAction.id).Nodup)
    (user : Option Nat) {rest : Query Nat} {Q : Nat → Tables → Prop}
    (hrest : ∀ d',Filed k d (filings e a) d' → Yields rest d' Q) :
    Yields (do
      onlyIf (provisionState e a=.scheduled∨provisionState e a=.reserved)
        (undoing (addEvent e a user k))
      onlyIf (a.removeTime≠forever)
        (undoing (addRemoveEvent e a.name a.workgroupId a.removeTime user k))
      rest) d Q := by
  have hadd : Yields (onlyIf (provisionState e a=.scheduled∨provisionState e a=.reserved)
      (undoing (addEvent e a user k))) d fun _ d' =>
        Filed k d (if provisionState e a=.scheduled∨provisionState e a=.reserved then
          .provision a.layout::removalOf a else []) d' := by
    refine .ite (fun h => ?_) fun h => .pure ?_
    · rw [if_pos h]
      exact .undoing (addEvent_yields e hids a user)
    · rw [if_neg h]
      exact filed_refl hids
  refine .bind hadd fun _ d₁ h₁ => ?_
  have hremove := Yields.undoing
    (addRemoveEvent_yields e (k := k) h₁.ids a.name a.workgroupId a.removeTime user)
  refine .bind (removal_yields h₁.ids a hremove) fun _ d₂ h₂ => ?_
  exact hrest d₂ (h₁.trans h₂)

theorem provisioned_of_steps (hd : d.Sound) {type : Option CircuitType}
    (hk : k=nextId (d.circuits.map Circuit.id)) {x : Circuit} {i : CircuitInstantiation}
    (hx : x.id=k∧x.state=provisionState e a∧x.type=type)
    (hi : i.circuit=k∧i.endEpoch=forever∧i.state=provisionState e a) {d₂ d₃ d₅ d' : Tables}
    (hd₂ : d₂={d with
      circuits := d.circuits++[x]
      circuitInstantiations := d.circuitInstantiations++[i]})
    (hfiled : Filed k d₂ (filings e a) d₃)
    (hends : Connected k d₃ (endsOf d.port c.macHex2num a.staticMac a.macAddresses a.endpoints++
      a.remotes.filterMap (remoteEnd d)) d₅)
    (hlinks : Linked k d₅ (linksOf d.linkId type .primary a.links++
      linksOf d.linkId type .backup a.backupLinks) d')
    (hplaced : (∀ p∈a.endpoints,d.Placed p)∧∀ q∈a.remotes,∃ x,remoteEnd d q=some x) :
    Provisioned c e a type d k d' := by
  have hnew : k∉d.circuits.map Circuit.id := hk ▸ not_mem_nextId _
  obtain ⟨hnoEnds,hnoLinks,hnoRemovals,-⟩ := hd.unknown hnew
  have hactions : d'.scheduledActions=d₃.scheduledActions := by rw [hlinks.frame,hends.frame]
  have hsame : d'.circuits=d₂.circuits∧d'.circuitInstantiations=d₂.circuitInstantiations∧
      d'.nodes=d₂.nodes∧d'.interfaces=d₂.interfaces∧d'.links=d₂.links := by
    rw [hlinks.frame,hends.frame,hfiled.frame]
    exact ⟨rfl,rfl,rfl,rfl,rfl⟩
  subst hd₂
  exact {
    fresh := hk
    circuit := ⟨x,hsame.1,hx⟩
    instantiation := ⟨i,hsame.2.1,hi⟩
    ends := by
      have hlast : d'.liveEnds k=d₅.liveEnds k := by
        rw [hlinks.frame]
        rfl
      have hfirst : d₃.liveEnds k=d.liveEnds k := by
        rw [hfiled.frame]
        rfl
      rw [hlast,hends.ends,hfirst,hnoEnds,nil_append]
    macs := by
      rw [hlinks.frame]
      exact hends.macs
    links := by
      have hfirst : d₅.liveLinks k=d.liveLinks k := by
        rw [hends.frame,hfiled.frame]
        rfl
      rw [hlinks.links,hfirst,hnoLinks,nil_append]
    keyed := hlinks.keyed
    removals := by
      have hlast : d'.pendingRemovals k=d₃.pendingRemovals k := by
        unfold Tables.pendingRemovals
        rw [hactions]
      have hfirst := hfiled.removals.trans
        (congrArg (·+(filings e a).countP Layout.isRemove) hnoRemovals)
      rw [hlast,hfirst,Nat.zero_add]
    filed := by
      intro y hy hc
      rw [hactions] at hy
      rcases hfiled.layouts y hy with hold | hlayout
      · exact absurd (hc ▸ hd.actions y hold) hnew
      · exact hlayout
    actionIds := hactions ▸ hfiled.ids
    nodes := hsame.2.2.1
    interfaces := hsame.2.2.2.1
    linkTable := hsame.2.2.2.2
    placed := hplaced}

theorem provisionRecords_yields (hd : d.Sound) (b : Nat×String×Option CircuitType) :
    Yields (provisionRecords c e a b) d fun k d' => Provisioned c e a b.2.2 d k d' := by
  refine .bind (.required (.abort _)) fun k d₁ hins => ?_
  have hk : k=nextId (d.circuits.map Circuit.id) := by
    cases hins
    rfl
  let x : Circuit := ⟨k,b.2.1,a.description,a.workgroupId,a.externalId,a.restoreToPrimary,
    a.staticMac,provisionState e a,a.remoteUrl,a.remoteRequester,b.2.2⟩
  have hcircuit : d₁={d with circuits := d.circuits++[x]} := by
    cases hins
    rfl
  rw [hcircuit]
  let i : CircuitInstantiation :=
    ⟨k,a.bandwidth,provisionState e a,b.1,forever,e.now,none,"Circuit Creation"⟩
  let d₂ : Tables := {d with
    circuits := d.circuits++[x]
    circuitInstantiations := d.circuitInstantiations++[i]}
  refine .bind (Q := fun _ d' => d'=d₂) ?_ fun _ d' hd' => ?_
  · refine .statement (fun u d' h => ?_) fun h => nomatch h
    cases h
    rfl
  rw [hd']
  refine filings_yields e a (d := d₂) hd.actionIds (some b.1) fun d₃ hfiled => ?_
  have hmacs : d₃.MacsKeyed := by
    rw [hfiled.frame]
    exact hd.macs
  have hport : d₃.port=d.port∧remoteEnd d₃=remoteEnd d∧d₃.Placed=d.Placed := by
    rw [hfiled.frame]
    exact ⟨rfl,rfl,rfl⟩
  refine .bind (provisionEndpoints_yields c e a b.2.2 hmacs [] _ _) fun _ d₄ hp => ?_
  obtain ⟨hconnected,hplaced⟩ := hp
  refine .bind (provisionRemotes_yields c e hconnected.macs _) fun _ d₅ hr => ?_
  obtain ⟨hremote,hplacedRemotes⟩ := hr
  rw [remoteEnd_of_frame hconnected,hport.2.1] at hremote hplacedRemotes
  rw [hport.1] at hconnected
  rw [hport.2.2] at hplaced
  have hall := hconnected.trans hremote
  have hkeyed : PathsKeyed k d₅ := by
    obtain ⟨-,-,-,hkeyed⟩ := hd.unknown (hk ▸ not_mem_nextId (d.circuits.map Circuit.id))
    rw [hall.frame,hfiled.frame]
    exact ⟨hkeyed.ids,hkeyed.memberships,hkeyed.types⟩
  refine .bind (provisionPath_yields c e hkeyed b.2.2 (by decide) a.links) fun _ d₆ hprimary => ?_
  refine .bind (provisionPath_yields c e hprimary.keyed b.2.2 (by decide) _) fun _ d₇ hbackup => ?_
  refine .step (.readOnly (Lookup.readOnly _)) fun invalid => ?_
  cases invalid with
  | some error => exact (Barren.abort _).yields
  | none =>
    have hlinked := hprimary.trans hbackup
    have hlinkId : d₆.linkId=d.linkId∧d₅.linkId=d.linkId := by
      rw [hprimary.frame,hall.frame,hfiled.frame]
      exact ⟨rfl,rfl⟩
    rw [hlinkId.1,hlinkId.2,linksOf_backup] at hlinked
    exact .pure (provisioned_of_steps c e a hd hk ⟨rfl,rfl,rfl⟩
      ⟨rfl,rfl,rfl⟩ rfl hfiled hall hlinked ⟨hplaced,hplacedRemotes⟩)

end OESS.Database
