import OESS.Database.Edited
import OESS.Database.ScheduledActions

namespace OESS.Database

open Transactions Transactions.Routine List

def LiveEnd.untagged (x : LiveEnd) : LiveEnd := {x with innerTag := none}

def Endpoint.untagged (p : Endpoint) : Endpoint := {p with innerVlan := none}

variable {port : Endpoint → Option Nat} {hex : Option String → Nat} {static : Bool}

theorem endsOf_untagged (hport : ∀ p : Endpoint,port p.untagged=port p) (macs : List String)
    (ps : List Endpoint) : endsOf port hex static macs (ps.map Endpoint.untagged)=
      (endsOf port hex static macs ps).map LiveEnd.untagged := by
  induction ps generalizing macs with
  | nil => rfl
  | cons p ps ih =>
    have hrest := ih (if static then macs.drop p.macNum else macs)
    have hvlan : p.untagged.vlan=p.vlan := rfl
    have hnum : p.untagged.macNum=p.macNum := rfl
    rw [map_cons,endsOf,endsOf,hport,hvlan,hnum,hrest]
    cases port p with
    | none => rfl
    | some i => cases p.vlan <;> rfl

variable {macs : List String} {ps : List Endpoint}

theorem mem_endsOf {x : LiveEnd} (h : x∈endsOf port hex static macs ps) :
    ∃ p∈ps,port p=some x.interface∧x.innerTag=p.innerVlan := by
  induction ps generalizing macs with
  | nil => cases h
  | cons p ps ih =>
    rcases mem_append.mp h with h | h
    · refine ⟨p,mem_cons_self,?_⟩
      split at h
      · rename_i hi hv
        rw [mem_singleton.mp h]
        exact ⟨hi,rfl⟩
      · cases h
    · obtain ⟨q,hq,hx⟩ := ih h
      exact ⟨q,mem_cons_of_mem p hq,hx⟩

theorem endsOf_mem {p : Endpoint} {i : Nat} {v : Int} (hp : p∈ps) (hi : port p=some i)
    (hv : p.vlan=some v) :
    ∃ x∈endsOf port hex static macs ps,x.interface=i∧x.innerTag=p.innerVlan := by
  induction ps generalizing macs with
  | nil => cases hp
  | cons q ps ih =>
    rcases mem_cons.mp hp with rfl | hp
    · rw [endsOf_cons hi hv]
      exact ⟨_,mem_cons_self,rfl,rfl⟩
    · obtain ⟨x,hx,hsame⟩ := ih hp
      exact ⟨x,mem_append_right _ hx,hsame⟩

/-- The rows without `p` stay and the first list is written again: the result is a permutation
exactly if nothing is lost or changed. -/
theorem perm_rewritten_iff {α : Type} {p q : α → Prop} [DecidablePred p] {f : α → α}
    (hp : ∀ x,p (f x) ↔ p x) (hq : ∀ x,q (f x)) (hf : ∀ x,q x → f x=x) (xs ys : List α) :
    (((xs++ys).filter fun x => ¬p x)++xs.map f).Perm (xs++ys) ↔ (∀ x∈xs,p x∧q x)∧∀ y∈ys,¬p y := by
  have hsplit : (((xs++ys).filter fun x => ¬p x)++(xs++ys).filter (p ·)).Perm (xs++ys) := by
    simpa only [decide_not] using perm_append_comm.trans (filter_append_perm (p ·) (xs++ys))
  rw [← hsplit.congr_right,perm_append_left_iff,filter_append]
  constructor
  · intro h
    have hall : ∀ x∈xs,p x := by
      intro x hx
      have hmem := h.mem_iff.mp (mem_map_of_mem hx)
      rw [← filter_append] at hmem
      exact (hp x).mp (of_decide_eq_true (mem_filter.mp hmem).2)
    have hxs : xs.filter (p ·)=xs := filter_eq_self.mpr (by simpa using hall)
    have hlength := h.length_eq
    rw [length_map,length_append,hxs] at hlength
    have hys : ys.filter (p ·)=[] := length_eq_zero_iff.mp (by omega)
    refine ⟨fun x hx => ⟨hall x hx,?_⟩,by simpa using hys⟩
    rw [hxs,hys,append_nil] at h
    obtain ⟨y,-,rfl⟩ := mem_map.mp (h.mem_iff.mpr hx)
    exact hq y
  · intro ⟨hxs,hys⟩
    have hx : xs.filter (p ·)=xs := filter_eq_self.mpr (by simpa using fun x hx => (hxs x hx).1)
    have hy : ys.filter (p ·)=[] := filter_eq_nil_iff.mpr (by simpa using hys)
    rw [hx,hy,append_nil,map_congr_left fun x hx => hf x (hxs x hx).2,map_id']

section States

variable {c : Checks} {e : Env} {a : CircuitArgs} {d d' : Tables} {k : Nat}

variable {type : Option CircuitType}

theorem Provisioned.rows (h : Provisioned c e a type d k d') (hd : d.Sound) :
    ∃ x i,(d'.circuits.filter (·.id=k))=[x]∧
      (d'.circuitInstantiations.filter fun j => j.circuit=k∧j.endEpoch=forever)=[i]∧
      (x.state=provisionState e a∧x.type=type)∧i.state=provisionState e a := by
  have hnew : k∉d.circuits.map Circuit.id := h.fresh ▸ not_mem_nextId _
  obtain ⟨x,hcircuits,hid,hx⟩ := h.circuit
  obtain ⟨i,hinstantiations,hc,hlive,hi⟩ := h.instantiation
  refine ⟨x,i,?_,?_,hx,hi⟩
  · have hold : (d.circuits.filter (·.id=k))=[] := by
      rw [filter_eq_nil_iff]
      intro y hy heq
      exact hnew (of_decide_eq_true heq ▸ mem_map_of_mem hy)
    rw [hcircuits,filter_append,hold]
    simp [hid]
  · have hold : (d.circuitInstantiations.filter fun j => j.circuit=k∧j.endEpoch=forever)=[] := by
      rw [filter_eq_nil_iff]
      intro j hj heq
      exact hnew ((of_decide_eq_true heq).1 ▸ hd.instantiations j hj)
    rw [hinstantiations,filter_append,hold]
    simp [hc,hlive]

theorem circuitRows_of_rows {x : Circuit} {i : CircuitInstantiation}
    (hids : (d.paths.map Path.id).Nodup) (hx : (d.circuits.filter (·.id=k))=[x])
    (hi : (d.circuitInstantiations.filter fun j => j.circuit=k∧j.endEpoch=forever)=[i]) :
    d.circuitRows k=[(x,i)] := by
  have hlive : ((d.circuitInstantiations.filter (·.circuit=k)).filter
      (·.endEpoch=forever))=[i] := by
    rw [← hi,filter_filter]
    simp [Bool.and_comm]
  have hrecords := (owned_records hids k).circuitRows
  unfold Records.circuitRows Tables.records at hrecords
  rw [hrecords,hx,hlive]
  rfl

theorem Provisioned.circuitStates (h : Provisioned c e a type d k d') (hd : d.Sound) :
    d'.circuitStates k=([provisionState e a],[provisionState e a]) := by
  obtain ⟨x,i,hx,hi,⟨hstate,-⟩,hlive⟩ := h.rows hd
  rw [Tables.circuitStates,hx,hi,map_singleton,map_singleton,hstate,hlive]

theorem updateCircuit_states (b : CircuitArgs) (state : CircuitState) (type : CircuitType) :
    ((d.updateCircuit k b state type).circuits.filter (·.id=k)).map Circuit.state=
      (d.circuits.filter (·.id=k)).map fun _ => state := by
  unfold Tables.updateCircuit
  induction d.circuits with
  | nil => rfl
  | cons y ys ih =>
    by_cases hy : y.id=k
    all_goals simpa [hy] using ih

theorem endInstantiations_live {now : Int} (hnow : now≠forever) :
    ((d.endInstantiations k now).circuitInstantiations.filter
      fun j => j.circuit=k∧j.endEpoch=forever)=[] := by
  rw [filter_eq_nil_iff]
  intro j hj hlive
  obtain ⟨i,-,rfl⟩ := mem_map.mp hj
  have hboth := of_decide_eq_true hlive
  split_ifs at hboth with hi
  · exact hnow hboth.2
  · exact hi hboth

theorem Edited.circuitStates {b : EditArgs} {ends : List LiveEnd} {links : List (PathType×Nat)}
    (h : Edited e b ends links d d') (hnow : e.now≠forever) {x : Circuit}
    (hx : (d.circuits.filter (·.id=b.circuitId))=[x]) :
    d'.circuitStates b.circuitId=([b.state.getD .active],[b.state.getD .active]) := by
  obtain ⟨i,hinstantiations,hc,hlive,hi⟩ := h.instantiation
  have hfirst : (d'.circuits.filter (·.id=b.circuitId)).map Circuit.state=
      [b.state.getD .active] := by
    rw [h.circuits,updateCircuit_states,hx]
    rfl
  have hsecond : (d'.circuitInstantiations.filter
      fun j => j.circuit=b.circuitId∧j.endEpoch=forever).map CircuitInstantiation.state=
        [b.state.getD .active] := by
    rw [hinstantiations,filter_append,endInstantiations_live hnow]
    simp [hc,hlive,hi]
  rw [Tables.circuitStates,hfirst,hsecond]

theorem pendingRemovals_complete {now : Int} {act : ScheduledAction}
    (hids : (d.scheduledActions.map ScheduledAction.id).Nodup) (hact : act∈d.scheduledActions)
    (hlayout : act.layout.isRemove=false) :
    (d.completeAction act.id now).pendingRemovals k=d.pendingRemovals k := by
  rw [Tables.pendingRemovals,Tables.completeAction,filter_map,length_map]
  congr 1
  refine filter_congr fun x hx => ?_
  rw [Function.comp_apply]
  split_ifs with hid
  · have hsame : x=act := inj_on_of_nodup_map hids hx hact hid
    simp [hsame,hlayout]
  · rfl

end States

section Routes

variable (c : Checks) (object : Nat → Lookup Tables String (Option CircuitObject)) (e : Env)
  (a : CircuitArgs) {d : Tables} {k : Nat}

def CircuitArgs.onset (time : Int) : CircuitArgs := {a with provisionTime := time}

variable {s : Session Tables} {type : Option CircuitType} {d₂ : Tables}

theorem provisionCircuit_done (hd : d.Sound) {t : Session Tables} (hs : s.Healthy) (hdb : s.db=d)
    {r : Option Nat} (h : provisionCircuit c e a s=(.done (.circuit k r),t)) :
    ∃ b u,provisionStart c e a s=(.done b,u)∧Provisioned c e a b.2.2 d k t.db := by
  rw [provisionCircuit_eq] at h
  obtain ⟨b,u,hstart,h⟩ := bind_done_iff.mp h
  obtain ⟨k₀,v,hrecords,h⟩ := bind_done_iff.mp h
  obtain ⟨ok,w,hcommit,h⟩ := bind_done_iff.mp h
  obtain ⟨hreply,hlast⟩ := pure_done_iff.mp h
  cases hreply
  obtain ⟨hu,hudb⟩ := provisionStart_yields c e a s b u hs hdb hstart
  obtain ⟨hv,hprovisioned⟩ := provisionRecords_yields c e a hd b u k v hu hudb hrecords
  obtain ⟨-,hw⟩ := Yields.commit v ok w hv rfl hcommit
  rw [hlast,hw]
  exact ⟨b,u,hstart,hprovisioned⟩

variable {object e} {e' : Env} {act : ScheduledAction}

def activation (e' : Env) (act : ScheduledAction) (user description : String)
    (type : Option CircuitType) : EditArgs :=
  a.layout.editArgs act e'.now user description (some .active) type

theorem activation_endpoints (user description : String) (type : Option CircuitType) :
    (activation a e' act user description type).endpoints=a.endpoints.map Endpoint.untagged := by
  unfold CircuitArgs.endpoints
  rw [map_map]
  rfl

theorem complete_done {w : Session Tables} {o : Option Unit} {id : Nat}
    (h : updateActionCompleteEpoch e' id w=(.done o,s)) :
    s.db=w.db.completeAction id e'.now∨s.db=w.db∧¬w.Healthy := by
  unfold updateActionCompleteEpoch write statement at h
  split at h
  next hf =>
    cases h
    exact .inr ⟨rfl,fun hw => Bool.false_ne_true ((hw w.asked).symm.trans hf)⟩
  next hf =>
    cases h
    exact .inl rfl

variable {c a} in
theorem editAndComplete_done {v : Session Tables} {x : Circuit×CircuitInstantiation}
    {Q : String → Tables → Prop} (hv : Idle v) (hhealthy : v.Healthy)
    (hQ : ∀ user,Yields (editCircuit c e' (activation a e' act user x.1.description type)) v.db
      fun _ d' => Q user d')
    (h : editAndComplete c e' act (some x) a.layout (some .active) type v=(.done (),s)) :
    (s.db.circuitRows k=v.db.circuitRows k)∨
      ∃ user d',Q user d'∧s.db=d'.completeAction act.id e'.now := by
  obtain ⟨user,u,huser,h⟩ := bind_done_iff.mp h
  obtain ⟨hu,hudb⟩ := Yields.readOnly (userNameOf_readOnly _) v user u hhealthy rfl huser
  have hidle : Idle u := by
    have hsame := (userNameOf_readOnly act.user).inside v
    rw [huser] at hsame
    exact ⟨hsame.1.trans hv.1,hsame.logged hv.2⟩
  obtain ⟨o,w,hedit,h⟩ := bind_done_iff.mp h
  obtain ⟨done,w',hcomplete,h⟩ := bind_done_iff.mp h
  obtain ⟨-,hlast⟩ := pure_done_iff.mp h
  rw [hlast]
  change attempt (editCircuit c e' (activation a e' act user x.1.description type)) u=_ at hedit
  unfold attempt at hedit
  cases hr : editCircuit c e' (activation a e' act user x.1.description type) u with
  | mk outcome t =>
    rw [hr] at hedit
    cases outcome with
    | done r =>
      cases hedit
      obtain ⟨ht,hq⟩ := hQ user u r w hu hudb hr
      rcases complete_done hcomplete with hdb | ⟨-,hw⟩
      · exact .inr ⟨user,w.db,hq,hdb⟩
      · exact absurd ht hw
    | failed error =>
      cases hedit
      have hclean : Clean (editCircuit c e' (activation a e' act user x.1.description type)) :=
        editCircuit_clean c e' (activation a e' act user x.1.description type)
      have hsame := (undoes_of_clean hclean hidle error w hr).2
      left
      rcases complete_done hcomplete with hdb | ⟨hdb,-⟩
      · rw [hdb,hsame,hudb]
        rfl
      · rw [hdb,hsame,hudb]
    | died => cases hedit

variable {c a} in
theorem Provisioned.statics {d' : Tables} (h : Provisioned c e a type d k d') :
    d'.port=d.port∧d'.linkId=d.linkId∧d'.IsLocal=d.IsLocal := by
  refine ⟨?_,?_,?_⟩
  · unfold Tables.port Tables.interfaceRow
    rw [h.nodes,h.interfaces]
  · unfold Tables.linkId
    rw [h.linkTable]
  · unfold Tables.IsLocal
    rw [h.nodes,h.interfaces]

theorem mem_filings {l : CircuitLayout} (h : .provision l∈filings e a) :
    (provisionState e a=.scheduled∨provisionState e a=.reserved)∧l=a.layout := by
  by_cases hstate : provisionState e a=.scheduled∨provisionState e a=.reserved
  · refine ⟨hstate,?_⟩
    rw [filings,if_pos hstate] at h
    simpa [removalOf] using h
  · rw [filings,if_neg hstate] at h
    simp [removalOf] at h

variable {c a} in
theorem runAction_activated (hd : d.Sound) (hp : Provisioned c e a type d k d₂)
    (hnow : e'.now≠forever) (hact : act∈d₂.scheduledActions) (hcircuit : act.circuit=k)
    (hlayout : ∃ l,act.layout=.provision l)
    (hrun : runAction c object e' act (connect d₂ fun _ => false)=(.done (),s))
    (hactive : s.db.circuitState k=some .active) :
    provisionState e a=.scheduled∧∃ user description d₃,s.db=d₃.completeAction act.id e'.now∧
      Edited e' (activation a e' act user description type)
        ((endsOf d.port c.macHex2num a.staticMac a.macAddresses a.endpoints).map LiveEnd.untagged)
        (linksOf d.linkId type .primary a.links++linksOf d.linkId type .backup a.backupLinks)
        d₂ d₃ := by
  subst hcircuit
  obtain ⟨l,hl⟩ := hlayout
  have hfiled := hp.filed act hact rfl
  rw [hl] at hfiled
  obtain ⟨hwaiting,rfl⟩ := mem_filings a hfiled
  obtain ⟨x,i,hx,hi,⟨-,htype⟩,hstate⟩ := hp.rows hd
  have hrows := circuitRows_of_rows hp.keyed.ids hx hi
  obtain ⟨rows,v,hread,hrest⟩ := bind_done_iff.mp hrun
  have hstart : (connect d₂ fun _ => false).Healthy := fun _ => rfl
  obtain ⟨hv,hvdb,hfound⟩ := yields_rowsOf (d := d₂) _ _ rows v hstart rfl hread
  have hidle : Idle v := by
    have hsame := (rowsOf_readOnly (·.circuitRows act.circuit)).inside
      (connect d₂ fun _ => false)
    rw [hread] at hsame
    exact ⟨hsame.1,hsame.logged rfl⟩
  have hhead : rows.head?=some (x,i) := by rw [hfound,hrows,head?_cons]
  have hkept (hsame : s.db.circuitRows act.circuit=v.db.circuitRows act.circuit) :
      i.state=.active := by
    rw [Tables.circuitState,hsame,hvdb,hrows] at hactive
    simpa using hactive
  rw [hl] at hrest
  change provisionAction c e' act rows.head? a.layout v=_ at hrest
  rw [hhead] at hrest
  have hscheduled : provisionState e a=.scheduled := by
    refine hwaiting.resolve_right fun hreserved => ?_
    -- the scheduler leaves a reserved circuit alone
    have hskip : provisionAction c e' act (some (x,i)) a.layout=pure () := by
      simp [provisionAction,hstate,hreserved]
    rw [hskip] at hrest
    obtain ⟨-,hlast⟩ := pure_done_iff.mp hrest
    have hkeeps := hkept (by rw [hlast])
    rw [hstate,hreserved] at hkeeps
    cases hkeeps
  have hstep : provisionAction c e' act (some (x,i)) a.layout=
      editAndComplete c e' act (some (x,i)) a.layout (some .active) type := by
    simp [provisionAction,hstate,hscheduled,htype]
  rw [hstep] at hrest
  obtain ⟨hport,hlinkId,-⟩ := hp.statics
  have hedit (user : String) : Yields
      (editCircuit c e' (activation a e' act user x.description type)) v.db fun _ d' =>
        Edited e' (activation a e' act user x.description type)
          ((endsOf d.port c.macHex2num a.staticMac a.macAddresses a.endpoints).map LiveEnd.untagged)
          (linksOf d.linkId type .primary a.links++linksOf d.linkId type .backup a.backupLinks)
          d₂ d' := by
    have huntagged : ∀ p : Endpoint,d.port p.untagged=d.port p := fun _ => rfl
    have h := editCircuit_yields c e' (activation a e' act user x.description type) hnow
      (Int.lt_irrefl e'.now) rfl rfl hp.macs hp.keyed
    unfold EditedAs at h
    rw [activation_endpoints,hport,hlinkId,endsOf_untagged huntagged] at h
    rw [hvdb]
    exact h
  refine ⟨hscheduled,?_⟩
  rcases editAndComplete_done hidle hv hedit hrest with hsame | ⟨user,d₃,h,hdb⟩
  · have hkeeps := hkept hsame
    rw [hstate,hscheduled] at hkeeps
    cases hkeeps
  · exact ⟨user,x.description,d₃,hdb,h⟩

/-- Circuit `k` has the same live ends, links and states in both databases. -/
structure SameCircuit (k : Nat) (d d' : Tables) : Prop where
  ends : (d'.liveEnds k).Perm (d.liveEnds k)
  links : (d'.liveLinks k).Perm (d.liveLinks k)
  states : d'.circuitStates k=d.circuitStates k

/-- The layout that is stored for the action keeps all of the request that the edit needs. -/
structure Lossless (d : Tables) : Prop where
  state : a.state.getD .active=.active
  removal : a.removeTime=forever
  untagged : ∀ p∈a.endpoints,p.innerVlan=none
  inside : ∀ p∈a.endpoints,∀ i∈d.port p,d.IsLocal i
  outside : ∀ q∈a.remotes,∀ i∈d.urnInterface q.1,¬d.IsLocal i

theorem remoteEnd_interface {q : String×Option Int} {x : LiveEnd} (h : remoteEnd d q=some x) :
    d.urnInterface q.1=some x.interface := by
  obtain ⟨i,hi,h⟩ := Option.bind_eq_some_iff.mp h
  obtain ⟨v,-,h⟩ := Option.bind_eq_some_iff.mp h
  cases h
  exact (Option.filter_eq_some_iff.mp hi).1

variable {c a} in
/-- The edit restores the ends exactly if no endpoint has an inner tag and each end is on its side
of the network. -/
theorem ends_perm_iff (hp : Provisioned c e a type d k d₂) :
    let ends := endsOf d.port c.macHex2num a.staticMac a.macAddresses a.endpoints
    let remotes := a.remotes.filterMap (remoteEnd d)
    (((ends++remotes).filter fun x => ¬d.IsLocal x.interface)++ends.map LiveEnd.untagged).Perm
        (ends++remotes) ↔
      (∀ p∈a.endpoints,p.innerVlan=none)∧(∀ p∈a.endpoints,∀ i∈d.port p,d.IsLocal i)∧
        ∀ q∈a.remotes,∀ i∈d.urnInterface q.1,¬d.IsLocal i := by
  intro ends remotes
  have hfixed : ∀ x : LiveEnd,x.innerTag=none → x.untagged=x := by
    intro x hx
    cases x
    cases hx
    rfl
  have hperm := perm_rewritten_iff (p := fun x : LiveEnd => d.IsLocal x.interface)
    (f := LiveEnd.untagged) (fun _ => Iff.rfl) (fun _ => rfl) hfixed
    ends remotes
  refine hperm.trans ⟨fun ⟨hends,hremotes⟩ => ⟨?_,?_,?_⟩,fun ⟨htags,hinside,houtside⟩ => ⟨?_,?_⟩⟩
  · intro p hmem
    obtain ⟨i,v,hi,hv⟩ := hp.placed.1 p hmem
    obtain ⟨x,hx,-,htag⟩ := endsOf_mem hmem hi hv
    exact htag.symm.trans (hends x hx).2
  · intro p hmem i hi
    obtain ⟨j,v,hj,hv⟩ := hp.placed.1 p hmem
    obtain ⟨x,hx,hinterface,-⟩ := endsOf_mem hmem hi hv
    exact hinterface ▸ (hends x hx).1
  · intro q hmem i hi
    obtain ⟨x,hx⟩ := hp.placed.2 q hmem
    have hsame : i=x.interface := Option.some.inj (hi.symm.trans (remoteEnd_interface hx))
    rw [hsame]
    exact hremotes x (mem_filterMap.mpr ⟨q,hmem,hx⟩)
  · intro x hx
    obtain ⟨p,hmem,hi,htag⟩ := mem_endsOf hx
    exact ⟨hinside p hmem x.interface hi,htag.trans (htags p hmem)⟩
  · intro x hx
    obtain ⟨q,hmem,hq⟩ := mem_filterMap.mp hx
    exact houtside q hmem x.interface (remoteEnd_interface hq)

theorem filings_removals (hscheduled : provisionState e a=.scheduled) :
    (filings e a).countP Layout.isRemove=if a.removeTime=forever then 0 else 2 := by
  rw [filings,if_pos (.inl hscheduled),removalOf]
  split_ifs <;> rfl

/-- Circuit `k` as the scheduler leaves it, its endpoints written again without inner tags. -/
structure Activated (type : Option CircuitType) (d d' : Tables) (k : Nat) : Prop where
  ends : d'.liveEnds k= ((endsOf d.port c.macHex2num a.staticMac a.macAddresses a.endpoints++
      a.remotes.filterMap (remoteEnd d)).filter fun x => ¬d.IsLocal x.interface)++
    (endsOf d.port c.macHex2num a.staticMac a.macAddresses a.endpoints).map LiveEnd.untagged
  links : d'.liveLinks k=linksOf d.linkId type .primary a.links++
    linksOf d.linkId type .backup a.backupLinks
  states : d'.circuitStates k=([.active],[.active])
  removals : d'.pendingRemovals k=if a.removeTime=forever then 0 else 2

variable {c a} in
theorem activated_of_run (hd : d.Sound) (hp : Provisioned c e a type d k d₂) (hnow : e'.now≠forever)
    (hact : act∈d₂.scheduledActions) (hcircuit : act.circuit=k)
    (hlayout : ∃ l,act.layout=.provision l)
    (hrun : runAction c object e' act (connect d₂ fun _ => false)=(.done (),s))
    (hactive : s.db.circuitState k=some .active) : Activated c a type d s.db k := by
  obtain ⟨hscheduled,user,description,d₃,hdb,h⟩ :=
    runAction_activated hd hp hnow hact hcircuit hlayout hrun hactive
  subst hcircuit
  -- to complete the action changes nothing but the actions
  have hsame : s.db.liveEnds act.circuit=d₃.liveEnds act.circuit∧
      s.db.liveLinks act.circuit=d₃.liveLinks act.circuit∧
      s.db.circuitStates act.circuit=d₃.circuitStates act.circuit := by
    rw [hdb]
    exact ⟨rfl,rfl,rfl⟩
  refine ⟨?_,?_,?_,?_⟩
  · have hlocal (x : LiveEnd) : d₂.IsLocal x.interface ↔ d.IsLocal x.interface := by
      rw [hp.statics.2.2]
    have hends := h.ends
    simp only [hlocal] at hends
    rwa [hsame.1,← hp.ends]
  · rw [hsame.2.1]
    exact h.links
  · obtain ⟨x,i,hx,-⟩ := hp.rows hd
    rw [hsame.2.2]
    exact h.circuitStates hnow hx
  · have hmem : act∈d₃.scheduledActions := h.actions ▸ hact
    have hids : (d₃.scheduledActions.map ScheduledAction.id).Nodup := h.actions ▸ hp.actionIds
    have hkind : act.layout.isRemove=false := by
      obtain ⟨l,hl⟩ := hlayout
      rw [hl]
      rfl
    have hfiled : d₃.pendingRemovals act.circuit=d₂.pendingRemovals act.circuit := by
      unfold Tables.pendingRemovals
      rw [h.actions]
    rw [hdb,pendingRemovals_complete hids hmem hkind,hfiled,hp.removals]
    exact filings_removals a hscheduled

/-- A circuit activated by the scheduler is the one that is provisioned at once, with one pending
removal, exactly if the layout of its action is lossless. -/
theorem activation_same_iff (hd : d.Sound) (hnow : e'.now≠forever) {time : Int} {k' : Nat}
    {r r' : Option Nat} {s₁ s₂ s₃ : Session Tables}
    (himmediate : provisionCircuit c e (a.onset forever) (connect d fun _ => false)=
      (.done (.circuit k r),s₁))
    (hscheduled : provisionCircuit c e (a.onset time) (connect d fun _ => false)=
      (.done (.circuit k' r'),s₂))
    (hact : act∈s₂.db.scheduledActions) (hcircuit : act.circuit=k')
    (hlayout : ∃ l,act.layout=.provision l)
    (hrun : runAction c object e' act (connect s₂.db fun _ => false)=(.done (),s₃))
    (hactive : s₃.db.circuitState k'=some .active) :
    k'=k∧((SameCircuit k s₁.db s₃.db∧(a.removeTime≠forever → s₃.db.pendingRemovals k=1)) ↔
      Lossless a d) := by
  have hhealthy : (connect d fun _ => false).Healthy := fun _ => rfl
  obtain ⟨b,u,hstart,hp⟩ := provisionCircuit_done c e _ hd hhealthy rfl himmediate
  obtain ⟨b',u',hstart',hp'⟩ := provisionCircuit_done c e _ hd hhealthy rfl hscheduled
  -- the type is looked up before the time of the request matters
  have hb : b'=b := by
    have hsame := hstart'.symm.trans hstart
    cases hsame
    rfl
  subst hb
  have hk : k'=k := hp'.fresh.trans hp.fresh.symm
  subst hk
  refine ⟨rfl,?_⟩
  have h := activated_of_run hd hp' hnow hact hcircuit hlayout hrun hactive
  have hends : (s₃.db.liveEnds k').Perm (s₁.db.liveEnds k') ↔
      (∀ p∈a.endpoints,p.innerVlan=none)∧(∀ p∈a.endpoints,∀ i∈d.port p,d.IsLocal i)∧
        ∀ q∈a.remotes,∀ i∈d.urnInterface q.1,¬d.IsLocal i := by
    rw [h.ends,hp.ends]
    exact ends_perm_iff hp'
  have hlinks : s₃.db.liveLinks k'=s₁.db.liveLinks k' := h.links.trans hp.links.symm
  have hstates : s₃.db.circuitStates k'=s₁.db.circuitStates k' ↔ a.state.getD .active=.active := by
    have himmediately : provisionState e (a.onset forever)=a.state.getD .active := by
      simp [provisionState,CircuitArgs.onset]
    rw [h.states,hp.circuitStates hd,himmediately]
    constructor
    · intro heq
      simpa using heq.symm
    · intro heq
      rw [heq]
  have hremovals : s₃.db.pendingRemovals k'=if a.removeTime=forever then 0 else 2 := h.removals
  constructor
  · intro ⟨hsame,hone⟩
    obtain ⟨htags,hinside,houtside⟩ := hends.mp hsame.ends
    have hforever : a.removeTime=forever := by
      by_contra hno
      have htwo := hone hno
      rw [hremovals,if_neg hno] at htwo
      cases htwo
    exact ⟨hstates.mp hsame.states,hforever,htags,hinside,houtside⟩
  · intro hall
    have hperm := hends.mpr ⟨hall.untagged,hall.inside,hall.outside⟩
    refine ⟨⟨hperm,?_,hstates.mpr hall.state⟩,fun hno => absurd hall.removal hno⟩
    rw [hlinks]

end Routes

section Cases

def replied : Outcome String Reply → Option (Nat×Option Nat)
  | .done (.circuit k r) => some (k,r)
  | _ => none

theorem replied_eq {x : Outcome String Reply×Session Tables} {k : Nat} {r : Option Nat}
    (h : replied x.1=some (k,r)) : x=(.done (.circuit k r),x.2) := by
  obtain ⟨o,s⟩ := x
  match o,h with
  | .done (.circuit _ _),rfl => rfl

def returned : Outcome String Unit → Bool
  | .done _ => true
  | _ => false

theorem returned_eq {x : Outcome String Unit×Session Tables} (h : returned x.1=true) :
    x=(.done (),x.2) := by
  obtain ⟨o,s⟩ := x
  match o,h with
  | .done _,_ => rfl

def mplsChecks : Checks := {passingChecks with
    isExternalVlanAvailableOnInterface := fun _ _ => found (some (true,.mpls))}

def twoNodes : Tables := {emptyNetwork with
    nodes := [⟨1,"node-a","11",none,true,true⟩,⟨2,"node-z","12",none,true,true⟩]
    interfaces := [⟨1,"e1/1",1,.customer,none,none⟩,⟨2,"e1/2",2,.customer,none,none⟩,
        ⟨3,"e2/1",1,.trunk,none,none⟩,⟨4,"e2/2",2,.trunk,none,none⟩]
    links := [⟨1,"a-z"⟩]
    linkInstantiations := [⟨1,3,4,-1⟩]}

theorem twoNodes_sound : twoNodes.Sound where
  macs := fun _ h => nomatch h
  edges := fun _ h => nomatch h
  instantiations := fun _ h => nomatch h
  paths := fun _ h => nomatch h
  pathIds := nodup_nil
  memberships := fun _ h => nomatch h
  actions := fun _ h => nomatch h
  actionIds := nodup_nil

def plainRequest : CircuitArgs := {unknownEndpoints with
    links := ["a-z"]
    macAddresses := ["00:00:00:00:00:01"]
    endpointMacAddressNums := [1,0]
    staticMac := true}

def taggedRequest : CircuitArgs := {plainRequest with
    innerTags := [some 5,none]
    removeTime := 1000}

variable (a : CircuitArgs)

def request (time : Int) : Outcome String Reply×Session Tables :=
  provisionCircuit mplsChecks ⟨10,"uuid"⟩ (a.onset time) (connect twoNodes fun _ => false)

def filedAction (time : Int) : ScheduledAction := ⟨1,1,1,1,10,time,-1,.provision a.layout⟩

def scheduledRun : Outcome String Unit×Session Tables :=
  runAction mplsChecks (fun _ => found none) ⟨200,""⟩ (filedAction a 100)
    (connect (request a 100).2.db fun _ => false)

theorem plainRequest_same : SameCircuit 1 (request plainRequest forever).2.db
    (scheduledRun plainRequest).2.db := by
  have himmediate : request plainRequest forever=
      (.done (.circuit 1 none),(request plainRequest forever).2) := replied_eq (by decide +kernel)
  have hscheduled : request plainRequest 100=
      (.done (.circuit 1 none),(request plainRequest 100).2) := replied_eq (by decide +kernel)
  have hrun : scheduledRun plainRequest=(.done (),(scheduledRun plainRequest).2) :=
    returned_eq (by decide +kernel)
  have hlossless : Lossless plainRequest twoNodes :=
    ⟨rfl,rfl,by decide +kernel,by decide +kernel,by decide +kernel⟩
  have hfiled : filedAction plainRequest 100∈(request plainRequest 100).2.db.scheduledActions := by
    decide +kernel
  have hactive : (scheduledRun plainRequest).2.db.circuitState 1=some .active := by decide +kernel
  have h := activation_same_iff mplsChecks plainRequest twoNodes_sound (by decide) himmediate
    hscheduled hfiled rfl ⟨_,rfl⟩ hrun hactive
  exact (h.2.mpr hlossless).1

/-- The inner tag is lost, and two removals are pending. -/
theorem taggedRequest_differs : (replied (request taggedRequest forever).1=some (1,none)∧
      replied (request taggedRequest 100).1=some (1,none))∧
    (filedAction taggedRequest 100∈(request taggedRequest 100).2.db.currentActions 200∧
      (scheduledRun taggedRequest).2.db.circuitState 1=some .active)∧
    ((request taggedRequest forever).2.db.liveEnds 1).map LiveEnd.innerTag=[some 5,none]∧
    ((scheduledRun taggedRequest).2.db.liveEnds 1).map LiveEnd.innerTag=[none,none]∧
    (scheduledRun taggedRequest).2.db.pendingRemovals 1=2 := by
  decide +kernel

end Cases

end OESS.Database
