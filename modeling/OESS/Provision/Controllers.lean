import OESS.Provision.Sessions

namespace OESS.Provision

open Endpoint (Kind State Row Tables Fields)
open List

variable {src dst : Nat}

/-- A migration leaves a row alone, or moves an endpoint that is active or becomes so, as the query
for circuits has no state. -/
def Placed (src dst : Nat) (r r' : Row) : Prop :=
  r'=r∨((r.kind=.vrf → r.state=some .active)∧(r.kind=.circuit → r.endEpoch= -1)∧r.interface=src∧
    ∃ tag innerTag unit,r'={r with
      interface := dst,tag := tag,innerTag := innerTag,unit := unit,state := some .active})

variable {r r' : Row}

theorem Placed.key (h : Placed src dst r r') : r'.key=r.key := by
  obtain rfl|⟨_,_,_,_,_,_,rfl⟩ := h <;> rfl

theorem Placed.kind (h : Placed src dst r r') : r'.kind=r.kind := congrArg Prod.fst h.key

theorem Placed.owner (h : Placed src dst r r') : r'.owner=r.owner := by
  obtain rfl|⟨_,_,_,_,_,_,rfl⟩ := h <;> rfl

theorem Placed.endEpoch (h : Placed src dst r r') : r'.endEpoch=r.endEpoch := by
  obtain rfl|⟨_,_,_,_,_,_,rfl⟩ := h <;> rfl

variable {t : Tables}

theorem endpointsOnInterface_origin {interface : Nat} {type : Endpoint.MoveType} {o : Row}
    (ho : o∈t.endpointsOnInterface interface type) : ∃ r∈t.rows,r.key=o.key∧
      r.interface=interface∧(r.kind=.vrf → r.state=some .active)∧
      (r.kind=.circuit → r.endEpoch= -1) := by
  rw [Tables.endpointsOnInterface,mem_append] at ho
  obtain ho|ho := ho
  · split_ifs at ho with htype
    · simp only [mem_filter,Bool.and_eq_true,beq_iff_eq] at ho
      refine ⟨o,ho.1,rfl,ho.2.1.2,fun _ => ho.2.2,?_⟩
      intro hk
      rw [ho.2.1.1] at hk
      cases hk
    · cases ho
  · split_ifs at ho with htype
    · obtain ⟨r,hr,rfl⟩ := mem_map.mp ho
      simp only [mem_filter,Bool.and_eq_true,beq_iff_eq] at hr
      obtain ⟨hmem,⟨⟨hk,hif⟩,hepoch⟩,_⟩ := hr
      refine ⟨r,hmem,rfl,hif,?_,fun _ => hepoch⟩
      intro hk'
      rw [hk] at hk'
      cases hk'
    · cases ho

def AllPlaced (src dst : Nat) (t t' : Tables) : Prop :=
  ∃ place : Row → Row,(∀ r∈t.rows,Placed src dst r (place r))∧t'={t with rows := t.rows.map place}

theorem moveOne_placed (hk : (t.rows.map Row.key).Nodup) {m : Endpoint.Move}
    (hm : AllPlaced src dst t m.tables) {o : Row} (ho : o∈t.endpointsOnInterface src .all)
    (vlans : Nat → Option Endpoint.VlanUse) (units : List Nat) :
    AllPlaced src dst t (Tables.moveOne vlans units dst m o).tables := by
  unfold Tables.moveOne
  split_ifs
  · exact hm
  · exact hm
  · exact hm
  cases hu : m.tables.updateDb o.kind o.id ⟨dst,o.tag,o.innerTag,o.state.getD .active⟩ with
  | error failure => exact hm
  | ok t' =>
    obtain ⟨place,hplace,hrows⟩ := hm
    obtain ⟨_,unit,_,rfl⟩ := Endpoint.updateDb_ok hu
    obtain ⟨r₀,hr₀,hkey₀,hif,hvrf,hcircuit⟩ := endpointsOnInterface_origin ho
    have hactive := (Endpoint.endpointsOnInterface_loaded ho).1
    refine ⟨fun r => Tables.updateRow (o.kind,o.id) (Tables.written
      ⟨dst,o.tag,o.innerTag,o.state.getD .active⟩ unit) (place r),?_,?_⟩
    · intro r hr
      simp only [Tables.updateRow]
      split_ifs with hkey
      · right
        have hsame : r=r₀ := by
          refine inj_on_of_nodup_map hk hr hr₀ ?_
          exact ((hplace r hr).key.symm.trans hkey).trans hkey₀.symm
        rw [hsame]
        refine ⟨hvrf,hcircuit,hif,o.tag,(Tables.written
          ⟨dst,o.tag,o.innerTag,o.state.getD .active⟩ unit (place r₀)).innerTag,unit,?_⟩
        have hp := hplace r₀ hr₀
        have hid : (place r₀).id=r₀.id := congrArg Prod.snd hp.key
        simp only [Tables.written,hp.kind,hp.owner,hp.endEpoch,hid,hactive,Option.getD_some]
      · exact hplace r hr
    · simp only [Tables.updateRows,hrows,map_map]
      rfl

theorem moveEndpoints_placed (hk : (t.rows.map Row.key).Nodup) (src dst : Nat) :
    AllPlaced src dst t (t.moveEndpoints src dst .all).tables := by
  have hstart : AllPlaced src dst t t := ⟨id,fun r _ => .inl rfl,by simp⟩
  unfold Tables.moveEndpoints
  cases (t.endpointsOnInterface dst .all).foldlM Endpoint.noteVlan (fun _ => none) with
  | none => exact hstart
  | some vlans =>
    refine foldlRecOn (motive := fun m : Endpoint.Move => AllPlaced src dst t m.tables)
      (t.endpointsOnInterface src .all) _ hstart ?_
    intro m hm o ho
    exact moveOne_placed hk hm ho vlans _

theorem migrated_controller (interfaces : Nat → Interface) (src dst i : Nat) :
    (migrated interfaces src dst i).controller=(interfaces i).controller := by
  rw [migrated,Function.update_apply,Function.update_apply]
  split_ifs with hs hd
  · rw [hs]
  · rw [hd]
  · rfl

theorem migrateInterface_ok {s : Store} {completes : Bool} {result : Store×Option String}
    (h : migrateInterface src dst completes s=.ok result) : result.1={s with
      tables := (s.tables.moveEndpoints src dst .all).tables
      interfaces := migrated s.interfaces src dst} := by
  unfold migrateInterface at h
  split_ifs at h
  all_goals rw [← Except.ok.inj h]

/-- The endpoints of a live connection share one controller. -/
def OneController (s : Store) : Prop :=
  ∀ a b,s.tables.Live a → s.tables.Live b → a.kind=b.kind → a.owner=b.owner →
    (s.interfaces a.interface).controller=(s.interfaces b.interface).controller

inductive Event where
  | request (kind : Kind) (isNew : Bool) (req : Request)
  | migrate (src dst : Nat) (completes : Bool)

def step (selectors : List Selector) (s : Store) : Event → Store
  | .request kind isNew req => commit s (handle selectors kind isNew req s)
  | .migrate src dst completes => commit s ((migrateInterface src dst completes s).map Prod.fst)

def Request.placements (req : Request) : List Nat :=
  req.entries.filterMap fun e =>
    match e.interface with
    | .found i => some i
    | _ => none

theorem mem_placements {req : Request} {e : Entry} {i : Nat} (he : e∈req.entries)
    (hi : e.interface=.found i) : i∈req.placements :=
  mem_filterMap.mpr ⟨e,he,by rw [hi]⟩

/-- A new connection is on one controller, an edited one has no live endpoint without a state, and a
migration stays within a controller and finds no decommissioned endpoint of a live circuit. -/
def Uniform (s : Store) : Event → Prop
  | .request _ true req => ∀ i∈req.placements,∀ j∈req.placements,
      (s.interfaces i).controller=(s.interfaces j).controller
  | .request kind false req => ∀ r∈s.tables.rows,s.tables.Live r → r.kind=kind →
      r.owner=req.owner → r.state≠none
  | .migrate src dst _ => (s.interfaces src).controller=(s.interfaces dst).controller∧
      ∀ r∈s.tables.rows,s.tables.connected r=true → r.kind=.circuit → r.endEpoch= -1 →
        r.interface=src → r.state≠some .decom

instance (s : Store) (e : Event) : Decidable (Uniform s e) := by
  rcases e with ⟨kind,_|_,req⟩|⟨src,dst,completes⟩ <;> unfold Uniform <;> infer_instance

section Requests

variable {selectors : List Selector} {kind : Kind} {req : Request} {s s' : Store}

theorem Change.origin (h : Change selectors kind req s s') (hr' : r'∈s'.tables.rows) :
    (∃ r∈s.tables.rows,Retagged r r')∨
      (r'.kind=kind∧r'.owner=req.owner∧r'.state≠none∧r'.interface∈req.placements) := by
  cases h with
  | create e i unit he hi =>
    obtain hr|rfl := Runs.mem_snoc.mp hr'
    · exact .inl ⟨r',hr,Retagged.refl r'⟩
    · right
      exact ⟨rfl,rfl,Option.some_ne_none _,mem_placements he hi⟩
  | write id bandwidth retag hretag =>
    obtain ⟨r,hr,rfl⟩ := mem_map.mp hr'
    exact .inl ⟨r,hr,hretag r hr⟩
  | remove id => exact .inl ⟨r',(Store.mem_remove.mp hr').1,Retagged.refl r'⟩

section

variable (h : Changes selectors kind req s s')
include h

theorem Changes.origin (hr' : r'∈s'.tables.rows) : (∃ r∈s.tables.rows,Retagged r r')∨
      (r'.kind=kind∧r'.owner=req.owner∧r'.state≠none∧r'.interface∈req.placements) := by
  induction h generalizing r' with
  | refl => exact .inl ⟨r',hr',Retagged.refl r'⟩
  | tail _ hlast ih =>
    obtain ⟨r,hr,ht⟩|hnew := hlast.origin hr'
    · obtain ⟨r₀,hr₀,ht₀⟩|hnew := ih hr
      · exact .inl ⟨r₀,hr₀,ht₀.trans ht⟩
      · right
        rwa [ht.kind,ht.owner,ht.state,ht.interface]
    · exact .inr hnew

theorem Changes.live_frame (hk : s.Keyed) (hr : (r.kind,r.owner)≠(kind,req.owner))
    (hlive : s'.tables.Live r) : s.tables.Live r := by
  obtain ⟨hmem,hconn,hrest⟩ := hlive
  refine ⟨((h.frame hk r hr).1).mp hmem,?_,hrest⟩
  rwa [Tables.connected,h.connections] at hconn

/-- Only the own connection has to be compared. -/
theorem Changes.oneController (hk : s.Keyed) (hs : OneController s)
    (hown : ∀ a b,s'.tables.Live a → s'.tables.Live b → (a.kind,a.owner)=(kind,req.owner) →
      (b.kind,b.owner)=(kind,req.owner) →
        (s.interfaces a.interface).controller=(s.interfaces b.interface).controller) :
    OneController s' := by
  intro a b ha hb hkind howner
  rw [h.interfaces]
  have hconn : (a.kind,a.owner)=(b.kind,b.owner) := by rw [hkind,howner]
  by_cases hself : (a.kind,a.owner)=(kind,req.owner)
  · exact hown a b ha hb hself (hconn.symm.trans hself)
  · have hself' : (b.kind,b.owner)≠(kind,req.owner) := fun he => hself (hconn.trans he)
    exact hs a b (h.live_frame hk hself ha) (h.live_frame hk hself' hb) hkind howner

end

theorem Provisioned.oneController (h : Provisioned selectors kind req s s') (hk : s.Keyed)
    (hs : OneController s) (huniform : ∀ i∈req.placements,∀ j∈req.placements,
      (s.interfaces i).controller=(s.interfaces j).controller) : OneController s' := by
  obtain ⟨s₀,hopen,hchanges⟩ := h
  have hk₀ := openConnection_keyed hk hopen
  obtain ⟨_,hrows,rfl⟩ := openConnection_ok hopen
  -- opening a connection without endpoints brings no endpoint to life
  have hs₀ : OneController {s with
      tables := {s.tables with connections := (kind,req.owner)::s.tables.connections}} := by
    have hlive (r : Row) (hr : Tables.Live
        {s.tables with connections := (kind,req.owner)::s.tables.connections} r) :
        s.tables.Live r := by
      obtain ⟨hmem,hconn,hrest⟩ := hr
      have hne := hrows r hmem
      refine ⟨hmem,?_,hrest⟩
      simpa [Tables.connected,hne] using hconn
    exact fun a b ha hb => hs a b (hlive a ha) (hlive b hb)
  refine hchanges.oneController hk₀ hs₀ ?_
  have hplaced (r : Row) (hr : s'.tables.Live r) (hself : (r.kind,r.owner)=(kind,req.owner)) :
      r.interface∈req.placements := by
    obtain ⟨r₀,hr₀,ht⟩|hnew := hchanges.origin hr.1
    · rw [ht.kind,ht.owner] at hself
      exact absurd hself (hrows r₀ hr₀)
    · exact hnew.2.2.2
  intro a b ha hb hself hself'
  exact huniform _ (hplaced a ha hself) _ (hplaced b hb hself')

theorem Edited.oneController (h : Edited selectors kind req s s') (hk : s.Keyed)
    (hs : OneController s) (hset : ∀ r∈s.tables.rows,s.tables.Live r → r.kind=kind →
      r.owner=req.owner → r.state≠none) : OneController s' := by
  obtain ⟨hchanges,topic,htopic⟩ := h
  refine hchanges.oneController hk hs ?_
  -- the check has seen every live endpoint of the connection
  have hseen (r : Row) (hr : s'.tables.Live r) (hself : (r.kind,r.owner)=(kind,req.owner)) :
      (s.interfaces r.interface).controller∈s'.controllers kind req.owner := by
    obtain ⟨hmem,hconn,hdecom,hepoch⟩ := hr
    have hkind : r.kind=kind := congrArg Prod.fst hself
    have howner : r.owner=req.owner := congrArg Prod.snd hself
    have hstate : r.state≠none := by
      obtain ⟨r₀,hr₀,ht⟩|hnew := hchanges.origin hmem
      · rw [ht.state]
        refine hset r₀ hr₀ ⟨hr₀,?_,ht.state ▸ hdecom,?_⟩ (ht.kind.symm.trans hkind)
          (ht.owner.symm.trans howner)
        · rwa [Tables.connected,hchanges.connections,ht.kind,ht.owner] at hconn
        · rwa [ht.kind,ht.endEpoch] at hepoch
      · exact hnew.2.2.1
    have hloaded : r∈s'.loadEndpoints kind req.owner := by
      refine mem_loadEndpoints.mpr ⟨hmem,hkind,howner,?_,?_⟩
      · cases kind with
        | vrf => exact .inl rfl
        | circuit => exact .inr (hepoch hkind)
      · rcases hr : r.state with _|state
        · exact absurd hr hstate
        · cases state with
          | decom => exact absurd hr hdecom
          | active | inReview => rfl
    refine mem_map.mpr ⟨r,hloaded,?_⟩
    rw [hchanges.interfaces]
  intro a b ha hb hself hself'
  exact fwdctlTopicForConnection_ok htopic _ (hseen a ha hself) _ (hseen b hb hself')

end Requests

theorem migrate_oneController {s : Store} (hk : s.Keyed) (hs : OneController s)
    (hsame : (s.interfaces src).controller=(s.interfaces dst).controller)
    (hservice : ∀ r∈s.tables.rows,s.tables.connected r=true → r.kind=.circuit → r.endEpoch= -1 →
      r.interface=src → r.state≠some .decom) :
    OneController {s with
      tables := (s.tables.moveEndpoints src dst .all).tables
      interfaces := migrated s.interfaces src dst} := by
  obtain ⟨place,hplace,htables⟩ := moveEndpoints_placed hk src dst
  -- a live endpoint was live before, on an interface of the same controller
  have hbefore (r' : Row) (hr' : (s.tables.moveEndpoints src dst .all).tables.Live r') :
      ∃ r,s.tables.Live r∧r'.kind=r.kind∧r'.owner=r.owner∧
        (s.interfaces r'.interface).controller=(s.interfaces r.interface).controller := by
    rw [htables] at hr'
    obtain ⟨hmem,hconn,hdecom,hepoch⟩ := hr'
    obtain ⟨r,hr,rfl⟩ := mem_map.mp hmem
    have hp := hplace r hr
    rw [Tables.connected,hp.kind,hp.owner] at hconn
    rw [hp.kind,hp.endEpoch] at hepoch
    obtain he|⟨hvrf,hcircuit,hif,_,_,_,he⟩ := hp
    · rw [he] at hdecom ⊢
      exact ⟨r,⟨hr,hconn,hdecom,hepoch⟩,rfl,rfl,rfl⟩
    · refine ⟨r,⟨hr,hconn,?_,hepoch⟩,by rw [he],by rw [he],?_⟩
      · cases hkind : r.kind with
        | vrf => simp [hvrf hkind]
        | circuit => exact hservice r hr hconn hkind (hcircuit hkind) hif
      · rw [he,hif]
        exact hsame.symm
  intro a b ha hb hkind howner
  obtain ⟨a₀,ha₀,hka,hoa,hca⟩ := hbefore a ha
  obtain ⟨b₀,hb₀,hkb,hob,hcb⟩ := hbefore b hb
  simp only [migrated_controller]
  rw [hca,hcb]
  exact hs a₀ b₀ ha₀ hb₀ (hka.symm.trans (hkind.trans hkb)) (hoa.symm.trans (howner.trans hob))

theorem migrate_keyed {s : Store} (hk : s.Keyed) (src dst : Nat) :
    ((s.tables.moveEndpoints src dst .all).tables.rows.map Row.key).Nodup := by
  obtain ⟨place,hplace,htables⟩ := moveEndpoints_placed hk src dst
  have hkeys : (s.tables.rows.map place).map Row.key=s.tables.rows.map Row.key := by
    rw [map_map]
    exact map_congr_left fun r hr => (hplace r hr).key
  rw [htables]
  exact (congrArg List.Nodup hkeys).mpr hk

theorem step_oneController (selectors : List Selector) (s : Store) (e : Event)
    (h : s.Keyed∧OneController s) (hok : Uniform s e) :
    (step selectors s e).Keyed∧OneController (step selectors s e) := by
  obtain ⟨hk,hs⟩ := h
  cases e with
  | request kind isNew req =>
    refine commit_handle (P := fun s => s.Keyed∧OneController s) hk ⟨hk,hs⟩ ?_ ?_
    · rintro rfl s' hdone
      exact ⟨hdone.keyed hk,hdone.oneController hk hs hok⟩
    · rintro rfl s' hdone
      exact ⟨hdone.1.keyed hk,hdone.oneController hk hs hok⟩
  | migrate src dst completes =>
    cases hrun : migrateInterface src dst completes s with
    | error failure =>
      simp only [step,hrun]
      exact ⟨hk,hs⟩
    | ok result =>
      simp only [step,hrun,Except.map,migrateInterface_ok hrun]
      exact ⟨migrate_keyed hk src dst,migrate_oneController hk hs hok.1 hok.2⟩

/-- Every live connection is on one controller in every run whose steps all meet the condition. -/
theorem connections_on_one_controller (selectors : List Selector) (s : Store) (es : List Event)
    (hk : s.Keyed) (hs : OneController s) (hes : Runs.StepsOk (step selectors) Uniform s es) :
    Runs.Always (step selectors) OneController s es := by
  have hboth : Runs.Always (step selectors) (fun s => s.Keyed∧OneController s) s es :=
    Runs.always_of_step (step_oneController selectors) ⟨hk,hs⟩ hes
  exact hboth.mono fun s h => h.2

/-- 1 and 3 are on one controller, 2 on another. -/
def twoControllers : Nat → Interface := fun i =>
  ⟨if i=2 then .nso else .openflow,none,10000⟩

def emptyStore (interfaces : Nat → Interface) : Store := ⟨⟨[],[]⟩,fun _ => 0,interfaces⟩

def placed (id interface tag : Nat) : Entry := ⟨"",none,id,.found interface,some 0,some tag,none⟩

def requestOf (owner : Nat) (entries : List Entry) : Request :=
  ⟨owner,entries,false,false,some fun _ => none,true⟩

/-- A circuit on 1 and 3 is edited, and migrated from 3 to 5. -/
def migratedCircuit : List Event :=
  [.request .circuit true (requestOf 7 [placed 1 1 100,placed 2 3 100]),
    .request .circuit false (requestOf 7 [⟨"",some 1,0,.unknown,none,some 200,none⟩,
      ⟨"",some 2,0,.unknown,none,none,none⟩]),
    .migrate 3 5 true]

theorem migratedCircuit_oneController :
    Runs.StepsOk (step []) Uniform (emptyStore twoControllers) migratedCircuit∧
      Runs.Always (step []) OneController (emptyStore twoControllers) migratedCircuit := by
  have hok : Runs.StepsOk (step []) Uniform (emptyStore twoControllers) migratedCircuit :=
    ⟨by decide +kernel,by decide +kernel,by decide +kernel,trivial⟩
  refine ⟨hok,connections_on_one_controller [] _ _ nodup_nil ?_ hok⟩
  exact fun a b ha => absurd ha.1 not_mem_nil

/-- A migration from 1 to 2 gives an error, but the endpoint has changed controllers. And a circuit
may be provisioned on both. -/
theorem controllers_mixed :
    ¬Runs.Always (step []) OneController (emptyStore twoControllers)
        [.request .circuit true (requestOf 7 [placed 1 1 100,placed 2 3 100]),.migrate 1 2 true]∧
      ¬Runs.Always (step []) OneController (emptyStore twoControllers)
        [.request .circuit true (requestOf 7 [placed 1 1 100,placed 2 2 100])] := by
  refine ⟨?_,?_⟩
  · intro h
    have hlast := h.2.2 ⟨.circuit,1,7,2,100,none,100,-1,some .active⟩
      ⟨.circuit,2,7,3,100,none,100,-1,some .active⟩ (by decide +kernel) (by decide +kernel) rfl rfl
    revert hlast
    decide +kernel
  · intro h
    have hlast := h.2 ⟨.circuit,1,7,1,100,none,100,-1,some .active⟩
      ⟨.circuit,2,7,2,100,none,100,-1,some .active⟩ (by decide +kernel) (by decide +kernel) rfl rfl
    revert hlast
    decide +kernel

end OESS.Provision
