import OESS.Provision.Changes

namespace OESS.Provision

open Endpoint (Kind State Row Tables Fields)
open List Option Function Store

section Tracks

variable (selectors : List Selector) (kind : Kind) (req : Request)

/-- It agrees with its row in all but the tags. -/
structure Knows (s : Store) (ep : Ep) (id : Nat) : Prop where
  row : ∃ r∈s.tables.rows,r.key=(kind,id)∧r.owner=req.owner∧r.interface=ep.interface∧
    r.state=some ep.state
  bandwidth : ep.bandwidth=s.bandwidth (kind,id)∨Given req id ep.bandwidth

/-- Objects know their rows, others are untouched. -/
structure Tracks (s₀ : Store) (s : Session) : Prop where
  changes : Changes selectors kind req s₀ s.store
  keyed : s.store.Keyed
  knows : ∀ ep∈s.endpoints,∀ id,ep.id=some id → Knows kind req s.store ep id
  same : ∀ ep∈s.endpoints,∀ ep'∈s.endpoints,ep.id=ep'.id → ep.id≠none → ep=ep'

/-- The same endpoint in the same place. -/
structure Ep.Alike (ep ep' : Ep) : Prop where
  id : ep'.id=ep.id
  interface : ep'.interface=ep.interface
  state : ep'.state=ep.state

variable {selectors kind req}

variable {s s' : Session} {ep : Ep} {id : Nat} {store s₀ : Store} {e : Entry}

theorem Knows.of_alike {s : Store} {ep' : Ep} (h : Knows kind req s ep id) (ha : ep.Alike ep')
    (hb : ep'.bandwidth=ep.bandwidth∨Given req id ep'.bandwidth) : Knows kind req s ep' id := by
  refine ⟨?_,?_⟩
  · rw [ha.interface,ha.state]
    exact h.row
  · obtain hb|hb := hb
    · rw [hb]
      exact h.bandwidth
    · exact .inr hb

/-- After a write the row has the bandwidth of the object. -/
theorem Knows.updateDb (selectors : List Selector) {s s' : Store} (hid : ep.id=some id)
    (h : Knows kind req s ep id) (hk : s.Keyed) (hu : s.updateDb kind ep=.ok s') :
    Change selectors kind req s s'∧s'.bandwidth (kind,id)=ep.bandwidth∧Knows kind req s' ep id∧
      ∀ ep' id',id'≠id → Knows kind req s ep' id' → Knows kind req s' ep' id' := by
  obtain ⟨id₁,unit,hid₁,rfl⟩ := updateDb_ok hu
  obtain rfl : id₁=id := some.inj (hid₁.symm.trans hid)
  obtain ⟨r₀,hr₀,hkey₀,hown,hif,hstate⟩ := h.row
  have hretag (r : Row) (hr : r∈s.tables.rows) : Retagged r
      (Tables.updateRow (kind,id₁) (Tables.written ep.fields unit) r) := by
    unfold Tables.updateRow
    split_ifs with hkey
    · obtain rfl : r=r₀ := hk.eq hr hr₀ (hkey.trans hkey₀.symm)
      refine ⟨ep.tag,(Tables.written ep.fields unit r).innerTag,unit,?_⟩
      simp only [Tables.written,Ep.fields,← hif,← hstate]
    · exact Retagged.refl r
  have hother (r : Row) (_ : r∈s.tables.rows) (hne : r.key≠(kind,id₁)) :
      Tables.updateRow (kind,id₁) (Tables.written ep.fields unit) r=r := if_neg hne
  have hstored : (s.mapRows (Tables.updateRow (kind,id₁) (Tables.written ep.fields unit)) (kind,id₁)
      ep.bandwidth).bandwidth (kind,id₁)=ep.bandwidth := update_self ..
  refine ⟨.write id₁ ep.bandwidth _ hretag hother ⟨r₀,hr₀,hkey₀,hown⟩ h.bandwidth,hstored,?_,?_⟩
  · refine ⟨⟨_,mem_map_of_mem hr₀,?_⟩,.inl hstored.symm⟩
    have ht := hretag r₀ hr₀
    exact ⟨ht.key.trans hkey₀,ht.owner.trans hown,ht.interface.trans hif,ht.state.trans hstate⟩
  · intro ep' id' hne h'
    have hkeys : (kind,id')≠(kind,id₁) := fun he => hne (congrArg Prod.snd he)
    obtain ⟨r,hr,hkey,hrest⟩ := h'.row
    refine ⟨⟨r,mem_map.mpr ⟨r,hr,hother r hr (hkey ▸ hkeys)⟩,hkey,hrest⟩,?_⟩
    obtain hb|hb := h'.bandwidth
    · left
      exact hb.trans (update_of_ne hkeys _ _).symm
    · exact .inr hb

theorem Tracks.mem_put {o : Ep} (ho : o∈(s.put ep store).endpoints) :
    o=ep∨(o∈s.endpoints∧o.id≠ep.id) := by
  obtain ⟨o₀,ho₀,rfl⟩ := mem_map.mp ho
  split_ifs with he
  · exact .inl rfl
  · exact .inr ⟨ho₀,he⟩

section

variable (h : Tracks selectors kind req s₀ s)
include h

theorem Tracks.put_same (ep : Ep) (store : Store) :
    ∀ o∈(s.put ep store).endpoints,∀ o'∈(s.put ep store).endpoints,
      o.id=o'.id → o.id≠none → o=o' := by
  intro o ho o' ho' hid hsome
  obtain rfl|⟨hmem,hne⟩ := mem_put ho
  · obtain rfl|⟨_,hne'⟩ := mem_put ho'
    · rfl
    · exact absurd hid.symm hne'
  · obtain rfl|⟨hmem',_⟩ := mem_put ho'
    · exact absurd hid hne
    · exact h.same o hmem o' hmem' hid hsome

theorem Tracks.put_written {ep' : Ep} (hep : ep∈s.endpoints) (hid : ep.id=some id)
    (ha : ep.Alike ep') (hb : ep'.bandwidth=ep.bandwidth∨Given req id ep'.bandwidth)
    (hu : s.store.updateDb kind ep'=.ok store) :
    Tracks selectors kind req s₀ (s.put ep' store) := by
  have hid' : ep'.id=some id := ha.id.trans hid
  have hknows := (h.knows ep hep id hid).of_alike ha hb
  obtain ⟨hchange,_,hself,hothers⟩ := hknows.updateDb selectors hid' h.keyed hu
  refine ⟨h.changes.tail hchange,hchange.keyed h.keyed,?_,h.put_same ep' store⟩
  intro o ho id' hoid
  obtain rfl|⟨hmem,hne⟩ := Tracks.mem_put ho
  · obtain rfl : id=id' := some.inj (hid'.symm.trans hoid)
    exact hself
  · refine hothers o id' ?_ (h.knows o hmem id' hoid)
    rintro rfl
    exact hne (hoid.trans hid'.symm)

theorem Tracks.put_unwritten {ep' : Ep} (hep : ep∈s.endpoints) (hid : ep.id=some id)
    (ha : ep.Alike ep') (hb : ep'.bandwidth=ep.bandwidth∨Given req id ep'.bandwidth) :
    Tracks selectors kind req s₀ (s.put ep' s.store) := by
  refine ⟨h.changes,h.keyed,?_,h.put_same ep' s.store⟩
  intro o ho id' hoid
  obtain rfl|⟨hmem,_⟩ := Tracks.mem_put ho
  · obtain rfl : id=id' := some.inj ((ha.id.trans hid).symm.trans hoid)
    exact (h.knows ep hep id hid).of_alike ha hb
  · exact h.knows o hmem id' hoid

theorem Tracks.append_unstored (hid : ep.id=none) :
    Tracks selectors kind req s₀ ⟨s.store,s.endpoints++[ep]⟩ := by
  have hmem {o : Ep} (ho : o∈s.endpoints++[ep]) (hsome : o.id≠none) : o∈s.endpoints := by
    obtain ho|rfl := Runs.mem_snoc.mp ho
    · exact ho
    · exact absurd hid hsome
  refine ⟨h.changes,h.keyed,?_,?_⟩
  · intro o ho id hoid
    exact h.knows o (hmem ho (by simp [hoid])) id hoid
  · intro o ho o' ho' he hsome
    exact h.same o (hmem ho hsome) o' (hmem ho' (he ▸ hsome)) he hsome

theorem Tracks.append_created {i unit : Nat} (he : e∈req.entries) (hi : e.interface=.found i)
    (hvalid : (s.store.interfaces i).isBandwidthValid selectors (e.bandwidth.getD 0) req.isAdmin=true)
    (hfits : exceeds s.store i (e.bandwidth.getD 0)=false)
    (hfresh : (kind,e.id)∉s.store.tables.rows.map Row.key) : Tracks selectors kind req s₀
      ⟨s.store.addRow (Store.newRow kind e.id req.owner unit (newFields selectors s.store i e))
        (e.bandwidth.getD 0),
      s.endpoints++[newEp (some e.id) (newFields selectors s.store i e) (e.bandwidth.getD 0)]⟩ := by
  have hchange : Change selectors kind req s.store (s.store.addRow (Store.newRow kind e.id req.owner
      unit (newFields selectors s.store i e)) (e.bandwidth.getD 0)) :=
    .create e i unit he hi hvalid hfits hfresh
  have hold {o : Ep} {id : Nat} (ho : o∈s.endpoints) (hoid : o.id=some id) : id≠e.id := by
    rintro rfl
    obtain ⟨r,hr,hkey,_⟩ := (h.knows o ho _ hoid).row
    exact hfresh (mem_map.mpr ⟨r,hr,hkey⟩)
  refine ⟨h.changes.tail hchange,hchange.keyed h.keyed,?_,?_⟩
  · intro o ho id hoid
    obtain ho|ho := mem_append.mp ho
    · have hk := h.knows o ho id hoid
      obtain ⟨r,hr,hrest⟩ := hk.row
      refine ⟨⟨r,mem_append_left _ hr,hrest⟩,?_⟩
      obtain hb|hb := hk.bandwidth
      · left
        refine hb.trans (update_of_ne ?_ _ _).symm
        exact fun hkeys => hold ho hoid (congrArg Prod.snd hkeys)
      · exact .inr hb
    · rw [mem_singleton.mp ho] at hoid ⊢
      obtain rfl : e.id=id := some.inj hoid
      refine ⟨⟨_,mem_append_right _ (mem_singleton_self _),rfl,rfl,rfl,rfl⟩,.inl ?_⟩
      exact (update_self (kind,e.id) _ s.store.bandwidth).symm
  · intro o ho o' ho' hid hsome
    obtain ⟨id,hoid⟩ := ne_none_iff_exists'.mp hsome
    obtain ho|rfl := Runs.mem_snoc.mp ho
    · obtain ho'|rfl := Runs.mem_snoc.mp ho'
      · exact h.same o ho o' ho' hid hsome
      · exact absurd (some.inj (hoid.symm.trans hid)) (hold ho hoid)
    · obtain ho'|rfl := Runs.mem_snoc.mp ho'
      · exact absurd rfl (hold ho' hid.symm)
      · rfl

end

theorem addEndpoint_tracks {a : Adding} (h : Tracks selectors a.kind req s₀ s) (he : e∈req.entries)
    (hadd : addEndpoint selectors req a s e=.ok s') : Tracks selectors a.kind req s₀ s' := by
  unfold addEndpoint at hadd
  split at hadd
  · cases hadd
  · cases hadd
  next i hi =>
    split at hadd
    · cases hadd
    next hvalid =>
      split at hadd
      · cases hadd
      next hfits =>
        dsimp only at hadd
        split at hadd
        next store hc =>
          obtain ⟨hfresh,unit,rfl⟩ := create_ok hc
          cases hadd
          exact h.append_created he hi (by simpa using hvalid) (by simpa using hfits) hfresh
        · split_ifs at hadd
          cases hadd
          exact h.append_unstored rfl

theorem getEndpoint_some (h : s.getEndpoint id=some ep) : ep∈s.endpoints∧ep.id=some id :=
  ⟨mem_of_find?_eq_some h,by simpa using find?_some h⟩

theorem edited_alike (e : Entry) (ep : Ep) : ep.Alike (edited e ep) := ⟨rfl,rfl,rfl⟩

theorem edited_bandwidth (he : e∈req.entries) (hid : e.existing=some id) :
    (edited e ep).bandwidth=ep.bandwidth∨Given req id (edited e ep).bandwidth := by
  cases hb : e.bandwidth with
  | none => exact .inl (by simp [edited,hb])
  | some bandwidth => exact .inr ⟨e,he,hid,by simp [edited,hb]⟩

theorem editEndpoint_tracks (h : Tracks selectors .circuit req s₀ s) (he : e∈req.entries)
    (hid : e.existing=some id) (hedit : editEndpoint s e id=.ok s') :
    Tracks selectors .circuit req s₀ s' := by
  unfold editEndpoint at hedit
  split at hedit
  · cases hedit
  next ep hget =>
    obtain ⟨hep,hepid⟩ := getEndpoint_some hget
    split at hedit
    · cases hedit
    next store hu =>
      cases hedit
      exact h.put_written hep hepid (edited_alike e ep) (edited_bandwidth he hid) hu

theorem editVrfEndpoint_tracks (h : Tracks selectors .vrf req s₀ s) (he : e∈req.entries)
    (hid : e.existing=some id) (hedit : editVrfEndpoint s e id=.ok s') :
    Tracks selectors .vrf req s₀ s' := by
  unfold editVrfEndpoint at hedit
  split at hedit
  · cases hedit
  next ep hget =>
    obtain ⟨hep,hepid⟩ := getEndpoint_some hget
    have halike : ep.Alike (editedVrf s.store e ep) := by
      unfold editedVrf
      split_ifs
      · exact ⟨rfl,rfl,rfl⟩
      · exact edited_alike e ep
    have hb : (editedVrf s.store e ep).bandwidth=ep.bandwidth∨
        Given req id (editedVrf s.store e ep).bandwidth := by
      unfold editedVrf
      split_ifs
      · exact .inl rfl
      · exact edited_bandwidth he hid
    split at hedit
    · cases hedit
      exact h.put_unwritten hep hepid halike hb
    next store hu =>
      cases hedit
      exact h.put_written hep hepid halike hb hu

theorem updateEntry_tracks (h : Tracks selectors .circuit req s₀ s) (he : e∈req.entries)
    (hentry : updateEntry selectors req s e=.ok s') : Tracks selectors .circuit req s₀ s' := by
  unfold updateEntry at hentry
  split at hentry
  · exact addEndpoint_tracks h he hentry
  next id hid => exact editEndpoint_tracks h he hid hentry

theorem vrfEntry_tracks (h : Tracks selectors .vrf req s₀ s) (he : e∈req.entries)
    (hentry : vrfEntry selectors req s e=.ok s') : Tracks selectors .vrf req s₀ s' := by
  unfold vrfEntry at hentry
  split at hentry
  · exact addEndpoint_tracks h he hentry
  next id hid => exact editVrfEndpoint_tracks h he hid hentry

theorem Tracks.start {s : Store} (hk : s.Keyed) : Tracks selectors kind req s ⟨s,[]⟩ :=
  ⟨.refl,hk,by simp,by simp⟩

theorem mem_loadEndpoints {s : Store} {kind : Kind} {owner : Nat} {r : Row} :
    r∈s.loadEndpoints kind owner↔r∈s.tables.rows∧r.kind=kind∧r.owner=owner∧
      (kind=.vrf∨r.endEpoch= -1)∧Endpoint.stateNotDecom r.state=true := by
  simp [Store.loadEndpoints,and_assoc]

theorem Tracks.loaded {s : Store} (hk : s.Keyed) :
    Tracks selectors kind req s ⟨s,(s.loadEndpoints kind req.owner).map s.toEp⟩ := by
  refine ⟨.refl,hk,?_,?_⟩
  · intro o ho id hoid
    obtain ⟨r,hr,rfl⟩ := mem_map.mp ho
    obtain ⟨hmem,hkind,hown,_,hstate⟩ := mem_loadEndpoints.mp hr
    have hkey : r.key=(kind,id) := by rw [Row.key,hkind,some.inj hoid]
    refine ⟨⟨r,hmem,hkey,hown,rfl,?_⟩,.inl (congrArg s.bandwidth hkey)⟩
    cases hs : r.state with
    | none => simp [hs,Endpoint.stateNotDecom] at hstate
    | some state => simp [Store.toEp,hs]
  · intro o ho o' ho' hid _
    obtain ⟨r,hr,rfl⟩ := mem_map.mp ho
    obtain ⟨r',hr',rfl⟩ := mem_map.mp ho'
    obtain ⟨hmem,hkind,_⟩ := mem_loadEndpoints.mp hr
    obtain ⟨hmem',hkind',_⟩ := mem_loadEndpoints.mp hr'
    have hkey : r.key=r'.key := by rw [Row.key,Row.key,hkind,hkind',some.inj hid]
    rw [hk.eq hmem hmem' hkey]

theorem Tracks.removed {eps : List Ep} (h : Tracks selectors kind req s₀ ⟨store,eps⟩)
    {ids : List Nat} (hown : ∀ id∈ids,∀ r∈store.tables.rows,r.key=(kind,id) → r.owner=req.owner)
    (hunnamed : ∀ id∈ids,∀ e∈req.entries,e.existing≠some id)
    (heps : ∀ ep∈eps,∀ id∈ids,ep.id≠some id) :
    Tracks selectors kind req s₀ ⟨ids.foldl (fun store id => store.remove kind id) store,eps⟩ := by
  induction ids generalizing store with
  | nil => exact h
  | cons id ids ih =>
    have hchange : Change selectors kind req store (store.remove kind id) :=
      .remove id (hown id mem_cons_self) (hunnamed id mem_cons_self)
    refine ih ⟨h.changes.tail hchange,hchange.keyed h.keyed,?_,h.same⟩ ?_ ?_ ?_
    · intro ep hep id' hid'
      obtain ⟨r,hr,hkey,hrest⟩ := (h.knows ep hep id' hid').row
      refine ⟨⟨r,mem_remove.mpr ⟨hr,?_⟩,hkey,hrest⟩,(h.knows ep hep id' hid').bandwidth⟩
      rintro ⟨hkey',_⟩
      have hsame : id'=id := congrArg Prod.snd (hkey.symm.trans hkey')
      exact heps ep hep id mem_cons_self (hsame ▸ hid')
    · intro id' hid'
      exact hchange.owner (hown id' (mem_cons_of_mem id hid'))
    · exact fun id' hid' => hunnamed id' (mem_cons_of_mem id hid')
    · exact fun ep hep id' hid' => heps ep hep id' (mem_cons_of_mem id hid')

theorem mem_unnamed {loaded : List Row} : id∈unnamed req loaded↔
    (∃ r∈loaded,r.id=id)∧∀ e∈req.entries,e.existing≠some id := by
  simp [unnamed]

theorem removeRest_tracks (h : Tracks selectors kind req s₀ s) (hk : s₀.Keyed) :
    Tracks selectors kind req s₀
      (removeRest kind (unnamed req (s₀.loadEndpoints kind req.owner)) s) := by
  have hkept : Tracks selectors kind req s₀ ⟨s.store,s.endpoints.filter fun ep =>
      !(ep.id.any fun id => (unnamed req (s₀.loadEndpoints kind req.owner)).contains id)⟩ :=
    ⟨h.changes,h.keyed,fun ep hep => h.knows ep (mem_filter.mp hep).1,
      fun ep hep ep' hep' => h.same ep (mem_filter.mp hep).1 ep' (mem_filter.mp hep').1⟩
  refine hkept.removed ?_ ?_ ?_
  · intro id hid
    obtain ⟨⟨r₀,hr₀,rfl⟩,_⟩ := mem_unnamed.mp hid
    obtain ⟨hmem,hkind,hown,_⟩ := mem_loadEndpoints.mp hr₀
    refine h.changes.owner ?_
    intro r hr hkey
    have hkey₀ : r₀.key=(kind,r₀.id) := by rw [Row.key,hkind]
    rwa [hk.eq hr hmem (hkey.trans hkey₀.symm)]
  · intro id hid
    exact (mem_unnamed.mp hid).2
  · intro ep hep id hid hepid
    have hnot := (mem_filter.mp hep).2
    rw [hepid] at hnot
    simp [hid] at hnot

theorem setupEndpoint_alike (s : Store) (answer : Nat → Option (Nat×Nat)) (ep : Ep) :
    ep.Alike (setupEndpoint s answer ep)∧(setupEndpoint s answer ep).bandwidth=ep.bandwidth := by
  unfold setupEndpoint
  split_ifs
  · split <;> exact ⟨⟨rfl,rfl,rfl⟩,rfl⟩
  · exact ⟨⟨rfl,rfl,rfl⟩,rfl⟩

theorem passInner_alike (s : Store) (kind : Kind) (ep : Ep) :
    ep.Alike (passInner s kind ep)∧(passInner s kind ep).bandwidth=ep.bandwidth := by
  unfold passInner
  split_ifs <;> exact ⟨⟨rfl,rfl,rfl⟩,rfl⟩

theorem Tracks.map_endpoints (h : Tracks selectors kind req s₀ s) {f : Ep → Ep}
    (hf : ∀ ep,ep.Alike (f ep)∧(f ep).bandwidth=ep.bandwidth) :
    Tracks selectors kind req s₀ ⟨s.store,s.endpoints.map f⟩ := by
  refine ⟨h.changes,h.keyed,?_,?_⟩
  · intro o ho id hid
    obtain ⟨ep,hep,rfl⟩ := mem_map.mp ho
    have hepid : ep.id=some id := (hf ep).1.id.symm.trans hid
    exact (h.knows ep hep id hepid).of_alike (hf ep).1 (.inl (hf ep).2)
  · intro o ho o' ho' hid hsome
    obtain ⟨ep,hep,rfl⟩ := mem_map.mp ho
    obtain ⟨ep',hep',rfl⟩ := mem_map.mp ho'
    rw [(hf ep).1.id] at hid hsome
    rw [h.same ep hep ep' hep' (hid.trans (hf ep').1.id) hsome]

theorem writeEndpoint_tracks {store' : Store} {eps : List Ep}
    (h : Tracks selectors kind req s₀ ⟨store,eps⟩) (hep : ep∈eps)
    (hwrite : writeEndpoint kind store ep=.ok store') :
    Tracks selectors kind req s₀ ⟨store',eps⟩ := by
  unfold writeEndpoint at hwrite
  obtain ⟨halike,hb⟩ := passInner_alike store kind ep
  split at hwrite
  · cases hwrite
  next written hu =>
    simp only [Except.ok.injEq] at hwrite
    obtain ⟨id,_,hid,_⟩ := updateDb_ok hu
    have hepid : ep.id=some id := halike.id.symm.trans hid
    have hknows := (h.knows ep hep id hepid).of_alike halike (.inl hb)
    obtain ⟨hchange,_,hself,hothers⟩ := hknows.updateDb selectors hid h.keyed hu
    rw [← hwrite]
    refine ⟨h.changes.tail hchange,hchange.keyed h.keyed,?_,h.same⟩
    intro o ho id' hoid
    by_cases hsame : id'=id
    · subst hsame
      have hoep : o=ep := h.same o ho ep hep (hoid.trans hepid.symm) (by simp [hoid])
      rw [hoep]
      exact hself.of_alike ⟨halike.id.symm,halike.interface.symm,halike.state.symm⟩ (.inl hb.symm)
    · exact hothers o id' hsame (h.knows o ho id' hoid)

theorem finish_changes {s' : Store} (h : Tracks selectors kind req s₀ s)
    (hfinish : finish req kind s=.ok s') : Changes selectors kind req s₀ s' := by
  unfold finish provisionCloud at hfinish
  split_ifs at hfinish with hskip
  · rw [← Except.ok.inj hfinish]
    exact h.changes
  split at hfinish
  · cases hfinish
  next answer hcloud =>
    have hsetup := h.map_endpoints (setupEndpoint_alike s.store answer)
    have hwritten := Loops.foldlM_invariant
      (fun ep hep _ _ ht hw => writeEndpoint_tracks ht hep hw) hsetup hfinish
    exact hwritten.changes

end Tracks

variable {selectors : List Selector} {req : Request}

variable {s s' : Store} {kind : Kind}

theorem openConnection_ok {owner : Nat} (h : s.openConnection kind owner=.ok s') :
    (kind,owner)∉s.tables.connections∧(∀ r∈s.tables.rows,(r.kind,r.owner)≠(kind,owner))∧
      s'={s with tables := {s.tables with connections := (kind,owner)::s.tables.connections}} := by
  unfold Store.openConnection at h
  split_ifs at h with hused
  obtain ⟨hconn,hrows⟩ := not_or.mp hused
  refine ⟨hconn,?_,(Except.ok.inj h).symm⟩
  intro r hr he
  exact hrows ⟨r,hr,congrArg Prod.fst he,congrArg Prod.snd he⟩

theorem openConnection_keyed {owner : Nat} (hk : s.Keyed) (h : s.openConnection kind owner=.ok s') :
    s'.Keyed := by
  obtain ⟨_,_,rfl⟩ := openConnection_ok h
  exact hk

def Provisioned (selectors : List Selector) (kind : Kind) (req : Request) (s s' : Store) : Prop :=
  ∃ s₀,s.openConnection kind req.owner=.ok s₀∧Changes selectors kind req s₀ s'

/-- What a handler has done when it commits. -/
def Edited (selectors : List Selector) (kind : Kind) (req : Request) (s s' : Store) : Prop :=
  Changes selectors kind req s s'∧
    ∃ topic,fwdctlTopicForConnection (s'.controllers kind req.owner)=.ok topic

theorem provision_ok (hk : s.Keyed) (h : provision selectors req s=.ok s') :
    Provisioned selectors .circuit req s s' := by
  unfold provision at h
  split at h
  · cases h
  next s₀ hopen =>
    split at h
    · cases h
    next session hrun =>
      have htracks := Loops.foldlM_invariant (fun e he _ _ ht hadd => addEndpoint_tracks ht he hadd)
        (Tracks.start (openConnection_keyed hk hopen)) hrun
      exact ⟨s₀,hopen,finish_changes htracks h⟩

theorem createVrf_ok (hk : s.Keyed) (h : createVrf selectors req s=.ok s') :
    Provisioned selectors .vrf req s s' := by
  unfold createVrf at h
  split at h
  · cases h
  next s₀ hopen =>
    split at h
    · cases h
    next session hrun =>
      have htracks := Loops.foldlM_invariant
        (fun e he _ _ ht hentry => vrfEntry_tracks ht he hentry)
        (Tracks.start (openConnection_keyed hk hopen)) hrun
      exact ⟨s₀,hopen,finish_changes htracks h⟩

theorem checkTopics_ok {previous pending : Store} (h : checkTopics req kind previous pending=.ok s') :
    s'=pending∧∃ topic,fwdctlTopicForConnection (pending.controllers kind req.owner)=.ok topic := by
  unfold checkTopics at h
  split at h
  · next topic _ hpending _ => exact ⟨(Except.ok.inj h).symm,topic,hpending⟩
  · cases h

theorem editWith_ok {entry : Session → Entry → Except Failure Session} (hk : s.Keyed)
    (hentry : ∀ e∈req.entries,∀ t t',Tracks selectors kind req s t → entry t e=.ok t' →
      Tracks selectors kind req s t')
    (h : editWith req kind entry s=.ok s') : Edited selectors kind req s s' := by
  unfold editWith at h
  dsimp only at h
  split at h
  · cases h
  next session hrun =>
    have htracks := Loops.foldlM_invariant hentry (Tracks.loaded hk) hrun
    split at h
    · cases h
    next pending hfinish =>
      obtain ⟨rfl,htopic⟩ := checkTopics_ok h
      exact ⟨finish_changes (removeRest_tracks htracks hk) hfinish,htopic⟩

theorem update_ok (hk : s.Keyed) (h : update selectors req s=.ok s') :
    Edited selectors .circuit req s s' :=
  editWith_ok hk (fun _ he _ _ ht hentry => updateEntry_tracks ht he hentry) h

/-- The handler for a new connection or an existing one. -/
def handle (selectors : List Selector) (kind : Kind) (isNew : Bool) (req : Request) (s : Store) :
    Except Failure Store :=
  match kind,isNew with
  | .circuit,true => provision selectors req s
  | .circuit,false => update selectors req s
  | .vrf,isNew => provisionVrf selectors req isNew s

/-- All that a committed request can have done. -/
theorem handle_ok {isNew : Bool} (hk : s.Keyed) (h : handle selectors kind isNew req s=.ok s') :
    (isNew=true∧Provisioned selectors kind req s s')∨(isNew=false∧Edited selectors kind req s s') := by
  cases kind with
  | circuit =>
    cases isNew with
    | true => exact .inl ⟨rfl,provision_ok hk h⟩
    | false => exact .inr ⟨rfl,update_ok hk h⟩
  | vrf =>
    cases isNew with
    | true => exact .inl ⟨rfl,createVrf_ok hk h⟩
    | false =>
      exact .inr ⟨rfl,editWith_ok hk (fun _ he _ _ ht hentry => vrfEntry_tracks ht he hentry) h⟩

/-- A request that fails leaves the store as it was. -/
def commit (s : Store) : Except Failure Store → Store
  | .ok s' => s'
  | .error _ => s

/-- `P` is kept if it holds before and after all a handler can have done. -/
theorem commit_handle {P : Store → Prop} {isNew : Bool} (hk : s.Keyed) (hs : P s)
    (hnew : isNew=true → ∀ s',Provisioned selectors kind req s s' → P s')
    (hedit : isNew=false → ∀ s',Edited selectors kind req s s' → P s') :
    P (commit s (handle selectors kind isNew req s)) := by
  cases hrun : handle selectors kind isNew req s with
  | error failure => exact hs
  | ok s' =>
    obtain ⟨hkind,hdone⟩|⟨hkind,hdone⟩ := handle_ok hk hrun
    · exact hnew hkind s' hdone
    · exact hedit hkind s' hdone

structure Call where
  kind : Kind
  isNew : Bool
  req : Request

def serve (selectors : List Selector) (s : Store) (c : Call) : Store :=
  commit s (handle selectors c.kind c.isNew c.req s)

theorem Provisioned.keyed (h : Provisioned selectors kind req s s') (hk : s.Keyed) : s'.Keyed := by
  obtain ⟨s₀,hopen,hchanges⟩ := h
  exact hchanges.keyed (openConnection_keyed hk hopen)

end OESS.Provision
