import Mathlib.Data.List.Nodup
import OESS.Framework.Lookup
import OESS.Endpoint.Lifecycle
import OESS.Framework.Runs

namespace OESS.Endpoint

open List Bool Except

def UnitsUnique (t : Tables) : Prop :=
  ((t.rows.filter fun r => decide (t.Live r)).map fun r => (r.interface,r.unit)).Nodup

/-- The invariant of the endpoint tables: the queries keep units below 5000 apart, `used` the
others. -/
structure Sound (t : Tables) : Prop where
  keys : (t.rows.map Row.key).Nodup
  set : ∀ r∈t.rows,r.state≠none
  units : ∀ r∈t.rows,r.tag<5000∧(5000≤r.unit∨r.unit=r.tag)
  separate : ∀ a b,t.Live a → t.Live b → a.interface=b.interface → a.unit=b.unit → a.key=b.key

variable (vlans : Nat → Option VlanUse) {t t' : Tables} {r : Row} {interface dest : Nat}
  {innerTag : Option Nat} {key : Kind×Nat} {write : Row → Row} {f : Fields} {rest : List Row}

theorem Sound.unitsUnique (h : Sound t) : UnitsUnique t := by
  have hrows : t.rows.Nodup := Nodup.of_map Row.key h.keys
  refine Nodup.map_on ?_ (hrows.filter _)
  intro a ha b hb hab
  have hla : t.Live a := by simpa using (mem_filter.mp ha).2
  have hlb : t.Live b := by simpa using (mem_filter.mp hb).2
  have hkey := h.separate a b hla hlb (congrArg Prod.fst hab) (congrArg Prod.snd hab)
  exact inj_on_of_nodup_map h.keys hla.1 hlb.1 hkey

/-- Only the endpoint with this key may hold the unit. -/
def Avoids (t : Tables) (key : Kind×Nat) (interface unit : Nat) : Prop :=
  ∀ r,t.Live r → r.key≠key → r.interface=interface → r.unit≠unit

/-- Live VRF endpoints there with a unit from 5000 on are active, that with the key apart. -/
def Settled (t : Tables) (interface : Nat) (excepted : Option (Kind×Nat)) : Prop :=
  ∀ r∈t.rows,t.Live r → some r.key≠excepted → r.kind=.vrf → r.interface=interface →
    5000≤r.unit → r.state=some .active
  deriving Decidable

theorem isSelf_edit (kind : Kind) (id : Nat) (r : Row) :
    r.IsSelf (kind.circuitEpId id) (kind.vrfEpId id)↔r.key=(kind,id) := by
  unfold Row.IsSelf Row.key
  cases hk : r.kind <;> cases kind <;> simp [Kind.circuitEpId,Kind.vrfEpId,eq_comm]

theorem isSelf_create (r : Row) : ¬r.IsSelf none none := by
  unfold Row.IsSelf
  cases r.kind <;> simp

section Allocation

variable {t : Tables} (h : Sound t) {interface tag : Nat} {innerTag : Option Nat}
include h

theorem Sound.tag_free (ht : tag<5000) (hrows : t.conflictRows interface tag none=[]) (r : Row)
    (hlive : t.Live r) (hif : r.interface=interface) : r.unit≠tag := by
  intro hunit
  obtain ⟨_,hbig|htag⟩ := h.units r hlive.1
  · omega
  · have hover : Overlap r.tag r.innerTag tag none := ⟨htag.symm.trans hunit,.inr (.inl rfl)⟩
    have hmem := t.mem_conflictRows interface tag none hlive (h.set r hlive.1) hif hover
    simp [hrows] at hmem

theorem Sound.firstFree_free {u : Nat} (hsettled : Settled t interface (some key))
    (hu : Tables.firstFree (t.used interface)=some u) : Avoids t key interface u := by
  obtain ⟨hbig,hfree⟩ := firstFree_spec hu
  intro r hlive hkey hif hunit
  apply hfree
  rw [Tables.used,mem_append]
  cases hk : r.kind with
  | vrf =>
    left
    have hr : 5000≤r.unit := by omega
    have hact := hsettled r hlive.1 hlive (by simpa using hkey) hk hif hr
    refine mem_map.mpr ⟨r,mem_filter.mpr ⟨hlive.1,?_⟩,hunit⟩
    simp [hk,hr,hact,hif]
  | circuit =>
    right
    have hcur := t.currentCircuitEp_of_live hlive hk (h.set r hlive.1)
    exact mem_map.mpr ⟨r,mem_filter.mpr ⟨hlive.1,by simp [hcur,hif]⟩,hunit⟩

end Allocation

theorem mem_conflictRows_fields {tag : Nat} (hr : r∈t.conflictRows interface tag innerTag) :
    r∈t.rows∧t.connected r=true∧r.interface=interface∧r.tag=tag∧
      (r.kind=.circuit → t.currentCircuitEp r=true) := by
  rw [Tables.conflictRows,mem_append] at hr
  obtain hr|hr := hr
  · simp only [Tables.l3Rows,mem_filter,and_eq_true,beq_iff_eq] at hr
    obtain ⟨hmem,⟨⟨hk,hconn⟩,hif⟩,htag⟩ := hr
    exact ⟨hmem,hconn,hif,((taggedAs_iff r tag innerTag).mp htag).1,by simp [hk]⟩
  · simp only [Tables.l2Rows,mem_filter,and_eq_true,beq_iff_eq] at hr
    obtain ⟨hmem,⟨hcur,hif⟩,htag⟩ := hr
    have hconn : t.connected r=true := by
      simp only [Tables.currentCircuitEp,and_eq_true] at hcur
      exact hcur.1.2
    exact ⟨hmem,hconn,hif,((taggedAs_iff r tag innerTag).mp htag).1,fun _ => hcur⟩

theorem live_of_conflictRow {tag : Nat} (hr : r∈t.conflictRows interface tag innerTag)
    (hdecom : r.kind=.vrf → r.state≠some .decom) : t.Live r := by
  obtain ⟨hmem,hconn,_,_,hcur⟩ := mem_conflictRows_fields hr
  cases hk : r.kind with
  | vrf => exact ⟨hmem,hconn,hdecom hk,by simp [hk]⟩
  | circuit =>
    have hc := hcur hk
    simp only [Tables.currentCircuitEp,and_eq_true,beq_iff_eq] at hc
    refine ⟨hmem,hconn,?_,fun _ => hc.1.1.2⟩
    intro hs
    simp [hs,stateNotDecom] at hc

/-- No other live endpoint on the interface holds the unit that is found. -/
theorem Sound.findAvailableUnit_avoids (h : Sound t) {tag u : Nat}
    {circuitEpId vrfEpId : Option Nat} (ht : tag<5000)
    (hself : ∀ r∈t.rows,r.IsSelf circuitEpId vrfEpId → r.key=key)
    (hdecom : ∀ r∈t.rows,r.key=key → r.kind=.vrf → r.state≠some .decom)
    (hsettled : innerTag≠none → Settled t interface (some key))
    (hu : t.findAvailableUnit interface tag innerTag circuitEpId vrfEpId=some u) :
    (5000≤u∨u=tag)∧Avoids t key interface u := by
  rw [Tables.findAvailableUnit_eq] at hu
  cases hrows : t.conflictRows interface tag innerTag with
  | cons r rs =>
    have hr : r∈t.conflictRows interface tag innerTag := by simp [hrows]
    obtain ⟨hmem,_,hif,htag,_⟩ := mem_conflictRows_fields hr
    simp only [hrows] at hu
    by_cases hs : r.IsSelf circuitEpId vrfEpId
    · rw [if_pos hs,Option.some.injEq] at hu
      have hkey := hself r hmem hs
      have hlive : t.Live r := live_of_conflictRow hr (hdecom r hmem hkey)
      have hunits := (h.units r hmem).2
      refine ⟨by omega,?_⟩
      intro a ha hne haif haunit
      have hsame := h.separate a r ha hlive (haif.trans hif.symm) (haunit.trans hu.symm)
      exact hne (hsame.trans hkey)
    · rw [if_neg hs] at hu
      cases hu
  | nil =>
    simp only [hrows] at hu
    by_cases hinner : innerTag=none
    · subst hinner
      rw [if_pos rfl,Option.some.injEq] at hu
      subst hu
      exact ⟨.inr rfl,fun r hlive _ hif => h.tag_free ht hrows r hlive hif⟩
    · rw [if_neg hinner] at hu
      exact ⟨.inl (firstFree_spec hu).1,h.firstFree_free (hsettled hinner) hu⟩

theorem updateRow_key (hw : ∀ r,(write r).key=r.key) (r : Row) :
    (Tables.updateRow key write r).key=r.key := by
  unfold Tables.updateRow
  split_ifs
  · exact hw r
  · rfl

theorem live_updateRows (hlive : (t.updateRows key write).Live r) :
    (∃ r₀∈t.rows,r₀.key=key∧r=write r₀)∨(t.Live r∧r.key≠key) := by
  obtain ⟨hmem,hconn,hrest⟩ := hlive
  obtain ⟨r₀,hr₀,rfl⟩ := mem_map.mp hmem
  by_cases hk : r₀.key=key
  · left
    exact ⟨r₀,hr₀,hk,by simp [Tables.updateRow,hk]⟩
  right
  have hsame : Tables.updateRow key write r₀=r₀ := by simp [Tables.updateRow,hk]
  rw [hsame] at hconn hrest ⊢
  exact ⟨⟨hr₀,hconn,hrest⟩,hk⟩

/-- A write keeps the invariant if the row is well formed and avoids the others' units. -/
theorem Sound.updateRows (h : Sound t) (hw : ∀ r,(write r).key=r.key)
    (hset : ∀ r,(write r).state≠none)
    (hunits : ∀ r∈t.rows,r.key=key → (write r).tag<5000∧(5000≤(write r).unit∨(write r).unit=(write r).tag))
    (havoid : ∀ r∈t.rows,r.key=key → (write r).state=some .decom∨
      Avoids t key (write r).interface (write r).unit) :
    Sound (t.updateRows key write) := by
  have hkeys : (t.updateRows key write).rows.map Row.key=t.rows.map Row.key := by
    simp only [Tables.updateRows,map_map]
    exact map_congr_left fun r _ => updateRow_key hw r
  have hapart (a b : Row) (ha : ∃ r₀∈t.rows,r₀.key=key∧a=write r₀)
      (hla : (t.updateRows key write).Live a) (hb : t.Live b∧b.key≠key)
      (hif : a.interface=b.interface) : a.unit≠b.unit := by
    obtain ⟨r₀,hr₀,hk,rfl⟩ := ha
    obtain hdecom|hav := havoid r₀ hr₀ hk
    · exact absurd hdecom hla.2.2.1
    · exact (hav b hb.1 hb.2 hif.symm).symm
  refine ⟨hkeys ▸ h.keys,?_,?_,?_⟩
  · intro r hr
    obtain ⟨r₀,hr₀,rfl⟩ := mem_map.mp hr
    by_cases hk : r₀.key=key
    · simpa [Tables.updateRow,hk] using hset r₀
    · simpa [Tables.updateRow,hk] using h.set r₀ hr₀
  · intro r hr
    obtain ⟨r₀,hr₀,rfl⟩ := mem_map.mp hr
    by_cases hk : r₀.key=key
    · simpa [Tables.updateRow,hk] using hunits r₀ hr₀ hk
    · simpa [Tables.updateRow,hk] using h.units r₀ hr₀
  · intro a b hla hlb hif hunit
    obtain ha|ha := live_updateRows hla
    · obtain hb|hb := live_updateRows hlb
      · obtain ⟨a₀,_,hka,rfl⟩ := ha
        obtain ⟨b₀,_,hkb,rfl⟩ := hb
        rw [hw,hw,hka,hkb]
      · exact absurd hunit (hapart a b ha hla hb hif)
    · obtain hb|hb := live_updateRows hlb
      · exact absurd hunit.symm (hapart b a hb hlb ha hif.symm)
      · exact h.separate a b ha.1 hb.1 hif hunit

theorem validate_tag (hv : validate f=none) : f.tag<5000 := by
  have htag : tagError f.tag=none := by
    unfold validate at hv
    cases hi : f.innerTag with
    | none => simpa [hi] using hv
    | some inner =>
      simp only [hi] at hv
      split_ifs at hv
      exact hv
  unfold tagError at htag
  split_ifs at htag
  omega

theorem updateDb_ok {kind : Kind} {id : Nat} (hu : t.updateDb kind id f=.ok t') :
    validate f=none∧∃ u,
      t.findAvailableUnit f.interface f.tag f.innerTag (kind.circuitEpId id) (kind.vrfEpId id)=
        some u∧t'=t.updateRows (kind,id) (Tables.written f u) := by
  unfold Tables.updateDb at hu
  cases hv : validate f with
  | some text => simp [hv] at hu
  | none =>
    simp only [hv] at hu
    cases hfind : t.findAvailableUnit f.interface f.tag f.innerTag (kind.circuitEpId id)
        (kind.vrfEpId id) with
    | none => simp [hfind] at hu
    | some u =>
      simp only [hfind] at hu
      split_ifs at hu
      exact ⟨rfl,u,rfl,(ok.inj hu).symm⟩

theorem Sound.updateDb (h : Sound t) {kind : Kind} {id : Nat}
    (hdecom : ∀ r∈t.rows,r.key=(kind,id) → r.kind=.vrf → r.state≠some .decom)
    (hsettled : f.innerTag≠none → Settled t f.interface (some (kind,id)))
    (hu : t.updateDb kind id f=.ok t') : Sound t' := by
  obtain ⟨hv,u,hfind,rfl⟩ := updateDb_ok hu
  have ht := validate_tag hv
  have hself (r : Row) (_ : r∈t.rows)
      (hr : r.IsSelf (kind.circuitEpId id) (kind.vrfEpId id)) : r.key=(kind,id) :=
    (isSelf_edit kind id r).mp hr
  obtain ⟨hunit,havoid⟩ := h.findAvailableUnit_avoids ht hself hdecom hsettled hfind
  refine h.updateRows (fun _ => rfl) (fun _ => Option.some_ne_none _) ?_ ?_
  · intro r _ _
    exact ⟨ht,hunit⟩
  · intro r _ _
    exact .inr havoid

theorem insert_ok (hi : t.insert r=.ok t') :
    r.key∉t.rows.map Row.key∧t'={t with rows := t.rows++[r]} := by
  unfold Tables.insert at hi
  split_ifs at hi with hkey
  exact ⟨hkey,(ok.inj hi).symm⟩

section

variable (h : Sound t)
include h

theorem Sound.insert (hset : r.state≠none) (hunits : r.tag<5000∧(5000≤r.unit∨r.unit=r.tag))
    (havoid : Avoids t r.key r.interface r.unit) (hi : t.insert r=.ok t') : Sound t' := by
  obtain ⟨hkey,rfl⟩ := insert_ok hi
  have hold (a : Row) (ha : Tables.Live ⟨t.rows++[r],t.connections⟩ a) :
      a=r∨(t.Live a∧a.key≠r.key) := by
    obtain ⟨hmem,hrest⟩ := ha
    obtain hmem|hmem := mem_append.mp hmem
    · right
      exact ⟨⟨hmem,hrest⟩,fun hk => hkey (hk ▸ mem_map_of_mem hmem)⟩
    · left
      exact mem_singleton.mp hmem
  refine ⟨Lookup.nodup_map_snoc h.keys hkey,Runs.forall_mem_snoc h.set hset,?_,?_⟩
  · exact Runs.forall_mem_snoc h.units hunits
  · intro a b hla hlb hif hunit
    obtain rfl|ha := hold a hla
    · obtain rfl|hb := hold b hlb
      · rfl
      · exact absurd hunit.symm (havoid b hb.1 hb.2 hif.symm)
    · obtain rfl|hb := hold b hlb
      · exact absurd hunit (havoid a ha.1 ha.2 hif)
      · exact h.separate a b ha.1 hb.1 hif hunit

theorem Sound.create {kind : Kind} {id owner : Nat}
    (hsettled : f.innerTag≠none → Settled t f.interface none) (hc : t.create kind id owner f=.ok t') :
    Sound t' := by
  unfold Tables.create at hc
  split at hc
  · cases hc
  next u hfind =>
    split at hc
    · cases hc
    next hv =>
      have hfresh := (insert_ok hc).1
      have hne (r : Row) (hr : r∈t.rows) : r.key≠(kind,id) :=
        fun hk => hfresh (mem_map.mpr ⟨r,hr,hk⟩)
      have ht := validate_tag hv
      obtain ⟨hunit,havoid⟩ := h.findAvailableUnit_avoids ht
        (fun r _ hs => absurd hs (isSelf_create r)) (fun r hr hk => absurd hk (hne r hr))
        (fun hi r hr hlive _ => hsettled hi r hr hlive (Option.some_ne_none _)) hfind
      refine h.insert ?_ ?_ ?_ hc
      · exact Option.some_ne_none _
      · exact ⟨ht,hunit⟩
      · exact havoid

theorem Sound.shrink (hrows : t'.rows.Sublist t.rows) (hlive : ∀ r,t'.Live r → t.Live r) :
    Sound t' :=
  ⟨h.keys.sublist (hrows.map _),fun r hr => h.set r (hrows.subset hr),
    fun r hr => h.units r (hrows.subset hr),
    fun a b ha hb => h.separate a b (hlive a ha) (hlive b hb)⟩

variable (kind : Kind)

theorem Sound.decom (id : Nat) : Sound (t.decom kind id) := by
  cases kind with
  | circuit => exact h
  | vrf =>
    exact h.updateRows (fun _ => rfl) (fun _ => Option.some_ne_none _)
      (fun r hr _ => h.units r hr) (fun _ _ _ => .inl rfl)

theorem Sound.remove (id : Nat) : Sound (t.remove kind id) := by
  apply h.shrink filter_sublist
  intro r hr
  exact ⟨(mem_filter.mp hr.1).1,hr.2⟩

theorem Sound.decomConnection (owner : Nat) : Sound (t.decomConnection kind owner) := by
  refine h.shrink ?_ ?_
  · exact Sublist.refl t.rows
  intro r ⟨hmem,hconn,hrest⟩
  refine ⟨hmem,?_,hrest⟩
  simp only [Tables.connected,Tables.decomConnection,contains_iff_mem,mem_filter] at hconn ⊢
  exact hconn.1

end

theorem endpointsOnInterface_loaded {type : MoveType} (hr : r∈t.endpointsOnInterface interface type) :
    r.state=some .active∧(r.kind=.vrf → r∈t.rows) := by
  rw [Tables.endpointsOnInterface,mem_append] at hr
  obtain hr|hr := hr
  · split_ifs at hr with htype
    · simp only [mem_filter,and_eq_true,beq_iff_eq] at hr
      exact ⟨hr.2.2,fun _ => hr.1⟩
    · cases hr
  · split_ifs at hr with htype
    · obtain ⟨r₀,hr₀,rfl⟩ := mem_map.mp hr
      simp only [mem_filter,and_eq_true,beq_iff_eq] at hr₀
      refine ⟨rfl,?_⟩
      intro hk
      rw [hr₀.2.1.1.1] at hk
      cases hk
    · cases hr

/-- What holds during a move for the endpoints still to come. -/
structure Moving (t : Tables) (dest : Nat) (rest : List Row) : Prop where
  sound : Sound t
  settled : Settled t dest none
  active : ∀ r∈rest,r.state=some .active
  inService : ∀ r∈rest,∀ r'∈t.rows,r'.key=r.key → r'.kind=.vrf → r'.state≠some .decom

theorem Moving.updateDb (h : Moving t dest (r::rest))
    (hu : t.updateDb r.kind r.id ⟨dest,r.tag,r.innerTag,r.state.getD .active⟩=.ok t') :
    Moving t' dest rest := by
  have hactive := h.active r (mem_cons_self ..)
  have hsettled : Settled t dest (some (r.kind,r.id)) :=
    fun a ha hlive _ => h.settled a ha hlive (Option.some_ne_none _)
  have hsound : Sound t' := h.sound.updateDb (h.inService r (mem_cons_self ..))
    (fun _ => hsettled) hu
  obtain ⟨_,u,_,rfl⟩ := updateDb_ok hu
  refine ⟨hsound,?_,?_,?_⟩
  · intro a _ hlive _ hk hif hbig
    obtain ⟨r₀,_,_,rfl⟩|ha := live_updateRows hlive
    · simp [Tables.written,hactive]
    · exact h.settled a ha.1.1 ha.1 (Option.some_ne_none _) hk hif hbig
  · intro a ha
    exact h.active a (mem_cons_of_mem _ ha)
  · intro a ha r' hr' hkey hk
    obtain ⟨r₀,hr₀,rfl⟩ := mem_map.mp hr'
    by_cases hw : r₀.key=(r.kind,r.id)
    · simp [Tables.updateRow,hw,Tables.written,hactive]
    have hsame : Tables.updateRow (r.kind,r.id) (Tables.written
        ⟨dest,r.tag,r.innerTag,r.state.getD .active⟩ u) r₀=r₀ := by
      simp [Tables.updateRow,hw]
    rw [hsame] at hkey hk ⊢
    exact h.inService a (mem_cons_of_mem _ ha) r₀ hr₀ hkey hk

theorem Moving.skip (h : Moving t dest (r::rest)) : Moving t dest rest :=
  ⟨h.sound,h.settled,fun a ha => h.active a (mem_cons_of_mem _ ha),
    fun a ha => h.inService a (mem_cons_of_mem _ ha)⟩

theorem Moving.moveOne {m : Move} (units : List Nat) (h : Moving m.tables dest (r::rest)) :
    Moving (Tables.moveOne vlans units dest m r).tables dest rest := by
  unfold Tables.moveOne
  split_ifs
  · exact h.skip
  · exact h.skip
  · exact h.skip
  · cases hu : m.tables.updateDb r.kind r.id ⟨dest,r.tag,r.innerTag,r.state.getD .active⟩ with
    | error e => exact h.skip
    | ok t' => exact h.updateDb hu

theorem Moving.foldl (units : List Nat) (rest : List Row) (m : Move) (h : Moving m.tables dest rest) :
    Sound (rest.foldl (Tables.moveOne vlans units dest) m).tables := by
  induction rest generalizing m with
  | nil => exact h.sound
  | cons r rest ih =>
    exact ih _ (h.moveOne vlans units)

theorem Sound.moveEndpoints (h : Sound t) (orig : Nat) (type : MoveType)
    (hsettled : Settled t dest none) : Sound (t.moveEndpoints orig dest type).tables := by
  unfold Tables.moveEndpoints
  cases (t.endpointsOnInterface dest .all).foldlM noteVlan (fun _ => none) with
  | none => exact h
  | some vlans =>
    refine Moving.foldl vlans _ _ _ ⟨h,hsettled,?_,?_⟩
    · intro r hr
      exact (endpointsOnInterface_loaded hr).1
    · intro r hr r' hr' hkey hk
      obtain ⟨hactive,hrow⟩ := endpointsOnInterface_loaded hr
      have hkind : r.kind=.vrf := (congrArg Prod.fst hkey).symm.trans hk
      have hsame : r'=r := inj_on_of_nodup_map h.keys hr' (hrow hkind) hkey
      rw [hsame,hactive]
      simp

/-- Where a unit is chosen, no other VRF endpoint awaits review with one; no decommissioned VRF
endpoint is edited. -/
def EventOk (t : Tables) : Event → Prop
  | .create _ _ _ f => f.innerTag≠none → Settled t f.interface none
  | .edit kind id f => (f.innerTag≠none → Settled t f.interface (some (kind,id)))∧
      ∀ r∈t.rows,r.key=(kind,id) → r.kind=.vrf → r.state≠some .decom
  | .move _ dest _ => Settled t dest none
  | _ => True

instance (t : Tables) (e : Event) : Decidable (EventOk t e) := by
  cases e <;> unfold EventOk <;> infer_instance

theorem step_sound (t : Tables) (e : Event) (h : Sound t) (hok : EventOk t e) :
    Sound (step t e) := by
  cases e with
  | create kind id owner f =>
    cases hc : t.create kind id owner f with
    | error err => simpa [step,hc,commit] using h
    | ok t' => simpa [step,hc,commit] using h.create hok hc
  | edit kind id f =>
    cases hu : t.updateDb kind id f with
    | error err => simpa [step,hu,commit] using h
    | ok t' => simpa [step,hu,commit] using h.updateDb hok.2 hok.1 hu
  | move orig dest type => exact h.moveEndpoints orig type hok
  | decom kind id => exact h.decom kind id
  | remove kind id => exact h.remove kind id
  | decomConnection kind owner => exact h.decomConnection kind owner

theorem sound_empty (connections : List (Kind×Nat)) : Sound ⟨[],connections⟩ :=
  ⟨nodup_nil,by simp,by simp,fun a b ha => absurd ha.1 (not_mem_nil)⟩

/-- In every run from empty tables no two live endpoints of an interface have one unit, if the steps
meet the condition. -/
theorem endpoint_units_unique (connections : List (Kind×Nat)) (es : List Event)
    (hes : Runs.StepsOk step EventOk ⟨[],connections⟩ es) :
    Runs.Always step UnitsUnique ⟨[],connections⟩ es := by
  have hsound : Runs.Always step Sound ⟨[],connections⟩ es := by
    refine Runs.always_of_step ?_ ?_ hes
    · intro t e ht hok
      exact step_sound t e ht hok
    · exact sound_empty connections
  exact hsound.mono fun t ht => ht.unitsUnique

/-- One endpoint is retagged, one moved, one decommissioned. -/
def served : List Event :=
  [.create .vrf 1 7 ⟨1,100,some 10,.active⟩,.create .vrf 2 8 ⟨1,100,some 20,.active⟩,
    .create .circuit 1 9 ⟨1,200,none,.active⟩,.edit .vrf 2 ⟨1,300,some 20,.active⟩,
    .move 1 2 .circuit,.decom .vrf 1]

theorem served_units_unique :
    Runs.StepsOk step EventOk ⟨[],[(.vrf,7),(.vrf,8),(.circuit,9)]⟩ served∧
      Runs.Always step UnitsUnique ⟨[],[(.vrf,7),(.vrf,8),(.circuit,9)]⟩ served := by
  have hok : Runs.StepsOk step EventOk ⟨[],[(.vrf,7),(.vrf,8),(.circuit,9)]⟩ served :=
    ⟨by decide +kernel,by decide +kernel,by decide +kernel,by decide +kernel,by decide +kernel,
      by decide +kernel,trivial⟩
  exact ⟨hok,endpoint_units_unique _ _ hok⟩

/-- The unit of an endpoint in review is given to a second one. -/
theorem review_unit_shared : ¬Runs.Always step UnitsUnique ⟨[],[(.vrf,7),(.vrf,8)]⟩
      [.create .vrf 1 7 ⟨1,100,some 10,.inReview⟩,.create .vrf 2 8 ⟨1,100,some 20,.active⟩] := by
  intro h
  have hlast : UnitsUnique (step (step ⟨[],[(.vrf,7),(.vrf,8)]⟩
      (.create .vrf 1 7 ⟨1,100,some 10,.inReview⟩)) (.create .vrf 2 8 ⟨1,100,some 20,.active⟩)) :=
    h.2.2
  revert hlast
  unfold UnitsUnique
  decide +kernel

end OESS.Endpoint
