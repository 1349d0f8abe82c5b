import Mathlib.Logic.Relation
import OESS.Endpoint.UnitsUnique
import OESS.Framework.Loops
import OESS.Provision.Request

namespace OESS.Provision

open Endpoint (Kind State Row Tables Fields)
open List

/-- The ids are the primary keys of the two tables. -/
def Store.Keyed (s : Store) : Prop :=
  (s.tables.rows.map Row.key).Nodup
  deriving Decidable

theorem Store.Keyed.eq {s : Store} (hk : s.Keyed) {a b : Row} (ha : a∈s.tables.rows)
    (hb : b∈s.tables.rows) (hab : a.key=b.key) : a=b :=
  inj_on_of_nodup_map hk ha hb hab

/-- The two rows differ in nothing but the tags and the unit. -/
def Retagged (r r' : Row) : Prop :=
  ∃ tag innerTag unit,r'={r with tag := tag,innerTag := innerTag,unit := unit}

theorem Retagged.refl (r : Row) : Retagged r r := ⟨r.tag,r.innerTag,r.unit,rfl⟩

variable {r r' : Row}

section

variable (h : Retagged r r')
include h

theorem Retagged.trans {r'' : Row} (h' : Retagged r' r'') : Retagged r r'' := by
  obtain ⟨_,_,_,rfl⟩ := h
  obtain ⟨tag,innerTag,unit,rfl⟩ := h'
  exact ⟨tag,innerTag,unit,rfl⟩

theorem Retagged.key : r'.key=r.key := by
  obtain ⟨_,_,_,rfl⟩ := h
  rfl

theorem Retagged.owner : r'.owner=r.owner := by
  obtain ⟨_,_,_,rfl⟩ := h
  rfl

theorem Retagged.interface : r'.interface=r.interface := by
  obtain ⟨_,_,_,rfl⟩ := h
  rfl

theorem Retagged.state : r'.state=r.state := by
  obtain ⟨_,_,_,rfl⟩ := h
  rfl

theorem Retagged.kind : r'.kind=r.kind := by
  obtain ⟨_,_,_,rfl⟩ := h
  rfl

theorem Retagged.endEpoch : r'.endEpoch=r.endEpoch := by
  obtain ⟨_,_,_,rfl⟩ := h
  rfl

end

namespace Store

def newRow (kind : Kind) (id owner unit : Nat) (f : Fields) : Row :=
  ⟨kind,id,owner,f.interface,f.tag,f.innerTag,unit,-1,some f.state⟩

def addRow (s : Store) (r : Row) (bandwidth : Int) : Store :=
  {s with
    tables := {s.tables with rows := s.tables.rows++[r]}
    bandwidth := Function.update s.bandwidth r.key bandwidth}

def mapRows (s : Store) (retag : Row → Row) (key : Kind×Nat) (bandwidth : Int) : Store :=
  {s with
    tables := {s.tables with rows := s.tables.rows.map retag}
    bandwidth := Function.update s.bandwidth key bandwidth}

variable {s : Store} {kind : Kind} {bandwidth : Int}

theorem create_ok {s' : Store} {id owner : Nat} {f : Fields}
    (h : s.create kind id owner f bandwidth=.ok s') : (kind,id)∉s.tables.rows.map Row.key∧
      ∃ unit,s'=s.addRow (newRow kind id owner unit f) bandwidth := by
  unfold create Tables.create at h
  cases hfind : s.tables.findAvailableUnit f.interface f.tag f.innerTag none none with
  | none => simp [hfind] at h
  | some unit =>
    simp only [hfind] at h
    cases hv : Endpoint.validate f with
    | some text => simp [hv] at h
    | none =>
      simp only [hv] at h
      cases hins : s.tables.insert (newRow kind id owner unit f) with
      | error failure =>
        rw [newRow] at hins
        simp [hins] at h
      | ok t =>
        obtain ⟨hfresh,rfl⟩ := Endpoint.insert_ok hins
        rw [newRow] at hins
        simp only [hins,Except.ok.injEq] at h
        exact ⟨hfresh,unit,h.symm⟩

theorem updateDb_ok {s' : Store} {ep : Ep} (h : s.updateDb kind ep=.ok s') :
    ∃ id unit,ep.id=some id∧s'=s.mapRows
      (Tables.updateRow (kind,id) (Tables.written ep.fields unit)) (kind,id) ep.bandwidth := by
  unfold updateDb at h
  cases hid : ep.id with
  | none => simp [hid] at h
  | some id =>
    simp only [hid] at h
    split at h
    · cases h
    next t hu =>
      simp only [Except.ok.injEq] at h
      obtain ⟨_,unit,_,rfl⟩ := Endpoint.updateDb_ok hu
      exact ⟨id,unit,rfl,h.symm⟩

theorem Keyed.addRow (hk : s.Keyed) (hfresh : r.key∉s.tables.rows.map Row.key) :
    (s.addRow r bandwidth).Keyed := Lookup.nodup_map_snoc hk hfresh

theorem Keyed.mapRows (hk : s.Keyed) {retag : Row → Row} {key : Kind×Nat}
    (hkey : ∀ r∈s.tables.rows,(retag r).key=r.key) : (s.mapRows retag key bandwidth).Keyed := by
  have hsame : (s.tables.rows.map retag).map Row.key=s.tables.rows.map Row.key := by
    rw [map_map]
    exact map_congr_left hkey
  exact (congrArg List.Nodup hsame).mpr hk

theorem Keyed.remove (hk : s.Keyed) (kind : Kind) (id : Nat) : (s.remove kind id).Keyed :=
  Nodup.sublist (filter_sublist.map Row.key) hk

theorem mem_remove {id : Nat} : r∈(s.remove kind id).tables.rows↔
      r∈s.tables.rows∧¬(r.key=(kind,id)∧(kind=.vrf∨r.endEpoch= -1)) := by
  simp only [remove,Tables.remove,mem_filter,Bool.not_eq_true',Bool.and_eq_false_iff,
    beq_eq_false_iff_ne,Bool.or_eq_false_iff]
  tauto

end Store

section Change

variable (selectors : List Selector) (kind : Kind) (req : Request)

def Given (id : Nat) (bandwidth : Int) : Prop :=
  ∃ e∈req.entries,e.existing=some id∧e.bandwidth=some bandwidth

/-- A new endpoint has passed the checks; a write changes only tags, unit and bandwidth, stored or
requested; an endpoint not named is removed. -/
inductive Change : Store → Store → Prop
  | create {s : Store} (e : Entry) (i unit : Nat) (he : e∈req.entries) (hi : e.interface=.found i)
      (hvalid : (s.interfaces i).isBandwidthValid selectors (e.bandwidth.getD 0) req.isAdmin=true)
      (hfits : exceeds s i (e.bandwidth.getD 0)=false)
      (hfresh : (kind,e.id)∉s.tables.rows.map Row.key) :
      Change s (s.addRow (Store.newRow kind e.id req.owner unit (newFields selectors s i e))
        (e.bandwidth.getD 0))
  | write {s : Store} (id : Nat) (bandwidth : Int) (retag : Row → Row)
      (hretag : ∀ r∈s.tables.rows,Retagged r (retag r))
      (hother : ∀ r∈s.tables.rows,r.key≠(kind,id) → retag r=r)
      (hrow : ∃ r∈s.tables.rows,r.key=(kind,id)∧r.owner=req.owner)
      (hbandwidth : bandwidth=s.bandwidth (kind,id)∨Given req id bandwidth) :
      Change s (s.mapRows retag (kind,id) bandwidth)
  | remove {s : Store} (id : Nat) (hown : ∀ r∈s.tables.rows,r.key=(kind,id) → r.owner=req.owner)
      (hunnamed : ∀ e∈req.entries,e.existing≠some id) : Change s (s.remove kind id)

def Changes : Store → Store → Prop := Relation.ReflTransGen (Change selectors kind req)

variable {selectors kind req} {s s' : Store}

section

variable (h : Change selectors kind req s s')
include h

theorem Change.keyed (hk : s.Keyed) : s'.Keyed := by
  cases h with
  | create e i unit he hi hvalid hfits hfresh => exact hk.addRow hfresh
  | write id bandwidth retag hretag => exact hk.mapRows fun r hr => (hretag r hr).key
  | remove id => exact hk.remove kind id

theorem Change.interfaces : s'.interfaces=s.interfaces := by cases h <;> rfl

theorem Change.connections : s'.tables.connections=s.tables.connections := by cases h <;> rfl

theorem Change.owner {id : Nat} (hown : ∀ r∈s.tables.rows,r.key=(kind,id) → r.owner=req.owner) :
    ∀ r∈s'.tables.rows,r.key=(kind,id) → r.owner=req.owner := by
  intro r' hr' hkey
  cases h with
  | create e i unit =>
    obtain hr|rfl := Runs.mem_snoc.mp hr'
    · exact hown r' hr hkey
    · rfl
  | write id' bandwidth retag hretag =>
    obtain ⟨r,hr,rfl⟩ := mem_map.mp hr'
    rw [(hretag r hr).owner]
    exact hown r hr ((hretag r hr).key.symm.trans hkey)
  | remove id' => exact hown r' (Store.mem_remove.mp hr').1 hkey

theorem Change.frame (hk : s.Keyed) (r : Row) (hr : (r.kind,r.owner)≠(kind,req.owner)) :
    (r∈s'.tables.rows↔r∈s.tables.rows)∧(r∈s.tables.rows → s'.bandwidth r.key=s.bandwidth r.key) := by
  have hforeign {id : Nat} (hkey : r.key=(kind,id)) (hown : r.owner=req.owner) : False := by
    have hkind : r.kind=kind := congrArg Prod.fst hkey
    exact hr (by rw [hkind,hown])
  cases h with
  | create e i unit he hi hvalid hfits hfresh =>
    refine ⟨?_,?_⟩
    · simp only [Store.addRow,mem_append,mem_singleton,or_iff_left_iff_imp]
      rintro rfl
      exact absurd rfl hr
    · intro hmem
      refine Function.update_of_ne ?_ _ _
      intro hkey
      exact hfresh (mem_map.mpr ⟨r,hmem,hkey⟩)
  | write id bandwidth retag hretag hother hrow =>
    obtain ⟨r₀,hr₀,hkey₀,hown⟩ := hrow
    -- the row that is written belongs to the handler's connection, so `r` is another one
    have hne (hmem : r∈s.tables.rows) : r.key≠(kind,id) := by
      intro hkey
      have hsame := hk.eq hmem hr₀ (hkey.trans hkey₀.symm)
      exact hforeign hkey (hsame ▸ hown)
    refine ⟨⟨?_,?_⟩,?_⟩
    · intro hmem
      obtain ⟨a,ha,rfl⟩ := mem_map.mp hmem
      by_cases hkey : a.key=(kind,id)
      · have hsame := hk.eq ha hr₀ (hkey.trans hkey₀.symm)
        have howner : (retag a).owner=req.owner := by rw [(hretag a ha).owner,hsame,hown]
        exact (hforeign ((hretag a ha).key.trans hkey) howner).elim
      · rwa [hother a ha hkey]
    · intro hmem
      exact mem_map.mpr ⟨r,hmem,hother r hmem (hne hmem)⟩
    · intro hmem
      exact Function.update_of_ne (hne hmem) _ _
  | remove id hown =>
    refine ⟨?_,fun _ => rfl⟩
    rw [Store.mem_remove]
    constructor
    · exact fun hmem => hmem.1
    · intro hmem
      refine ⟨hmem,?_⟩
      rintro ⟨hkey,_⟩
      exact hforeign hkey (hown r hmem hkey)

end

theorem Changes.invariant {I : Store → Prop}
    (hstep : ∀ s s',Change selectors kind req s s' → I s → I s')
    (h : Changes selectors kind req s s') (hs : I s) : I s' := by
  induction h with
  | refl => exact hs
  | tail _ hlast ih => exact hstep _ _ hlast ih

section

variable (h : Changes selectors kind req s s')
include h

theorem Changes.keyed (hk : s.Keyed) : s'.Keyed := h.invariant (fun _ _ hc => hc.keyed) hk

theorem Changes.interfaces : s'.interfaces=s.interfaces :=
  h.invariant (fun _ _ hc => hc.interfaces.trans) rfl

theorem Changes.connections : s'.tables.connections=s.tables.connections :=
  h.invariant (fun _ _ hc => hc.connections.trans) rfl

theorem Changes.owner {id : Nat} (hown : ∀ r∈s.tables.rows,r.key=(kind,id) → r.owner=req.owner) :
    ∀ r∈s'.tables.rows,r.key=(kind,id) → r.owner=req.owner :=
  h.invariant (fun _ _ hc => hc.owner) hown

theorem Changes.frame (hk : s.Keyed) (r : Row) (hr : (r.kind,r.owner)≠(kind,req.owner)) :
    (r∈s'.tables.rows↔r∈s.tables.rows)∧(r∈s.tables.rows → s'.bandwidth r.key=s.bandwidth r.key) := by
  induction h with
  | refl => exact ⟨Iff.rfl,fun _ => rfl⟩
  | tail hrun hlast ih =>
    obtain ⟨hmem,hbw⟩ := hlast.frame (Changes.keyed hrun hk) r hr
    refine ⟨hmem.trans ih.1,?_⟩
    intro hr₀
    exact (hbw (ih.1.mpr hr₀)).trans (ih.2 hr₀)

end

end Change

end OESS.Provision
