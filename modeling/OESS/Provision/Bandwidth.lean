import Mathlib.Algebra.Order.Group.Int
import Mathlib.Data.List.Pairwise
import OESS.Framework.Totals
import OESS.Provision.Sessions

namespace OESS.Provision

open Endpoint (Kind State Row Tables Fields)
open Function List

def Store.liveBandwidth (s : Store) (interface : Nat) : Int :=
  Totals.total (fun r => decide (s.tables.Live r) && r.interface==interface)
    (fun r => s.bandwidth r.key) s.tables.rows

def WithinLimits (s : Store) : Prop :=
  ∀ i limit,(s.interfaces i).provisionableBandwidth=some limit → s.liveBandwidth i ≤ limit

/-- No bandwidth is negative, VRF endpoints have a state, and the request names no endpoint twice
and gives none more than it has. -/
def Unraised (s : Store) (c : Call) : Prop :=
  (∀ r∈s.tables.rows,0 ≤ s.bandwidth r.key∧(r.kind=.vrf → r.state≠none))∧
    (∀ e∈c.req.entries,∀ b∈e.bandwidth,0 ≤ b)∧(c.req.entries.filterMap Entry.existing).Nodup∧
    ∀ e∈c.req.entries,∀ id∈e.existing,∀ b∈e.bandwidth,
      (∃ r∈s.tables.rows,r.key=(c.kind,id))∧b ≤ s.bandwidth (c.kind,id)

instance (s : Store) (c : Call) : Decidable (Unraised s c) := inferInstanceAs (Decidable (_∧_∧_∧_))

variable {selectors : List Selector} {kind : Kind} {req : Request} {s s' : Store}

structure Calm (kind : Kind) (req : Request) (s : Store) : Prop where
  keyed : s.Keyed
  nonneg : ∀ r∈s.tables.rows,0 ≤ s.bandwidth r.key
  set : ∀ r∈s.tables.rows,r.kind=.vrf → r.state≠none
  given : ∀ id b,Given req id b → (∃ r∈s.tables.rows,r.key=(kind,id))∧b ≤ s.bandwidth (kind,id)
  within : WithinLimits s

theorem Calm.live_le_utilized (h : Calm kind req s) (i : Nat) :
    s.liveBandwidth i ≤ s.utilizedBandwidth i := by
  refine Totals.total_le_total ?_ (fun _ _ _ => le_refl _) (fun r hr _ => h.nonneg r hr)
  intro r hr hlive
  simp only [Bool.and_eq_true,decide_eq_true_eq] at hlive
  obtain ⟨⟨_,_,hdecom,hepoch⟩,hif⟩ := hlive
  cases hk : r.kind with
  | circuit => simp [Store.counted,hif,hk,hepoch hk]
  | vrf =>
    rcases hstate : r.state with _|state
    · exact absurd hstate (h.set r hr hk)
    · cases state with
      | decom => exact absurd hstate hdecom
      | active | inReview => simp [Store.counted,hif,hk,hstate]

theorem liveBandwidth_addRow {r : Row} {b : Int} (hfresh : r.key∉s.tables.rows.map Row.key)
    (hb : 0 ≤ b) (i : Nat) :
    (s.addRow r b).liveBandwidth i ≤ s.liveBandwidth i+if r.interface=i then b else 0 := by
  have hne (a : Row) (ha : a∈s.tables.rows) : a.key≠r.key :=
    fun he => hfresh (mem_map.mpr ⟨a,ha,he⟩)
  have hold (a : Row) (ha : a∈s.tables.rows) :
      (s.addRow r b).tables.Live a↔s.tables.Live a := by
    simp only [Tables.Live,Store.addRow,mem_append,ha,true_or]
    rfl
  have hrows : (s.addRow r b).tables.rows=s.tables.rows++[r] := rfl
  rw [Store.liveBandwidth,hrows,Totals.total_append,Totals.total_singleton]
  refine Int.add_le_add (le_of_eq (Totals.total_congr ?_ ?_)) ?_
  · intro a ha
    simp only [hold a ha]
  · intro a ha
    exact update_of_ne (hne a ha) _ _
  · have hbw : (s.addRow r b).bandwidth r.key=b := update_self ..
    rw [hbw]
    split_ifs with hlive hif hif
    · exact le_refl b
    · simp [hif] at hlive
    · exact hb
    · exact le_refl 0

variable {retag : Row → Row}

theorem liveBandwidth_mapRows_le {key : Kind×Nat} {bandwidth : Int}
    (hretag : ∀ r∈s.tables.rows,Retagged r (retag r))
    (hnonneg : ∀ r∈s.tables.rows,0 ≤ s.bandwidth r.key)
    (hstored : ∀ k,(s.mapRows retag key bandwidth).bandwidth k ≤ s.bandwidth k) (i : Nat) :
    (s.mapRows retag key bandwidth).liveBandwidth i ≤ s.liveBandwidth i := by
  rw [Store.liveBandwidth,Store.mapRows,Totals.total_map]
  refine Totals.total_le_total ?_ ?_ (fun r hr _ => hnonneg r hr)
  · intro r hr hlive
    simp only [Bool.and_eq_true,decide_eq_true_eq] at hlive ⊢
    obtain ⟨⟨_,hconn,hdecom,hepoch⟩,hif⟩ := hlive
    have ht := hretag r hr
    rw [ht.interface] at hif
    rw [ht.state] at hdecom
    rw [ht.kind,ht.endEpoch] at hepoch
    rw [Tables.connected,ht.kind,ht.owner] at hconn
    exact ⟨⟨hr,hconn,hdecom,hepoch⟩,hif⟩
  · intro r hr _
    rw [(hretag r hr).key]
    exact hstored r.key

theorem Calm.create (h : Calm kind req s) (hpositive : ∀ e∈req.entries,∀ b∈e.bandwidth,0 ≤ b)
    {e : Entry} {i unit : Nat} (he : e∈req.entries) (hfits : exceeds s i (e.bandwidth.getD 0)=false)
    (hfresh : (kind,e.id)∉s.tables.rows.map Row.key) :
    Calm kind req (s.addRow (Store.newRow kind e.id req.owner unit (newFields selectors s i e))
      (e.bandwidth.getD 0)) := by
  have hb : 0 ≤ e.bandwidth.getD 0 := by
    cases hbw : e.bandwidth with
    | none => exact le_refl 0
    | some b => exact hpositive e he b (by simp [hbw])
  have hold {r : Row} (hr : r∈s.tables.rows) : r.key≠(kind,e.id) :=
    fun hkey => hfresh (mem_map.mpr ⟨r,hr,hkey⟩)
  refine ⟨h.keyed.addRow hfresh,?_,?_,?_,?_⟩
  · intro r hr
    obtain hr|rfl := Runs.mem_snoc.mp hr
    · exact (h.nonneg r hr).trans_eq (update_of_ne (hold hr) _ _).symm
    · exact hb.trans_eq (update_self (kind,e.id) _ s.bandwidth).symm
  · exact Runs.forall_mem_snoc h.set fun _ => Option.some_ne_none _
  · intro id b hgiven
    obtain ⟨⟨r,hr,hkey⟩,hle⟩ := h.given id b hgiven
    refine ⟨⟨r,mem_append_left _ hr,hkey⟩,?_⟩
    exact hle.trans_eq (update_of_ne (hkey ▸ hold hr) _ _).symm
  · intro j limit hlimit
    have hadd : (s.addRow (Store.newRow kind e.id req.owner unit (newFields selectors s i e))
        (e.bandwidth.getD 0)).liveBandwidth j ≤
          s.liveBandwidth j+if i=j then e.bandwidth.getD 0 else 0 :=
      liveBandwidth_addRow hfresh hb j
    by_cases hij : i=j
    · subst hij
      have hutilized := h.live_le_utilized i
      have hroom : ¬e.bandwidth.getD 0+s.utilizedBandwidth i>limit := by
        have hlim : (s.interfaces i).provisionableBandwidth=some limit := hlimit
        simpa [exceeds,hlim] using hfits
      omega
    · have hlive := h.within j limit hlimit
      omega

/-- A write keeps the store calm if the request gives no more than is stored. -/
theorem Calm.write (h : Calm kind req s) (hpositive : ∀ e∈req.entries,∀ b∈e.bandwidth,0 ≤ b)
    (hunique : ∀ id b b',Given req id b → Given req id b' → b=b') {id : Nat} {bandwidth : Int}
    (hretag : ∀ r∈s.tables.rows,Retagged r (retag r)) (hrow : ∃ r∈s.tables.rows,r.key=(kind,id))
    (hbandwidth : bandwidth=s.bandwidth (kind,id)∨Given req id bandwidth) :
    Calm kind req (s.mapRows retag (kind,id) bandwidth) := by
  obtain ⟨r₀,hr₀,hkey₀⟩ := hrow
  have hle : bandwidth ≤ s.bandwidth (kind,id) := by
    obtain hb|hb := hbandwidth
    · exact hb.le
    · exact (h.given id bandwidth hb).2
  have hpos : 0 ≤ bandwidth := by
    obtain hb|⟨e,he,_,hb⟩ := hbandwidth
    · rw [hb,← hkey₀]
      exact h.nonneg r₀ hr₀
    · exact hpositive e he bandwidth hb
  have hstored (key : Kind×Nat) :
      (s.mapRows retag (kind,id) bandwidth).bandwidth key ≤ s.bandwidth key := by
    by_cases hkey : key=(kind,id)
    · rw [hkey]
      exact (update_self (kind,id) _ s.bandwidth).trans_le hle
    · exact (update_of_ne hkey _ s.bandwidth).le
  refine ⟨h.keyed.mapRows fun r hr => (hretag r hr).key,?_,?_,?_,?_⟩
  · intro r' hr'
    obtain ⟨r,hr,rfl⟩ := mem_map.mp hr'
    rw [(hretag r hr).key]
    by_cases hkey : r.key=(kind,id)
    · rw [hkey]
      exact hpos.trans_eq (update_self (kind,id) _ s.bandwidth).symm
    · exact (h.nonneg r hr).trans_eq (update_of_ne hkey _ s.bandwidth).symm
  · intro r' hr' hk
    obtain ⟨r,hr,rfl⟩ := mem_map.mp hr'
    rw [(hretag r hr).state]
    exact h.set r hr ((hretag r hr).kind.symm.trans hk)
  · intro id' b hgiven
    obtain ⟨⟨r,hr,hkey⟩,hb⟩ := h.given id' b hgiven
    refine ⟨⟨retag r,mem_map_of_mem hr,(hretag r hr).key.trans hkey⟩,?_⟩
    by_cases hid : id'=id
    · subst hid
      refine le_of_le_of_eq ?_ (update_self (kind,id') _ s.bandwidth).symm
      obtain hsame|hgiven' := hbandwidth
      · exact hb.trans_eq hsame.symm
      · exact (hunique id' b bandwidth hgiven hgiven').le
    · have hkeys : (kind,id')≠(kind,id) := fun he => hid (congrArg Prod.snd he)
      exact hb.trans_eq (update_of_ne hkeys _ s.bandwidth).symm
  · intro i limit hlimit
    exact (liveBandwidth_mapRows_le hretag h.nonneg hstored i).trans (h.within i limit hlimit)

theorem Calm.remove (h : Calm kind req s) {id : Nat}
    (hunnamed : ∀ e∈req.entries,e.existing≠some id) : Calm kind req (s.remove kind id) := by
  refine ⟨h.keyed.remove kind id,?_,?_,?_,?_⟩
  · intro r hr
    exact h.nonneg r (Store.mem_remove.mp hr).1
  · intro r hr
    exact h.set r (Store.mem_remove.mp hr).1
  · intro id' b hgiven
    obtain ⟨⟨r,hr,hkey⟩,hb⟩ := h.given id' b hgiven
    refine ⟨⟨r,Store.mem_remove.mpr ⟨hr,?_⟩,hkey⟩,hb⟩
    rintro ⟨hkey',_⟩
    obtain ⟨e,he,hid,_⟩ := hgiven
    have hsame : id'=id := congrArg Prod.snd (hkey.symm.trans hkey')
    exact hunnamed e he (hsame ▸ hid)
  · intro i limit hlimit
    refine le_trans ?_ (h.within i limit hlimit)
    rw [Store.liveBandwidth,Store.remove,Tables.remove,Totals.total_filter]
    refine Totals.total_le_total ?_ (fun _ _ _ => le_refl _) (fun r hr _ => h.nonneg r hr)
    intro r hr hlive
    simp only [Bool.and_eq_true,decide_eq_true_eq] at hlive ⊢
    exact ⟨⟨hr,hlive.1.1.2⟩,hlive.1.2⟩

theorem Changes.calm (h : Changes selectors kind req s s') (hs : Calm kind req s)
    (hpositive : ∀ e∈req.entries,∀ b∈e.bandwidth,0 ≤ b)
    (hunique : ∀ id b b',Given req id b → Given req id b' → b=b') : Calm kind req s' := by
  refine h.invariant ?_ hs
  intro s s' hchange hs
  cases hchange with
  | create e i unit he hi hvalid hfits hfresh => exact hs.create hpositive he hfits hfresh
  | write id bandwidth retag hretag hother hrow hbandwidth =>
    obtain ⟨r,hr,hkey,_⟩ := hrow
    exact hs.write hpositive hunique hretag ⟨r,hr,hkey⟩ hbandwidth
  | remove id hown hunnamed => exact hs.remove hunnamed

theorem given_unique (honce : (req.entries.filterMap Entry.existing).Nodup) (id : Nat) (b b' : Int)
    (hb : Given req id b) (hb' : Given req id b') : b=b' := by
  obtain ⟨e,he,hid,hbw⟩ := hb
  obtain ⟨e',he',hid',hbw'⟩ := hb'
  have hsame : e=e' := by
    by_contra hne
    rw [List.Nodup,pairwise_filterMap] at honce
    have : Std.Symm fun a a' : Entry =>
        ∀ b,a.existing=some b → ∀ b',a'.existing=some b' → b≠b' :=
      ⟨fun a a' h b hb b' hb' he => h b' hb' b hb he.symm⟩
    exact honce.forall he he' hne id hid id hid' rfl
  rw [hsame,hbw'] at hbw
  exact (Option.some.inj hbw).symm

theorem WithinLimits.openConnection {s s₀ : Store} {owner : Nat}
    (hs : WithinLimits s) (hopen : s.openConnection kind owner=.ok s₀) : WithinLimits s₀ := by
  obtain ⟨_,hrows,rfl⟩ := openConnection_ok hopen
  intro i limit hlimit
  refine le_of_eq_of_le ?_ (hs i limit hlimit)
  refine Totals.total_congr ?_ (fun _ _ => rfl)
  intro r hr
  have hne := hrows r hr
  simp [Tables.Live,Tables.connected,hne]

theorem serve_withinLimits (selectors : List Selector) (s : Store) (c : Call)
    (h : s.Keyed∧WithinLimits s) (hok : Unraised s c) :
    (serve selectors s c).Keyed∧WithinLimits (serve selectors s c) := by
  obtain ⟨hk,hs⟩ := h
  obtain ⟨hrows,hpositive,honce,hkept⟩ := hok
  have hunique := given_unique honce
  have hgiven (id : Nat) (b : Int) (hg : Given c.req id b) :
      (∃ r∈s.tables.rows,r.key=(c.kind,id))∧b ≤ s.bandwidth (c.kind,id) := by
    obtain ⟨e,he,hid,hb⟩ := hg
    exact hkept e he id hid b hb
  refine commit_handle (P := fun s => s.Keyed∧WithinLimits s) hk ⟨hk,hs⟩ ?_ ?_
  · intro _ s' ⟨s₀,hopen,hchanges⟩
    have hs₀ := hs.openConnection hopen
    have hk₀ := openConnection_keyed hk hopen
    obtain ⟨_,_,rfl⟩ := openConnection_ok hopen
    have hcalm := hchanges.calm ⟨hk₀,fun r hr => (hrows r hr).1,fun r hr => (hrows r hr).2,hgiven,
      hs₀⟩ hpositive hunique
    exact ⟨hcalm.keyed,hcalm.within⟩
  · intro _ s' hdone
    have hcalm := hdone.1.calm ⟨hk,fun r hr => (hrows r hr).1,fun r hr => (hrows r hr).2,hgiven,hs⟩
      hpositive hunique
    exact ⟨hcalm.keyed,hcalm.within⟩

/-- Live bandwidth is within the limits in every run whose requests all meet the condition. -/
theorem live_bandwidth_within_limits (selectors : List Selector) (s : Store) (cs : List Call)
    (hk : s.Keyed) (hs : WithinLimits s) (hcs : Runs.StepsOk (serve selectors) Unraised s cs) :
    Runs.Always (serve selectors) WithinLimits s cs := by
  have hboth : Runs.Always (serve selectors) (fun s => s.Keyed∧WithinLimits s) s cs :=
    Runs.always_of_step (serve_withinLimits selectors) ⟨hk,hs⟩ hcs
  exact hboth.mono fun s h => h.2

def smallPort : Nat → Interface := fun i =>
  ⟨.openflow,if i=1 then some .awsHostedVinterface else none,100⟩

def portStore : Store := ⟨⟨[],[]⟩,fun _ => 0,smallPort⟩

def reserve (existing : Option Nat) (id interface : Nat) (bandwidth : Int) : Entry :=
  ⟨"",existing,id,.found interface,some bandwidth,some (100+id),none⟩

def portRequest (owner : Nat) (entries : List Entry) : Request :=
  ⟨owner,entries,false,false,some fun _ => none,true⟩

/-- 60 and 40 Mbps; the first then gives 10 back. -/
def portCalls : List Call :=
  [⟨.circuit,true,portRequest 7 [reserve none 1 1 60,reserve none 2 2 0]⟩,
    ⟨.circuit,true,portRequest 8 [reserve none 3 1 40,reserve none 4 2 0]⟩,
    ⟨.circuit,false,portRequest 7 [reserve (some 1) 1 1 50,reserve (some 2) 2 2 0]⟩]

theorem portCalls_withinLimits : Runs.StepsOk (serve []) Unraised portStore portCalls∧
    Runs.Always (serve []) WithinLimits portStore portCalls := by
  have hok : Runs.StepsOk (serve []) Unraised portStore portCalls :=
    ⟨by decide +kernel,by decide +kernel,by decide +kernel,trivial⟩
  refine ⟨hok,live_bandwidth_within_limits [] _ _ nodup_nil ?_ hok⟩
  intro i limit hlimit
  by_cases hi : i=1
  · subst hi
    have hport : some 100=some limit := hlimit
    cases hport
    decide
  · simp [portStore,smallPort,Interface.provisionableBandwidth,hi] at hlimit

/-- An edit raises an endpoint from 10 to 500 Mbps on a port of 100 Mbps. -/
theorem edit_exceeds_limit : ¬Runs.Always (serve []) WithinLimits portStore
      [⟨.circuit,true,portRequest 7 [reserve none 1 1 10,reserve none 2 2 0]⟩,
        ⟨.circuit,false,portRequest 7 [reserve (some 1) 1 1 500,reserve (some 2) 2 2 0]⟩] := by
  intro h
  have hlast := h.2.2 1 100 rfl
  revert hlast
  decide +kernel

end OESS.Provision
