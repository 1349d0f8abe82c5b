import OESS.Provision.Sessions

namespace OESS.Provision

open Endpoint (Kind State Row Tables Fields)
open List Function

/-- `cloud` is the provider's answer, if it does not die; `completes`: the admin has access and the
connection is loaded. -/
structure Review where
  kind : Kind
  id : Nat
  (approve skipCloudProvisioning : Bool)
  cloud : Option (Option (Nat×Nat))
  completes : Bool

namespace Store

variable (s : Store)

/-- The constructor is not told the type, so a circuit's query has no condition and its first row is
taken: circuits first. -/
def reviewed (kind : Kind) (id : Nat) : Option Row :=
  match kind with
  | .vrf => s.tables.rows.find? fun r => r.key==(.vrf,id)
  | .circuit =>
    (s.tables.rows.find? fun r => r.kind==.circuit && r.endEpoch==-1).or
      (s.tables.rows.find? (·.kind==.vrf))

def denied (r : Row) : Ep := {s.toEp r with state := .decom}

def approved (kind : Kind) (answer : Option (Nat×Nat)) (r : Row) : Ep :=
  passInner s kind (setupEndpoint s (fun _ => answer) {s.toEp r with state := .active,added := true})

end Store

/-- A denial ignores the result of its write, and an approval writes nothing if the cloud is
skipped. -/
def reviewEndpoint (rv : Review) (s : Store) : Except Failure Store :=
  match s.reviewed rv.kind rv.id with
  | none => .error .died
  | some r =>
    if rv.completes=false then .error .incomplete
    else if rv.approve=false then
      match s.updateDb r.kind (s.denied r) with
      | .ok s' => .ok s'
      | .error _ => .ok s
    -- a VRF endpoint has no circuit to load
    else if rv.kind≠r.kind then .error .died
    else if rv.skipCloudProvisioning=true then .ok s
    else
      match rv.cloud with
      | none => .error .died
      | some answer =>
        match s.updateDb r.kind (s.approved rv.kind answer r) with
        | .ok s' => .ok s'
        | .error failure => .error (.endpoint "" failure)

inductive Act where
  | call (c : Call)
  | review (rv : Review)

/-- The endpoints approved, with their bandwidth, while they are there; and, after a successful
review, its endpoint and decision. -/
structure History where
  store : Store
  approvals : List ((Kind×Nat)×Int)
  decided : Option ((Kind×Nat)×State)

def Review.decision (rv : Review) : State :=
  if rv.approve=true then .active else .decom

variable (selectors : List Selector)

def History.step (h : History) : Act → History
  | .call c =>
    ⟨serve selectors h.store c,
      h.approvals.filter fun a => decide (a.1∈(serve selectors h.store c).tables.rows.map Row.key),
      none⟩
  | .review rv =>
    match reviewEndpoint rv h.store with
    | .error _ => ⟨h.store,h.approvals,none⟩
    | .ok s' =>
      ⟨s',
        if rv.approve=true then
          ((rv.kind,rv.id),h.store.bandwidth (rv.kind,rv.id))::h.approvals
        else h.approvals,
        some ((rv.kind,rv.id),rv.decision)⟩

/-- The bandwidth requires approval there. -/
def Store.Restricted (s : Store) (r : Row) (bandwidth : Int) : Prop :=
  (s.interfaces r.interface).bandwidthRequiresApproval selectors bandwidth=true
  deriving Decidable

/-- An active endpoint that requires approval was approved with its bandwidth, and the last decision
is stored. -/
def Reviewed (h : History) : Prop :=
  (∀ r∈h.store.tables.rows,r.state=some .active →
    h.store.Restricted selectors r (h.store.bandwidth r.key) →
      (r.key,h.store.bandwidth r.key)∈h.approvals)∧
    ∀ d∈h.decided,∃ r∈h.store.tables.rows,r.key=d.1∧r.state=some d.2

/-- Valid tags, nothing in their way, no row with the key. -/
def Writable (t : Tables) (r : Row) (f : Fields) : Prop := Endpoint.validate f=none∧
    (t.findAvailableUnit f.interface f.tag f.innerTag (r.kind.circuitEpId r.id)
      (r.kind.vrfEpId r.id)).isSome=true∧t.duplicate r=false
  deriving Decidable

/-- An edit gives an active endpoint only a bandwidth without approval; a review names the endpoint
that is loaded, does not skip the cloud to approve it, and denies only what can be written. -/
def Vetted (h : History) : Act → Prop
  | .call c => ∀ e∈c.req.entries,∀ id∈e.existing,∀ b∈e.bandwidth,
      ∃ r∈h.store.tables.rows,r.key=(c.kind,id)∧
        (r.state=some .active → b=h.store.bandwidth (c.kind,id)∨¬h.store.Restricted selectors r b)
  | .review rv => ∀ r∈h.store.reviewed rv.kind rv.id,r.key=(rv.kind,rv.id)∧
      (rv.approve=true → rv.skipCloudProvisioning=false)∧
      (rv.approve=false → Writable h.store.tables r (h.store.denied r).fields)

instance (selectors : List Selector) (h : History) (a : Act) : Decidable (Vetted selectors h a) := by
  cases a <;> unfold Vetted <;> infer_instance

section Calls

variable {selectors : List Selector} {kind : Kind} {req : Request} {s s' : Store}
  {approvals : List ((Kind×Nat)×Int)}

structure Sanctioned (selectors : List Selector) (kind : Kind) (req : Request)
    (approvals : List ((Kind×Nat)×Int)) (s : Store) : Prop where
  keyed : s.Keyed
  approved : ∀ r∈s.tables.rows,r.state=some .active →
    s.Restricted selectors r (s.bandwidth r.key) → (r.key,s.bandwidth r.key)∈approvals
  given : ∀ id b,Given req id b → ∃ r∈s.tables.rows,r.key=(kind,id)∧
    (r.state=some .active → s.Restricted selectors r b → ((kind,id),b)∈approvals)

section

variable (h : Sanctioned selectors kind req approvals s)
include h

theorem Sanctioned.create {e : Entry} {i unit : Nat}
    (hfresh : (kind,e.id)∉s.tables.rows.map Row.key) :
    Sanctioned selectors kind req approvals (s.addRow
      (Store.newRow kind e.id req.owner unit (newFields selectors s i e)) (e.bandwidth.getD 0)) := by
  refine ⟨h.keyed.addRow hfresh,?_,?_⟩
  · intro r hr hactive hrestricted
    obtain hr|hr := mem_append.mp hr
    · have hne : r.key≠(kind,e.id) := fun hkey => hfresh (mem_map.mpr ⟨r,hr,hkey⟩)
      have hsame : (s.addRow (Store.newRow kind e.id req.owner unit (newFields selectors s i e))
          (e.bandwidth.getD 0)).bandwidth r.key=s.bandwidth r.key := update_of_ne hne _ _
      rw [hsame] at hrestricted ⊢
      exact h.approved r hr hactive hrestricted
    · -- a new endpoint that requires approval awaits its review
      rw [mem_singleton.mp hr] at hactive hrestricted
      have hbw : (s.addRow (Store.newRow kind e.id req.owner unit (newFields selectors s i e))
          (e.bandwidth.getD 0)).bandwidth (kind,e.id)=e.bandwidth.getD 0 :=
        update_self (kind,e.id) _ s.bandwidth
      have hneeds : (s.interfaces i).bandwidthRequiresApproval selectors (e.bandwidth.getD 0)=true := by
        rwa [← hbw]
      simp [Store.newRow,newFields,newState,hneeds] at hactive
  · intro id b hgiven
    obtain ⟨r,hr,hrest⟩ := h.given id b hgiven
    exact ⟨r,mem_append_left _ hr,hrest⟩

theorem Sanctioned.write {id : Nat} {bandwidth : Int} {retag : Row → Row}
    (hretag : ∀ r∈s.tables.rows,Retagged r (retag r))
    (hbandwidth : bandwidth=s.bandwidth (kind,id)∨Given req id bandwidth) :
    Sanctioned selectors kind req approvals (s.mapRows retag (kind,id) bandwidth) := by
  refine ⟨h.keyed.mapRows fun r hr => (hretag r hr).key,?_,?_⟩
  · intro r' hr' hactive hrestricted
    obtain ⟨r,hr,rfl⟩ := mem_map.mp hr'
    have ht := hretag r hr
    rw [ht.state] at hactive
    rw [Store.Restricted,ht.key,ht.interface] at hrestricted
    rw [ht.key]
    by_cases hkey : r.key=(kind,id)
    · have hbw : (s.mapRows retag (kind,id) bandwidth).bandwidth r.key=bandwidth := by
        rw [hkey]
        exact update_self (kind,id) _ s.bandwidth
      rw [hbw] at hrestricted ⊢
      obtain hsame|hgiven := hbandwidth
      · rw [hsame,← hkey] at hrestricted ⊢
        exact h.approved r hr hactive hrestricted
      · obtain ⟨r₀,hr₀,hkey₀,happroved⟩ := h.given id bandwidth hgiven
        obtain rfl : r=r₀ := h.keyed.eq hr hr₀ (hkey.trans hkey₀.symm)
        rw [hkey]
        exact happroved hactive hrestricted
    · have hbw : (s.mapRows retag (kind,id) bandwidth).bandwidth r.key=s.bandwidth r.key :=
        update_of_ne hkey _ _
      rw [hbw] at hrestricted ⊢
      exact h.approved r hr hactive hrestricted
  · intro id' b hgiven
    obtain ⟨r,hr,hkey,happroved⟩ := h.given id' b hgiven
    have ht := hretag r hr
    refine ⟨retag r,mem_map_of_mem hr,ht.key.trans hkey,?_⟩
    rwa [Store.Restricted,ht.state,ht.interface]

theorem Sanctioned.remove {id : Nat} (hunnamed : ∀ e∈req.entries,e.existing≠some id) :
    Sanctioned selectors kind req approvals (s.remove kind id) := by
  refine ⟨h.keyed.remove kind id,?_,?_⟩
  · intro r hr
    exact h.approved r (Store.mem_remove.mp hr).1
  · intro id' b hgiven
    obtain ⟨r,hr,hkey,happroved⟩ := h.given id' b hgiven
    refine ⟨r,Store.mem_remove.mpr ⟨hr,?_⟩,hkey,happroved⟩
    rintro ⟨hkey',_⟩
    obtain ⟨e,he,hid,_⟩ := hgiven
    have hsame : id'=id := congrArg Prod.snd (hkey.symm.trans hkey')
    exact hunnamed e he (hsame ▸ hid)

end

theorem Changes.sanctioned (h : Changes selectors kind req s s')
    (hs : Sanctioned selectors kind req approvals s) :
    Sanctioned selectors kind req approvals s' := by
  refine h.invariant ?_ hs
  intro s s' hchange hs
  cases hchange with
  | create e i unit he hi hvalid hfits hfresh => exact hs.create hfresh
  | write id bandwidth retag hretag hother hrow hbandwidth => exact hs.write hretag hbandwidth
  | remove id hown hunnamed => exact hs.remove hunnamed

end Calls

variable (selectors : List Selector)

theorem call_reviewed (h : History) (c : Call) (hk : h.store.Keyed) (hs : Reviewed selectors h)
    (hok : Vetted selectors h (.call c)) :
    (h.step selectors (.call c)).store.Keyed∧Reviewed selectors (h.step selectors (.call c)) := by
  have hgiven (id : Nat) (b : Int) (hg : Given c.req id b) :
      ∃ r∈h.store.tables.rows,r.key=(c.kind,id)∧(r.state=some .active →
        h.store.Restricted selectors r b → ((c.kind,id),b)∈h.approvals) := by
    obtain ⟨e,he,hid,hb⟩ := hg
    obtain ⟨r,hr,hkey,hbw⟩ := hok e he id hid b hb
    refine ⟨r,hr,hkey,?_⟩
    intro hactive hrestricted
    obtain hsame|hfree := hbw hactive
    · rw [hsame,← hkey] at hrestricted ⊢
      exact hs.1 r hr hactive hrestricted
    · exact absurd hrestricted hfree
  have hkept : (serve selectors h.store c).Keyed∧
      ∀ r∈(serve selectors h.store c).tables.rows,r.state=some .active →
        (serve selectors h.store c).Restricted selectors r
          ((serve selectors h.store c).bandwidth r.key) →
        (r.key,(serve selectors h.store c).bandwidth r.key)∈h.approvals := by
    refine commit_handle (P := fun s => s.Keyed∧∀ r∈s.tables.rows,r.state=some .active →
      s.Restricted selectors r (s.bandwidth r.key) → (r.key,s.bandwidth r.key)∈h.approvals) hk
      ⟨hk,hs.1⟩ ?_ ?_
    · intro _ s' ⟨s₀,hopen,hchanges⟩
      have hk₀ := openConnection_keyed hk hopen
      obtain ⟨_,_,rfl⟩ := openConnection_ok hopen
      have hs' := hchanges.sanctioned ⟨hk₀,hs.1,hgiven⟩
      exact ⟨hs'.keyed,hs'.approved⟩
    · intro _ s' hdone
      have hs' := hdone.1.sanctioned ⟨hk,hs.1,hgiven⟩
      exact ⟨hs'.keyed,hs'.approved⟩
  refine ⟨hkept.1,?_,fun d hd => by cases hd⟩
  intro r hr hactive hrestricted
  refine mem_filter.mpr ⟨hkept.2 r hr hactive hrestricted,?_⟩
  exact decide_eq_true (mem_map_of_mem hr)

section Reviews

variable {s s' : Store} {r : Row}

theorem reviewed_mem {kind : Kind} {id : Nat} (h : s.reviewed kind id=some r) :
    r∈s.tables.rows := by
  cases kind with
  | vrf => exact mem_of_find?_eq_some h
  | circuit =>
    obtain h|⟨_,h⟩ := Option.or_eq_some_iff.mp h
    all_goals exact mem_of_find?_eq_some h

/-- Place and bandwidth are those of the row. -/
structure Decides (s : Store) (r : Row) (state : State) (ep : Ep) : Prop where
  id : ep.id=some r.id
  interface : ep.interface=r.interface
  bandwidth : ep.bandwidth=s.bandwidth r.key
  state : ep.state=state

theorem denied_decides (s : Store) (r : Row) : Decides s r .decom (s.denied r) := ⟨rfl,rfl,rfl,rfl⟩

theorem approved_decides (s : Store) (r : Row) (kind : Kind) (answer : Option (Nat×Nat)) :
    Decides s r .active (s.approved kind answer r) := by
  obtain ⟨hs,hsb⟩ := setupEndpoint_alike s (fun _ => answer)
    {s.toEp r with state := .active,added := true}
  obtain ⟨hp,hpb⟩ := passInner_alike s kind
    (setupEndpoint s (fun _ => answer) {s.toEp r with state := .active,added := true})
  exact ⟨hp.id.trans hs.id,hp.interface.trans hs.interface,hpb.trans hsb,hp.state.trans hs.state⟩

theorem Decides.updateDb {ep : Ep} {state : State} (hep : Decides s r state ep)
    (hr : r∈s.tables.rows) (hk : s.Keyed) (hu : s.updateDb r.kind ep=.ok s') :
    s'.Keyed∧s'.bandwidth=s.bandwidth∧s'.interfaces=s.interfaces∧
      (∃ r'∈s'.tables.rows,r'.key=r.key∧r'.state=some state)∧
      ∀ r'∈s'.tables.rows,(r'∈s.tables.rows∧r'.key≠r.key)∨(r'.key=r.key∧r'.state=some state) := by
  obtain ⟨id,unit,hid,rfl⟩ := Store.updateDb_ok hu
  obtain rfl : r.id=id := Option.some.inj (hep.id.symm.trans hid)
  have hwritten : (Tables.written ep.fields unit r).state=some state := congrArg some hep.state
  have hself : Tables.updateRow (r.kind,r.id) (Tables.written ep.fields unit) r=
      Tables.written ep.fields unit r := if_pos rfl
  have hkeys (a : Row) :
      (Tables.updateRow (r.kind,r.id) (Tables.written ep.fields unit) a).key=a.key := by
    apply Endpoint.updateRow_key
    intro a
    rfl
  refine ⟨hk.mapRows fun a _ => hkeys a,?_,rfl,?_,?_⟩
  · refine update_eq_self_iff.mpr ?_
    exact hep.bandwidth
  · refine ⟨_,mem_map_of_mem hr,hkeys r,?_⟩
    rwa [hself]
  · intro r' hr'
    obtain ⟨a,ha,rfl⟩ := mem_map.mp hr'
    by_cases hkey : a.key=r.key
    · right
      obtain rfl : a=r := hk.eq ha hr hkey
      rw [hself]
      exact ⟨rfl,hwritten⟩
    · left
      have hsame : Tables.updateRow (r.kind,r.id) (Tables.written ep.fields unit) a=a := if_neg hkey
      rw [hsame]
      exact ⟨ha,hkey⟩

theorem Writable.updateDb_ok (hr : r∈s.tables.rows) (hk : s.Keyed)
    (hw : Writable s.tables r (s.denied r).fields) :
    ∃ s',s.updateDb r.kind (s.denied r)=.ok s' := by
  obtain ⟨hv,hfind,hdup⟩ := hw
  obtain ⟨unit,hunit⟩ := Option.isSome_iff_exists.mp hfind
  have hclear : (s.tables.rows.any fun a => a.key==(r.kind,r.id) &&
      s.tables.duplicate (Tables.written (s.denied r).fields unit a))=false := by
    rw [any_eq_false]
    intro a ha
    by_cases hkey : a.key=(r.kind,r.id)
    · obtain rfl : a=r := hk.eq ha hr hkey
      have hsame : s.tables.duplicate (Tables.written (s.denied a).fields unit a)=
          s.tables.duplicate a := rfl
      rw [hsame,hdup]
      simp
    · simp [hkey]
  have htables : s.tables.updateDb r.kind r.id (s.denied r).fields=
      .ok (s.tables.updateRows (r.kind,r.id) (Tables.written (s.denied r).fields unit)) := by
    rw [Tables.updateDb,hv]
    simp only [hunit,hclear,Bool.false_eq_true,if_false]
  have hid : (s.denied r).id=some r.id := rfl
  simp only [Store.updateDb,hid,htables]
  exact ⟨_,rfl⟩

/-- Its decision is written to the endpoint it names. -/
theorem reviewEndpoint_ok {selectors : List Selector} {h : History} {rv : Review}
    (hk : h.store.Keyed) (hok : Vetted selectors h (.review rv))
    (hrun : reviewEndpoint rv h.store=.ok s') : ∃ r ep,r∈h.store.tables.rows∧
      r.key=(rv.kind,rv.id)∧Decides h.store r rv.decision ep∧h.store.updateDb r.kind ep=.ok s' := by
  unfold reviewEndpoint at hrun
  cases hload : h.store.reviewed rv.kind rv.id with
  | none => simp [hload] at hrun
  | some r =>
    obtain ⟨hkey,hcloud,hwritable⟩ := hok r hload
    have hr := reviewed_mem hload
    simp only [hload] at hrun
    by_cases hcompletes : rv.completes=false
    · simp [hcompletes] at hrun
    rw [if_neg hcompletes] at hrun
    by_cases hdeny : rv.approve=false
    · rw [if_pos hdeny] at hrun
      obtain ⟨written,hu⟩ := (hwritable hdeny).updateDb_ok hr hk
      simp only [hu,Except.ok.injEq] at hrun
      refine ⟨r,h.store.denied r,hr,hkey,?_,hrun ▸ hu⟩
      simpa [Review.decision,hdeny] using denied_decides h.store r
    · rw [if_neg hdeny] at hrun
      have happrove : rv.approve=true := by simpa using hdeny
      have hkind : r.kind=rv.kind := congrArg Prod.fst hkey
      rw [if_neg (fun hne => hne hkind.symm),if_neg (by simp [hcloud happrove])] at hrun
      split at hrun
      · cases hrun
      next answer hanswer =>
        split at hrun
        next written hu =>
          simp only [Except.ok.injEq] at hrun
          refine ⟨r,_,hr,hkey,?_,hrun ▸ hu⟩
          simpa [Review.decision,happrove] using approved_decides h.store r rv.kind answer
        · cases hrun

end Reviews

theorem review_reviewed (h : History) (rv : Review) (hk : h.store.Keyed) (hs : Reviewed selectors h)
    (hok : Vetted selectors h (.review rv)) : (h.step selectors (.review rv)).store.Keyed∧
      Reviewed selectors (h.step selectors (.review rv)) := by
  cases hrun : reviewEndpoint rv h.store with
  | error failure =>
    simp only [History.step,hrun]
    exact ⟨hk,hs.1,fun d hd => by cases hd⟩
  | ok s' =>
    obtain ⟨r,ep,hr,hkey,hdecides,hu⟩ := reviewEndpoint_ok hk hok hrun
    obtain ⟨hk',hbw,hif,⟨r₀,hr₀,hkey₀,hstate₀⟩,hrows⟩ := hdecides.updateDb hr hk hu
    simp only [History.step,hrun]
    refine ⟨hk',?_,?_⟩
    · intro r' hr' hactive hrestricted
      rw [Store.Restricted,hif,hbw] at hrestricted
      rw [hbw]
      obtain ⟨hold,_⟩|⟨hsame,hstate⟩ := hrows r' hr'
      · have happroved := hs.1 r' hold hactive hrestricted
        split_ifs
        · exact mem_cons_of_mem _ happroved
        · exact happroved
      · -- the endpoint of the review is active only if it was approved
        have hdecision : rv.decision=.active := Option.some.inj (hstate.symm.trans hactive)
        have happrove : rv.approve=true := by
          by_contra hdeny
          simp [Review.decision,hdeny] at hdecision
        rw [if_pos happrove,hsame,hkey]
        exact mem_cons_self
    · intro d hd
      obtain rfl : ((rv.kind,rv.id),rv.decision)=d := Option.some.inj hd
      exact ⟨r₀,hr₀,hkey₀.trans hkey,hstate₀⟩

/-- Active endpoints that require approval have it in every run whose steps meet the condition. -/
theorem active_endpoints_approved (selectors : List Selector) (h : History) (as : List Act)
    (hk : h.store.Keyed) (hs : Reviewed selectors h)
    (has : Runs.StepsOk (History.step selectors) (Vetted selectors) h as) :
    Runs.Always (History.step selectors) (Reviewed selectors) h as := by
  have hboth : Runs.Always (History.step selectors)
      (fun h => h.store.Keyed∧Reviewed selectors h) h as := by
    refine Runs.always_of_step ?_ ⟨hk,hs⟩ has
    intro h a hh hok
    cases a with
    | call c => exact call_reviewed selectors h c hh.1 hh.2 hok
    | review rv => exact review_reviewed selectors h rv hh.1 hh.2 hok
  exact hboth.mono fun h hh => hh.2

/-- At 1, an AWS port, 50 Mbps require approval. -/
def reviewPorts : History :=
  ⟨⟨⟨[],[]⟩,fun _ => 0,fun i => ⟨.openflow,if i=1 then some .awsHostedConnection else none,100⟩⟩,
    [],none⟩

def reviewSpeeds : List Selector :=
  [⟨.awsHostedConnection,0,1000,[⟨10,false,false⟩,⟨50,false,true⟩]⟩]

def asked (existing : Option Nat) (id interface : Nat) (bandwidth : Int) : Entry :=
  ⟨"",existing,id,.found interface,some bandwidth,some (100+id),none⟩

def askedFor (owner : Nat) (entries : List Entry) : Request :=
  ⟨owner,entries,false,false,some fun _ => none,true⟩

/-- One is approved and edited unchanged, one denied. -/
def reviewedVrf : List Act := [.call ⟨.vrf,true,askedFor 7 [asked none 1 1 50,asked none 2 1 50]⟩,
    .review ⟨.vrf,1,true,false,some none,true⟩,.review ⟨.vrf,2,false,false,some none,true⟩,
    .call ⟨.vrf,false,askedFor 7 [asked (some 1) 1 1 50]⟩]

theorem reviewedVrf_approved :
    Runs.StepsOk (History.step reviewSpeeds) (Vetted reviewSpeeds) reviewPorts reviewedVrf∧
      Runs.Always (History.step reviewSpeeds) (Reviewed reviewSpeeds) reviewPorts reviewedVrf := by
  have hok : Runs.StepsOk (History.step reviewSpeeds) (Vetted reviewSpeeds) reviewPorts
      reviewedVrf :=
    ⟨by decide +kernel,by decide +kernel,by decide +kernel,by decide +kernel,trivial⟩
  refine ⟨hok,active_endpoints_approved reviewSpeeds _ _ nodup_nil ?_ hok⟩
  exact ⟨fun r hr => absurd hr not_mem_nil,fun d hd => by cases hd⟩

/-- An edit gives 50 Mbps; an approval that skips the cloud is not stored; the review of a circuit's
second endpoint approves the first. -/
theorem reviews_fail :
    ¬Runs.Always (History.step reviewSpeeds) (Reviewed reviewSpeeds) reviewPorts
        [.call ⟨.circuit,true,askedFor 7 [asked none 1 1 10,asked none 2 2 0]⟩,
          .call ⟨.circuit,false,askedFor 7 [asked (some 1) 1 1 50,asked (some 2) 2 2 0]⟩]∧
      ¬Runs.Always (History.step reviewSpeeds) (Reviewed reviewSpeeds) reviewPorts
        [.call ⟨.vrf,true,askedFor 7 [asked none 1 1 50]⟩,
          .review ⟨.vrf,1,true,true,some none,true⟩]∧
      ¬Runs.Always (History.step reviewSpeeds) (Reviewed reviewSpeeds) reviewPorts
        [.call ⟨.circuit,true,askedFor 7 [asked none 1 1 50,asked none 2 1 50]⟩,
          .review ⟨.circuit,2,true,false,some none,true⟩] := by
  refine ⟨?_,?_,?_⟩
  · intro h
    have hlast := h.2.2.1 ⟨.circuit,1,7,1,101,none,101,-1,some .active⟩ (by decide +kernel) rfl
      (by decide +kernel)
    revert hlast
    decide +kernel
  · intro h
    have hlast := h.2.2.2 ((.vrf,1),.active) (by decide +kernel)
    revert hlast
    decide +kernel
  · intro h
    have hlast := h.2.2.1 ⟨.circuit,1,7,1,101,none,101,-1,some .active⟩ (by decide +kernel) rfl
      (by decide +kernel)
    revert hlast
    decide +kernel

end OESS.Provision
