import Mathlib.Data.List.Induction
import OESS.Framework.Runs
import OESS.Framework.Totals
import OESS.Traceroute.Daemon

namespace OESS.Traceroute

open OESS.OpenFlow OESS.Runs OESS.Totals List Option

variable {Node : Type} [DecidableEq Node]

/-- The other endpoint nodes' datapaths. -/
def targets (env : Env Node) (d : Details Node) (source : Nat) : List Nat :=
  ((d.endpoints.map Endpoint.node).dedup.map env.dpidLookup).filter fun x => x≠source

theorem mem_targets {env : Env Node} {d : Details Node} {source x : Nat} :
    x∈targets env d source ↔ (∃ e∈d.endpoints,env.dpidLookup e.node=x)∧x≠source := by
  simp [targets]

theorem targets_length {env : Env Node} {d : Details Node} {node : Node}
    (h : node∈d.endpoints.map Endpoint.node) :
    (targets env d (env.dpidLookup node)).length<(d.endpoints.map Endpoint.node).dedup.length := by
  have hsource : env.dpidLookup node∈(d.endpoints.map Endpoint.node).dedup.map env.dpidLookup :=
    mem_map_of_mem (mem_dedup.mpr h)
  unfold targets
  have hlength : ((d.endpoints.map Endpoint.node).dedup.map env.dpidLookup).length=
      (d.endpoints.map Endpoint.node).dedup.length := length_map _
  rw [← hlength,length_filter_lt_length_iff_exists]
  exact ⟨_,hsource,by simp⟩

namespace Tracer

def seen (s : Tracer) (r : Nat) : List Nat :=
  ((s.objects[r]?).map Transaction.nodesTraversed).getD []++
    (s.inFlight.filter (·.ref=some r)).map Pending.dpid

/-- What awaited barriers will take off the endpoints. -/
def debt (s : Tracer) (r : Nat) : Nat :=
  total (fun p => decide (p.ref=some r)) (fun p => p.waiting*p.counted) s.inFlight

theorem mem_seen {s : Tracer} {r x : Nat} {t : Transaction} (ht : s.objects[r]?=some t) :
    x∈s.seen r ↔ x∈t.nodesTraversed∨∃ p∈s.inFlight,p.ref=some r∧p.dpid=x := by
  simp [seen,ht,and_assoc]

end Tracer

variable {env : Env Node} {d : Details Node} {c : Nat} {s u : Tracer} {r : Nat} {t t' : Transaction}

/-- No more endpoints are counted than targets seen. -/
structure Counted (env : Env Node) (d : Details Node) (s : Tracer) (r : Nat) (t : Transaction) :
    Prop where
  bound : ((targets env d t.sourceDpid).length : Int)≤t.remainingEndpoints-s.debt r+
    (targets env d t.sourceDpid).countP fun x => decide (x∈s.seen r)
  complete : t.status=.complete → ∀ x∈targets env d t.sourceDpid,x∈s.seen r

def AllCounted (env : Env Node) (d : Details Node) (c : Nat) (s : Tracer) : Prop :=
  ∀ (r : Nat) (t : Transaction),s.objects[r]?=some t → t.circuit=c → Counted env d s r t

/-- A trace now complete has seen all targets. -/
theorem Counted.keep (h : Counted env d s r t) (hsource : t'.sourceDpid=t.sourceDpid)
    (hseen : ∀ x∈s.seen r,x∈u.seen r)
    (hdebt : t.remainingEndpoints-s.debt r≤t'.remainingEndpoints-u.debt r)
    (hstatus : t'.status=.complete → t.status=.complete∨t'.remainingEndpoints<1) :
    Counted env d u r t' := by
  have hbound : ((targets env d t'.sourceDpid).length : Int)≤t'.remainingEndpoints-u.debt r+
      (targets env d t'.sourceDpid).countP fun x => decide (x∈u.seen r) := by
    have hold := h.bound
    have hmono : (targets env d t.sourceDpid).countP (fun x => decide (x∈s.seen r))≤
        (targets env d t.sourceDpid).countP fun x => decide (x∈u.seen r) := by
      apply countP_mono_left
      simpa using fun x _ => hseen x
    rw [hsource]
    omega
  refine ⟨hbound,fun hcomplete => ?_⟩
  rcases hstatus hcomplete with hbefore | hnone
  · rw [hsource]
    exact fun x hx => hseen x (h.complete hbefore x hx)
  have hlength : (targets env d t'.sourceDpid).countP (fun x => decide (x∈u.seen r))=
      (targets env d t'.sourceDpid).length := by
    have hle := countP_le_length (p := fun x => decide (x∈u.seen r))
      (l := targets env d t'.sourceDpid)
    omega
  simpa using countP_eq_length.mp hlength

namespace Tracer

variable {now : Int} {db : Db Node} {f : Transaction → Transaction}

theorem seen_modify {hf : ∀ t,(f t).circuit=t.circuit}
    (hnodes : ∀ t,∀ x∈t.nodesTraversed,x∈(f t).nodesTraversed) {k x : Nat} (hx : x∈s.seen k) :
    x∈(s.modify r f hf).seen k := by
  rcases mem_append.mp hx with hx | hx
  · apply mem_append_left
    have hobject : (s.modify r f hf).objects[k]?=(s.objects[k]?).map
        (fun t => if r=k then f t else t) := by
      exact getElem?_modify ..
    rw [hobject]
    cases hk : s.objects[k]? with
    | none =>
      rwa [hk] at hx
    | some t =>
      rw [hk] at hx
      split_ifs
      · exact hnodes t x hx
      · exact hx
  · exact mem_append_right _ hx

section

variable (h : AllCounted env d c s)
include h

theorem counted_modify {hf : ∀ t,(f t).circuit=t.circuit}
    (hsource : ∀ t,(f t).sourceDpid=t.sourceDpid)
    (hnodes : ∀ t,∀ x∈t.nodesTraversed,x∈(f t).nodesTraversed)
    (hremaining : ∀ t,(f t).remainingEndpoints=t.remainingEndpoints)
    (hstatus : ∀ t,s.objects[r]?=some t → (f t).status=.complete → t.status=.complete∨
      t.remainingEndpoints<1) :
    AllCounted env d c (s.modify r f hf) := by
  intro k t' ht' hc
  obtain ⟨t,ht,rfl⟩ := objects_modify ht'
  by_cases hk : r=k
  · subst hk
    rw [if_pos rfl] at hc ⊢
    have hold : Counted env d s r t := h r t ht ((hf t).symm.trans hc)
    apply hold.keep (hsource t) fun x hx => seen_modify hnodes hx
    · exact le_of_eq (congrArg (· - (s.debt r : Int)) (hremaining t).symm)
    · intro hcomplete
      rw [hremaining]
      exact hstatus t ht hcomplete
  · rw [if_neg hk] at hc ⊢
    exact (h k t ht hc).keep rfl (fun x hx => seen_modify hnodes hx) (le_refl _) .inl

theorem counted_send (ref : Option Nat) (command : Command) (rules : List FlowRule) :
    AllCounted env d c (s.send ref command rules) := by
  intro r t ht hc
  exact (h r t ht hc).keep rfl (fun _ hx => hx) (le_refl _) .inl

theorem counted_close {k : Nat} {status : Status}
    (hstatus : ∀ t,s.objects[r]?=some t → status=.complete → t.remainingEndpoints<1) :
    AllCounted env d c (s.close now db r k status).1 := by
  have hstopped : AllCounted env d c (s.stop now r status) :=
    counted_modify h (fun _ => rfl) (fun _ _ hx => hx) (fun _ => rfl)
      fun t ht hcomplete => .inr (hstatus t ht hcomplete)
  unfold close
  cases db.buildTraceRules k with
  | none => exact hstopped
  | some rules => exact counted_send hstopped (some r) .deleteStrict rules

theorem counted_finish (p : Pending) : AllCounted env d c (s.finish now db p) := by
  unfold finish
  cases p.ref with
  | none =>
    cases db.buildTraceRules p.circuit with
    | none => exact h
    | some rules => exact counted_send h none .deleteStrict rules
  | some r =>
    have hnoted : AllCounted env d c (s.note r p.dpid) :=
      counted_modify h (fun _ => rfl) (fun _ _ hx => mem_append_left _ hx) (fun _ => rfl)
        fun _ _ => .inl
    dsimp only
    split
    · exact hnoted
    rename_i t ht
    split_ifs with hnone httl
    · apply counted_close hnoted
      intro t' ht' _
      cases ht.symm.trans ht'
      exact hnone
    · exact counted_close hnoted fun _ _ hcomplete => by cases hcomplete
    · exact hnoted

theorem counted_aged (haged : Aged s u) : AllCounted env d c u := by
  intro r t' ht' hc
  obtain ⟨t,ht,hended⟩ := haged.objects r t' ht'
  have hseen : ∀ x∈s.seen r,x∈u.seen r := by
    intro x hx
    rw [mem_seen ht] at hx
    rw [mem_seen ht',haged.inFlight]
    rcases hended with rfl | ⟨_,_,_,_,rfl⟩ <;> exact hx
  have hdebt : u.debt r=s.debt r := by
    unfold debt
    rw [haged.inFlight]
  rcases hended with rfl | ⟨status,_,_,hnot,rfl⟩
  · exact (h r t' ht hc).keep rfl hseen (by rw [hdebt]) .inl
  · exact (h r t ht hc).keep rfl hseen (by rw [hdebt]) fun hcomplete => absurd hcomplete hnot

theorem counted_file (node : Node) (hnode : t.circuit=c → node∈d.endpoints.map Endpoint.node)
    (hsource : t.circuit=c → t.sourceDpid=env.dpidLookup node)
    (hremaining : t.circuit=c → t.remainingEndpoints=(d.endpoints.map Endpoint.node).dedup.length-1)
    (hstatus : t.status=.active) : AllCounted env d c (s.file t) := by
  intro k t' ht' hc
  have hold (x : Nat) (hx : x∈s.seen k) (hk : s.objects[k]?=some t') : x∈(s.file t).seen k := by
    rw [mem_seen hk] at hx
    exact (mem_seen ht').mpr hx
  rcases objects_file ht' with hk | ⟨hk,rfl⟩
  · exact (h k t' hk hc).keep rfl (fun x hx => hold x hx hk) (le_refl _) .inl
  have hfresh : s.inFlight.filter (fun p => decide (p.ref=some k))=[] := by
    rw [filter_eq_nil_iff]
    intro p hp href
    obtain ⟨u,hu,-⟩ := s.held p hp k (of_decide_eq_true href)
    have hlt := (List.getElem?_eq_some_iff.mp hu).1
    omega
  have hdebt : (s.file t').debt k=0 := by
    change ((s.inFlight.filter fun p => decide (p.ref=some k)).map _).sum=0
    rw [hfresh]
    rfl
  refine ⟨?_,fun hcomplete => by rw [hstatus] at hcomplete; cases hcomplete⟩
  have hlt : (targets env d (env.dpidLookup node)).length<
      (d.endpoints.map Endpoint.node).dedup.length := targets_length (hnode hc)
  rw [hsource hc]
  omega

/-- Nothing, or one endpoint from a new target. -/
theorem counted_fly {p : Pending}
    {hp : ∀ r,p.ref=some r → ∃ t,s.objects[r]?=some t∧t.circuit=p.circuit}
    (hfresh : ∀ r t,p.ref=some r → s.objects[r]?=some t → t.circuit=c → p.waiting*p.counted=0∨
      p.waiting*p.counted=1∧p.dpid∈targets env d t.sourceDpid∧p.dpid∉s.seen r) :
    AllCounted env d c (s.fly p hp) := by
  intro k t ht hc
  have ht₀ : s.objects[k]?=some t := ht
  have hold : Counted env d s k t := h k t ht₀ hc
  have hseen : ∀ x∈s.seen k,x∈(s.fly p hp).seen k := by
    intro x hx
    rw [mem_seen ht₀] at hx
    rw [mem_seen ht]
    rcases hx with hx | ⟨q,hq,hx⟩
    · exact .inl hx
    · exact .inr ⟨q,mem_append_left _ hq,hx⟩
  have hdebt : (s.fly p hp).debt k=s.debt k+if p.ref=some k then p.waiting*p.counted else 0 := by
    unfold debt fly
    rw [total_append,total_singleton]
    simp only [decide_eq_true_eq]
  by_cases hk : p.ref=some k
  · rw [if_pos hk] at hdebt
    rcases hfresh k t hk ht₀ hc with hzero | ⟨hone,htarget,hnew⟩
    · exact hold.keep rfl hseen (by rw [hdebt,hzero,Nat.add_zero]) .inl
    have hlt : (targets env d t.sourceDpid).countP (fun x => decide (x∈s.seen k))<
        (targets env d t.sourceDpid).countP fun x => decide (x∈(s.fly p hp).seen k) := by
      apply countP_lt_countP _ htarget
      · simpa using hnew
      · rw [decide_eq_true_eq,mem_seen ht]
        exact .inr ⟨p,mem_append_right _ (mem_singleton_self p),hk,rfl⟩
      · simpa using fun x _ => hseen x
    have hbound := hold.bound
    refine ⟨?_,fun hcomplete x hx => hseen x (hold.complete hcomplete x hx)⟩
    omega
  · rw [if_neg hk,Nat.add_zero] at hdebt
    exact hold.keep rfl hseen (by rw [hdebt]) .inl

end

theorem seen_land {i k x : Nat} (hx : x∈s.seen k) : x∈(s.land i).seen k := by
  rcases mem_append.mp hx with hx | hx
  · exact mem_append_left _ hx
  apply mem_append_right
  obtain ⟨p,hp,rfl⟩ := mem_map.mp hx
  obtain ⟨hmem,href⟩ := mem_filter.mp hp
  rcases Lookup.mem_modify_of_mem i hmem with hland | hland
  · exact mem_map.mpr ⟨p,mem_filter.mpr ⟨hland,href⟩,rfl⟩
  · exact mem_map.mpr ⟨_,mem_filter.mpr ⟨hland,href⟩,rfl⟩

theorem debt_land {i : Nat} {p : Pending} (hp : s.inFlight[i]?=some p) (hwaiting : p.waiting≠0)
    (k : Nat) : (s.land i).debt k+(if p.ref=some k then p.counted else 0)=s.debt k := by
  have htotal := total_modify (fun p : Pending => decide (p.ref=some k))
    (fun p => p.waiting*p.counted) (fun p => {p with waiting := p.waiting-1}) hp
  simp only [decide_eq_true_eq] at htotal
  change (s.land i).debt k+_=s.debt k+_ at htotal
  split_ifs at htotal ⊢
  · obtain ⟨n,hn⟩ := Nat.exists_eq_succ_of_ne_zero hwaiting
    rw [hn,Nat.succ_eq_add_one,Nat.add_sub_cancel,Nat.add_mul] at htotal
    omega
  · exact htotal

theorem counted_reply (h : AllCounted env d c s) (i : Nat) :
    AllCounted env d c (s.barrierReply now db i) := by
  unfold barrierReply
  cases hp : s.inFlight[i]? with
  | none => exact h
  | some p =>
    dsimp only
    by_cases hzero : p.waiting=0
    · rwa [if_pos hzero]
    have hfinish {u : Tracer} (hu : AllCounted env d c u) :
        AllCounted env d c (if p.waiting=1 then u.finish now db p else u) := by
      split_ifs
      · exact counted_finish hu p
      · exact hu
    rw [if_neg hzero]
    apply hfinish
    have hdebt := debt_land hp hzero
    cases href : p.ref with
    | none =>
      intro k t ht hc
      have howed := hdebt k
      rw [href,if_neg (by simp),Nat.add_zero] at howed
      exact (h k t ht hc).keep rfl (fun _ => seen_land) (by rw [howed]) .inl
    | some r =>
      intro k t' ht' hc
      obtain ⟨t,ht,rfl⟩ := objects_modify ht'
      have howed := hdebt k
      have hseen : ∀ x∈s.seen k,x∈((s.land i).count r p.counted).seen k := by
        intro x hx
        apply seen_modify
        · exact fun _ _ hx => hx
        · exact seen_land hx
      by_cases hk : r=k
      · subst hk
        rw [if_pos rfl] at hc ⊢
        rw [if_pos href] at howed
        refine (h r t ht hc).keep rfl hseen ?_ .inl
        change t.remainingEndpoints-s.debt r≤t.remainingEndpoints-p.counted-(s.land i).debt r
        omega
      · rw [if_neg hk] at hc ⊢
        have hne : p.ref≠some k := fun hother => hk (some_inj.mp (href.symm.trans hother))
        rw [if_neg hne,Nat.add_zero] at howed
        refine (h k t ht hc).keep rfl hseen ?_ .inl
        change t.remainingEndpoints-s.debt k≤t.remainingEndpoints-(s.land i).debt k
        rw [howed]

end Tracer

def flowCount (flows : Rules) (dpid port : Nat) : Nat :=
  flows.countP fun flow => flow.any fun f => f.dpid=dpid∧f.fields.inPort.getD 0=port

def endpointCount (env : Env Node) (d : Details Node) (dpid : Nat) : Nat :=
  (d.endpoints.filter fun e => env.dpidLookup e.node=dpid).length

theorem length_matched {flows : Rules} {rules : List FlowRule} {dpid port : Nat}
    (h : flows.mapM (fun flow => flow.map traceRule)=some rules) :
    (Tracer.matched rules dpid port).length=flowCount flows dpid port := by
  -- a trace rule has the switch and the port of its flow
  have hcount := congrArg (countP fun flow : Option FlowRule => flow.any fun f => f.dpid=dpid∧
    f.fields.inPort.getD 0=port) (Loops.mapM_eq_some_iff.mp h)
  rw [countP_map,countP_map] at hcount
  simp only [Function.comp_def,Option.any_map] at hcount
  rw [Tracer.matched,← countP_eq_length_filter]
  exact hcount.symm

/-- A trace starts at an endpoint node. A packet from another one counts at most one endpoint, which
takes one flow rule for its port and one endpoint on the node, and is the first from there. -/
def StepOk (env : Env Node) (d : Details Node) (c : Nat) (s : Tracer) : Event Node → Prop
  | .init k interface _ db => k=c → ∀ node,db.interfaceNode interface=some node →
      node∈d.endpoints.map Endpoint.node
  | .packet k dpid port _ db => k=c → ∀ r t flows,s.activeRef c=some r → s.objects[r]?=some t →
      dpid≠t.sourceDpid → db.flows c=some flows →
      flowCount flows dpid port*endpointCount env d dpid=0∨
        flowCount flows dpid port*endpointCount env d dpid=1∧dpid∉s.seen r
  | _ => True

def Event.db : Event Node → Db Node
  | .init _ _ _ db | .packet _ _ _ _ db | .reply _ _ db | .timeouts _ _ db | .link _ _ _ _ db => db

def Event.Reads (env : Env Node) (d : Details Node) (c : Nat) (e : Event Node) : Prop :=
  e.db.env=env∧e.db.details c=some d

namespace Tracer

variable {now : Int} {db : Db Node}

theorem counted_init (h : AllCounted env d c s) {k interface : Nat}
    (hreads : db.env=env∧db.details c=some d) (hok : StepOk env d c s (.init k interface now db)) :
    AllCounted env d c (s.initCircuitTrace now db k interface) := by
  obtain ⟨henv,hdetails⟩ := hreads
  unfold initCircuitTrace
  split
  · rename_i d' node hd' hnode
    split_ifs
    · exact h
    have hsame (hk : k=c) : d'=d := by
      rw [hk,hdetails] at hd'
      exact (some_inj.mp hd').symm
    have hfile : AllCounted env d c (s.file {
        circuit := k
        ttl := 30
        remainingEndpoints := (d'.endpoints.map Endpoint.node).dedup.length-1
        nodesTraversed := []
        sourceDpid := db.env.dpidLookup node
        status := .active
        startEpoch := now
        endEpoch := none}) := by
      apply counted_file h node (fun hk => hok hk node hnode)
      · exact fun _ => by rw [henv]
      · exact fun hk => by rw [hsame hk]
      · rfl
    cases db.buildTraceRules k with
    | none => exact hfile
    | some rules => exact counted_send hfile _ _ rules
  · exact h

theorem counted_packet (h : AllCounted env d c s) {k dpid port : Nat}
    (hreads : db.env=env∧db.details c=some d) (hok : StepOk env d c s (.packet k dpid port now db)) :
    AllCounted env d c (s.processTracePacket now db k dpid port) := by
  obtain ⟨henv,hdetails⟩ := hreads
  unfold processTracePacket
  split
  · rename_i d' rules hd' hrules
    dsimp only
    split_ifs
    · exact counted_finish (counted_send h _ _ _) _
    apply counted_fly (counted_send h _ _ _)
    intro r t href hobject hc
    have hr : s.activeRef k=some r := href
    have ht : s.objects[r]?=some t := hobject
    obtain ⟨t₀,ht₀,hcircuit,-⟩ := activeRef_spec hr
    cases ht₀.symm.trans ht
    have hk : k=c := hcircuit.symm.trans hc
    subst hk
    cases hdetails.symm.trans hd'
    obtain ⟨flows,hflows,hmap⟩ := bind_eq_some_iff.mp hrules
    have hfound : (s.activeRef k).bind (fun r => s.objects[r]?)=some t := by rwa [hr]
    rw [countedAt,hfound,length_matched hmap]
    dsimp only
    by_cases hsource : dpid=t.sourceDpid
    · exact .inl (by rw [if_pos hsource,Nat.mul_zero])
    rw [if_neg hsource,henv]
    rcases hok rfl r t flows hr ht hsource hflows with hzero | ⟨hone,hnew⟩
    · exact .inl hzero
    refine .inr ⟨hone,?_,hnew⟩
    have hcount : 0<endpointCount env d dpid := by
      apply Nat.pos_of_ne_zero
      intro hnone
      rw [hnone] at hone
      cases hone
    obtain ⟨e,he⟩ := exists_mem_of_length_pos hcount
    obtain ⟨hmem,hat⟩ := mem_filter.mp he
    exact mem_targets.mpr ⟨⟨e,hmem,of_decide_eq_true hat⟩,hsource⟩
  · exact h

end Tracer

theorem counted_step {e : Event Node} (h : AllCounted env d c s) (hreads : e.Reads env d c)
    (hok : StepOk env d c s e) : AllCounted env d c (s.step e) := by
  cases e with
  | init k interface now db => exact Tracer.counted_init h hreads hok
  | packet k dpid port now db => exact Tracer.counted_packet h hreads hok
  | reply i now db => exact Tracer.counted_reply h i
  | timeouts keys now db => exact Tracer.counted_aged h (Tracer.aged_timeouts keys)
  | link add dpid port now db =>
    cases add with
    | true => exact h
    | false => exact Tracer.counted_aged h (Tracer.aged_invalidate s.activeRef (db.affected dpid port))

def Returned (events : List (Event Node)) (c r dpid : Nat) : Prop :=
  ∃ past port now db rest,events=past++.packet c dpid port now db::rest∧
    (run past).activeRef c=some r

namespace Tracer

variable {now : Int} {db : Db Node}

/-- The node was seen before or is that of the packet. -/
def SeenBefore (s : Tracer) (p : Pending) (k x : Nat) (t' : Transaction) : Prop :=
  ∃ t,s.objects[k]?=some t∧t.circuit=t'.circuit∧(x∈s.seen k∨p.ref=some k∧x=p.dpid)

/-- Every node seen in the second state was seen before or is that of the packet. -/
def Brings (p : Pending) (s u : Tracer) : Prop :=
  ∀ k x t',u.objects[k]?=some t' → x∈u.seen k → SeenBefore s p k x t'

variable {k x : Nat} {p : Pending}

theorem Brings.refl (p : Pending) (s : Tracer) : Brings p s s := fun _ _ t' ht' hx => ⟨t',ht',rfl,.inl hx⟩

theorem seen_of_brings (h : ∀ p,Brings p s u) (ht' : u.objects[k]?=some t') (hx : x∈u.seen k) :
    ∃ t,s.objects[k]?=some t∧t.circuit=t'.circuit∧x∈s.seen k := by
  obtain ⟨t,ht,hcircuit,hseen | ⟨hnone,-⟩⟩ := h ⟨0,none,0,0,0⟩ k x t' ht' hx
  · exact ⟨t,ht,hcircuit,hseen⟩
  · cases hnone

theorem Brings.trans {v : Tracer} (h : Brings p s u) (h' : ∀ p,Brings p u v) : Brings p s v := by
  intro k x t' ht' hx
  obtain ⟨t,ht,hcircuit,hseen⟩ := seen_of_brings h' ht' hx
  obtain ⟨t₀,ht₀,hcircuit₀,hseen₀⟩ := h k x t ht hseen
  exact ⟨t₀,ht₀,hcircuit₀.trans hcircuit,hseen₀⟩

theorem brings_modify {hf : ∀ t,(f t).circuit=t.circuit}
    (hnodes : ∀ t,∀ x∈(f t).nodesTraversed,x∈t.nodesTraversed∨p.ref=some r∧x=p.dpid) :
    Brings p s (s.modify r f hf) := by
  intro k x t' ht' hx
  rw [mem_seen ht'] at hx
  obtain ⟨t,ht,rfl⟩ := objects_modify ht'
  refine ⟨t,ht,?_⟩
  rw [mem_seen ht]
  split_ifs at hx ⊢ with hk
  · refine ⟨(hf t).symm,?_⟩
    rcases hx with hx | hx
    · rcases hnodes t x hx with hx | hx
      · exact .inl (.inl hx)
      · exact .inr (hk ▸ hx)
    · exact .inl (.inr hx)
  · exact ⟨rfl,.inl hx⟩

theorem brings_close {status : Status} : Brings p s (s.close now db r c status).1 := by
  have hstop : Brings p s (s.stop now r status) := brings_modify fun _ _ => .inl
  unfold close
  cases db.buildTraceRules c <;> exact hstop

theorem brings_finish : Brings p s (s.finish now db p) := by
  unfold finish
  cases href : p.ref with
  | none => cases db.buildTraceRules p.circuit <;> exact .refl p s
  | some r =>
    have hnoted : Brings p s (s.note r p.dpid) := brings_modify fun t x hx =>
      (mem_append.mp hx).imp_right fun hx => ⟨href,mem_singleton.mp hx⟩
    dsimp only
    split
    · exact hnoted
    split_ifs
    · exact hnoted.trans fun _ => brings_close
    · exact hnoted.trans fun _ => brings_close
    · exact hnoted

theorem brings_aged (h : Aged s u) : Brings p s u := by
  intro k x t' ht' hx
  obtain ⟨t,ht,hended⟩ := h.objects k t' ht'
  rw [mem_seen ht',h.inFlight] at hx
  refine ⟨t,ht,?_⟩
  rw [mem_seen ht]
  rcases hended with rfl | ⟨_,_,_,_,rfl⟩ <;> exact ⟨rfl,.inl hx⟩

theorem brings_file (hnodes : t.nodesTraversed=[]) : Brings p s (s.file t) := by
  intro k x t' ht' hx
  rw [mem_seen ht'] at hx
  rcases objects_file ht' with hk | ⟨hk,rfl⟩
  · exact ⟨t',hk,rfl,.inl ((mem_seen hk).mpr hx)⟩
  rcases hx with hx | ⟨p,hp,href,-⟩
  · rw [hnodes] at hx
    cases hx
  · obtain ⟨u,hu,-⟩ := s.held p hp k href
    have hlt := (List.getElem?_eq_some_iff.mp hu).1
    omega

theorem brings_init {interface : Nat} : Brings p s (s.initCircuitTrace now db c interface) := by
  unfold initCircuitTrace
  split
  · split_ifs
    · exact .refl p s
    · cases db.buildTraceRules c <;> exact brings_file rfl
  · exact .refl p s

theorem brings_fly {hp : ∀ r,p.ref=some r → ∃ t,s.objects[r]?=some t∧t.circuit=p.circuit} :
    Brings p s (s.fly p hp) := by
  intro k x t' ht' hx
  have ht : s.objects[k]?=some t' := ht'
  refine ⟨t',ht,rfl,?_⟩
  rw [mem_seen ht'] at hx
  rw [mem_seen ht]
  rcases hx with hx | ⟨q,hq,href,hdpid⟩
  · exact .inl (.inl hx)
  · rcases mem_snoc.mp hq with hq | rfl
    · exact .inl (.inr ⟨q,hq,href,hdpid⟩)
    · exact .inr ⟨href,hdpid.symm⟩

theorem brings_packet {dpid port : Nat} :
    Brings ⟨c,s.activeRef c,dpid,0,0⟩ s (s.processTracePacket now db c dpid port) := by
  unfold processTracePacket
  split
  · dsimp only
    split_ifs
    · exact brings_finish
    · exact brings_fly
  · exact .refl _ s

theorem brings_land {i : Nat} : Brings p s (s.land i) := by
  refine fun k x t' ht' hx => ⟨t',ht',rfl,.inl ?_⟩
  rcases mem_append.mp hx with hx | hx
  · exact mem_append_left _ hx
  apply mem_append_right
  obtain ⟨p,hp,rfl⟩ := mem_map.mp hx
  obtain ⟨hmem,href⟩ := mem_filter.mp hp
  rcases Lookup.mem_modify hmem with hland | ⟨q,hq,rfl⟩
  · exact mem_map_of_mem (mem_filter.mpr ⟨hland,href⟩)
  · exact mem_map.mpr ⟨q,mem_filter.mpr ⟨hq,href⟩,rfl⟩

theorem Brings.finish {q : Pending} (h : Brings p s u)
    (hseen : ∀ k,q.ref=some k → q.dpid∈u.seen k) : Brings p s (u.finish now db q) := by
  intro k x t' ht' hx
  obtain ⟨t,ht,hcircuit,hx⟩ := brings_finish k x t' ht' hx
  have hbefore : x∈u.seen k := by
    rcases hx with hx | ⟨href,rfl⟩
    · exact hx
    · exact hseen k href
  obtain ⟨t₀,ht₀,hcircuit₀,hseen₀⟩ := h k x t ht hbefore
  exact ⟨t₀,ht₀,hcircuit₀.trans hcircuit,hseen₀⟩

theorem brings_reply {i : Nat} : Brings p s (s.barrierReply now db i) := by
  unfold barrierReply
  cases hq : s.inFlight[i]? with
  | none => exact .refl p s
  | some q =>
    dsimp only
    by_cases hzero : q.waiting=0
    · rw [if_pos hzero]
      exact .refl p s
    cases href : q.ref with
    | none =>
      split_ifs
      · exact brings_land.finish (by simp [href])
      · exact brings_land
    | some r =>
      have hcounted : Brings p s ((s.land i).count r q.counted) :=
        brings_land.trans fun _ => brings_modify fun _ _ => .inl
      split_ifs
      · refine hcounted.finish fun k hk => ?_
        -- The packet was in flight, so that its node had been seen.
        have hflight : q∈s.inFlight := mem_of_getElem? hq
        obtain ⟨t,ht,-⟩ := s.held q hflight k hk
        apply seen_modify
        · exact fun _ _ hx => hx
        · exact seen_land ((mem_seen ht).mpr (.inr ⟨q,hflight,hk,rfl⟩))
      · exact hcounted

theorem seen_step {e : Event Node} (ht' : (s.step e).objects[k]?=some t') (hx : x∈(s.step e).seen k) :
    (∃ t,s.objects[k]?=some t∧t.circuit=t'.circuit∧x∈s.seen k)∨
      ∃ port now db,e=.packet t'.circuit x port now db∧s.activeRef t'.circuit=some k := by
  cases e with
  | init c interface now db => exact .inl (seen_of_brings (fun _ => brings_init) ht' hx)
  | packet c dpid port now db =>
    obtain ⟨t,ht,hcircuit,hseen | ⟨href,rfl⟩⟩ := brings_packet k x t' ht' hx
    · exact .inl ⟨t,ht,hcircuit,hseen⟩
    obtain ⟨t₀,ht₀,hc,-⟩ := activeRef_spec href
    cases ht₀.symm.trans ht
    have hsame : t'.circuit=c := hcircuit.symm.trans hc
    exact .inr ⟨port,now,db,by rw [hsame],by rwa [hsame]⟩
  | reply i now db => exact .inl (seen_of_brings (fun _ => brings_reply) ht' hx)
  | timeouts keys now db =>
    exact .inl (seen_of_brings (fun _ => brings_aged (aged_timeouts keys)) ht' hx)
  | link add dpid port now db =>
    cases add with
    | true => exact .inl ⟨t',ht',rfl,hx⟩
    | false => exact .inl (seen_of_brings (fun _ => brings_aged (aged_invalidate s.activeRef _)) ht' hx)

end Tracer

variable (events : List (Event Node))

theorem run_snoc (e : Event Node) : run (events++[e])=(run events).step e := by
  rw [run,foldl_append]
  rfl

theorem returned_of_seen {r x : Nat} (ht : (run events).objects[r]?=some t)
    (hx : x∈(run events).seen r) : Returned events t.circuit r x := by
  induction events using reverseRecOn generalizing t with
  | nil => simp [run,Tracer.new] at ht
  | append_singleton events e ih =>
    rw [run_snoc] at ht hx
    rcases Tracer.seen_step ht hx with ⟨t₀,ht₀,hcircuit,hseen⟩ | ⟨port,now,db,rfl,href⟩
    · obtain ⟨past,port,now,db,rest,hevents,href⟩ := ih ht₀ hseen
      rw [hcircuit] at hevents href
      exact ⟨past,port,now,db,rest++[e],by rw [hevents,append_assoc,cons_append],href⟩
    · exact ⟨events,port,now,db,[],rfl,href⟩

/-- If the steps meet the condition, a packet has come back from every other endpoint node. -/
theorem complete_returned (env : Env Node) (d : Details Node) (c : Nat) (events : List (Event Node))
    (hreads : ∀ e∈events,e.Reads env d c)
    (hok : StepsOk Tracer.step (StepOk env d c) Tracer.new events) :
    ∀ (r : Nat) (t : Transaction),(run events).objects[r]?=some t → t.circuit=c →
      t.status=.complete → ∀ e∈d.endpoints,env.dpidLookup e.node≠t.sourceDpid →
        Returned events c r (env.dpidLookup e.node) := by
  have hcounted : AllCounted env d c (run events) := by
    induction events using reverseRecOn with
    | nil =>
      intro r t ht
      simp [run,Tracer.new] at ht
    | append_singleton events e ih =>
      obtain ⟨hpast,hlast⟩ := stepsOk_snoc.mp hok
      rw [run_snoc]
      have hbefore := ih (fun e he => hreads e (mem_append_left _ he)) hpast
      exact counted_step hbefore (hreads e (by simp)) hlast
  intro r t ht hc hcomplete e he hsource
  rw [← hc]
  apply returned_of_seen events ht
  exact (hcounted r t ht hc).complete hcomplete _ (mem_targets.mpr ⟨⟨e,he,rfl⟩,hsource⟩)

/-- One endpoint on nodes 1 and 3, those given on 2. -/
def inRow (middle : List (Endpoint Nat)) : Details Nat where
  state := .active
  links := [⟨"a",1,2,1,1,11,21⟩,⟨"b",2,3,2,1,22,31⟩]
  internalIds := fun _ _ i => 100+i
  endpoints := ⟨1,"e9",9,200,true,[]⟩::⟨3,"e9",9,200,true,[]⟩::middle

def middleBack (d : Details Nat) : List (Event Nat) :=
  [.init 7 3 0 (reading d),.packet 7 2 1 1 (reading d),.reply 0 2 (reading d)]

/-- With two endpoints on node 2 a trace is complete, and node 3 was never reached. -/
theorem middleBack_complete :
    let d := inRow [⟨2,"e8",8,200,true,[]⟩,⟨2,"e9",9,200,true,[]⟩]
    (run (middleBack d)).objects.map Transaction.status=[.complete]∧
      (∃ e∈d.endpoints,e.node=3)∧¬Returned (middleBack d) 7 0 3 := by
  refine ⟨by decide +kernel,by decide,?_⟩
  intro ⟨past,port,now,db,rest,hevents,_⟩
  have hmem : Event.packet 7 3 port now db∈
      middleBack (inRow [⟨2,"e8",8,200,true,[]⟩,⟨2,"e9",9,200,true,[]⟩]) := by
    rw [hevents]
    exact mem_append_right _ mem_cons_self
  simp [middleBack] at hmem

def threeEnds : Details Nat := inRow [⟨2,"e9",9,200,true,[]⟩]

def bothBack : List (Event Nat) :=
  middleBack threeEnds++[.packet 7 3 1 3 (reading threeEnds),.reply 1 4 (reading threeEnds)]

theorem bothBack_returned : (∀ e∈bothBack,e.Reads nodeTables threeEnds 7)∧
    StepsOk Tracer.step (StepOk nodeTables threeEnds 7) Tracer.new bothBack∧
    (run bothBack).objects.map Transaction.status=[.complete]∧
    ∀ (r : Nat) (t : Transaction),(run bothBack).objects[r]?=some t → t.circuit=7 →
      t.status=.complete → ∀ e∈threeEnds.endpoints,nodeTables.dpidLookup e.node≠t.sourceDpid →
        Returned bothBack 7 r (nodeTables.dpidLookup e.node) := by
  have hreads : ∀ e∈bothBack,e.Reads nodeTables threeEnds 7 := by
    intro e he
    simp only [bothBack,middleBack,cons_append,nil_append,mem_cons,not_mem_nil,or_false] at he
    rcases he with rfl | rfl | rfl | rfl | rfl <;> exact ⟨rfl,rfl⟩
  have hpacket (s : Tracer) (dpid : Nat) (now : Int) (href : s.activeRef 7=some 0)
      (hcount : flowCount (((reading threeEnds).flows 7).getD []) dpid 1*
        endpointCount nodeTables threeEnds dpid=1) (hnew : dpid∉s.seen 0) :
      StepOk nodeTables threeEnds 7 s (.packet 7 dpid 1 now (reading threeEnds)) := by
    intro _ r t flows hr _ _ hflows
    cases href.symm.trans hr
    rw [hflows] at hcount
    exact .inr ⟨hcount,hnew⟩
  have hinit (now : Int) :
      StepOk nodeTables threeEnds 7 Tracer.new (.init 7 3 now (reading threeEnds)) := by
    intro _ node hnode
    cases hnode
    decide
  have hok : StepsOk Tracer.step (StepOk nodeTables threeEnds 7) Tracer.new bothBack := by
    refine ⟨hinit 0,hpacket _ 2 1 ?_ ?_ ?_,trivial,hpacket _ 3 3 ?_ ?_ ?_,trivial,trivial⟩
    all_goals decide +kernel
  exact ⟨hreads,hok,by decide +kernel,complete_returned nodeTables threeEnds 7 bothBack hreads hok⟩

end OESS.Traceroute
