import OESS.Framework.Lookup
import OESS.OpenFlow.SwitchDiff

namespace OESS.Traceroute

open OESS.OpenFlow Option List

inductive Status where
  | active | complete | timeout | timedOut | invalidated
  deriving DecidableEq

/-- A trace, with the circuit under whose id it is filed. -/
structure Transaction where
  circuit : Nat
  (ttl remainingEndpoints : Int)
  nodesTraversed : List Nat
  sourceDpid : Nat
  status : Status
  startEpoch : Int
  endEpoch : Option Int

inductive Command where
  | add | deleteStrict
  deriving DecidableEq

/-- A rule sent, with the record it was sent for. -/
structure Sent where
  ref : Option Nat
  command : Command
  rule : FlowRule
  deriving DecidableEq

/-- It waits for the barriers of removed rules. Each takes `counted` off the remaining endpoints. -/
structure Pending where
  circuit : Nat
  ref : Option Nat
  (dpid waiting counted : Nat)

/-- Callbacks hold on to records: `objects` has every one, `transactions` those found by circuit. -/
structure Tracer where
  objects : List Transaction
  transactions : Nat → Option Nat
  inFlight : List Pending
  sent : List Sent
  filed : ∀ c r,transactions c=some r → ∃ t,objects[r]?=some t∧t.circuit=c
  held : ∀ p∈inFlight,∀ r,p.ref=some r → ∃ t,objects[r]?=some t∧t.circuit=p.circuit

def Tracer.new : Tracer := ⟨[],fun _ => none,[],[],by simp,by simp⟩

/-- Circuits, nodes of interfaces, and links' circuits. -/
structure Db (Node : Type) [DecidableEq Node] where
  env : Env Node
  details : Nat → Option (Details Node)
  interfaceNode : Nat → Option Node
  affected : Nat → Nat → List Nat

def macAddress : Nat := 0x06a290265009

def controllerPort : Nat := 65533

def traceRule (flow : FlowRule) : FlowRule where
  priority := flow.priority+1
  fields := {flow.fields with
    dlDst := some macAddress
    dlType := some tracerouteType}
  actions := [.output controllerPort]
  dpid := flow.dpid

section Db

variable {Node : Type} [DecidableEq Node] (db : Db Node)

def Db.flows (circuit : Nat) : Option Rules := (db.details circuit).bind (circuitFlows db.env)

/-- It dies without the circuit or a rule. -/
def Db.buildTraceRules (circuit : Nat) : Option (List FlowRule) :=
  (db.flows circuit).bind fun flows => flows.mapM fun flow => flow.map traceRule

end Db

namespace Tracer

variable (s : Tracer)

def modify (r : Nat) (f : Transaction → Transaction) (hf : ∀ t,(f t).circuit=t.circuit) : Tracer where
  objects := s.objects.modify r f
  transactions := s.transactions
  inFlight := s.inFlight
  sent := s.sent
  filed := by
    intro c k hk
    obtain ⟨t,ht,hc⟩ := s.filed c k hk
    rw [List.getElem?_modify,ht]
    by_cases hr : r=k
    · exact ⟨f t,by simp [hr],(hf t).trans hc⟩
    · exact ⟨t,by simp [hr],hc⟩
  held := by
    intro p hp k hk
    obtain ⟨t,ht,hc⟩ := s.held p hp k hk
    rw [List.getElem?_modify,ht]
    by_cases hr : r=k
    · exact ⟨f t,by simp [hr],(hf t).trans hc⟩
    · exact ⟨t,by simp [hr],hc⟩

def send (ref : Option Nat) (command : Command) (rules : List FlowRule) : Tracer :=
  {s with sent := s.sent++rules.map (Sent.mk ref command)}

/-- A record is filed in the place of the circuit's last one. -/
def file (t : Transaction) : Tracer where
  objects := s.objects++[t]
  transactions := fun c => if c=t.circuit then some s.objects.length else s.transactions c
  inFlight := s.inFlight
  sent := s.sent
  filed := by
    intro c k hk
    split_ifs at hk with hc
    · cases hk
      exact ⟨t,by simp,hc.symm⟩
    · obtain ⟨u,hu,hcu⟩ := s.filed c k hk
      exact ⟨u,by rw [List.getElem?_append_left (List.getElem?_eq_some_iff.mp hu).1,hu],hcu⟩
  held := by
    intro p hp k hk
    obtain ⟨u,hu,hcu⟩ := s.held p hp k hk
    exact ⟨u,by rw [List.getElem?_append_left (List.getElem?_eq_some_iff.mp hu).1,hu],hcu⟩

def drop (circuit : Nat) : Tracer := {s with
    transactions := fun c => if c=circuit then none else s.transactions c
    filed := by
      intro c r hr
      split_ifs at hr
      exact s.filed c r hr}

def fly (p : Pending) (hp : ∀ r,p.ref=some r → ∃ t,s.objects[r]?=some t∧t.circuit=p.circuit) : Tracer :=
  {s with
    inFlight := s.inFlight++[p]
    held := by
      intro q hq
      rcases List.mem_append.mp hq with hq | hq
      · exact s.held q hq
      · rw [List.mem_singleton.mp hq]
        exact hp}

def land (i : Nat) : Tracer := {s with
    inFlight := s.inFlight.modify i fun p => {p with waiting := p.waiting-1}
    held := by
      intro p hp
      rcases Lookup.mem_modify hp with hp | ⟨q,hq,rfl⟩
      · exact s.held p hp
      · exact s.held q hq}

def lookup (circuit : Nat) : Option (Nat×Transaction) :=
  (s.transactions circuit).bind fun r => (s.objects[r]?).map fun t => (r,t)

/-- The circuit's record, if its status is active. -/
def activeRef (circuit : Nat) : Option Nat :=
  (s.lookup circuit).bind fun x => if x.2.status=.active then some x.1 else none

theorem lookup_spec {s : Tracer} {c r : Nat} {t : Transaction} (h : s.lookup c=some (r,t)) :
    s.transactions c=some r∧s.objects[r]?=some t∧t.circuit=c := by
  obtain ⟨k,hk,hmap⟩ := bind_eq_some_iff.mp h
  obtain ⟨u,hu,heq⟩ := map_eq_some_iff.mp hmap
  cases heq
  obtain ⟨v,hv,hc⟩ := s.filed c r hk
  cases hu.symm.trans hv
  exact ⟨hk,hu,hc⟩

theorem activeRef_spec {s : Tracer} {c r : Nat} (h : s.activeRef c=some r) :
    ∃ t,s.objects[r]?=some t∧t.circuit=c∧t.status=.active := by
  obtain ⟨⟨k,t⟩,hfound,hif⟩ := bind_eq_some_iff.mp h
  split_ifs at hif with hactive
  cases hif
  obtain ⟨-,hobject,hc⟩ := lookup_spec hfound
  exact ⟨t,hobject,hc,hactive⟩

section Handlers

variable {Node : Type} [DecidableEq Node] (now : Int) (db : Db Node)

def note (r dpid : Nat) : Tracer :=
  s.modify r (fun t => {t with nodesTraversed := t.nodesTraversed++[dpid],ttl := t.ttl-1}) fun _ => rfl

def count (r n : Nat) : Tracer :=
  s.modify r (fun t => {t with remainingEndpoints := t.remainingEndpoints-n}) fun _ => rfl

def stop (r : Nat) (status : Status) : Tracer :=
  s.modify r (fun t => {t with status := status,endEpoch := some now}) fun _ => rfl

/-- The flag is false when removing the rules died. -/
def close (r c : Nat) (status : Status) : Tracer×Bool :=
  let s := s.stop now r status
  match db.buildTraceRules c with
  | none => (s,false)
  | some rules => (s.send (some r) .deleteStrict rules,true)

def initCircuitTrace (c interface : Nat) : Tracer :=
  match db.details c,db.interfaceNode interface with
  | some d,some node =>
    if (s.activeRef c).isSome then s
    else
      let opened := s.file {
        circuit := c
        ttl := 30
        remainingEndpoints := (d.endpoints.map Endpoint.node).dedup.length-1
        nodesTraversed := []
        sourceDpid := db.env.dpidLookup node
        status := .active
        startEpoch := now
        endEpoch := none}
      match db.buildTraceRules c with
      | none => opened
      | some rules => opened.send (some s.objects.length) .add rules
  | _,_ => s

/-- When all barriers are back. Without an active trace the record is empty, with no endpoints
remaining. -/
def finish (p : Pending) : Tracer :=
  match p.ref with
  | none =>
    match db.buildTraceRules p.circuit with
    | none => s
    | some rules => s.send none .deleteStrict rules
  | some r =>
    let s := s.note r p.dpid
    match s.objects[r]? with
    | none => s
    | some t =>
      if t.remainingEndpoints<1 then (s.close now db r p.circuit .complete).1
      else if t.ttl<1 then (s.close now db r p.circuit .timeout).1
      else s

/-- What a packet counts: nothing where the trace has started. -/
def countedAt (d : Details Node) (dpid : Nat) (ref : Option Nat) : Nat :=
  match ref.bind fun r => s.objects[r]? with
  | none => 0
  | some t =>
    if dpid=t.sourceDpid then 0
    else (d.endpoints.filter fun e => db.env.dpidLookup e.node=dpid).length

def matched (rules : List FlowRule) (dpid port : Nat) : List FlowRule :=
  rules.filter fun r => r.dpid=dpid∧r.fields.inPort.getD 0=port

/-- `process_trace_packet`, up to the first barrier. -/
def processTracePacket (c dpid port : Nat) : Tracer :=
  match db.details c,db.buildTraceRules c with
  | some d,some rules =>
    let gone := matched rules dpid port
    let p : Pending := ⟨c,s.activeRef c,dpid,gone.length,s.countedAt db d dpid (s.activeRef c)⟩
    let deleted := s.send p.ref .deleteStrict gone
    if gone=[] then deleted.finish now db p
    else deleted.fly p fun r hr => by
      obtain ⟨t,ht,hc,-⟩ := activeRef_spec hr
      exact ⟨t,ht,hc⟩
  | _,_ => s

/-- The reply to the barrier after the removal of one rule. -/
def barrierReply (i : Nat) : Tracer :=
  match s.inFlight[i]? with
  | none => s
  | some p =>
    if p.waiting=0 then s
    else
      let landed := s.land i
      let counted := match p.ref with
        | none => landed
        | some r => landed.count r p.counted
      if p.waiting=1 then counted.finish now db p else counted

/-- Three minutes after its end it is no longer filed. -/
def reap (c : Nat) : Tracer :=
  match s.lookup c with
  | none => s
  | some (_,t) => if t.endEpoch.any fun e => e≠0∧e≤now-180 then s.drop c else s

/-- The circuits in the order of the keys. -/
def timeoutTraceroutes : List Nat → Tracer → Tracer
  | [],s => s
  | c::cs,s =>
    match s.lookup c with
    | none => timeoutTraceroutes cs s
    | some (r,t) =>
      if t.status=.active∧t.startEpoch≤now-45 then
        match s.close now db r c .timedOut with
        | (s,true) => timeoutTraceroutes cs (s.reap now c)
        | (s,false) => s
      else timeoutTraceroutes cs (s.reap now c)

/-- The traces active when the event came are invalidated. -/
def invalidate (active : Nat → Option Nat) : List Nat → Tracer → Tracer
  | [],s => s
  | c::cs,s =>
    match active c with
    | none => invalidate active cs s
    | some r =>
      match s.close now db r c .invalidated with
      | (s,true) => invalidate active cs s
      | (s,false) => s

def linkEvent (add : Bool) (dpid port : Nat) : Tracer :=
  if add then s else invalidate now db s.activeRef (db.affected dpid port) s

end Handlers

end Tracer

inductive Event (Node : Type) [DecidableEq Node] where
  | init (c interface : Nat) (now : Int) (db : Db Node)
  | packet (c dpid port : Nat) (now : Int) (db : Db Node)
  | reply (i : Nat) (now : Int) (db : Db Node)
  | timeouts (keys : List Nat) (now : Int) (db : Db Node)
  | link (add : Bool) (dpid port : Nat) (now : Int) (db : Db Node)

variable {Node : Type} [DecidableEq Node]

def Tracer.step (s : Tracer) : Event Node → Tracer
  | .init c interface now db => s.initCircuitTrace now db c interface
  | .packet c dpid port now db => s.processTracePacket now db c dpid port
  | .reply i now db => s.barrierReply now db i
  | .timeouts keys now db => Tracer.timeoutTraceroutes now db keys s
  | .link add dpid port now db => s.linkEvent now db add dpid port

def run (events : List (Event Node)) : Tracer := events.foldl Tracer.step Tracer.new

namespace Tracer

variable {s u v : Tracer} {now : Int} {db : Db Node}

/-- The trace is as before or has ended, but not by its last packet. -/
def Ended (t t' : Transaction) : Prop :=
  t'=t∨∃ status now,status≠.active∧status≠.complete∧t'={t with status := status,endEpoch := some now}

structure Aged (s u : Tracer) : Prop where
  refs : ∀ c r,u.transactions c=some r → s.transactions c=some r
  objects : ∀ (r : Nat) (t' : Transaction),u.objects[r]?=some t' → ∃ t,s.objects[r]?=some t∧Ended t t'
  inFlight : u.inFlight=s.inFlight
  sent : ∃ new,u.sent=s.sent++new∧∀ m∈new,m.command=.deleteStrict

theorem aged_refl : Aged s s :=
  ⟨fun _ _ h => h,fun _ t ht => ⟨t,ht,.inl rfl⟩,rfl,[],(append_nil _).symm,by simp⟩

theorem Ended.trans {t t' t'' : Transaction} (h : Ended t t') (h' : Ended t' t'') : Ended t t'' := by
  rcases h' with rfl | ⟨status,now,hactive,hcomplete,rfl⟩
  · exact h
  · rcases h with rfl | ⟨_,_,_,_,rfl⟩ <;> exact .inr ⟨status,now,hactive,hcomplete,rfl⟩

theorem Aged.trans (h : Aged s u) (h' : Aged u v) : Aged s v where
  refs := fun c r hr => h.refs c r (h'.refs c r hr)
  objects := by
    intro r t'' ht''
    obtain ⟨t',ht',hend'⟩ := h'.objects r t'' ht''
    obtain ⟨t,ht,hend⟩ := h.objects r t' ht'
    exact ⟨t,ht,hend.trans hend'⟩
  inFlight := h'.inFlight.trans h.inFlight
  sent := by
    obtain ⟨new,hnew,hdelete⟩ := h.sent
    obtain ⟨new',hnew',hdelete'⟩ := h'.sent
    refine ⟨new++new',by rw [hnew',hnew,append_assoc],?_⟩
    intro m hm
    exact (mem_append.mp hm).elim (hdelete m) (hdelete' m)

theorem objects_modify {r : Nat} {f : Transaction → Transaction} {hf : ∀ t,(f t).circuit=t.circuit}
    {k : Nat} {t' : Transaction} (h : (s.modify r f hf).objects[k]?=some t') :
    ∃ t,s.objects[k]?=some t∧t'=if r=k then f t else t := by
  have hmodify : (s.objects.modify r f)[k]?=some t' := h
  rw [getElem?_modify] at hmodify
  obtain ⟨t,ht,heq⟩ := map_eq_some_iff.mp hmodify
  exact ⟨t,ht,heq.symm⟩

theorem objects_file {t t' : Transaction} {k : Nat} (h : (s.file t).objects[k]?=some t') :
    s.objects[k]?=some t'∨k=s.objects.length∧t'=t := by
  have happend : (s.objects++[t])[k]?=some t' := h
  by_cases hk : k<s.objects.length
  · rw [getElem?_append_left hk] at happend
    exact .inl happend
  rw [getElem?_append_right (Nat.le_of_not_lt hk)] at happend
  obtain ⟨hlt,heq⟩ := List.getElem?_eq_some_iff.mp happend
  have hzero : k-s.objects.length=0 := by simpa using hlt
  refine .inr ⟨by omega,?_⟩
  simpa using heq.symm

theorem sent_close (s : Tracer) (now : Int) (db : Db Node) (r c : Nat) (status : Status) :
    ∃ new,(s.close now db r c status).1.sent=s.sent++new∧ (∀ m∈new,m.command=.deleteStrict)∧
    ∀ rules,db.buildTraceRules c=some rules → new=rules.map (Sent.mk (some r) .deleteStrict) := by
  unfold close
  cases db.buildTraceRules c with
  | none => exact ⟨[],(append_nil _).symm,by simp,by simp⟩
  | some rules =>
    refine ⟨_,rfl,?_,fun rules' h => by rw [some_inj.mp h]⟩
    intro m hm
    obtain ⟨rule,-,rfl⟩ := mem_map.mp hm
    rfl

theorem close_fields (s : Tracer) (now : Int) (db : Db Node) (r c : Nat) (status : Status) :
    (s.close now db r c status).1.objects=
      s.objects.modify r (fun t => {t with status := status,endEpoch := some now})∧
    (s.close now db r c status).1.transactions=s.transactions∧
    (s.close now db r c status).1.inFlight=s.inFlight := by
  unfold close
  cases db.buildTraceRules c <;> exact ⟨rfl,rfl,rfl⟩

theorem aged_close {r c : Nat} {status : Status} (hactive : status≠.active)
    (hcomplete : status≠.complete) : Aged s (s.close now db r c status).1 := by
  obtain ⟨hobjects,htransactions,hflight⟩ := close_fields s now db r c status
  obtain ⟨new,hsent,hdelete,-⟩ := sent_close s now db r c status
  refine ⟨fun c k hk => by rwa [htransactions] at hk,?_,hflight,new,hsent,hdelete⟩
  intro k t' ht'
  rw [hobjects,getElem?_modify] at ht'
  obtain ⟨t,ht,rfl⟩ := map_eq_some_iff.mp ht'
  refine ⟨t,ht,?_⟩
  split_ifs
  · exact .inr ⟨status,now,hactive,hcomplete,rfl⟩
  · exact .inl rfl

theorem aged_reap {c : Nat} : Aged s (s.reap now c) := by
  unfold reap
  cases s.lookup c with
  | none => exact aged_refl
  | some x =>
    dsimp only
    split_ifs
    · refine ⟨?_,fun _ t ht => ⟨t,ht,.inl rfl⟩,rfl,[],(append_nil _).symm,by simp⟩
      intro k r hr
      have hdrop : (if k=c then none else s.transactions k)=some r := hr
      split_ifs at hdrop
      exact hdrop
    · exact aged_refl

theorem aged_timeouts (keys : List Nat) : Aged s (timeoutTraceroutes now db keys s) := by
  induction keys generalizing s with
  | nil => exact aged_refl
  | cons c keys ih =>
    unfold timeoutTraceroutes
    cases s.lookup c with
    | none => exact ih
    | some x =>
      dsimp only
      split_ifs
      · have hclose : Aged s (s.close now db x.1 c .timedOut).1 := aged_close (by simp) (by simp)
        cases hres : s.close now db x.1 c .timedOut with
        | mk u done =>
          rw [hres] at hclose
          cases done with
          | true => exact (hclose.trans aged_reap).trans ih
          | false => exact hclose
      · exact aged_reap.trans ih

theorem aged_invalidate (active : Nat → Option Nat) (circuits : List Nat) :
    Aged s (invalidate now db active circuits s) := by
  induction circuits generalizing s with
  | nil => exact aged_refl
  | cons c circuits ih =>
    unfold invalidate
    cases active c with
    | none => exact ih
    | some r =>
      have hclose : Aged s (s.close now db r c .invalidated).1 := aged_close (by simp) (by simp)
      dsimp only
      cases hres : s.close now db r c .invalidated with
      | mk u done =>
        rw [hres] at hclose
        cases done with
        | true => exact hclose.trans ih
        | false => exact hclose

end Tracer

def nodeTables : Env Nat where
  logged := false
  dpidLookup := id
  dpidLookup_injective := fun _ _ h => h
  nodeIdLookup := id
  keys := List.dedup
  keys_perm := fun _ => List.Perm.refl _
  spDijkstra := fun _ _ _ => []

def reading (d : Details Nat) : Db Nat where
  env := nodeTables
  details := fun c => if c=7 then some d else none
  interfaceNode := fun i => if i=3 then some 1 else none
  affected := fun _ _ => []

end OESS.Traceroute
