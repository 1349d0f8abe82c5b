import OESS.Framework.Runs
import OESS.Traceroute.Daemon

namespace OESS.Traceroute

open OESS.OpenFlow OESS.Runs List Option

def SameRule (a b : FlowRule) : Prop := a.dpid=b.dpid∧a.key=b.key
  deriving Decidable

namespace Tracer

/-- Installed for a trace, with no strict delete sent since. -/
def Outstanding (s : Tracer) (r : Nat) (rule : FlowRule) : Prop :=
  ∃ past future,s.sent=past++⟨some r,.add,rule⟩::future∧
    ∀ m∈future,m.command=.deleteStrict → ¬SameRule m.rule rule

def Cleared (s : Tracer) : Prop :=
  ∀ (r : Nat) (t : Transaction),s.objects[r]?=some t → t.status≠.active → ∀ rule,¬s.Outstanding r rule

def Registered (s : Tracer) : Prop :=
  ∀ m∈s.sent,m.command=.add → (∃ flow,m.rule=traceRule flow)∧∀ r,m.ref=some r → r<s.objects.length

variable {s u : Tracer} {r : Nat} {rule : FlowRule} {new : List Sent}

theorem Outstanding.mem (h : s.Outstanding r rule) : ⟨some r,.add,rule⟩∈s.sent := by
  obtain ⟨past,future,hsent,-⟩ := h
  rw [hsent]
  exact mem_append_right _ mem_cons_self

theorem Outstanding.before (h : u.Outstanding r rule) (hsent : u.sent=s.sent++new)
    (hnew : ⟨some r,.add,rule⟩∉new) :
    s.Outstanding r rule∧∀ m∈new,m.command=.deleteStrict → ¬SameRule m.rule rule := by
  obtain ⟨past,future,hu,hfuture⟩ := h
  rw [hsent,append_eq_append_iff] at hu
  rcases hu with ⟨l,hpast,hl⟩ | ⟨l,hs,hl⟩
  · rw [hl] at hnew
    exact absurd (mem_append_right _ mem_cons_self) hnew
  cases l with
  | nil =>
    rw [nil_append] at hl
    rw [← hl] at hnew
    exact absurd mem_cons_self hnew
  | cons m l =>
    obtain ⟨rfl,hfut⟩ := cons.inj hl
    refine ⟨⟨past,l,hs,fun k hk => hfuture k ?_⟩,fun k hk => hfuture k ?_⟩
    · rw [hfut]
      exact mem_append_left _ hk
    · rw [hfut]
      exact mem_append_right _ hk

def Deletes (new : List Sent) : Prop := ∀ m∈new,m.command=.deleteStrict

theorem Deletes.not_add (h : Deletes new) : ⟨some r,.add,rule⟩∉new := by
  intro hm
  cases h _ hm

theorem deletes_map (ref : Option Nat) (rules : List FlowRule) :
    Deletes (rules.map (Sent.mk ref .deleteStrict)) := by
  intro m hm
  obtain ⟨rule,-,rfl⟩ := mem_map.mp hm
  rfl

structure Sound (s : Tracer) : Prop where
  registered : s.Registered
  cleared : s.Cleared

theorem Sound.keep (h : s.Sound) (hsent : u.sent=s.sent++new) (hnew : Deletes new)
    (hlength : u.objects.length=s.objects.length)
    (hobjects : ∀ (r : Nat) (t' : Transaction),u.objects[r]?=some t' → t'.status≠.active →
      ∃ t,s.objects[r]?=some t∧t.status≠.active) : u.Sound where
  registered := by
    intro m hm hadd
    rw [hsent] at hm
    rcases mem_append.mp hm with hm | hm
    · rw [hlength]
      exact h.registered m hm hadd
    · rw [hnew m hm] at hadd
      cases hadd
  cleared := by
    intro r t' ht' hended rule hout
    obtain ⟨t,ht,hold⟩ := hobjects r t' ht' hended
    exact h.cleared r t ht hold rule (hout.before hsent hnew.not_add).1

theorem Sound.send (h : s.Sound) (ref : Option Nat) (rules : List FlowRule) :
    (s.send ref .deleteStrict rules).Sound :=
  h.keep rfl (deletes_map ref rules) rfl fun _ t ht hended => ⟨t,ht,hended⟩

theorem Sound.modify (h : s.Sound) {f : Transaction → Transaction}
    {hf : ∀ t,(f t).circuit=t.circuit} (hstatus : ∀ t,(f t).status=t.status) :
    (s.modify r f hf).Sound := by
  have hnone : Deletes [] := by simp [Deletes]
  apply Sound.keep (u := s.modify r f hf) h (append_nil _).symm hnone (length_modify ..)
  intro k t' ht' hended
  obtain ⟨t,ht,rfl⟩ := objects_modify ht'
  refine ⟨t,ht,?_⟩
  split_ifs at hended
  · rwa [hstatus] at hended
  · exact hended

end Tracer

section Rules

variable {Node : Type} [DecidableEq Node] {db : Db Node} {c : Nat} {flows : Rules}

theorem mapM_traceRule (hnone : none∉flows) :
    ∃ rules,flows.mapM (fun flow => flow.map traceRule)=some rules∧
      ∀ flow,some flow∈flows → traceRule flow∈rules := by
  refine ⟨flows.filterMap fun flow => flow.map traceRule,Loops.mapM_eq_some_iff.mpr ?_,?_⟩
  · rw [map_filterMap,eq_comm,filterMap_eq_map_iff_forall_eq_some]
    intro o ho
    cases o with
    | none => exact absurd ho hnone
    | some flow => rfl
  · intro flow hflow
    exact mem_filterMap.mpr ⟨some flow,hflow,rfl⟩

theorem buildTraceRules_some (hflows : db.flows c=some flows) (hnone : none∉flows) :
    ∃ rules,db.buildTraceRules c=some rules∧∀ flow,some flow∈flows → traceRule flow∈rules := by
  obtain ⟨rules,hrules,hmem⟩ := mapM_traceRule hnone
  refine ⟨rules,?_,hmem⟩
  rw [Db.buildTraceRules,hflows,bind_some,hrules]

theorem buildTraceRules_spec {rules : List FlowRule} (h : db.buildTraceRules c=some rules) :
    ∀ rule∈rules,∃ flow,rule=traceRule flow := by
  obtain ⟨flows,-,hmap⟩ := bind_eq_some_iff.mp h
  intro rule hrule
  obtain ⟨o,-,ho⟩ := Loops.mem_of_mapM hmap hrule
  obtain ⟨flow,-,rfl⟩ := map_eq_some_iff.mp ho
  exact ⟨flow,rfl⟩

/-- A flow rule for which a trace rule is made there. -/
def Carries (flow rule : FlowRule) : Prop :=
  flow.dpid=rule.dpid∧flow.fields.inPort=rule.fields.inPort∧flow.fields.dlVlan=rule.fields.dlVlan∧
    flow.priority+1=rule.priority
  deriving Decidable

theorem sameRule_of_carries {flow f : FlowRule} (h : Carries flow (traceRule f)) :
    SameRule (traceRule flow) (traceRule f) := by
  obtain ⟨hdpid,hport,hvlan,hpriority⟩ := h
  refine ⟨hdpid,Prod.ext ?_ hpriority⟩
  have hp : flow.fields.inPort=f.fields.inPort := hport
  have hv : flow.fields.dlVlan=f.fields.dlVlan := hvlan
  simp only [FlowRule.key,traceRule,hp,hv]

/-- The circuit is read, its rules are defined, and one is in the place of every outstanding trace
rule. -/
def Db.Serves (db : Db Node) (c : Nat) (s : Tracer) (r : Nat) : Prop :=
  ∀ rule,s.Outstanding r rule →
    ∃ flows,db.flows c=some flows∧none∉flows∧∃ flow,some flow∈flows∧Carries flow rule

end Rules

namespace Tracer

variable {Node : Type} [DecidableEq Node] {db : Db Node} {now : Int} {s u : Tracer} {r c : Nat}

section

variable (h : s.Sound)
include h

theorem Sound.close {status : Status} (hserves : db.Serves c s r) :
    (s.close now db r c status).1.Sound := by
  obtain ⟨hobjects,-,-⟩ := close_fields s now db r c status
  obtain ⟨new,hsent,hdelete,hall⟩ := sent_close s now db r c status
  have hmodified : (s.objects.modify r fun t =>
      {t with status := status,endEpoch := some now}).length=s.objects.length := length_modify ..
  have hkept : ∀ (m : Sent),m∈(s.close now db r c status).1.sent → m.command=.add → m∈s.sent := by
    intro m hm hadd
    rw [hsent] at hm
    rcases mem_append.mp hm with hm | hm
    · exact hm
    · rw [hdelete m hm] at hadd
      cases hadd
  refine ⟨?_,?_⟩
  · intro m hm hadd
    rw [hobjects,hmodified]
    exact h.registered m (hkept m hm hadd) hadd
  · intro k t' ht' hended rule hout
    obtain ⟨hbefore,hdeleted⟩ := hout.before hsent (Deletes.not_add hdelete)
    rw [hobjects,getElem?_modify] at ht'
    obtain ⟨t,ht,rfl⟩ := map_eq_some_iff.mp ht'
    by_cases hk : r=k
    · rw [← hk] at hbefore
      obtain ⟨flows,hflows,hnone,flow,hflow,hcarries⟩ := hserves rule hbefore
      obtain ⟨rules,hrules,hmem⟩ := buildTraceRules_some hflows hnone
      obtain ⟨⟨f,rfl⟩,-⟩ := h.registered _ hbefore.mem rfl
      have hin : (⟨some r,.deleteStrict,traceRule flow⟩ : Sent)∈new := by
        rw [hall rules hrules]
        exact mem_map_of_mem (hmem flow hflow)
      exact hdeleted _ hin rfl (sameRule_of_carries hcarries)
    · rw [if_neg hk] at hended
      exact h.cleared k t ht hended rule hbefore

variable {t : Transaction}

theorem Sound.serves (ht : s.objects[r]?=some t) (hserves : t.status=.active → db.Serves c s r) :
    db.Serves c s r := by
  by_cases hactive : t.status=.active
  · exact hserves hactive
  · exact fun rule hout => absurd hout (h.cleared r t ht hactive rule)

theorem Sound.finish {p : Pending}
    (hserves : ∀ r t,p.ref=some r → s.objects[r]?=some t → t.status=.active →
      t.remainingEndpoints<1∨t.ttl≤1 → db.Serves p.circuit s r) :
    (s.finish now db p).Sound := by
  unfold Tracer.finish
  cases hp : p.ref with
  | none =>
    cases db.buildTraceRules p.circuit with
    | none => exact h
    | some rules => exact h.send none rules
  | some r =>
    dsimp only
    have hnoted : (s.note r p.dpid).Sound := h.modify fun _ => rfl
    split
    · exact hnoted
    rename_i t' ht'
    obtain ⟨t,ht,heq⟩ := objects_modify ht'
    rw [if_pos rfl] at heq
    subst heq
    have hend (hlast : t.remainingEndpoints<1∨t.ttl≤1) : db.Serves p.circuit s r :=
      h.serves ht fun hactive => hserves r t hp ht hactive hlast
    split_ifs with hdone httl
    · exact hnoted.close (hend (.inl hdone))
    · dsimp only at httl
      exact hnoted.close (hend (.inr (by omega)))
    · exact hnoted

theorem Sound.file (ht : t.status=.active) : (s.file t).Sound where
  registered := by
    intro m hm hadd
    obtain ⟨hrule,hlt⟩ := h.registered m hm hadd
    refine ⟨hrule,fun r hr => Nat.lt_of_lt_of_le (hlt r hr) ?_⟩
    exact (length_append ..).symm ▸ Nat.le_add_right ..
  cleared := by
    intro k u hu hended rule hout
    rcases objects_file hu with hu | ⟨-,rfl⟩
    · exact h.cleared k u hu hended rule hout
    · exact hended ht

theorem Sound.install (ht : t.status=.active) {rules : List FlowRule}
    (hrules : ∀ rule∈rules,∃ flow,rule=traceRule flow) :
    ((s.file t).send (some s.objects.length) .add rules).Sound where
  registered := by
    intro m hm hadd
    rcases mem_append.mp hm with hm | hm
    · exact (h.file ht).registered m hm hadd
    obtain ⟨rule,hrule,rfl⟩ := mem_map.mp hm
    refine ⟨hrules rule hrule,fun r hr => ?_⟩
    cases hr
    exact (length_append ..).symm ▸ Nat.lt_succ_self _
  cleared := by
    intro k u hu hended rule hout
    rcases objects_file hu with hu | ⟨-,rfl⟩
    · have hlt : k<s.objects.length := (List.getElem?_eq_some_iff.mp hu).1
      have hnot : (⟨some k,.add,rule⟩ : Sent)∉rules.map (Sent.mk (some s.objects.length) .add) := by
        intro hmem
        obtain ⟨_,-,heq⟩ := mem_map.mp hmem
        cases heq
        exact Nat.lt_irrefl _ hlt
      have hbefore : (s.file t).Outstanding k rule := (hout.before rfl hnot).1
      exact h.cleared k u hu hended rule hbefore
    · exact hended ht

theorem Sound.initCircuitTrace (interface : Nat) :
    (s.initCircuitTrace now db c interface).Sound := by
  unfold Tracer.initCircuitTrace
  split
  · split_ifs
    · exact h
    · cases hrules : db.buildTraceRules c with
      | none => exact h.file rfl
      | some rules => exact h.install rfl (buildTraceRules_spec hrules)
  · exact h

theorem Sound.processTracePacket {dpid port : Nat}
    (hserves : ∀ r t, s.activeRef c=some r → s.objects[r]?=some t → t.remainingEndpoints<1∨
      t.ttl≤1 → db.Serves c s r) :
    (s.processTracePacket now db c dpid port).Sound := by
  unfold Tracer.processTracePacket
  split
  · dsimp only
    split_ifs with hgone
    · rw [hgone]
      have hsame : (s.send (s.activeRef c) .deleteStrict []).sent=s.sent := append_nil _
      apply (h.send (s.activeRef c) []).finish
      intro r t hr ht _ hlast rule hout
      rw [Outstanding,hsame] at hout
      exact hserves r t hr ht hlast rule hout
    · exact h.keep rfl (deletes_map _ _) rfl fun _ t ht hended => ⟨t,ht,hended⟩
  · exact h

theorem Sound.barrierReply {i : Nat}
    (hserves : ∀ p r t,s.inFlight[i]?=some p → p.waiting=1 → p.ref=some r → s.objects[r]?=some t →
      t.status=.active → t.remainingEndpoints-p.counted<1∨t.ttl≤1 → db.Serves p.circuit s r) :
    (s.barrierReply now db i).Sound := by
  unfold Tracer.barrierReply
  cases hp : s.inFlight[i]? with
  | none => exact h
  | some p =>
    have hland : (s.land i).Sound :=
      h.keep (append_nil _).symm (by simp [Deletes]) rfl fun _ t ht hended => ⟨t,ht,hended⟩
    dsimp only
    by_cases hzero : p.waiting=0
    · rwa [if_pos hzero]
    cases href : p.ref with
    | none =>
      split_ifs
      · apply hland.finish
        intro r t hr
        rw [href] at hr
        cases hr
      · exact hland
    | some r =>
      have hcounted : ((s.land i).count r p.counted).Sound := hland.modify fun _ => rfl
      split_ifs with hone
      · apply hcounted.finish
        intro k t' hk ht' hactive hlast
        cases href.symm.trans hk
        obtain ⟨t,ht,heq⟩ := objects_modify ht'
        rw [if_pos rfl] at heq
        subst heq
        exact hserves p r t hp hone href ht hactive hlast
      · exact hcounted

end

theorem Aged.lookup (h : Aged s u) {t : Transaction} (hu : u.lookup c=some (r,t))
    (hactive : t.status=.active) : s.lookup c=some (r,t) := by
  obtain ⟨href,hobject,-⟩ := lookup_spec hu
  obtain ⟨t₀,ht₀,rfl | ⟨status,now,hnot,-,rfl⟩⟩ := h.objects r t hobject
  · simp [Tracer.lookup,h.refs c r href,ht₀]
  · exact absurd hactive hnot

theorem Aged.serves (h : Aged s u) (hserves : db.Serves c s r) : db.Serves c u r := by
  obtain ⟨new,hsent,hdelete⟩ := h.sent
  intro rule hout
  exact hserves rule (hout.before hsent (Deletes.not_add hdelete)).1

theorem Sound.reap (h : s.Sound) : (s.reap now c).Sound := by
  have hdrop : (s.drop c).Sound :=
    h.keep (append_nil _).symm (by simp [Deletes]) rfl fun _ t ht hended => ⟨t,ht,hended⟩
  unfold Tracer.reap
  split
  · exact h
  · split_ifs
    · exact hdrop
    · exact h

theorem Sound.timeoutTraceroutes (h : s.Sound) (keys : List Nat) (hserves : ∀ c∈keys,∀ r t,
    s.lookup c=some (r,t) → t.status=.active → t.startEpoch≤now-45 → db.Serves c s r) :
    (timeoutTraceroutes now db keys s).Sound := by
  induction keys generalizing s with
  | nil => exact h
  | cons c keys ih =>
    -- What is asked of the later circuits stays true while records age.
    have hlater {u : Tracer} (haged : Aged s u) : ∀ k∈keys,∀ r t,u.lookup k=some (r,t) →
        t.status=.active → t.startEpoch≤now-45 → db.Serves k u r := by
      intro k hk r t hu hactive hold
      exact haged.serves
        (hserves k (mem_cons_of_mem c hk) r t (haged.lookup hu hactive) hactive hold)
    unfold Tracer.timeoutTraceroutes
    cases hfound : s.lookup c with
    | none => exact ih h (hlater aged_refl)
    | some x =>
      obtain ⟨r,t⟩ := x
      dsimp only
      split_ifs with hold
      · have hserved : db.Serves c s r :=
          hserves c mem_cons_self r t hfound hold.1 hold.2
        have hclose : (s.close now db r c .timedOut).1.Sound := h.close hserved
        have haged : Aged s (s.close now db r c .timedOut).1 := aged_close (by simp) (by simp)
        cases hres : s.close now db r c .timedOut with
        | mk u done =>
          rw [hres] at hclose haged
          cases done with
          | true => exact ih hclose.reap (hlater (haged.trans aged_reap))
          | false => exact hclose
      · exact ih h.reap (hlater aged_reap)

theorem Sound.invalidate (h : s.Sound) {active : Nat → Option Nat} (circuits : List Nat)
    (hserves : ∀ c∈circuits,∀ r,active c=some r → db.Serves c s r) :
    (invalidate now db active circuits s).Sound := by
  induction circuits generalizing s with
  | nil => exact h
  | cons c circuits ih =>
    have hlater {u : Tracer} (haged : Aged s u) :
        ∀ k∈circuits,∀ r,active k=some r → db.Serves k u r :=
      fun k hk r hr => haged.serves (hserves k (mem_cons_of_mem c hk) r hr)
    unfold Tracer.invalidate
    cases hr : active c with
    | none => exact ih h (hlater aged_refl)
    | some r =>
      have hclose : (s.close now db r c .invalidated).1.Sound :=
        h.close (hserves c mem_cons_self r hr)
      have haged : Aged s (s.close now db r c .invalidated).1 := aged_close (by simp) (by simp)
      dsimp only
      cases hres : s.close now db r c .invalidated with
      | mk u done =>
        rw [hres] at hclose haged
        cases done with
        | true => exact ih hclose (hlater haged)
        | false => exact hclose

end Tracer

/-- A trace about to end has its rules served. -/
def EndServed {Node : Type} [DecidableEq Node] (s : Tracer) : Event Node → Prop
  | .init _ _ _ _ => True
  | .packet c _ _ _ db => ∀ r t,s.activeRef c=some r → s.objects[r]?=some t →
      t.remainingEndpoints<1∨t.ttl≤1 → db.Serves c s r
  | .reply i _ db => ∀ p r t,s.inFlight[i]?=some p → p.waiting=1 → p.ref=some r →
      s.objects[r]?=some t → t.status=.active → t.remainingEndpoints-p.counted<1∨t.ttl≤1 →
      db.Serves p.circuit s r
  | .timeouts keys now db => ∀ c∈keys,∀ r t,s.lookup c=some (r,t) → t.status=.active →
      t.startEpoch≤now-45 → db.Serves c s r
  | .link add dpid port _ db => add=false → ∀ c∈db.affected dpid port,∀ r,s.activeRef c=some r →
      db.Serves c s r

variable {Node : Type} [DecidableEq Node]

theorem step_sound {s : Tracer} {e : Event Node} (h : s.Sound) (he : EndServed s e) :
    (s.step e).Sound := by
  cases e with
  | init c interface now db => exact h.initCircuitTrace interface
  | packet c dpid port now db => exact h.processTracePacket he
  | reply i now db => exact h.barrierReply he
  | timeouts keys now db => exact h.timeoutTraceroutes keys he
  | link add dpid port now db =>
    cases add with
    | true => exact h
    | false => exact h.invalidate (db.affected dpid port) (he rfl)

/-- No ended trace leaves a rule on a switch, if the circuits serve the rules of the traces that
end. -/
theorem run_cleared (events : List (Event Node))
    (hok : StepsOk Tracer.step EndServed Tracer.new events) :
    Always Tracer.step Tracer.Cleared Tracer.new events := by
  have hnew : Tracer.new.Sound := by
    refine ⟨fun m hm => ?_,fun r t ht => ?_⟩
    · cases hm
    · simp [Tracer.new] at ht
  exact (always_of_step (fun _ _ => step_sound) hnew hok).mono fun _ h => h.cleared

def overPort (port : Nat) : Details Nat where
  state := .active
  links := [⟨"trunk",1,2,port,port,port,port⟩]
  internalIds := fun _ _ i => 100+i
  endpoints := [⟨1,"e9",9,200,true,[]⟩,⟨2,"e9",9,200,true,[]⟩]

/-- The circuit moves while traced, and it times out. -/
def movedTrace : List (Event Nat) :=
  [.init 7 3 0 (reading (overPort 1)),.timeouts [7] 100 (reading (overPort 5))]

def leftRule : FlowRule := traceRule ⟨32768,{inPort := some 1,dlVlan := some 101},[],1⟩

theorem movedTrace_leaves_rule : (run movedTrace).objects.map Transaction.status=[.timedOut]∧
    (run movedTrace).Outstanding 0 leftRule∧¬(run movedTrace).Cleared := by
  have hsent : (run movedTrace).sent=[]++⟨some 0,.add,leftRule⟩::(run movedTrace).sent.tail := by
    decide +kernel
  have hout : (run movedTrace).Outstanding 0 leftRule :=
    ⟨[],_,hsent,by decide +kernel⟩
  have hobject : (run movedTrace).objects.map Transaction.status=[.timedOut] := by decide +kernel
  refine ⟨hobject,hout,fun hcleared => ?_⟩
  obtain ⟨t,ht,hstatus⟩ : ∃ t,(run movedTrace).objects=[t]∧t.status=.timedOut := by
    obtain ⟨t,ht,hs⟩ := map_eq_singleton_iff.mp hobject
    exact ⟨t,ht,hs⟩
  exact hcleared 0 t (by rw [ht]; rfl) (by simp [hstatus]) leftRule hout

def quietTrace : List (Event Nat) :=
  [.init 7 3 0 (reading (overPort 1)),.timeouts [7] 100 (reading (overPort 1))]

theorem quietTrace_cleared : StepsOk Tracer.step EndServed Tracer.new quietTrace∧
    (run quietTrace).objects.map Transaction.status=[.timedOut]∧
    Always Tracer.step Tracer.Cleared Tracer.new quietTrace := by
  have hok : StepsOk Tracer.step EndServed Tracer.new quietTrace := by
    refine ⟨trivial,?_,trivial⟩
    intro c hc r t hfound _ _ rule hout
    rw [mem_singleton.mp hc] at hfound ⊢
    have hflows : (reading (overPort 1)).flows 7=
        some (((reading (overPort 1)).flows 7).getD []) := by decide +kernel
    have hserved : ∀ m∈(Tracer.new.step (.init 7 3 0 (reading (overPort 1)))).sent,
        ∃ f∈((reading (overPort 1)).flows 7).getD [],
          f.any (fun flow => decide (Carries flow m.rule))=true := by
      decide +kernel
    refine ⟨_,hflows,by decide +kernel,?_⟩
    obtain ⟨f,hf,hany⟩ := hserved _ hout.mem
    cases f with
    | none => cases hany
    | some flow => exact ⟨flow,hf,of_decide_eq_true hany⟩
  exact ⟨hok,by decide +kernel,run_cleared quietTrace hok⟩

end OESS.Traceroute
