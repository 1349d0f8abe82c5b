import Mathlib.Data.List.Nodup
import OESS.Framework.Runs

namespace OESS.NSI

open OESS.Runs List

/-- The id of a connection is `none` where it is undefined. -/
inductive Message where
  | success (connection : Option Nat)
  | fail (text : Option String)
  | timeout (connection : Option Nat) (time : Int)
  | commitConfirmed (connection : Option Nat)
  | commitFailed (connection : Option Nat)
  | doAbort (connection : Option Nat)

inductive Outcome where
  | commitConfirmed | timedOut | aborted
  deriving DecidableEq

/-- A circuit created, a confirmation queued, an outcome. -/
inductive Entry where
  | created (circuit : Nat)
  | queued (connection : Option Nat)
  | outcome (kind : Outcome) (connection : Option Nat)
  deriving DecidableEq

structure Reservation where
  queue : List Message
  log : List Entry

def Reservation.new : Reservation := ⟨[],[]⟩

def success : Int := 0
def missingRequestParameters : Int := -5
def reservationFail : Int := -7
def reservationTimeoutSec : Int := 300

/-- The parts of a reservation request that are looked at. -/
structure Request where
  (description sourceStp destStp replyTo : Option String)

structure Response where
  (success circuitId : Option Nat)
  error : Option String

/-- The answers of the three services. -/
structure Services where
  (known allowed : String → Bool)
  provision : Response

/-- How two ids compare as numbers. -/
def number (connection : Option Nat) : Nat := connection.getD 0

def truthy (text : Option String) : Bool := text.any fun t => t≠""∧t≠"0"

/-- `defined($a == $b)`: a comparison has a value. -/
def definedEq (a : Option Nat) (b : Nat) : Bool := (some (decide (a.getD 0=b))).isSome

def Response.created (res : Response) : Option Nat :=
  if res.success=some 1 then res.circuitId else none

namespace Reservation

variable (s : Reservation)

def push (m : Message) : Reservation := {s with queue := s.queue++[m]}

def failed (text : Option String) : Reservation×Option Int :=
  (s.push (.fail text),some reservationFail)

/-- The call of the provisioning service and what follows. -/
def provision (res : Response) (now : Int) : Reservation×Option Int :=
  let s := {s with log := s.log++res.created.toList.map Entry.created}
  if definedEq res.success 1 then
    ({s with
      queue := s.queue++[.success res.circuitId,.timeout res.circuitId (now+reservationTimeoutSec)]
      log := s.log++[.queued res.circuitId]},res.circuitId.map Int.ofNat)
  else s.failed (some ("Error creating reservation record: "++res.error.getD ""))

def reserve (r : Request) (w : Services) (now : Int) : Reservation×Option Int :=
  if !truthy r.description||!truthy r.sourceStp||!truthy r.destStp||!truthy r.replyTo then
    (s.push (.fail none),some missingRequestParameters)
  else
    let source := r.sourceStp.getD ""
    let dest := r.destStp.getD ""
    if !w.known source then s.failed (some "Unable to parse source STP")
    else if !w.known dest then s.failed (some "Unable to parse dest STP")
    else if !w.allowed source then
      s.failed (some ("Source STP "++source++" not allowed for NSI workgroup"))
    else if !w.allowed dest then
      s.failed (some ("destSTP "++dest++" is not allowed for NSI workgroup"))
    else s.provision w.provision now

def reserveAbort (connection : Option Nat) : Reservation×Option Int :=
  if connection=none then (s,some missingRequestParameters)
  else (s.push (.doAbort connection),some success)

end Reservation

def Message.timeoutOf : Message → Option Nat
  | .timeout connection _ => some (number connection)
  | _ => none

def Message.isTimeoutOf (x : Nat) (m : Message) : Bool := m.timeoutOf=some x

def Message.commitOf : Message → Option Nat
  | .commitConfirmed connection => some (number connection)
  | _ => none

namespace Reservation

variable (s : Reservation)

/-- Without a timeout it returns the new length. -/
def reserveCommit (connection : Option Nat) : Reservation×Option Int :=
  if s.queue.any (Message.isTimeoutOf (number connection)) then
    ({s with queue := s.queue.eraseP (Message.isTimeoutOf (number connection))++
      [.commitConfirmed connection]},some success)
  else (s.push (.commitFailed connection),some (s.queue.length+1))

end Reservation

/-- Whether the removal of a circuit gives results, and whether a client is made. -/
structure Answer where
  (removed client : Bool)

/-- The entries written, and whether the loop goes on or has died. -/
def Message.handle (a : Answer) : Message → List Entry×Bool
  | .success _ | .fail _ => ([],a.client)
  | .timeout connection _ => ([.outcome .timedOut connection],a.client)
  | .commitConfirmed connection =>
    (if a.client then [.outcome .commitConfirmed connection] else [],a.client)
  | .commitFailed _ => ([],a.client)
  | .doAbort connection =>
    if a.removed then ([.outcome .aborted connection],a.client) else ([],true)

def Message.later (now : Int) : Message → Bool
  | .timeout _ time => now<time
  | _ => false

/-- When it dies, what was put aside is lost. -/
def processLoop (now : Int) (answers : Nat → Answer) :
    Nat → List Message → List Message → List Entry → Reservation
  | _,[],aside,log => ⟨aside,log⟩
  | i,m::queue,aside,log =>
    if m.later now then processLoop now answers (i+1) queue (aside++[m]) log
    else
      let (entries,goesOn) := m.handle (answers i)
      if goesOn then processLoop now answers (i+1) queue aside (log++entries)
      else ⟨queue,log++entries⟩

variable (s : Reservation)

def Reservation.processQueue (now : Int) (answers : Nat → Answer) : Reservation :=
  processLoop now answers 0 s.queue [] s.log

inductive Event where
  | reserve (r : Request) (w : Services) (now : Int)
  | commit (connection : Option Nat)
  | abort (connection : Option Nat)
  | run (now : Int) (answers : Nat → Answer)

def Reservation.step : Event → Reservation
  | .reserve r w now => (s.reserve r w now).1
  | .commit connection => (s.reserveCommit connection).1
  | .abort connection => (s.reserveAbort connection).1
  | .run now answers => s.processQueue now answers

variable (log : List Entry)

/-- Confirmations are for circuits reported as created. -/
def Backed : Prop := ∀ connection,.queued connection∈log → ∃ y,connection=some y∧.created y∈log

def OneOutcome : Prop :=
  ∀ k k' c c',.outcome k c∈log → .outcome k' c'∈log → number c=number c' → k=k'

/-- The outcomes that a connection has are of this kind. -/
def OnlyOutcome (x : Nat) (kind : Outcome) : Prop := ∀ k c,.outcome k c∈log → number c=x → k=kind

def NoOutcome (x : Nat) : Prop := ∀ k c,.outcome k c∈log → number c≠x

/-- No timeout waits twice or for a connection being committed or with an outcome; only commits are
queued for one. -/
structure Settled (queue : List Message) (log : List Entry) : Prop where
  single : (queue.filterMap Message.timeoutOf).Nodup
  waiting : ∀ x∈queue.filterMap Message.timeoutOf,x∉queue.filterMap Message.commitOf∧NoOutcome log x
  committed : ∀ x∈queue.filterMap Message.commitOf,OnlyOutcome log x .commitConfirmed
  one : OneOutcome log

section Lemmas

variable {queue queue' aside : List Message} {log new : List Entry} {m : Message} {x : Nat}
  {kind : Outcome} {c : Option Nat}

theorem Settled.sublist (h : Settled queue log) (hsub : queue'.Sublist queue) :
    Settled queue' log where
  single := h.single.sublist (hsub.filterMap _)
  waiting := by
    intro x hx
    obtain ⟨hcommit,hnone⟩ := h.waiting x ((hsub.filterMap _).subset hx)
    exact ⟨fun hx => hcommit ((hsub.filterMap _).subset hx),hnone⟩
  committed := fun x hx => h.committed x ((hsub.filterMap _).subset hx)
  one := h.one

theorem mem_outcome_snoc {k k' : Outcome} {c' : Option Nat} :
    (.outcome k c : Entry)∈log++[.outcome k' c'] ↔ .outcome k c∈log∨k=k'∧c=c' := by
  simp

/-- An outcome can be added for a connection without a waiting timeout and an outcome of another
kind. -/
theorem Settled.outcome (h : Settled queue log)
    (htimeout : number c∉queue.filterMap Message.timeoutOf)
    (hcommit : number c∈queue.filterMap Message.commitOf → kind=.commitConfirmed)
    (honly : OnlyOutcome log (number c) kind) : Settled queue (log++[.outcome kind c]) where
  single := h.single
  waiting := by
    intro x hx
    obtain ⟨hcommit,hnone⟩ := h.waiting x hx
    refine ⟨hcommit,fun k c' hmem => ?_⟩
    rcases mem_outcome_snoc.mp hmem with hmem | ⟨-,rfl⟩
    · exact hnone k c' hmem
    · exact fun heq => htimeout (heq ▸ hx)
  committed := by
    intro x hx k c' hmem heq
    rcases mem_outcome_snoc.mp hmem with hmem | ⟨rfl,rfl⟩
    · exact h.committed x hx k c' hmem heq
    · exact hcommit (heq ▸ hx)
  one := by
    intro k k' a b ha hb heq
    rcases mem_outcome_snoc.mp ha with hold | ⟨rfl,rfl⟩
    · rcases mem_outcome_snoc.mp hb with hold' | ⟨rfl,rfl⟩
      · exact h.one k k' a b hold hold' heq
      · exact honly k a hold heq
    · rcases mem_outcome_snoc.mp hb with hold' | ⟨rfl,-⟩
      · exact (honly k' b hold' heq.symm).symm
      · rfl

/-- Nothing waits for the connection, and it has no outcome but aborts. -/
structure MayAbort (queue : List Message) (log : List Entry) (x : Nat) : Prop where
  timeout : x∉queue.filterMap Message.timeoutOf
  commit : x∉queue.filterMap Message.commitOf
  only : OnlyOutcome log x .aborted

variable {a : Answer} {answers : Nat → Answer}

theorem Settled.handle (h : Settled (aside++m::queue) log)
    (habort : ∀ c,m=.doAbort c → a.removed=true → MayAbort (aside++m::queue) log (number c)) :
    Settled (aside++queue) (log++(m.handle a).1) := by
  have hsub : (aside++queue).Sublist (aside++m::queue) :=
    (sublist_cons_self m queue).append_left aside
  have hrest : Settled (aside++queue) log := h.sublist hsub
  have hnothing : Settled (aside++queue) (log++[]) := by rwa [append_nil]
  cases m with
  | success c | fail text | commitFailed c => exact hnothing
  | timeout c time =>
    have hhead : (.timeout c time::queue).filterMap Message.timeoutOf=
        number c::queue.filterMap Message.timeoutOf := rfl
    have hsingle := h.single
    rw [filterMap_append,hhead,nodup_middle,nodup_cons,← filterMap_append] at hsingle
    have hmem : number c∈(aside++.timeout c time::queue).filterMap Message.timeoutOf := by
      simp [Message.timeoutOf]
    obtain ⟨hcommit,hnone⟩ := h.waiting _ hmem
    refine hrest.outcome hsingle.1 (fun hx => absurd ((hsub.filterMap _).subset hx) hcommit) ?_
    exact fun k c' hk heq => absurd heq (hnone k c' hk)
  | commitConfirmed c =>
    have hmem : number c∈(aside++.commitConfirmed c::queue).filterMap Message.commitOf := by
      simp [Message.commitOf]
    unfold Message.handle
    cases a.client with
    | false => exact hnothing
    | true =>
      refine hrest.outcome (fun hx => ?_) (fun _ => rfl) (h.committed _ hmem)
      exact (h.waiting _ ((hsub.filterMap _).subset hx)).1 hmem
  | doAbort c =>
    unfold Message.handle
    cases hremoved : a.removed with
    | false => exact hnothing
    | true =>
      obtain ⟨htimeout,hcommit,honly⟩ := habort c rfl hremoved
      refine hrest.outcome (fun hx => htimeout ((hsub.filterMap _).subset hx)) (fun hx => ?_) honly
      exact absurd ((hsub.filterMap _).subset hx) hcommit

/-- Only an abort gives another outcome to a connection for which nothing waits. -/
theorem mem_handle : ∀ e∈(m.handle a).1,∃ k c,e=.outcome k c∧
    (m.timeoutOf=some (number c)∨m.commitOf=some (number c)∨k=.aborted) := by
  intro e he
  cases m with
  | timeout c time => exact ⟨_,_,mem_singleton.mp he,.inl rfl⟩
  | commitConfirmed c =>
    unfold Message.handle at he
    dsimp only at he
    split_ifs at he
    · exact ⟨_,_,mem_singleton.mp he,.inr (.inl rfl)⟩
    · cases he
  | doAbort c =>
    unfold Message.handle at he
    dsimp only at he
    split_ifs at he
    · exact ⟨_,_,mem_singleton.mp he,.inr (.inr rfl)⟩
    · cases he
  | _ => cases he

theorem MayAbort.handle (h : MayAbort (aside++m::queue) log x) :
    MayAbort (aside++queue) (log++(m.handle a).1) x := by
  have hsub : (aside++queue).Sublist (aside++m::queue) :=
    (sublist_cons_self m queue).append_left aside
  have hm : m∈aside++m::queue := mem_append_right _ mem_cons_self
  refine ⟨fun hx => h.timeout ((hsub.filterMap _).subset hx),
    fun hx => h.commit ((hsub.filterMap _).subset hx),fun k c hmem heq => ?_⟩
  rcases mem_append.mp hmem with hmem | hmem
  · exact h.only k c hmem heq
  obtain ⟨_,_,hk,hkind⟩ := mem_handle _ hmem
  cases hk
  rcases hkind with htimeout | hcommit | haborted
  · exact absurd (mem_filterMap.mpr ⟨m,hm,heq ▸ htimeout⟩) h.timeout
  · exact absurd (mem_filterMap.mpr ⟨m,hm,heq ▸ hcommit⟩) h.commit
  · exact haborted

theorem settled_loop {now : Int} {i : Nat} (h : Settled (aside++queue) log)
    (haborts : ∀ j c,queue[j]?=some (.doAbort c) → (answers (i+j)).removed=true →
      MayAbort (aside++queue) log (number c)) :
    Settled (processLoop now answers i queue aside log).queue
      (processLoop now answers i queue aside log).log := by
  induction queue generalizing i aside log with
  | nil =>
    rwa [append_nil] at h
  | cons m queue ih =>
    have hnext (j : Nat) : i+1+j=i+(j+1) := by omega
    unfold processLoop
    split_ifs with hlater
    · apply ih
      · rwa [append_assoc]
      · intro j c hj hremoved
        rw [append_assoc]
        rw [hnext] at hremoved
        exact haborts (j+1) c (by simpa using hj) hremoved
    · have hhandled : Settled (aside++queue) (log++(m.handle (answers i)).1) := by
        apply h.handle
        intro c hm hremoved
        exact haborts 0 c (by simp [hm]) (by simpa using hremoved)
      dsimp only
      split_ifs
      · apply ih hhandled
        intro j c hj hremoved
        rw [hnext] at hremoved
        exact (haborts (j+1) c (by simpa using hj) hremoved).handle
      · exact hhandled.sublist (sublist_append_right aside queue)

theorem timeoutOf_erase (hsingle : (queue.filterMap Message.timeoutOf).Nodup) :
    x∉(queue.eraseP (Message.isTimeoutOf x)).filterMap Message.timeoutOf := by
  have herase : (queue.eraseP (Message.isTimeoutOf x)).filterMap Message.timeoutOf=
      (queue.filterMap Message.timeoutOf).erase x := by
    rw [erase_eq_eraseP,eraseP_filterMap]
    congr 2
    funext m
    rw [Bool.eq_iff_iff]
    cases hm : m.timeoutOf <;> simp [Message.isTimeoutOf,hm,@eq_comm _ x]
  rw [herase]
  exact hsingle.not_mem_erase

theorem Settled.commit (h : Settled queue log)
    (hfound : number c∈queue.filterMap Message.timeoutOf) :
    Settled (queue.eraseP (Message.isTimeoutOf (number c))++[.commitConfirmed c]) log := by
  have hsub : (queue.eraseP (Message.isTimeoutOf (number c))).Sublist queue := eraseP_sublist
  have htimeouts : (queue.eraseP (Message.isTimeoutOf (number c))++
      [Message.commitConfirmed c]).filterMap Message.timeoutOf=
        (queue.eraseP (Message.isTimeoutOf (number c))).filterMap Message.timeoutOf := by
    rw [filterMap_append]
    exact append_nil _
  have hcommits {x : Nat} (hx : x∈(queue.eraseP (Message.isTimeoutOf (number c))++
      [Message.commitConfirmed c]).filterMap Message.commitOf) :
      x∈queue.filterMap Message.commitOf∨x=number c := by
    rw [filterMap_append] at hx
    rcases mem_append.mp hx with hx | hx
    · exact .inl ((hsub.filterMap _).subset hx)
    · exact .inr (mem_singleton.mp hx)
  obtain ⟨-,hnone⟩ := h.waiting _ hfound
  refine ⟨?_,?_,?_,h.one⟩
  · rw [htimeouts]
    exact h.single.sublist (hsub.filterMap _)
  · intro x hx
    rw [htimeouts] at hx
    obtain ⟨hcommit,hno⟩ := h.waiting x ((hsub.filterMap _).subset hx)
    refine ⟨fun hmem => ?_,hno⟩
    rcases hcommits hmem with hmem | rfl
    · exact hcommit hmem
    · exact timeoutOf_erase h.single hx
  · intro x hx
    rcases hcommits hx with hx | rfl
    · exact h.committed x hx
    · exact fun k c' hk heq => absurd heq (hnone k c' hk)

theorem Settled.push (h : Settled queue log) (htimeout : m.timeoutOf=none) (hcommit : m.commitOf=none) :
    Settled (queue++[m]) log := by
  have htimeouts : (queue++[m]).filterMap Message.timeoutOf=queue.filterMap Message.timeoutOf := by
    simp [htimeout]
  have hcommits : (queue++[m]).filterMap Message.commitOf=queue.filterMap Message.commitOf := by
    simp [hcommit]
  refine ⟨?_,?_,?_,h.one⟩
  · rw [htimeouts]
    exact h.single
  · rw [htimeouts,hcommits]
    exact h.waiting
  · rw [hcommits]
    exact h.committed

/-- Nothing waits for the connection, and it has no outcome. -/
structure Fresh (queue : List Message) (log : List Entry) (x : Nat) : Prop where
  timeout : x∉queue.filterMap Message.timeoutOf
  commit : x∉queue.filterMap Message.commitOf
  outcome : NoOutcome log x

theorem Settled.reserve (h : Settled queue log) (hfresh : Fresh queue log (number c)) (time : Int) :
    Settled (queue++[.success c,.timeout c time]) log := by
  have htimeouts : (queue++[Message.success c,.timeout c time]).filterMap Message.timeoutOf=
      queue.filterMap Message.timeoutOf++[number c] := filterMap_append
  have hcommits : (queue++[Message.success c,.timeout c time]).filterMap Message.commitOf=
      queue.filterMap Message.commitOf := by
    rw [filterMap_append]
    exact append_nil _
  refine ⟨?_,?_,?_,h.one⟩
  · rw [htimeouts,← concat_eq_append]
    exact h.single.concat hfresh.timeout
  · rw [htimeouts,hcommits]
    exact forall_mem_snoc h.waiting ⟨hfresh.commit,hfresh.outcome⟩
  · rw [hcommits]
    exact h.committed

theorem Settled.record (h : Settled queue log) (hnew : ∀ k c,.outcome k c∉new) :
    Settled queue (log++new) := by
  have hold {k : Outcome} {c : Option Nat} (hmem : .outcome k c∈log++new) : .outcome k c∈log :=
    (mem_append.mp hmem).resolve_right (hnew k c)
  refine ⟨h.single,?_,?_,?_⟩
  · intro x hx
    obtain ⟨hcommit,hnone⟩ := h.waiting x hx
    exact ⟨hcommit,fun k c hk => hnone k c (hold hk)⟩
  · exact fun x hx k c hk => h.committed x hx k c (hold hk)
  · exact fun k k' c c' hk hk' => h.one k k' c c' (hold hk) (hold hk')

theorem Backed.outcomes (h : Backed log) (hnew : ∀ e∈new,∃ k c,e=.outcome k c) :
    Backed (log++new) := by
  intro connection hmem
  rcases mem_append.mp hmem with hmem | hmem
  · obtain ⟨y,hy,hcreated⟩ := h connection hmem
    exact ⟨y,hy,mem_append_left _ hcreated⟩
  · obtain ⟨k,c,heq⟩ := hnew _ hmem
    cases heq

theorem backed_loop {now : Int} {i : Nat} (h : Backed log) :
    Backed (processLoop now answers i queue aside log).log := by
  induction queue generalizing i aside log with
  | nil => exact h
  | cons m queue ih =>
    have hhandled : Backed (log++(m.handle (answers i)).1) := by
      apply h.outcomes
      intro e he
      obtain ⟨k,c,hk,-⟩ := mem_handle e he
      exact ⟨k,c,hk⟩
    unfold processLoop
    dsimp only
    split_ifs
    · exact ih h
    · exact ih hhandled
    · exact hhandled

end Lemmas

/-- The request gets as far as the provisioning service. -/
def accepted (r : Request) (w : Services) : Bool :=
  truthy r.description&&truthy r.sourceStp&&truthy r.destStp&&truthy r.replyTo&&
    w.known (r.sourceStp.getD "")&&w.known (r.destStp.getD "")&&
    w.allowed (r.sourceStp.getD "")&&w.allowed (r.destStp.getD "")

theorem reserve_cases (r : Request) (w : Services) (now : Int) :
    accepted r w=true∧s.reserve r w now=s.provision w.provision now∨
      ∃ text,(s.reserve r w now).1=s.push (.fail text) := by
  unfold Reservation.reserve
  dsimp only
  split_ifs with hmissing hsource hdest hsourceOk hdestOk
  any_goals exact .inr ⟨_,rfl⟩
  refine .inl ⟨?_,rfl⟩
  simp only [Bool.or_eq_true,Bool.not_eq_true',not_or,Bool.not_eq_false] at *
  simp [accepted,hmissing,hsource,hdest,hsourceOk,hdestOk]

/-- A reservation that gets to the provisioning service is created, under a new id. An abort that
removes the circuit is for a connection for which nothing waits, without another outcome. -/
def StepOk : Event → Prop
  | .reserve r w _ => accepted r w=true → ∃ y,w.provision.success=some 1∧
      w.provision.circuitId=some y∧Fresh s.queue s.log y
  | .run _ answers => ∀ i c,s.queue[i]?=some (.doAbort c) → (answers i).removed=true →
      MayAbort s.queue s.log (number c)
  | _ => True

structure Sound (s : Reservation) : Prop where
  backed : Backed s.log
  settled : Settled s.queue s.log

variable {s : Reservation}

theorem Sound.push {m : Message} (h : Sound s) (htimeout : m.timeoutOf=none)
    (hcommit : m.commitOf=none) : Sound (s.push m) := ⟨h.backed,h.settled.push htimeout hcommit⟩

theorem Sound.provision {res : Response} {now : Int} {y : Nat} (h : Sound s)
    (hsuccess : res.success=some 1) (hid : res.circuitId=some y) (hfresh : Fresh s.queue s.log y) :
    Sound (s.provision res now).1 := by
  have hcreated : res.created=some y := by rw [Response.created,if_pos hsuccess,hid]
  have hresult : (s.provision res now).1=
      ⟨s.queue++[.success (some y),.timeout (some y) (now+reservationTimeoutSec)],
        s.log++[.created y]++[.queued (some y)]⟩ := by
    rw [Reservation.provision,hcreated,hid]
    rfl
  rw [hresult]
  refine ⟨?_,?_⟩
  · intro connection hmem
    simp only [append_assoc,mem_append,mem_cons,not_mem_nil,or_false,singleton_append] at hmem ⊢
    rcases hmem with hmem | hmem | hmem
    · obtain ⟨x,hx,hold⟩ := h.backed connection hmem
      exact ⟨x,hx,.inl hold⟩
    · cases hmem
    · cases hmem
      exact ⟨y,rfl,.inr (.inl rfl)⟩
  · have hreserved := h.settled.reserve (c := some y) hfresh (now+reservationTimeoutSec)
    exact (hreserved.record (by simp)).record (by simp)

theorem step_sound {e : Event} (h : Sound s) (hok : StepOk s e) : Sound (s.step e) := by
  cases e with
  | reserve r w now =>
    change Sound (s.reserve r w now).1
    rcases reserve_cases s r w now with ⟨haccepted,hprovision⟩ | ⟨text,hfail⟩
    · obtain ⟨y,hsuccess,hid,hfresh⟩ := hok haccepted
      rw [hprovision]
      exact h.provision hsuccess hid hfresh
    · rw [hfail]
      exact h.push rfl rfl
  | commit c =>
    change Sound (s.reserveCommit c).1
    unfold Reservation.reserveCommit
    split_ifs with hfound
    · obtain ⟨m,hm,htimeout⟩ := any_eq_true.mp hfound
      have hmem : number c∈s.queue.filterMap Message.timeoutOf :=
        mem_filterMap.mpr ⟨m,hm,of_decide_eq_true htimeout⟩
      exact ⟨h.backed,h.settled.commit hmem⟩
    · exact h.push rfl rfl
  | abort c =>
    change Sound (s.reserveAbort c).1
    unfold Reservation.reserveAbort
    split_ifs
    · exact h
    · exact h.push rfl rfl
  | run now answers =>
    refine ⟨backed_loop h.backed,settled_loop h.settled fun j c hj hremoved => ?_⟩
    rw [Nat.zero_add] at hremoved
    exact hok j c hj hremoved

/-- Confirmations are only for created circuits, and no connection gets outcomes of two kinds. -/
theorem run_outcomes (events : List Event) (hok : StepsOk Reservation.step StepOk Reservation.new events) :
    Always Reservation.step (fun s => Backed s.log∧OneOutcome s.log) Reservation.new events := by
  have hnew : Sound Reservation.new := by
    refine ⟨fun c hc => ?_,⟨nodup_nil,by simp [Reservation.new],by simp [Reservation.new],?_⟩⟩
    · cases hc
    · intro k k' c c' hk
      cases hk
  exact (always_of_step (fun _ _ => step_sound) hnew hok).mono fun _ h => ⟨h.backed,h.settled.one⟩

def plainRequest : Request := ⟨some "link",some "a",some "b",some "requester"⟩

def answering (res : Response) : Services := ⟨fun _ => true,fun _ => true,res⟩

def logAfter (events : List Event) : List Entry := (events.foldl Reservation.step Reservation.new).log

def refused : List Event := [.reserve plainRequest (answering ⟨none,none,some "no path"⟩) 0]

/-- A reservation is aborted, and its circuit is removed. -/
def abortedFive : List Event :=
  [.reserve plainRequest (answering ⟨some 1,some 5,none⟩) 0,.abort (some 5),
    .run 10 fun _ => ⟨true,true⟩]

/-- A refused reservation is confirmed, and an aborted connection is commit-confirmed if it is
committed then, else timed out. -/
theorem refused_confirmed : ¬Backed (logAfter refused)∧
    ¬OneOutcome (logAfter (abortedFive++[.commit (some 5),.run 20 fun _ => ⟨true,true⟩]))∧
    ¬OneOutcome (logAfter (abortedFive++[.run 400 fun _ => ⟨true,true⟩])) := by
  have hrefused : .queued none∈logAfter refused := by decide
  have hcommitted : .outcome .aborted (some 5)∈
        logAfter (abortedFive++[.commit (some 5),.run 20 fun _ => ⟨true,true⟩])∧
      .outcome .commitConfirmed (some 5)∈
        logAfter (abortedFive++[.commit (some 5),.run 20 fun _ => ⟨true,true⟩]) := by decide
  have htimedOut : .outcome .aborted (some 5)∈
        logAfter (abortedFive++[.run 400 fun _ => ⟨true,true⟩])∧.outcome .timedOut (some 5)∈
        logAfter (abortedFive++[.run 400 fun _ => ⟨true,true⟩]) := by decide
  refine ⟨fun h => ?_,fun h => ?_,fun h => ?_⟩
  · obtain ⟨y,hy,-⟩ := h none hrefused
    cases hy
  · cases h _ _ _ _ hcommitted.1 hcommitted.2 rfl
  · cases h _ _ _ _ htimedOut.1 htimedOut.2 rfl

/-- One is committed and the other times out. -/
def twoReserved : List Event := [.reserve plainRequest (answering ⟨some 1,some 5,none⟩) 0,
    .reserve plainRequest (answering ⟨some 1,some 6,none⟩) 0,
    .commit (some 5),.run 400 fun _ => ⟨true,true⟩]

theorem twoReserved_outcomes : StepsOk Reservation.step StepOk Reservation.new twoReserved∧
    logAfter twoReserved=[.created 5,.queued (some 5),.created 6,.queued (some 6),
      .outcome .timedOut (some 6),.outcome .commitConfirmed (some 5)]∧
    Always Reservation.step (fun s => Backed s.log∧OneOutcome s.log) Reservation.new twoReserved := by
  have hok : StepsOk Reservation.step StepOk Reservation.new twoReserved := by
    refine ⟨fun _ => ⟨5,rfl,rfl,?_⟩,fun _ => ⟨6,rfl,rfl,?_⟩,trivial,?_,trivial⟩
    · exact ⟨by decide,by decide,fun k c hmem => by cases hmem⟩
    · refine ⟨by decide,by decide,fun k c hmem => ?_⟩
      have hnone : .outcome k c∈([.created 5,.queued (some 5)] : List Entry) := hmem
      simp at hnone
    · intro i c hi
      have hmem : .doAbort c∈([.success (some 5),.success (some 6),.timeout (some 6) 300,
        .commitConfirmed (some 5)] : List Message) := mem_of_getElem? hi
      simp at hmem
  exact ⟨hok,by decide,run_outcomes twoReserved hok⟩

end OESS.NSI
