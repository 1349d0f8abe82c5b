import Mathlib.Data.List.Dedup
import OESS.Database.Tables
import OESS.Framework.CondVar

namespace OESS.VlanCalls

open CondVar Option
open Database (CircuitType CircuitState)
open List

inductive Status where
  | failure | success | waiting | unknown
  deriving DecidableEq

/-- A reply has an error, or the status of its results. -/
structure Reply where
  (error errorText : Option String)
  status : Option Status

def Reply.Succeeded (r : Reply) : Prop := r.error=none∧r.status=some .success
  deriving Decidable

/-- A circuit after an update of its details, its state a moment later, and the datapaths of its
flows. -/
structure Circuit where
  type : CircuitType
  (state detailsState : CircuitState)
  (flows endpointFlows : List Nat)

/-- Messages, answers, the two callbacks, and that Perl dies. -/
inductive Observation where
  | sent (dpid : Nat)
  | reply (dpid : Nat)
  | removal (dpid : Nat)
  | success (status : Option Status)
  | error (text : String)
  | died
  deriving DecidableEq

namespace Observation

def isCallback : Observation → Bool
  | .success _ | .error _ => true
  | _ => false

def isReply : Observation → Bool
  | .reply _ => true
  | _ => false

end Observation

open Observation

structure Progress where
  err : String
  trace : List Observation

def Progress.see (s : Progress) (os : List Observation) : Progress := {s with trace := s.trace++os}

def noteError (err : String) (r : Reply) : String :=
  match r.error with
  | some e => err++e++"\n"
  | none => err

def noteReply (r : Nat×Reply) (s : Progress) : Progress :=
  ⟨noteError s.err r.2,s.trace++[.reply r.1]⟩

/-- Inside the group of a condition variable, which replies end. -/
def exchange (done : Progress → Progress) (early : List Observation) (dpids : List Nat)
    (replies : List (Nat×Reply)) : List Observation :=
  (Group.run done noteReply (fun _ => true) dpids.length ⟨"",early++dpids.map sent⟩
    replies).data.trace

/-- None of the early answers ends the method. -/
def addVlanEarly (c : Circuit) : List Observation :=
  (if c.type=.mpls then [success (some .failure)] else [])++
  (if c.state=.decom then [success (some .failure)] else [])++
  (if c.detailsState=.scheduled then [success (some .success)] else [])

/-- Success is called after the error callback as well. -/
def addVlanDone (force : Bool) (dpids : List Nat) (s : Progress) : Progress :=
  ((if s.err≠""∧force=false then s.see (dpids.map removal++[error s.err]) else s).see
    [success (some .success)])

def addVlan (force : Bool) (c : Option Circuit) (replies : List (Nat×Reply)) : List Observation :=
  match c with
  | none => [success (some .failure),died]
  | some c => exchange (addVlanDone force c.flows.dedup) (addVlanEarly c) c.flows.dedup replies

def deleteVlanDone (s : Progress) : Progress :=
  if s.err≠"" then s.see [error s.err] else s.see [success (some .success)]

def deleteVlan (id : Nat) (c : Option Circuit) (replies : List (Nat×Reply)) : List Observation :=
  match c with
  | none => [error ("Couldn't get circuit "++toString id++".")]
  | some c =>
    if c.state=.decom then [error ("Circuit "++toString id++" was already decommissioned.")]
    else exchange deleteVlanDone [] c.flows.dedup replies

/-- An error counts only if it comes with a text. -/
def Reply.refuses (r : Reply) : Bool := r.error.isSome && r.errorText.isSome

/-- The callbacks of the replies in turn, with the number of switches left. -/
def shares : Int → List (Nat×Reply) → List Observation
  | _,[] => []
  | share,r::rs =>
    if r.2.refuses=true then reply r.1::error (r.2.error.getD "")::shares share rs
    else if share-1=0 then reply r.1::success r.2.status::shares (share-1) rs
    else reply r.1::shares (share-1) rs

/-- Without a circuit `next` leaves the method. -/
def changeVlanPath (c : Option Circuit) (replies : List (Nat×Reply)) : List Observation :=
  match c with
  | none => [died]
  | some c =>
    c.endpointFlows.dedup.map sent++shares c.endpointFlows.dedup.length replies

inductive Method where
  | addVlan (force : Bool)
  | deleteVlan
  | changeVlanPath

def switches : Method → Option Circuit → List Nat
  | _,none => []
  | .addVlan _,some c => c.flows.dedup
  | .deleteVlan,some c => if c.state=.decom then [] else c.flows.dedup
  | .changeVlanPath,some c => c.endpointFlows.dedup

/-- Replies as they arrive: every message is answered once. -/
structure Call where
  method : Method
  id : Nat
  circuit : Option Circuit
  replies : List (Nat×Reply)
  answered : (replies.map Prod.fst).Perm (switches method circuit)

def Call.trace (x : Call) : List Observation :=
  match x.method with
  | .addVlan force => VlanCalls.addVlan force x.circuit x.replies
  | .deleteVlan => VlanCalls.deleteVlan x.id x.circuit x.replies
  | .changeVlanPath => VlanCalls.changeVlanPath x.circuit x.replies

/-- One callback, once and after the last reply, for success only if all switches have succeeded. -/
def Proper (trace : List Observation) (replies : List (Nat×Reply)) : Prop :=
  ∃ before callback after,trace=before++callback::after∧callback.isCallback=true∧
    (∀ o∈before,o.isCallback=false)∧(∀ o∈after,o.isCallback=false∧o.isReply=false)∧
    ((∃ status,callback=success status) → ∀ r∈replies,r.2.Succeeded)

variable {replies : List (Nat×Reply)}

theorem Proper.at {before after : List Observation} {o : Observation}
    (h : Proper (before++o::after) replies) (ho : o.isCallback=true) :
    (∀ q∈before,q.isCallback=false)∧(∀ q∈after,q.isCallback=false∧q.isReply=false)∧
      ((∃ status,o=success status) → ∀ r∈replies,r.2.Succeeded) := by
  obtain ⟨b,c,a,heq,hc,hb,ha,hs⟩ := h
  have hbefore : o∉b := fun hin => by simp [hb o hin] at ho
  have hafter : o∉a := fun hin => by simp [ha o hin] at ho
  obtain ⟨rfl,rfl,rfl⟩ := (append_cons_inj_of_notMem hbefore hafter).mp heq.symm
  exact ⟨hb,ha,hs⟩

theorem Proper.has_callback {trace : List Observation} (h : Proper trace replies) :
    ∃ o∈trace,o.isCallback=true := by
  obtain ⟨b,c,a,rfl,hc,-⟩ := h
  exact ⟨c,by simp,hc⟩

theorem proper_error (text : String) : Proper [error text] replies := by
  refine ⟨[],error text,[],rfl,rfl,by simp,by simp,?_⟩
  rintro ⟨_,⟨⟩⟩

theorem proper_snoc {before : List Observation} {o : Observation} (ho : o.isCallback=true)
    (hb : ∀ q∈before,q.isCallback=false)
    (hs : (∃ status,o=success status) → ∀ r∈replies,r.2.Succeeded) : Proper (before++[o]) replies :=
  ⟨before,o,[],rfl,ho,hb,fun _ hq => absurd hq not_mem_nil,hs⟩

theorem exchanged_quiet (dpids : List Nat) (rs : List (Nat×Reply)) :
    ∀ o∈dpids.map sent++rs.map fun r => reply r.1,o.isCallback=false := by
  intro o ho
  rcases mem_append.mp ho with ho | ho
  · obtain ⟨d,-,rfl⟩ := mem_map.mp ho
    rfl
  · obtain ⟨r,-,rfl⟩ := mem_map.mp ho
    rfl

variable {done : Progress → Progress}

def errText (replies : List (Nat×Reply)) (err : String) : String :=
  replies.foldl (fun err r => noteError err r.2) err

theorem errText_cons (r : Nat×Reply) (rs : List (Nat×Reply)) (err : String) :
    errText (r::rs) err=errText rs (noteError err r.2) := rfl

theorem foldl_noteReply (replies : List (Nat×Reply)) (s : Progress) :
    replies.foldl (fun s r => noteReply r s) s=
      ⟨errText replies s.err,s.trace++replies.map fun r => reply r.1⟩ := by
  induction replies generalizing s with
  | nil => simp [errText]
  | cons r rs ih =>
    rw [foldl_cons,ih,errText_cons]
    simp [noteReply]

theorem exchange_eq {dpids : List Nat} (early : List Observation)
    (h : (replies.map Prod.fst).Perm dpids) : exchange done early dpids replies=
      (done ⟨errText replies "",early++dpids.map sent++replies.map fun r => reply r.1⟩).trace := by
  have hlen : dpids.length=replies.length := by rw [← h.length_eq,length_map]
  rw [exchange,hlen,run_all replies _ (fun _ _ => rfl),foldl_noteReply]

theorem newline_ne (s : String) : s++"\n"≠"" := by
  intro h
  have := congrArg String.length h
  simp at this

theorem errText_ne {err : String} (h : err≠"") (replies : List (Nat×Reply)) :
    errText replies err≠"" := by
  induction replies generalizing err with
  | nil => exact h
  | cons r rs ih =>
    rw [errText_cons]
    apply ih
    unfold noteError
    cases r.2.error with
    | none => exact h
    | some e => exact newline_ne _

theorem errText_eq_empty (replies : List (Nat×Reply)) :
    errText replies ""="" ↔ ∀ r∈replies,r.2.error=none := by
  induction replies with
  | nil => simp [errText]
  | cons r rs ih =>
    rw [errText_cons,forall_mem_cons]
    cases hr : r.2.error with
    | none =>
      have hkept : noteError "" r.2="" := by simp [noteError,hr]
      rw [hkept,ih]
      simp
    | some e =>
      have hne : noteError "" r.2≠"" := by
        simp only [noteError,hr]
        exact newline_ne _
      simp [errText_ne hne rs]

variable {c : Option Circuit}

theorem addVlan_proper_iff {force : Bool}
    (h : (replies.map Prod.fst).Perm (switches (.addVlan force) c)) :
    Proper (addVlan force c replies) replies ↔
      ∀ c'∈c,c'.type≠.mpls∧c'.state≠.decom∧c'.detailsState≠.scheduled∧
        ∀ r∈replies,r.2.Succeeded := by
  cases c with
  | none =>
    have hnil : replies=[] := by simpa [switches] using h
    subst hnil
    refine iff_of_true ⟨[],success (some .failure),[died],rfl,rfl,?_,?_,?_⟩ (by simp)
    · simp
    · simp [isCallback,isReply]
    · simp
  | some c =>
    have h' : (replies.map Prod.fst).Perm c.flows.dedup := h
    simp only [addVlan,exchange_eq (addVlanEarly c) h',mem_some_iff,forall_eq']
    set seen := addVlanEarly c++c.flows.dedup.map sent++replies.map fun r => reply r.1
    constructor
    · intro hp
      -- the success callback comes last, so there is no other one
      obtain ⟨hquiet,-,hsucc⟩ := hp.at rfl
      have hseen : ∀ o∈addVlanEarly c,o.isCallback=false := by
        intro o ho
        apply hquiet
        have : o∈seen := by simp [seen,ho]
        split_ifs
        · exact mem_append_left _ this
        · exact this
      refine ⟨?_,?_,?_,hsucc ⟨_,rfl⟩⟩
      · intro ht
        exact absurd (hseen (success (some .failure)) (by simp [addVlanEarly,ht])) (by decide)
      · intro ht
        exact absurd (hseen (success (some .failure)) (by simp [addVlanEarly,ht])) (by decide)
      · intro ht
        exact absurd (hseen (success (some .success)) (by simp [addVlanEarly,ht])) (by decide)
    · rintro ⟨htype,hstate,hdetails,hall⟩
      have herr : errText replies ""="" := by
        rw [errText_eq_empty]
        intro r hr
        exact (hall r hr).1
      have hearly : addVlanEarly c=[] := by simp [addVlanEarly,htype,hstate,hdetails]
      have htrace : (addVlanDone force c.flows.dedup ⟨errText replies "",seen⟩).trace=
          seen++[success (some .success)] := by
        simp [addVlanDone,herr,Progress.see]
      rw [htrace]
      apply proper_snoc rfl
      · intro o ho
        simp only [seen,hearly] at ho
        exact exchanged_quiet _ _ o ho
      · intro _
        exact hall

theorem deleteVlan_proper_iff {id : Nat}
    (h : (replies.map Prod.fst).Perm (switches .deleteVlan c)) :
    Proper (deleteVlan id c replies) replies ↔
      ∀ c'∈c,c'.state≠.decom → (∀ r∈replies,r.2.error=none) → ∀ r∈replies,r.2.Succeeded := by
  cases c with
  | none =>
    exact iff_of_true (proper_error _) (by simp)
  | some c =>
    simp only [deleteVlan,mem_some_iff,forall_eq']
    by_cases hd : c.state=.decom
    · rw [if_pos hd]
      exact iff_of_true (proper_error _) (by simp [hd])
    have h' : (replies.map Prod.fst).Perm c.flows.dedup := by simpa [switches,hd] using h
    rw [if_neg hd,exchange_eq [] h']
    set seen := []++c.flows.dedup.map sent++replies.map fun r => reply r.1
    have hseen : ∀ o∈seen,o.isCallback=false := exchanged_quiet _ _
    by_cases herr : errText replies ""=""
    · have hnone := (errText_eq_empty replies).mp herr
      have htrace : (deleteVlanDone ⟨errText replies "",seen⟩).trace=
          seen++[success (some .success)] := by
        simp [deleteVlanDone,herr,Progress.see]
      rw [htrace]
      constructor
      · intro hp _ _
        exact (hp.at rfl).2.2 ⟨_,rfl⟩
      · intro hall
        exact proper_snoc rfl hseen fun _ => hall hd hnone
    · have htrace : (deleteVlanDone ⟨errText replies "",seen⟩).trace=
          seen++[error (errText replies "")] := by
        simp [deleteVlanDone,herr,Progress.see]
      rw [htrace]
      refine iff_of_true ?_ ?_
      · apply proper_snoc rfl hseen
        rintro ⟨_,⟨⟩⟩
      · intro _ hnone
        exact absurd ((errText_eq_empty replies).mpr hnone) herr

variable {init : List (Nat×Reply)}

theorem shares_append (rs : List (Nat×Reply)) {share : Int} (hs : init.length < share)
    (h : ∀ r∈init,r.2.refuses=false) :
    shares share (init++rs)=(init.map fun r => reply r.1)++shares (share-init.length) rs := by
  induction init generalizing share with
  | nil => simp
  | cons r init ih =>
    have hr := h r (by simp)
    rw [length_cons] at hs
    have hne : ¬(share-1=0) := by omega
    rw [cons_append,shares,if_neg (by simp [hr]),if_neg hne,
      ih (by omega) (fun q hq => h q (mem_cons_of_mem _ hq)),length_cons]
    congr 3
    omega

def lastCallback (r : Reply) : Observation :=
  if r.refuses=true then error (r.error.getD "") else success r.status

theorem shares_snoc (r : Nat×Reply) (h : ∀ q∈init,q.2.refuses=false) :
    shares ((init++[r]).length : Int) (init++[r])=
      (init.map fun r => reply r.1)++[reply r.1,lastCallback r.2] := by
  have hlen : ((init++[r]).length : Int)=init.length+1 := by simp
  have hleft : (init.length : Int)+1-init.length=1 := by omega
  rw [hlen,shares_append [r] (by omega) h,hleft,shares]
  unfold lastCallback
  by_cases hr : r.2.refuses=true
  · rw [if_pos hr,if_pos hr,shares]
  · rw [if_neg hr,if_neg hr,if_pos (by decide),shares]

theorem shares_refused (init rs : List (Nat×Reply)) {r : Nat×Reply} (hr : r.2.refuses=true)
    (share : Int) : ∃ before share',shares share (init++r::rs)=
      before++error (r.2.error.getD "")::shares share' rs := by
  induction init generalizing share with
  | nil =>
    refine ⟨[reply r.1],share,?_⟩
    rw [nil_append,shares,if_pos hr]
    rfl
  | cons q init ih =>
    rw [cons_append,shares]
    split_ifs
    · obtain ⟨b,s,h⟩ := ih share
      exact ⟨reply q.1::error (q.2.error.getD "")::b,s,by rw [h]; rfl⟩
    · obtain ⟨b,s,h⟩ := ih (share-1)
      exact ⟨reply q.1::success q.2.status::b,s,by rw [h]; rfl⟩
    · obtain ⟨b,s,h⟩ := ih (share-1)
      exact ⟨reply q.1::b,s,by rw [h]; rfl⟩

theorem reply_mem_shares {rs : List (Nat×Reply)} {r : Nat×Reply} (hr : r∈rs) (share : Int) :
    reply r.1∈shares share rs := by
  induction rs generalizing share with
  | nil => cases hr
  | cons q rs ih =>
    rw [shares]
    obtain rfl | hr := mem_cons.mp hr
    · split_ifs <;> simp
    split_ifs
    · exact mem_cons_of_mem _ (mem_cons_of_mem _ (ih hr share))
    · exact mem_cons_of_mem _ (mem_cons_of_mem _ (ih hr _))
    · exact mem_cons_of_mem _ (ih hr _)

/-- All succeed, or only the last reply refuses. -/
def LastOnly (replies : List (Nat×Reply)) : Prop := (∀ r∈replies,r.2.Succeeded)∨
    ∃ init r,replies=init++[r]∧r.2.refuses=true∧∀ q∈init,q.2.refuses=false

theorem refuses_of_succeeded {r : Reply} (h : r.Succeeded) : r.refuses=false := by
  simp [Reply.refuses,h.1]

theorem changeVlanPath_proper_iff (h : (replies.map Prod.fst).Perm (switches .changeVlanPath c)) :
    Proper (changeVlanPath c replies) replies ↔ ∃ c'∈c,c'.endpointFlows≠[]∧LastOnly replies := by
  cases c with
  | none =>
    refine iff_of_false ?_ (by simp)
    intro hp
    obtain ⟨o,ho,hc⟩ := hp.has_callback
    rw [mem_singleton.mp ho] at hc
    cases hc
  | some c =>
    have h' : (replies.map Prod.fst).Perm c.endpointFlows.dedup := h
    have hlen : c.endpointFlows.dedup.length=replies.length := by rw [← h'.length_eq,length_map]
    simp only [changeVlanPath,hlen,mem_some_iff,exists_eq_left']
    set msgs := c.endpointFlows.dedup.map sent
    obtain rfl | ⟨init,r,rfl⟩ := replies.eq_nil_or_concat'
    · -- no message, no reply, no callback
      have hdedup : c.endpointFlows.dedup=[] := eq_nil_of_length_eq_zero hlen
      have hflows : c.endpointFlows=[] := by simpa using hdedup
      refine iff_of_false ?_ (fun hn => hn.1 hflows)
      intro hp
      obtain ⟨o,ho,hc⟩ := hp.has_callback
      simp only [msgs,hdedup] at ho
      cases ho
    · have hflows : c.endpointFlows≠[] := by
        intro hn
        rw [hn] at hlen
        simp at hlen
      have htrace (o : Observation) : msgs++((init.map fun r => reply r.1)++[reply r.1,o])=
          (msgs++((init.map fun r => reply r.1)++[reply r.1]))++[o] := by simp
      have hquiet := exchanged_quiet c.endpointFlows.dedup (init++[r])
      rw [map_append] at hquiet
      constructor
      · intro hp
        refine ⟨hflows,?_⟩
        have hinit : ∀ q∈init,q.2.refuses=false := by
          intro q hq
          by_contra hn
          obtain ⟨a,b,rfl⟩ := append_of_mem hq
          rw [append_assoc,cons_append] at hp
          obtain ⟨before,share,heq⟩ := shares_refused a (b++[r])
            (by simpa using hn) ((a++q::(b++[r])).length : Int)
          rw [heq,← append_assoc] at hp
          have hafter := (hp.at rfl).2.1 (reply r.1) (reply_mem_shares (by simp) share)
          cases hafter.2
        rw [shares_snoc r hinit,htrace] at hp
        by_cases hr : r.2.refuses=true
        · exact .inr ⟨init,r,rfl,hr,hinit⟩
        · have hcall : lastCallback r.2=success r.2.status := if_neg hr
          rw [hcall] at hp
          exact .inl ((hp.at rfl).2.2 ⟨_,rfl⟩)
      · rintro ⟨-,hlast⟩
        have hinit : ∀ q∈init,q.2.refuses=false := by
          intro q hq
          obtain hall | ⟨init',r',heq,-,hq'⟩ := hlast
          · exact refuses_of_succeeded (hall q (by simp [hq]))
          · obtain ⟨rfl,-⟩ := append_inj' heq rfl
            exact hq' q hq
        rw [shares_snoc r hinit,htrace]
        by_cases hr : r.2.refuses=true
        · have hcall : lastCallback r.2=error (r.2.error.getD "") := if_pos hr
          rw [hcall]
          apply proper_snoc rfl hquiet
          rintro ⟨_,⟨⟩⟩
        · have hcall : lastCallback r.2=success r.2.status := if_neg hr
          rw [hcall]
          apply proper_snoc rfl hquiet
          intro _
          obtain hall | ⟨init',r',heq,hr',-⟩ := hlast
          · exact hall
          · obtain ⟨-,heq⟩ := append_inj' heq rfl
            cases heq
            exact absurd hr' hr

namespace Call

def Sound (x : Call) : Prop :=
  match x.method with
  | .addVlan _ => ∀ c∈x.circuit,c.type≠.mpls∧c.state≠.decom∧c.detailsState≠.scheduled∧
      ∀ r∈x.replies,r.2.Succeeded
  | .deleteVlan => ∀ c∈x.circuit,c.state≠.decom → (∀ r∈x.replies,r.2.error=none) →
      ∀ r∈x.replies,r.2.Succeeded
  | .changeVlanPath => ∃ c∈x.circuit,c.endpointFlows≠[]∧LastOnly x.replies

/-- The callbacks of a call are proper exactly when the call is sound. -/
theorem proper_iff (x : Call) : Proper x.trace x.replies ↔ x.Sound := by
  obtain ⟨method,id,circuit,replies,h⟩ := x
  cases method with
  | addVlan force => exact addVlan_proper_iff h
  | deleteVlan => exact deleteVlan_proper_iff h
  | changeVlanPath => exact changeVlanPath_proper_iff h

/-- An add whose first switch of two fails. -/
def failedAdd : Call where
  method := .addVlan false
  id := 1
  circuit := some ⟨.openflow,.active,.active,[1,2,2],[1,2]⟩
  replies := [(1,⟨some "timeout",none,none⟩),(2,⟨none,none,some .success⟩)]
  answered := by decide

theorem failedAdd_calls_both :
    failedAdd.trace=[sent 1,sent 2,reply 1,reply 2,removal 1,removal 2,error "timeout\n",
        success (some .success)]∧
      ¬Proper failedAdd.trace failedAdd.replies := by
  have htrace : failedAdd.trace=[sent 1,sent 2,reply 1,reply 2,removal 1,removal 2,
      error "timeout\n"]++[success (some .success)] := by decide
  refine ⟨htrace,fun hp => ?_⟩
  rw [htrace] at hp
  have hquiet := (hp.at rfl).1 (error "timeout\n") (by simp)
  cases hquiet

end Call

end OESS.VlanCalls
