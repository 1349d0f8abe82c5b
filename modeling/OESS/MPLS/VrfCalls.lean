import OESS.Master.VlanCalls
import OESS.MPLS.Cache

namespace OESS.MPLS.VrfCalls

open CondVar Cache Function
open List

/-- Messages, answers, and calls of the two callbacks. -/
inductive Observation where
  | sent (node : String)
  | reply (node : String)
  | removal (node : String)
  | success (status : VlanCalls.Status)
  | error (text : String)

namespace Observation

def isCallback : Observation → Bool
  | .success _ | .error _ => true
  | _ => false

def replied : Observation → Option String
  | .reply node => some node
  | _ => none

def removed : Observation → Option String
  | .removal node => some node
  | _ => none

end Observation

open Observation

/-- A node with the status in its answer, if there is one. -/
abbrev Reply := String×Option VlanCalls.Status

/-- The nodes with an error, and what was seen. -/
structure Progress where
  nodeErrors : List String
  trace : List Observation

def noteReply (r : Reply) (s : Progress) : Progress :=
  ⟨if r.2≠some .success then s.nodeErrors++[r.1] else s.nodeErrors,s.trace++[reply r.1]⟩

/-- After an error the other nodes remove the VRF. -/
def addVrfDone (nodes : List String) (s : Progress) : Progress :=
  if s.nodeErrors=[] then {s with trace := s.trace++[success .success]}
  else {s with trace := s.trace++(nodes.filter (·∉s.nodeErrors)).map removal++
    [error "Failed to add VRF."]}

/-- Inside the group of a condition variable, which replies end. -/
def exchange (nodes : List String) (replies : List Reply) : List Observation :=
  (Group.run (addVrfDone nodes) noteReply (fun _ => true) nodes.length ⟨[],nodes.map sent⟩
    replies).data.trace

/-- The VRF is put into the hash from which the cache is written. -/
def remember (f : Fwdctl) (id : Nat) : Fwdctl :=
  {f with vrfs := if id∈f.vrfs then f.vrfs else f.vrfs++[id]}

def addVrf (f : Fwdctl) (id : Nat) (replies : List Reply) : Fwdctl×List Observation :=
  match f.db.vrf id with
  | none => (f,[error ("Unable to load VRF "++toString id++".")])
  | some v =>
    if v.state=some .decom then (f,[error "addVrf: Adding a decom'd vrf is not allowed"])
    else (remember f id,exchange v.nodes replies)

/-- None for a decommissioned VRF. -/
def asked (v : Vrf) : List String := if v.state=some .decom then [] else v.nodes

/-- Replies as they arrive: every request is answered once. -/
structure Call where
  fwdctl : Fwdctl
  vrf : Vrf
  loaded : fwdctl.db.vrf vrf.id=some vrf
  replies : List Reply
  answered : (replies.map Prod.fst).Perm (asked vrf)

def Call.trace (x : Call) : List Observation := (addVrf x.fwdctl x.vrf.id x.replies).2

variable {replies : List Reply}

def failed (replies : List Reply) : List String := (replies.filter (·.2≠some .success)).map Prod.fst

theorem foldl_noteReply (replies : List Reply) (s : Progress) :
    replies.foldl (fun s r => noteReply r s) s=
      ⟨s.nodeErrors++failed replies,s.trace++replies.map fun r => reply r.1⟩ := by
  induction replies generalizing s with
  | nil => simp [failed]
  | cons r rs ih =>
    rw [foldl_cons,ih]
    by_cases hr : r.2=some .success
    all_goals simp [noteReply,failed,hr]

theorem failed_eq_nil : failed replies=[] ↔ ∀ r∈replies,r.2=some .success := by simp [failed]

theorem not_mem_failed {n : String} (hnodup : (replies.map Prod.fst).Nodup)
    (hn : n∈replies.map Prod.fst) : n∉failed replies ↔ (n,some .success)∈replies := by
  obtain ⟨r,hr,rfl⟩ := mem_map.mp hn
  have hfailed : r.1∈failed replies ↔ r.2≠some .success := by
    simp only [failed,mem_map,mem_filter,decide_eq_true_eq]
    constructor
    · intro ⟨q,⟨hq,hstatus⟩,heq⟩
      rwa [← inj_on_of_nodup_map hnodup hq hr heq]
    · intro h
      exact ⟨r,⟨hr,h⟩,rfl⟩
  rw [hfailed,not_not]
  constructor
  · intro h
    rwa [← h]
  · intro h
    exact congrArg Prod.snd (inj_on_of_nodup_map hnodup hr h rfl)

theorem exchange_eq {nodes : List String} (h : (replies.map Prod.fst).Perm nodes) :
    exchange nodes replies=
      (addVrfDone nodes ⟨failed replies,nodes.map sent++replies.map fun r => reply r.1⟩).trace := by
  have hlen : nodes.length=replies.length := by rw [← h.length_eq,length_map]
  rw [exchange,hlen,run_all replies _ (fun _ _ => rfl),foldl_noteReply]
  rfl

/-- The trace ends with the only callback; every reply comes before it, and no node removes the VRF
twice. -/
structure Outcome (x : Call) (before : List Observation) (callback : Observation) : Prop where
  trace : x.trace=before++[callback]
  callback : callback.isCallback=true
  quiet : ∀ o∈before,o.isCallback=false
  replies : before.filterMap replied=x.replies.map Prod.fst
  removals : (before.filterMap removed).Nodup

variable {x : Call}

theorem filterMap_none {α β γ : Type} {g : α → β} {p : β → Option γ} (h : ∀ a,p (g a)=none)
    (l : List α) : (l.map g).filterMap p=[] := by
  simp [h]

/-- What comes before the callback, if nodes are asked. -/
def early (x : Call) (rollback : List String) : List Observation :=
  x.vrf.nodes.map sent++(x.replies.map fun r => reply r.1)++rollback.map removal

theorem early_quiet (x : Call) (rollback : List String) :
    ∀ o∈early x rollback,o.isCallback=false := by
  intro o ho
  simp only [early,mem_append,mem_map] at ho
  obtain (⟨n,-,rfl⟩ | ⟨r,-,rfl⟩) | ⟨n,-,rfl⟩ := ho <;> rfl

theorem early_replies (x : Call) (rollback : List String) :
    (early x rollback).filterMap replied=x.replies.map Prod.fst := by
  have hmiddle : (x.replies.map fun r => reply r.1).filterMap replied=x.replies.map Prod.fst := by
    simp [comp_def,replied]
  simp only [early,filterMap_append,hmiddle,
    filterMap_none (g := sent) (p := replied) (fun _ => rfl),
    filterMap_none (g := removal) (p := replied) (fun _ => rfl),nil_append,append_nil]

theorem early_removals (x : Call) (rollback : List String) :
    (early x rollback).filterMap removed=rollback := by
  have hlast : (rollback.map removal).filterMap removed=rollback := by simp [comp_def,removed]
  have hmiddle : (x.replies.map fun r => reply r.1).filterMap removed=[] :=
    filterMap_none (fun _ => rfl) _
  simp only [early,filterMap_append,hlast,hmiddle,
    filterMap_none (g := sent) (p := removed) (fun _ => rfl),nil_append]

theorem trace_accepted (h : x.vrf.state≠some .decom) :
    x.trace=if failed x.replies=[] then early x []++[success .success]
      else early x (x.vrf.nodes.filter (·∉failed x.replies))++ [error "Failed to add VRF."] := by
  have hperm : (x.replies.map Prod.fst).Perm x.vrf.nodes := by simpa [asked,h] using x.answered
  have htrace : x.trace=exchange x.vrf.nodes x.replies := by simp [Call.trace,addVrf,x.loaded,h]
  rw [htrace,exchange_eq hperm]
  unfold addVrfDone early
  split_ifs <;> simp

/-- One callback after the last reply: for success exactly if the VRF is not decommissioned and all
nodes succeeded. Otherwise those remove it. -/
theorem addVrf_outcome (x : Call) : ∃ before callback,Outcome x before callback∧
    ((∃ status,callback=success status) ↔
      x.vrf.state≠some .decom∧∀ n∈x.vrf.nodes,(n,some .success)∈x.replies)∧
    ((∃ text,callback=error text) →
      ∀ n,n∈before.filterMap removed ↔ (n,some .success)∈x.replies) := by
  by_cases hdecom : x.vrf.state=some .decom
  · have hreplies : x.replies=[] := by simpa [asked,hdecom] using x.answered
    refine ⟨[],error "addVrf: Adding a decom'd vrf is not allowed",⟨?_,rfl,?_,?_,?_⟩,?_,?_⟩
    · simp [Call.trace,addVrf,x.loaded,hdecom]
    · simp
    · simp [hreplies]
    · simp
    · simp [hdecom]
    · simp [hreplies]
  have hperm : (x.replies.map Prod.fst).Perm x.vrf.nodes := by simpa [asked,hdecom] using x.answered
  have hnodes : x.vrf.nodes.Nodup := nodup_dedup _
  have hnodup : (x.replies.map Prod.fst).Nodup := hperm.nodup_iff.mpr hnodes
  have htrace := trace_accepted hdecom
  by_cases hfailed : failed x.replies=[]
  · rw [if_pos hfailed] at htrace
    have hall : ∀ n∈x.vrf.nodes,(n,some .success)∈x.replies := by
      intro n hn
      apply (not_mem_failed hnodup (hperm.mem_iff.mpr hn)).mp
      simp [hfailed]
    refine ⟨early x [],success .success,⟨htrace,rfl,early_quiet x _,early_replies x _,?_⟩,?_,?_⟩
    · rw [early_removals]
      exact nodup_nil
    · exact iff_of_true ⟨_,rfl⟩ ⟨hdecom,hall⟩
    · simp
  · rw [if_neg hfailed] at htrace
    refine ⟨early x (x.vrf.nodes.filter fun n => n∉failed x.replies),error "Failed to add VRF.",
      ⟨htrace,rfl,early_quiet x _,early_replies x _,?_⟩,?_,?_⟩
    · rw [early_removals]
      exact hnodes.filter _
    · apply iff_of_false (by simp)
      intro h
      apply hfailed
      apply failed_eq_nil.mpr
      intro r hr
      have hmem : r.1∈x.replies.map Prod.fst := mem_map_of_mem hr
      have hreported := h.2 r.1 (hperm.mem_iff.mp hmem)
      exact congrArg Prod.snd (inj_on_of_nodup_map hnodup hr hreported rfl)
    · intro _ n
      rw [early_removals,mem_filter,decide_eq_true_eq]
      constructor
      · intro h
        exact (not_mem_failed hnodup (hperm.mem_iff.mpr h.1)).mp h.2
      · intro h
        have hmem : n∈x.replies.map Prod.fst := mem_map.mpr ⟨_,h,rfl⟩
        exact ⟨hperm.mem_iff.mp hmem,(not_mem_failed hnodup hmem).mpr h⟩

def halfAdded : Call where
  fwdctl :=
    { db := ⟨fun _ => none,fun id => if id=3 then some ⟨3,some .active,
        [⟨"mx1",1,10⟩,⟨"mx2",2,20⟩,⟨"mx1",1,11⟩]⟩ else none,by simp⟩
      networkType := .vpnMpls
      circuit := []
      vrfs := []
      nodeInfo := ["mx1","mx2"]
      loopback := fun _ => none
      keys := by simp }
  vrf := ⟨3,some .active,[⟨"mx1",1,10⟩,⟨"mx2",2,20⟩,⟨"mx1",1,11⟩]⟩
  loaded := rfl
  replies := [("mx2",some .failure),("mx1",some .success)]
  answered := by decide

example : halfAdded.trace=[sent "mx2",sent "mx1",reply "mx2",reply "mx1",removal "mx1",
    error "Failed to add VRF."] := rfl

end OESS.MPLS.VrfCalls
