import OESS.Framework.Runs

namespace OESS.OpenFlow.NodeStatus

open Runs List Option

inductive Result where
  | waiting | success | failure
  deriving DecidableEq

/-- The results of one datapath by transaction id. -/
abbrev Callbacks := List (Nat × Result)

variable (xid : Nat) (c : Callbacks)

/-- `flowmod_callbacks[dpid][xid]` is set to a new entry. -/
def put : Callbacks := (c.filter (·.1≠xid))++[(xid,.waiting)]

def errorCallback : Callbacks :=
  c.map fun x => if x.1=xid then (xid,.failure) else x

/-- The reply removes the earlier entries, and fails if one of them has failed. -/
def barrierReplyCallback : Callbacks :=
  if c.any fun x => x.1=xid then
    let result : Result := if c.any fun x => x.1<xid && x.2=.failure then .failure else .success
    (c.filter fun x => ¬x.1<xid).map fun x => if x.1=xid then (xid,result) else x
  else c

inductive Answer where
  | success | failure | waiting | unknown
  deriving DecidableEq

/-- The answer and the entries that remain. -/
def getNodeStatus : Option Callbacks → Answer × Option Callbacks
  | none => (.unknown,none)
  | some [(_,.success)] => (.success,some [])
  | some [(_,.failure)] => (.failure,some [])
  | some c => (.waiting,some c)

inductive Event where
  | sendDatapathFlow (xid : Nat)
  | sendBarrier (xid : Nat)
  | error (xid : Nat)
  | barrierReply (xid : Nat)
  | getNodeStatus

/-- What was issued, the modifications since the last success or failure answered, the barriers
replied to and the failures. -/
structure History where
  callbacks : Option Callbacks := none
  mods : List Nat := []
  barriers : List Nat := []
  since : List Nat := []
  replied : List Nat := []
  failed : List Nat := []

def History.next (h : History) : Event → History
  | .sendDatapathFlow xid => { h with
      callbacks := some (put xid (h.callbacks.getD []))
      mods := xid::h.mods
      since := xid::h.since }
  | .sendBarrier xid => { h with
      callbacks := some (put xid (h.callbacks.getD []))
      barriers := xid::h.barriers }
  | .error xid => { h with
      callbacks := h.callbacks.map (errorCallback xid)
      failed := if xid∈h.mods then xid::h.failed else h.failed }
  | .barrierReply xid => { h with
      callbacks := h.callbacks.map (barrierReplyCallback xid)
      replied := xid::h.replied }
  | .getNodeStatus => { h with
      callbacks := (getNodeStatus h.callbacks).2
      since := if (getNodeStatus h.callbacks).1∈[.success,.failure] then [] else h.since }

/-- The ids increase. It is assumed of the switch that it replies once to a barrier and reports an
error before its reply to a later barrier. -/
def Legal (h : History) : Event → Prop
  | .sendDatapathFlow xid | .sendBarrier xid => ∀ x∈h.mods++h.barriers,x<xid
  | .error xid => xid∈h.mods → ∀ b∈h.replied,¬xid<b
  | .barrierReply xid => xid∈h.barriers∧xid∉h.replied
  | .getNodeStatus => True

/-- Modification `m` is still listed, or a barrier with a reply stands for it. -/
def Accounted (h : History) (m : Nat) : Prop :=
  ∃ x∈h.callbacks.getD [],(m∈h.failed → x.2=.failure)∧ (x.1=m∧x.2≠.success∨x.1∈h.replied∧m<x.1)

structure Sound (h : History) : Prop where
  since : ∀ m∈h.since,m∈h.mods∧Accounted h m
  failed : ∀ m∈h.failed,m∈h.mods
  replied : ∀ b∈h.replied,b∈h.barriers
  apart : ∀ m∈h.mods,m∉h.barriers
  success : ∀ x∈h.callbacks.getD [],x.2=.success → x.1∈h.replied

theorem mem_put (x : Nat × Result) :
    x∈put xid c ↔ x∈c∧x.1≠xid∨x=(xid,.waiting) := by
  simp [put]

theorem mem_errorCallback (y : Nat × Result) :
    y∈errorCallback xid c ↔ y∈c∧y.1≠xid∨(∃ x∈c,x.1=xid)∧y=(xid,.failure) := by
  simp only [errorCallback]
  grind

theorem mem_barrierReplyCallback {xid : Nat} {c : Callbacks} (hb : ∃ x∈c,x.1=xid) :
    ∃ result : Result,((∃ x∈c,x.1<xid∧x.2=.failure) → result=.failure)∧
      ∀ y,y∈barrierReplyCallback xid c ↔ y∈c∧xid<y.1∨y=(xid,result) := by
  refine ⟨if c.any fun x => x.1<xid && x.2=.failure then .failure else .success,by grind,?_⟩
  have hany : (c.any (·.1=xid))=true := by simpa using hb
  rw [barrierReplyCallback,if_pos hany]
  simp only [List.mem_map,mem_filter]
  grind

variable {h : History} {xid : Nat}

theorem Sound.sendDatapathFlow (hs : Sound h) (hnew : ∀ x∈h.mods++h.barriers,x<xid) :
    Sound (h.next (.sendDatapathFlow xid)) := by
  obtain ⟨hsince,hfailed,hreplied,hapart,hsuccess⟩ := hs
  obtain ⟨hmods,hbarriers⟩ := forall_mem_append.mp hnew
  have hown : Accounted (h.next (.sendDatapathFlow xid)) xid := by
    have hfresh : xid∉h.failed := by grind
    exact ⟨(xid,.waiting),(mem_put _ _ _).mpr (.inr rfl),fun hf => absurd hf hfresh,.inl ⟨rfl,nofun⟩⟩
  constructor <;> simp only [History.next,Accounted,mem_put,getD_some] at * <;> grind

theorem Sound.sendBarrier (hs : Sound h) (hnew : ∀ x∈h.mods++h.barriers,x<xid) :
    Sound (h.next (.sendBarrier xid)) := by
  obtain ⟨hsince,hfailed,hreplied,hapart,hsuccess⟩ := hs
  obtain ⟨hmods,hbarriers⟩ := forall_mem_append.mp hnew
  constructor <;> simp only [History.next,Accounted,mem_put,getD_some] at * <;> grind

theorem entries_map (f : Callbacks → Callbacks) (hf : f []=[]) :
    (h.callbacks.map f).getD []=f (h.callbacks.getD []) := by
  cases h.callbacks <;> simp [hf]

theorem Sound.error (hs : Sound h) (hl : xid∈h.mods → ∀ b∈h.replied,¬xid<b) :
    Sound (h.next (.error xid)) := by
  obtain ⟨hsince,hfailed,hreplied,hapart,hsuccess⟩ := hs
  have hentries := entries_map (h := h) (errorCallback xid) rfl
  refine ⟨?_,?_,hreplied,hapart,?_⟩
  · intro m hm
    obtain ⟨hmod,x,hx,hfail,hstands⟩ := hsince m hm
    refine ⟨hmod,if x.1=xid then (xid,.failure) else x,?_,?_,?_⟩
    · simp only [History.next,hentries,errorCallback,List.mem_map]
      exact ⟨x,hx,rfl⟩
    all_goals grind [History.next]
  all_goals
    simp only [History.next,hentries,mem_errorCallback]
    grind

theorem Sound.barrierReply (hs : Sound h) (hb : xid∈h.barriers) (honce : xid∉h.replied) :
    Sound (h.next (.barrierReply xid)) := by
  obtain ⟨hsince,hfailed,hreplied,hapart,hsuccess⟩ := hs
  have hentries := entries_map (h := h) (barrierReplyCallback xid) rfl
  by_cases hlisted : ∃ x∈h.callbacks.getD [],x.1=xid
  · obtain ⟨result,hresult,hmem⟩ := mem_barrierReplyCallback hlisted
    refine ⟨?_,hfailed,by grind [History.next],hapart,?_⟩
    · -- what the reply drops, the barrier stands for from now on
      intro m hm
      obtain ⟨hmod,x,hx,hfail,hstands⟩ := hsince m hm
      refine ⟨hmod,if x.1<xid then (xid,result) else x,?_,?_,?_⟩
      · simp only [History.next]
        grind
      all_goals grind [History.next]
    · simp only [History.next]
      grind
  · have hsame : barrierReplyCallback xid (h.callbacks.getD [])=h.callbacks.getD [] := by
      rw [barrierReplyCallback,if_neg]
      simpa using hlisted
    constructor <;> simp only [History.next,Accounted] at * <;> grind

/-- It settles and clears all, or changes nothing. -/
theorem getNodeStatus_cases (c : Option Callbacks) :
    (getNodeStatus c).1∈[Answer.success,.failure]∧(getNodeStatus c).2=some []∨
      (getNodeStatus c).1∉[Answer.success,.failure]∧(getNodeStatus c).2=c := by
  unfold getNodeStatus
  split <;> simp

theorem Sound.getNodeStatus (hs : Sound h) : Sound (h.next .getNodeStatus) := by
  rcases getNodeStatus_cases h.callbacks with ⟨hanswer,hrest⟩ | ⟨hanswer,hrest⟩
  · exact ⟨by simp [History.next,hanswer],hs.failed,hs.replied,hs.apart,by simp [History.next,hrest]⟩
  have hsame : h.next .getNodeStatus=h := by simp [History.next,hanswer,hrest]
  rwa [hsame]

theorem Sound.next (hs : Sound h) (e : Event) (hl : Legal h e) : Sound (h.next e) := by
  cases e with
  | sendDatapathFlow xid => exact hs.sendDatapathFlow hl
  | sendBarrier xid => exact hs.sendBarrier hl
  | error xid => exact hs.error hl
  | barrierReply xid => exact hs.barrierReply hl.1 hl.2
  | getNodeStatus => exact hs.getNodeStatus

theorem getNodeStatus_success {c : Option Callbacks} (hc : (getNodeStatus c).1=.success) :
    ∃ xid,c=some [(xid,.success)] := by
  unfold NodeStatus.getNodeStatus at hc
  split at hc <;> simp at hc ⊢

/-- Each modification is followed by a barrier with a reply, and none failed. -/
def History.Settled (h : History) : Prop := ∃ b∈h.replied,b∈h.barriers∧∀ m∈h.since,m<b∧m∉h.failed

theorem Sound.settled (hs : Sound h) (hquery : (NodeStatus.getNodeStatus h.callbacks).1=.success) :
    h.Settled := by
  obtain ⟨b,hc⟩ := getNodeStatus_success hquery
  have hb : b∈h.replied := hs.success (b,.success) (by simp [hc]) rfl
  refine ⟨b,hb,hs.replied b hb,?_⟩
  intro m hm
  obtain ⟨-,x,hx,hfail,hstands⟩ := hs.since m hm
  rw [hc,getD_some,mem_singleton] at hx
  subst hx
  rcases hstands with ⟨-,hne⟩ | ⟨-,hlt⟩
  · exact absurd rfl hne
  · exact ⟨hlt,fun hm => nomatch hfail hm⟩

/-- In every legal run `get_node_status` answers success only when all modifications are settled. -/
theorem success_only_settled (es : List Event) (hes : StepsOk History.next Legal {} es) :
    StepsOk History.next (fun h e => e=.getNodeStatus →
      (getNodeStatus h.callbacks).1=.success → h.Settled) {} es := by
  have hstart : Sound {} := ⟨by simp,by simp,by simp,by simp,by simp⟩
  apply stepsOk_of_step _ hstart hes
  intro h e hs hl
  exact ⟨hs.next e hl,fun _ hquery => hs.settled hquery⟩

/-- The modification 1 is answered after the barrier 2. -/
theorem success_after_barrier :
    ([.sendDatapathFlow 1,.sendBarrier 2,.getNodeStatus,.barrierReply 2].foldl History.next {}).callbacks=
        some [(2,.success)]∧
      StepsOk History.next (fun h e => e=.getNodeStatus →
          (getNodeStatus h.callbacks).1=.success → h.Settled) {}
        [.sendDatapathFlow 1,.sendBarrier 2,.getNodeStatus,.barrierReply 2,.getNodeStatus] :=
  ⟨by decide,success_only_settled _ (by simp [StepsOk,Legal,History.next])⟩

end OESS.OpenFlow.NodeStatus
