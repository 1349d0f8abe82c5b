import Mathlib.Data.List.Induction
import Mathlib.Algebra.GroupWithZero.Nat
import OESS.OpenFlow.SwitchDiff

namespace OESS.OpenFlow

open List

inductive Command where
  | add | modify | modifyStrict | delete | deleteStrict
  deriving DecidableEq

/-- What sending one flow does to the counter. -/
def Command.change : Command → Int
  | .add => 1
  | .delete | .deleteStrict => -1
  | .modify | .modifyStrict => 0

structure Sender where
  maxFlows : Int
  sendBarrierBulk : Bool

/-- What was sent, the counter, and the statuses given. -/
structure Sending where
  sent : List FlowRule := []
  flows : Int
  calls : List Bool := []

def Sending.call (status : Bool) (s : Sending) : Sending := { s with calls := s.calls++[status] }

def Sending.send (command : Command) (flow : FlowRule) (s : Sending) : Sending :=
  { s with sent := s.sent++[flow],flows := s.flows+command.change }

variable (sw : Sender) (command : Command)

def Sender.full (s : Sending) : Bool := sw.maxFlows-1≤ s.flows && command=.add

/-- Without bulk barriers the callback becomes a call. -/
def Sender.wrapped (waiting : Nat) : Nat := if sw.sendBarrierBulk then waiting else waiting+1

/-- Every call is answered. `waiting` counts the calls wrapped in the callback; each goes on with
the rest of the list. -/
def sendFlows : List (Option FlowRule) → Nat → Sending → Sending
  | [],0,s => s.call true
  | [],waiting+1,s => sendFlows [] waiting s
  | [none],0,s => s.call false
  | [none],waiting+1,s => sendFlows [] waiting s
  | none::next::rest,waiting,s => sendFlows (next::rest) waiting s
  | some flow::rest,waiting,s =>
      if sw.full command s then
        match waiting with
        | 0 => s.call false
        | waiting+1 => sendFlows rest waiting s
      else sendFlows rest (sw.wrapped waiting) (s.send command flow)
termination_by flows waiting => (flows.length,waiting)

def defined (flows : List (Option FlowRule)) : List FlowRule := flows.filterMap id

def endsUndefined (flows : List (Option FlowRule)) : Bool := flows.getLast?=some none

variable {sw command} {flows : List (Option FlowRule)} {waiting room : Nat} {s : Sending}

/-- Each flow left takes a waiting callback. -/
def finalStatus (flows : List (Option FlowRule)) (left waiting : Nat) : Bool :=
  if endsUndefined flows then left<waiting else left≤waiting

@[simp] theorem defined_cons (flow : FlowRule) : defined (some flow::flows)=flow::defined flows := rfl

@[simp] theorem endsUndefined_cons (flow : FlowRule) :
    endsUndefined (some flow::flows)=endsUndefined flows := by
  cases flows <;> simp [endsUndefined]

theorem full_room (hfull : sw.full command s=true)
    (hadd : command=.add → room=(sw.maxFlows-1-s.flows).toNat) : command=.add∧room=0 := by
  simp only [Sender.full,Bool.and_eq_true,decide_eq_true_eq] at hfull
  have h := hadd hfull.2
  exact ⟨hfull.2,by omega⟩

/-- The outcome where `room` flows can be sent before the limit. -/
theorem sendFlows_eq (hadd : command=.add → room=(sw.maxFlows-1-s.flows).toNat)
    (hother : command≠.add → (defined flows).length≤room) :
    sendFlows sw command flows waiting s=
      { sent := s.sent++(defined flows).take room
        flows := s.flows+command.change*min (defined flows).length room
        calls := s.calls++[finalStatus flows ((defined flows).length-room)
          (waiting+if sw.sendBarrierBulk then 0 else min (defined flows).length room)] } := by
  fun_induction sendFlows sw command flows waiting s generalizing room with
  | case1 s => simp [defined,finalStatus,endsUndefined,Sending.call]
  | case2 waiting s ih =>
    rw [ih hadd hother]
    simp [defined,finalStatus,endsUndefined]
  | case3 s => simp [defined,finalStatus,endsUndefined,Sending.call]
  | case4 waiting s ih =>
    rw [ih hadd (by simp [defined])]
    simp [defined,finalStatus,endsUndefined]
  | case5 next rest waiting s ih =>
    have hdefined : defined (none::next::rest)=defined (next::rest) := rfl
    rw [hdefined] at ⊢
    rw [ih hadd hother]
    simp [finalStatus,endsUndefined]
  | case6 flow rest s hfull =>
    obtain ⟨rfl,rfl⟩ := full_room hfull hadd
    have hbehind : finalStatus (some flow::rest) ((defined rest).length+1) 0=false := by
      simp [finalStatus]
    simp [hbehind,Sending.call]
  | case7 flow rest s hfull waiting ih =>
    obtain ⟨rfl,rfl⟩ := full_room hfull hadd
    rw [ih hadd (by simp)]
    simp [finalStatus]
  | case8 flow rest waiting s hfull ih =>
    have hroom : 0<room := by
      by_cases hc : command=.add
      · have hlt : ¬sw.maxFlows-1≤ s.flows := fun hle =>
          hfull (by simp only [Sender.full,hc,hle,decide_true,Bool.and_self])
        have h := hadd hc
        omega
      · have h := hother hc
        rw [defined_cons,length_cons] at h
        omega
    obtain ⟨left,rfl⟩ : ∃ left,room=left+1 := ⟨room-1,by omega⟩
    have hnext : command=.add → left=(sw.maxFlows-1-(s.send command flow).flows).toNat := by
      intro hc
      have h := hadd hc
      simp only [Sending.send,hc,Command.change]
      omega
    rw [ih hnext fun hc => by simpa using hother hc]
    have hwait : sw.wrapped waiting+(if sw.sendBarrierBulk then 0 else min (defined rest).length left)=
        waiting+if sw.sendBarrierBulk then 0 else min (defined rest).length left+1 := by
      unfold Sender.wrapped
      split_ifs <;> omega
    simp only [hwait]
    simp [Sending.send,finalStatus,Int.mul_add]
    omega

/-- How many flows can be sent before the limit. -/
def Sender.capacity (sw : Sender) (command : Command) (flows : List (Option FlowRule)) (n : Int) : Nat :=
  if command=.add then (sw.maxFlows-1-n).toNat else (defined flows).length

/-- One call of the callback, flows in order and at most once, and whether all of them were sent. -/
def Sending.Reports (flows : List (Option FlowRule)) (t : Sending) : Prop :=
  ∃ status,t.calls=[status]∧t.sent.Sublist (defined flows)∧(status=true ↔ t.sent=defined flows)

/-- With bulk barriers unless all is sent from a list that ends with an undefined flow. Else each
flow sent hides one refused. -/
theorem sendFlows_reports_iff (sw : Sender) (command : Command) (flows : List (Option FlowRule))
    (n : Int) : (sendFlows sw command flows 0 { flows := n }).Reports flows ↔
      if sw.sendBarrierBulk then
        endsUndefined flows=true → sw.capacity command flows n<(defined flows).length
      else if (defined flows).length≤ sw.capacity command flows n then
        endsUndefined flows=true → defined flows≠[]
      else if endsUndefined flows then 2*sw.capacity command flows n≤(defined flows).length
      else 2*sw.capacity command flows n<(defined flows).length := by
  have hadd : command=.add → sw.capacity command flows n=(sw.maxFlows-1-n).toNat := fun hc => if_pos hc
  have hother : command≠.add → (defined flows).length≤ sw.capacity command flows n := fun hc =>
    Nat.le_of_eq (if_neg hc).symm
  generalize sw.capacity command flows n=room at *
  have hall : (defined flows).take room=defined flows ↔ (defined flows).length≤room := by
    refine ⟨fun h => ?_,take_of_length_le⟩
    have hlen := congrArg length h
    rw [length_take] at hlen
    omega
  have hne : defined flows≠[] ↔ 0<(defined flows).length := length_pos_iff.symm
  rw [sendFlows_eq hadd hother,Sending.Reports,hne]
  simp only [nil_append,hall,take_sublist,finalStatus]
  by_cases hle : (defined flows).length≤room
  all_goals cases sw.sendBarrierBulk <;> cases endsUndefined flows <;> simp [hle]
  all_goals omega

/-- A flow is refused, and the callback hears of a success. -/
theorem sendFlows_hides_refusal :
    ¬(sendFlows ⟨2,false⟩ .add [some { dpid := 1 },some { dpid := 1,priority := 1 }] 0
      { flows := 0 }).Reports [some { dpid := 1 },some { dpid := 1,priority := 1 }] := by
  intro h
  simp [sendFlows,Sender.full,Sending.send,Command.change,Sender.wrapped,Sending.call,Sending.Reports] at h

/-- Each rule with the match is counted. -/
def countCommand (dpid : Nat) (state : (CurrentFlows × List FlowMod) × Int) (command : FlowRule) :
    (CurrentFlows × List FlowMod) × Int :=
  (diffCommand dpid state.1 command,state.2+if command.dpid=dpid then
    ((sameMatch command (state.1.1.slots command.slot)).length : Int) else 0)

/-- What is left of the table is counted too. -/
def actualDiffFlows (order : List Slot → List Slot) (dpid : Nat) (current : CurrentFlows)
    (commands : List FlowRule) (n : Int) : Int :=
  let ((left,_),n) := commands.foldl (countCommand dpid) ((current,[]),n)
  n+((order left.keys).flatMap fun k => (left.slots k).filterMap id).length

/-- The counter starts at one; the deletes are sent and then the adds. -/
def doDiff (sw : Sender) (order : List Slot → List Slot) (dpid : Nat)
    (commands table : List FlowRule) : Sending :=
  let queue := actualDiff order dpid (fileFlows table) commands
  sendFlows sw .add ((queue.filterMap FlowMod.add).map some) 0
    (sendFlows sw .deleteStrict ((queue.filterMap FlowMod.remove).map some) 0
      { flows := actualDiffFlows order dpid (fileFlows table) commands 1 })

variable {order : List Slot → List Slot} {dpid : Nat} {commands table : List FlowRule}

theorem foldl_countCommand (hc : ((desired dpid commands).map FlowRule.key).Nodup) (n : Int) :
    commands.foldl (countCommand dpid) ((fileFlows table,[]),n)=
      (commands.foldl (diffCommand dpid) (fileFlows table,[]),
        n+((desired dpid commands).map fun c =>
          ((visible table).filter fun r => c.key=r.key).length).sum) := by
  induction commands using reverseRecOn with
  | nil => simp [desired]
  | append_singleton commands b ih =>
    have hsplit : desired dpid (commands++[b])=
        desired dpid commands++if b.dpid=dpid then [b] else [] := by
      by_cases hb : b.dpid=dpid <;> simp [desired,hb]
    rw [hsplit,map_append,nodup_append] at hc
    have hcount : b.dpid=dpid →
        sameMatch b ((commands.foldl (diffCommand dpid) (fileFlows table,[])).1.slots b.slot)=
          (visible table).filter fun r => b.key=r.key := by
      intro hb
      rw [foldl_diffCommand dpid commands hc.1,sameMatch_filter,sameMatch_fileFlows]
      intro r hr
      have hnew : ∀ c∈desired dpid commands,c.key≠b.key := fun c hcd =>
        hc.2.2 c.key (mem_map_of_mem hcd) b.key (by simp [hb])
      simpa [FlowRule.compareMatch_key,← hr] using
        fun c hcm hd _ => hnew c ((mem_desired dpid commands c).mpr ⟨hcm,hd⟩)
    rw [foldl_append,ih hc.1,hsplit]
    by_cases hb : b.dpid=dpid
    · simp [countCommand,hb,hcount hb]
      omega
    · simp [countCommand,hb]

theorem length_commandMods (c : FlowRule) (same : List FlowRule) :
    ((commandMods c same).filterMap FlowMod.add).length+same.length=
      ((commandMods c same).filterMap FlowMod.remove).length+max 1 same.length := by
  unfold commandMods
  split_ifs with h
  · simp_all
  have hpos : 0<same.length := by
    rw [List.isEmpty_iff] at h
    exact length_pos_iff.mpr h
  simp
  omega

theorem length_adds (order : List Slot → List Slot) (table : List FlowRule)
    (hc : ((desired dpid commands).map FlowRule.key).Nodup) :
    ((actualDiff order dpid (fileFlows table) commands).filterMap FlowMod.add).length+
        actualDiffFlows order dpid (fileFlows table) commands 1=
      ((actualDiff order dpid (fileFlows table) commands).filterMap FlowMod.remove).length+1+
        ((desired dpid commands).map fun c =>
          max 1 ((visible table).filter fun r => c.key=r.key).length).sum := by
  have hqueue (l : List FlowRule) (same : FlowRule → List FlowRule) :
      ((l.flatMap fun c => commandMods c (same c)).filterMap FlowMod.add).length+
          (l.map fun c => (same c).length).sum=
        ((l.flatMap fun c => commandMods c (same c)).filterMap FlowMod.remove).length+
          (l.map fun c => max 1 (same c).length).sum := by
    induction l with
    | nil => rfl
    | cons c l ih =>
      have h := length_commandMods c (same c)
      simp only [flatMap_cons,filterMap_append,length_append,map_cons, sum_cons]
      omega
  have hstale (l : List FlowRule) : ((l.map fun flow => ({ remove := some flow } : FlowMod)).reverse
        |>.filterMap FlowMod.add).length=0∧
      ((l.map fun flow => ({ remove := some flow } : FlowMod)).reverse
        |>.filterMap FlowMod.remove).length=l.length := by
    simp
  have h := hqueue (desired dpid commands) fun c => (visible table).filter fun r => c.key=r.key
  rw [actualDiffFlows,foldl_countCommand hc,actualDiff,foldl_diffCommand dpid commands hc]
  simp only [sameMatch_fileFlows,nil_append,filterMap_append,length_append,hstale]
  simp only [desired] at h ⊢
  omega

theorem sum_max_one_iff (l : List FlowRule) (f : FlowRule → Nat) :
    l.length≤(l.map fun c => max 1 (f c)).sum∧
      ((l.map fun c => max 1 (f c)).sum=l.length ↔ ∀ c∈l,f c≤1) := by
  induction l with
  | nil => simp
  | cons c l ih =>
    obtain ⟨hle,hiff⟩ := ih
    simp only [map_cons,sum_cons,length_cons,forall_mem_cons,← hiff]
    omega

theorem sendFlows_deletes (sw : Sender) (l : List FlowRule) (n : Int) :
    (sendFlows sw .deleteStrict (l.map some) 0 { flows := n }).sent=l∧
      (sendFlows sw .deleteStrict (l.map some) 0 { flows := n }).flows=n-l.length := by
  have hlen : (defined (l.map some)).length≤l.length := by simp [defined]
  rw [sendFlows_eq (fun h : Command.deleteStrict=.add => nomatch h) fun _ => hlen]
  simp [defined,Command.change]
  omega

theorem sendFlows_adds {l : List FlowRule}
    (hsent : (sendFlows sw .add (l.map some) 0 s).sent=s.sent++l) :
    (sendFlows sw .add (l.map some) 0 s).flows=s.flows+l.length := by
  rw [sendFlows_eq (fun _ => rfl) nofun] at hsent ⊢
  have hlen := congrArg length hsent
  simp [Command.change] at hlen ⊢
  omega

/-- The counter is right exactly if no wanted rule has the match of two rules. -/
theorem doDiff_flows_iff (hc : ((desired dpid commands).map FlowRule.key).Nodup)
    (hsent : (doDiff sw order dpid commands table).sent=
      (actualDiff order dpid (fileFlows table) commands).filterMap FlowMod.remove++
        (actualDiff order dpid (fileFlows table) commands).filterMap FlowMod.add) :
    (doDiff sw order dpid commands table).flows=1+(desired dpid commands).length ↔
      ∀ c∈desired dpid commands,((visible table).filter fun r => c.key=r.key).length≤1 := by
  have hlen := length_adds order table hc
  obtain ⟨hdeleted,hn⟩ := sendFlows_deletes sw
    ((actualDiff order dpid (fileFlows table) commands).filterMap FlowMod.remove)
    (actualDiffFlows order dpid (fileFlows table) commands 1)
  have hflows := sendFlows_adds (hsent.trans (by rw [hdeleted]))
  rw [← (sum_max_one_iff (desired dpid commands) _).2,doDiff]
  omega

def untaggedRule (port out : Nat) : FlowRule :=
  { fields := { inPort := some port,dlVlan := some (-1) },actions := [.output out],dpid := 7 }

/-- A rule is replaced and another one removed. -/
theorem doDiff_flows_replaced :
    (doDiff ⟨100,true⟩ id 7 [untaggedRule 1 2] [untaggedRule 1 3,untaggedRule 4 2]).flows=
      1+(desired 7 [untaggedRule 1 2]).length := by
  have hqueue : actualDiff id 7 (fileFlows [untaggedRule 1 3,untaggedRule 4 2]) [untaggedRule 1 2]=
      [{ remove := some (untaggedRule 4 2) },
        { remove := some (untaggedRule 1 3),add := some (untaggedRule 1 2) }] := by decide
  apply (doDiff_flows_iff (by decide) ?_).mpr (by decide)
  simp [doDiff,hqueue,sendFlows,Sender.wrapped]
  decide

/-- VLAN 0 and the untagged value read alike. -/
theorem doDiff_counts_both : ([⟨32768,⟨some 1,some 0,none,none⟩,[.output 2],[]⟩,
        ⟨32768,⟨some 1,some 65535,none,none⟩,[.output 2],[]⟩] : List Stat).mapM (parseStat false 7)=
        some [untaggedRule 1 2,untaggedRule 1 2]∧
      actualDiff id 7 (fileFlows [untaggedRule 1 2,untaggedRule 1 2]) [untaggedRule 1 2]=[]∧
      (doDiff ⟨100,true⟩ id 7 [untaggedRule 1 2] [untaggedRule 1 2,untaggedRule 1 2]).flows≠
        1+(desired 7 [untaggedRule 1 2]).length := by
  have hqueue : actualDiff id 7 (fileFlows [untaggedRule 1 2,untaggedRule 1 2]) [untaggedRule 1 2]=
      [] := by decide
  simp [doDiff,hqueue,sendFlows]
  decide

end OESS.OpenFlow
