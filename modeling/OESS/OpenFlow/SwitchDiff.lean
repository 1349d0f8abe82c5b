import OESS.OpenFlow.CircuitFlows
import OESS.Framework.Loops

namespace OESS.OpenFlow

open List Function

structure FlowMod where
  remove : Option FlowRule := none
  add : Option FlowRule := none
  deriving DecidableEq

/-- The keys under which a rule is filed. -/
abbrev Slot := Option Nat × Option Int

def FlowRule.slot (r : FlowRule) : Slot := (r.fields.inPort,r.fields.dlVlan)

def FlowRule.key (r : FlowRule) : Match × Nat := (r.fields,r.priority)

def tracerouteType : Nat := 34997

def FlowRule.isTraceroute (r : FlowRule) : Bool := r.fields.dlType=some tracerouteType

/-- A deleted array element stays as `none`. -/
structure CurrentFlows where
  keys : List Slot
  slots : Slot → List (Option FlowRule)

namespace CurrentFlows

def empty : CurrentFlows := ⟨[],fun _ => []⟩

def push (c : CurrentFlows) (r : FlowRule) : CurrentFlows where
  keys := if r.slot∈c.keys then c.keys else c.keys++[r.slot]
  slots := Function.update c.slots r.slot (c.slots r.slot++[some r])

end CurrentFlows

/-- Traceroute rules are not diffed. -/
def fileFlows (table : List FlowRule) : CurrentFlows :=
  (table.filter (!·.isTraceroute)).foldl CurrentFlows.push .empty

/-- A stat that is no valid rule stops it. -/
def processStatsToFlows (logged : Bool) (dpid : Nat) (stats : List Stat) : Option CurrentFlows :=
  (stats.mapM (parseStat logged dpid)).map fileFlows

/-- What remains, the replacements, and whether it was found. -/
def scanSlot (command : FlowRule) :
    List (Option FlowRule) → List (Option FlowRule) × List FlowMod × Bool
  | [] => ([],[],false)
  | none::rest =>
      let (slots,mods,found) := scanSlot command rest
      (none::slots,mods,found)
  | some flow::rest =>
      let (slots,mods,found) := scanSlot command rest
      if command.compareMatch flow then
        if command.compareActions flow then (none::slots,mods,true)
        else (none::slots,{ remove := some flow, add := some command }::mods,true)
      else (some flow::slots,mods,found)

def diffCommand (dpid : Nat) (state : CurrentFlows × List FlowMod) (command : FlowRule) :
    CurrentFlows × List FlowMod :=
  if command.dpid=dpid then
    let (slots,mods,found) := scanSlot command (state.1.slots command.slot)
    ({ state.1 with slots := Function.update state.1.slots command.slot slots },
      state.2++(if found then mods else [{ add := some command }]))
  else state

/-- `order` is that of the hash's keys. -/
def actualDiff (order : List Slot → List Slot) (dpid : Nat) (current : CurrentFlows)
    (commands : List FlowRule) : List FlowMod :=
  let (left,queue) := commands.foldl (diffCommand dpid) (current,[])
  let stale := (order left.keys).flatMap fun k => (left.slots k).filterMap id
  (stale.map fun flow => ({ remove := some flow } : FlowMod)).reverse++queue

theorem FlowRule.compareMatch_key (c r : FlowRule) : c.compareMatch r=decide (c.key=r.key) := by
  rw [Bool.eq_iff_iff,FlowRule.compareMatch_iff,decide_eq_true_eq,FlowRule.key,FlowRule.key,
    Prod.mk.injEq,and_comm]

theorem FlowRule.slot_of_key {c r : FlowRule} (h : c.key=r.key) : c.slot=r.slot := by
  have hf : c.fields=r.fields := congrArg Prod.fst h
  rw [FlowRule.slot,FlowRule.slot,hf]

theorem FlowRule.eq_of_key {c r : FlowRule} (hk : c.key=r.key) (ha : c.actions=r.actions)
    (hd : c.dpid=r.dpid) : c=r := FlowRule.ext (congrArg Prod.snd hk) (congrArg Prod.fst hk) ha hd

/-- What a command asks for, given the rules with its match. -/
def commandMods (command : FlowRule) (same : List FlowRule) : List FlowMod :=
  if same.isEmpty then [{ add := some command }]
  else (same.filter fun r => !command.compareActions r).map fun r =>
    { remove := some r, add := some command }

def sameMatch (command : FlowRule) (slots : List (Option FlowRule)) : List FlowRule :=
  (slots.filterMap id).filter fun r => command.compareMatch r

theorem scanSlot_eq (command : FlowRule) (slots : List (Option FlowRule)) :
    scanSlot command slots=(slots.map (Option.filter fun r => !command.compareMatch r),
      ((sameMatch command slots).filter fun r => !command.compareActions r).map
        (fun r => { remove := some r, add := some command }),
      !(sameMatch command slots).isEmpty) := by
  induction slots with
  | nil => rfl
  | cons s slots ih =>
    cases s with
    | none => simp [scanSlot,ih,sameMatch]
    | some r =>
      by_cases hm : command.compareMatch r=true
      · by_cases ha : command.compareActions r=true
        all_goals simp [scanSlot,ih,sameMatch,hm,ha,Option.filter]
      · simp [scanSlot,ih,sameMatch,hm,Option.filter]

theorem diffCommand_eq (dpid : Nat) (state : CurrentFlows × List FlowMod) (command : FlowRule) :
    diffCommand dpid state command=
      if command.dpid=dpid then
        (⟨state.1.keys,update state.1.slots command.slot
            ((state.1.slots command.slot).map (Option.filter fun r => !command.compareMatch r))⟩,
          state.2++commandMods command (sameMatch command (state.1.slots command.slot)))
      else state := by
  rw [diffCommand,commandMods,scanSlot_eq]
  split_ifs with hd hs <;> simp_all

theorem sameMatch_filter {c : FlowRule} {p : FlowRule → Bool} (h : ∀ r,c.key=r.key → p r=true)
    (slots : List (Option FlowRule)) :
    sameMatch c (slots.map (Option.filter p))=sameMatch c slots := by
  induction slots with
  | nil => rfl
  | cons s slots ih =>
    rw [sameMatch,sameMatch] at ih ⊢
    cases s with
    | none => simpa using ih
    | some r =>
      by_cases hr : c.key=r.key
      · simpa [FlowRule.compareMatch_key,hr,h r hr,Option.filter] using ih
      · cases hp : p r <;> simpa [FlowRule.compareMatch_key,hr,hp,Option.filter] using ih

/-- Other matches have not touched its rules. -/
theorem foldl_diffCommand (dpid : Nat) (commands : List FlowRule)
    (hc : ((commands.filter (·.dpid=dpid)).map FlowRule.key).Nodup) (cur : CurrentFlows)
    (queue : List FlowMod) :
    commands.foldl (diffCommand dpid) (cur,queue)=
      (⟨cur.keys,fun k => (cur.slots k).map (Option.filter fun r =>
          !(commands.any fun c => c.dpid=dpid && c.slot=k && c.compareMatch r))⟩,
        queue++(commands.filter (·.dpid=dpid)).flatMap fun c =>
          commandMods c (sameMatch c (cur.slots c.slot))) := by
  induction commands generalizing cur queue with
  | nil =>
    have hid : (Option.filter fun _ : FlowRule => true)=id := by
      funext s
      cases s <;> rfl
    simp [hid]
  | cons b commands ih =>
    rw [foldl_cons,diffCommand_eq]
    by_cases hb : b.dpid=dpid
    · simp only [hb,decide_true,filter_cons_of_pos,map_cons,nodup_cons] at hc
      rw [if_pos hb,ih hc.2]
      have hkeys : ∀ c∈commands.filter (·.dpid=dpid),c.key≠b.key := by
        intro c hcm hcb
        exact hc.1 (hcb ▸ mem_map_of_mem hcm)
      have hmods : ((commands.filter (·.dpid=dpid)).flatMap fun c => commandMods c (sameMatch c
            (update cur.slots b.slot ((cur.slots b.slot).map
              (Option.filter fun r => !b.compareMatch r)) c.slot)))=
          (commands.filter (·.dpid=dpid)).flatMap fun c =>
            commandMods c (sameMatch c (cur.slots c.slot)) := by
        apply flatMap_congr
        intro c hcm
        by_cases hs : c.slot=b.slot
        · rw [hs,update_self,sameMatch_filter]
          intro r hr
          simp [FlowRule.compareMatch_key,← hr,(hkeys c hcm).symm]
        · rw [update_of_ne hs]
      have hslots (k : Slot) : (update cur.slots b.slot ((cur.slots b.slot).map
            (Option.filter fun r => !b.compareMatch r)) k).map (Option.filter fun r =>
              !(commands.any fun c => c.dpid=dpid && c.slot=k && c.compareMatch r))=
          (cur.slots k).map (Option.filter fun r =>
            !((b::commands).any fun c => c.dpid=dpid && c.slot=k && c.compareMatch r)) := by
        by_cases hk : k=b.slot
        · subst k
          rw [update_self,map_map]
          apply map_congr_left
          intro s _
          cases s with
          | none => rfl
          | some r => cases hm : b.compareMatch r <;> simp [hb]
        · have hk' : ¬b.slot=k := fun h => hk h.symm
          rw [update_of_ne hk]
          simp [hk']
      rw [hmods]
      simp [hslots,hb]
    · simp only [hb,decide_false,Bool.false_eq_true,not_false_eq_true,filter_cons_of_neg] at hc
      rw [ih hc]
      simp [hb]

theorem foldl_push (rules : List FlowRule) (c : CurrentFlows) :
    (∀ k,(rules.foldl CurrentFlows.push c).slots k=
      c.slots k++(rules.filter (·.slot=k)).map some)∧
    (∀ k,k∈(rules.foldl CurrentFlows.push c).keys ↔ k∈c.keys∨∃ r∈rules,r.slot=k) := by
  induction rules generalizing c with
  | nil => simp
  | cons r rules ih =>
    obtain ⟨hs,hk⟩ := ih (c.push r)
    constructor
    · intro k
      rw [foldl_cons,hs]
      by_cases h : r.slot=k
      · subst k
        simp [CurrentFlows.push]
      · have h' : k≠r.slot := fun e => h e.symm
        simp [CurrentFlows.push,update_of_ne h',h]
    · intro k
      have hpush : k∈(c.push r).keys ↔ k∈c.keys∨r.slot=k := by
        unfold CurrentFlows.push
        split_ifs with hr
        · exact (or_iff_left_of_imp fun h => h ▸ hr).symm
        · simp [eq_comm]
      rw [foldl_cons,hk,hpush,exists_mem_cons_iff,or_assoc]

def visible (table : List FlowRule) : List FlowRule := table.filter fun r => !r.isTraceroute

variable (table : List FlowRule) {dpid : Nat} {order : List Slot → List Slot}
  {commands : List FlowRule}

theorem fileFlows_slots (k : Slot) :
    (fileFlows table).slots k=((visible table).filter (·.slot=k)).map some := by
  have h := (foldl_push (visible table) .empty).1 k
  simpa [fileFlows,CurrentFlows.empty,visible] using h

theorem fileFlows_keys (r : FlowRule) (hr : r∈visible table) : r.slot∈(fileFlows table).keys :=
  ((foldl_push (visible table) .empty).2 r.slot).mpr (.inr ⟨r,hr,rfl⟩)

theorem sameMatch_fileFlows (c : FlowRule) : sameMatch c ((fileFlows table).slots c.slot)=
      (visible table).filter fun r => c.key=r.key := by
  rw [sameMatch,fileFlows_slots,filterMap_map]
  simp only [id_comp,filterMap_some,filter_filter]
  apply filter_congr
  intro r _
  rw [FlowRule.compareMatch_key,Bool.eq_iff_iff,Bool.and_eq_true]
  simp only [decide_eq_true_eq]
  exact and_iff_left_of_imp fun h => (FlowRule.slot_of_key h).symm

section Round

variable (order : List Slot → List Slot) (dpid : Nat) (commands table : List FlowRule)

def desired : List FlowRule := commands.filter fun c => c.dpid=dpid

variable (horder : ∀ l,(order l).Perm l)
  (hc : ((desired dpid commands).map FlowRule.key).Nodup)
include hc

theorem actualDiff_eq : actualDiff order dpid (fileFlows table) commands=
      (((order (fileFlows table).keys).flatMap fun k =>
          ((visible table).filter (·.slot=k)).filter fun r =>
            !(desired dpid commands).any fun c => c.slot=k && c.key=r.key).map
        fun flow => ({ remove := some flow } : FlowMod)).reverse++
      (desired dpid commands).flatMap fun c =>
        commandMods c ((visible table).filter fun r => c.key=r.key) := by
  have hfold := foldl_diffCommand dpid commands hc (fileFlows table) []
  have hkeep (k : Slot) (r : FlowRule) :
      (commands.any fun c => c.dpid=dpid && c.slot=k && c.compareMatch r)=
        (desired dpid commands).any fun c => c.slot=k && c.key=r.key := by
    rw [desired]
    simp [FlowRule.compareMatch_key,Bool.and_assoc]
  have hslots (rs : List FlowRule) (p : FlowRule → Bool) :
      ((rs.map some).map (Option.filter p)).filterMap id=rs.filter p := by
    induction rs with
    | nil => rfl
    | cons r rs ih => cases hp : p r <;> simp_all [Option.filter]
  rw [actualDiff,hfold]
  simp only [sameMatch_fileFlows,hkeep]
  simp only [fileFlows_slots,hslots]
  rfl

variable (hdpid : ∀ r∈table,r.dpid=dpid)

omit hc in
theorem mem_desired (c : FlowRule) : c∈desired dpid commands ↔ c∈commands∧c.dpid=dpid := by
  simp [desired]

omit hc in
theorem mem_visible (r : FlowRule) : r∈visible table ↔ r∈table∧(!r.isTraceroute)=true := by
  simp [visible]

omit hc in
include hdpid in
theorem desired_eq_iff {c r : FlowRule} (hcd : c∈desired dpid commands) (hr : r∈visible table)
    (hk : c.key=r.key) : c.compareActions r=true ↔ c=r := by
  rw [FlowRule.compareActions_iff]
  constructor
  · intro ha
    have hd : c.dpid=r.dpid := by
      rw [((mem_desired dpid commands c).mp hcd).2,hdpid r ((mem_visible table r).mp hr).1]
    exact FlowRule.eq_of_key hk ha hd
  · intro h
    rw [h]

omit hc in
include hdpid in
theorem mem_commandMods {c : FlowRule} (hcd : c∈desired dpid commands) (m : FlowMod) :
    m∈commandMods c ((visible table).filter fun r => c.key=r.key) ↔
      ((∀ x∈visible table,c.key≠x.key)∧m={ add := some c })∨
      ∃ x∈visible table,c.key=x.key∧c≠x∧m={ remove := some x, add := some c } := by
  have hdiffers {x : FlowRule} (hx : x∈visible table) (hk : c.key=x.key) :
      (!c.compareActions x)=true ↔ c≠x := by
    rw [Bool.not_eq_true',← Bool.not_eq_true,desired_eq_iff dpid commands table hdpid hcd hx hk]
  unfold commandMods
  split_ifs with he
  · rw [List.isEmpty_iff,List.filter_eq_nil_iff] at he
    have hnew : ∀ x∈visible table,c.key≠x.key := fun x hx hk => he x hx (by simpa using hk)
    have hnone : ¬∃ x∈visible table,c.key=x.key∧c≠x∧m={ remove := some x, add := some c } := by
      intro h
      obtain ⟨x,hx,hk,-⟩ := h
      exact hnew x hx hk
    rw [mem_singleton,or_iff_left hnone,and_iff_right hnew]
  · have hold : ¬((∀ x∈visible table,c.key≠x.key)∧m={ add := some c }) := by
      intro h
      rw [List.isEmpty_iff,List.filter_eq_nil_iff] at he
      exact he fun x hx hk => h.1 x hx (by simpa using hk)
    rw [or_iff_right hold]
    simp only [mem_map,mem_filter,decide_eq_true_eq]
    constructor
    · rintro ⟨x,⟨⟨hx,hk⟩,ha⟩,rfl⟩
      exact ⟨x,hx,hk,(hdiffers hx hk).mp ha,rfl⟩
    · intro h
      obtain ⟨x,hx,hk,hne,rfl⟩ := h
      exact ⟨x,⟨⟨hx,hk⟩,(hdiffers hx hk).mpr hne⟩,rfl⟩

include horder hdpid in
theorem mem_actualDiff (m : FlowMod) : m∈actualDiff order dpid (fileFlows table) commands ↔
    (∃ r∈visible table,(∀ c∈desired dpid commands,c.key≠r.key)∧m={ remove := some r })∨
    ∃ c∈desired dpid commands,((∀ x∈visible table,c.key≠x.key)∧m={ add := some c })∨
      ∃ x∈visible table,c.key=x.key∧c≠x∧m={ remove := some x, add := some c } := by
  have hstale (r : FlowRule) : r∈((order (fileFlows table).keys).flatMap fun k =>
      ((visible table).filter (·.slot=k)).filter fun r =>
        !(desired dpid commands).any fun c => c.slot=k && c.key=r.key) ↔
      r∈visible table∧∀ c∈desired dpid commands,c.key≠r.key := by
    simp only [mem_flatMap,(horder _).mem_iff,mem_filter,decide_eq_true_eq,
      Bool.not_eq_true',any_eq_false,Bool.and_eq_true,not_and]
    constructor
    · rintro ⟨k,-,⟨hr,rfl⟩,hno⟩
      exact ⟨hr,fun c hcd hk => hno c hcd (FlowRule.slot_of_key hk) hk⟩
    · intro h
      exact ⟨r.slot,fileFlows_keys table r h.1,⟨h.1,rfl⟩,fun c hcd _ => h.2 c hcd⟩
  rw [actualDiff_eq order dpid commands table hc,mem_append,mem_reverse,mem_map,mem_flatMap]
  simp only [hstale,and_assoc,eq_comm (b := m)]
  apply or_congr_right
  apply exists_congr
  intro c
  exact and_congr_right fun hcd => mem_commandMods dpid commands table hdpid hcd m

include horder hdpid in
theorem mem_removes (r : FlowRule) :
    r∈(actualDiff order dpid (fileFlows table) commands).filterMap FlowMod.remove ↔
      r∈visible table∧r∉desired dpid commands := by
  simp only [mem_filterMap,mem_actualDiff order dpid commands table horder hc hdpid]
  constructor
  · intro ⟨m,hm,hr⟩
    rcases hm with ⟨x,hx,hno,rfl⟩ | ⟨c,hcd,⟨-,rfl⟩ | ⟨x,hx,hk,hne,rfl⟩⟩
    · obtain rfl : x=r := Option.some.inj hr
      exact ⟨hx,fun hrd => hno x hrd rfl⟩
    · cases hr
    · obtain rfl : x=r := Option.some.inj hr
      exact ⟨hx,fun hrd => hne (inj_on_of_nodup_map hc hcd hrd hk)⟩
  · intro ⟨hr,hno⟩
    by_cases hex : ∃ c∈desired dpid commands,c.key=r.key
    · obtain ⟨c,hcd,hk⟩ := hex
      exact ⟨_,.inr ⟨c,hcd,.inr ⟨r,hr,hk,fun hcr => hno (hcr ▸ hcd),rfl⟩⟩,rfl⟩
    · exact ⟨_,.inl ⟨r,hr,fun c hcd hk => hex ⟨c,hcd,hk⟩,rfl⟩,rfl⟩

include horder hdpid in
theorem desired_of_mem_adds {c : FlowRule}
    (h : c∈(actualDiff order dpid (fileFlows table) commands).filterMap FlowMod.add) :
    c∈desired dpid commands := by
  obtain ⟨m,hm,hcm⟩ := mem_filterMap.mp h
  rcases (mem_actualDiff order dpid commands table horder hc hdpid m).mp hm with
    ⟨x,-,-,rfl⟩ | ⟨b,hbd,⟨-,rfl⟩ | ⟨x,-,-,-,rfl⟩⟩
  · cases hcm
  all_goals exact Option.some.inj hcm ▸ hbd

include horder hdpid in
theorem mem_adds (ht : ∀ x∈visible table,∀ y∈visible table,x.key=y.key → x=y) (c : FlowRule) :
    c∈(actualDiff order dpid (fileFlows table) commands).filterMap FlowMod.add ↔
      c∈desired dpid commands∧c∉visible table := by
  simp only [mem_filterMap,mem_actualDiff order dpid commands table horder hc hdpid]
  constructor
  · intro ⟨m,hm,hcm⟩
    rcases hm with ⟨x,-,-,rfl⟩ | ⟨b,hbd,⟨hnew,rfl⟩ | ⟨x,hx,hk,hne,rfl⟩⟩
    · cases hcm
    · obtain rfl : b=c := Option.some.inj hcm
      exact ⟨hbd,fun hv => hnew b hv rfl⟩
    · obtain rfl : b=c := Option.some.inj hcm
      -- the table has one rule with this match, so it would be the command itself
      exact ⟨hbd,fun hv => hne (ht b hv x hx hk)⟩
  · intro ⟨hcd,hv⟩
    by_cases hex : ∃ x∈visible table,c.key=x.key
    · obtain ⟨x,hx,hk⟩ := hex
      exact ⟨_,.inr ⟨c,hcd,.inr ⟨x,hx,hk,fun hcx => hv (hcx ▸ hx),rfl⟩⟩,rfl⟩
    · exact ⟨_,.inr ⟨c,hcd,.inl ⟨fun x hx hk => hex ⟨x,hx,hk⟩,rfl⟩⟩,rfl⟩

include horder hdpid in
/-- The diff has nothing to do exactly when it sees the desired rules and no others. -/
theorem actualDiff_eq_nil_iff : actualDiff order dpid (fileFlows table) commands=[] ↔
    ∀ r,r∈visible table ↔ r∈desired dpid commands := by
  have hmem := mem_actualDiff order dpid commands table horder hc hdpid
  rw [eq_nil_iff_forall_not_mem]
  constructor
  · intro hnone r
    constructor
    · intro hr
      by_contra hrd
      have hrem := (mem_removes order dpid commands table horder hc hdpid r).mpr ⟨hr,hrd⟩
      obtain ⟨m,hm,-⟩ := mem_filterMap.mp hrem
      exact hnone m hm
    · intro hr
      by_contra hv
      by_cases hex : ∃ x∈visible table,r.key=x.key
      · obtain ⟨x,hx,hk⟩ := hex
        exact hnone _ ((hmem _).mpr (.inr ⟨r,hr,.inr ⟨x,hx,hk,fun h => hv (h ▸ hx),rfl⟩⟩))
      · exact hnone _ ((hmem _).mpr (.inr ⟨r,hr,.inl ⟨fun x hx hk => hex ⟨x,hx,hk⟩,rfl⟩⟩))
  · intro hall m hm
    rcases (hmem m).mp hm with ⟨r,hr,hno,-⟩ | ⟨c,hcd,⟨hnew,-⟩ | ⟨x,hx,hk,hne,-⟩⟩
    · exact hno r ((hall r).mp hr) rfl
    · exact hnew c ((hall c).mpr hcd) rfl
    · exact hne (inj_on_of_nodup_map hc hcd ((hall x).mp hx) hk)

end Round

end OESS.OpenFlow
