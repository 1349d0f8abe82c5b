import OESS.Framework.KeyedTable
import OESS.OpenFlow.Commands
import OESS.OpenFlow.FlowStats

namespace OESS.OpenFlow

open KeyedTable FlowRule List

/-- What a strict delete names; a switch holds one entry for each. -/
def Stat.key (s : Stat) : Match × List (String × Nat) × Nat := (s.fields,s.others,s.priority)

def Stat.isTraceroute (s : Stat) : Bool := s.fields.dlType=some tracerouteType

/-- The entry a rule is sent as, the same for every command. -/
def FlowRule.entry (r : FlowRule) : Stat := statOf (r.toDict 0)

/-- The switch's table after the queue: every strict delete is sent before the first add. -/
def replaceFlowmods (queue : List FlowMod) (table : List Stat) : List Stat :=
  putAll Stat.key ((queue.filterMap FlowMod.add).map entry)
    (deleteAll Stat.key ((queue.filterMap FlowMod.remove).map entry) table)

def readVlan (v : Int) : Int := standardVlan (if v=0 then -1 else v)

/-- The match of a rule that `parse_stat` makes of an entry. -/
def Match.read (m : Match) : Match := { m with dlVlan := m.dlVlan.map readVlan }

variable {logged : Bool} {dpid : Nat} {s s' : Stat} {c r r' : FlowRule}

theorem parseStat_fields (h : parseStat logged dpid s=some r) :
    r.fields=s.fields.read∧r.priority=s.priority∧r.dpid=dpid := by
  rw [new_eq_some h]
  simp only [Match.read,Option.map_map,and_self,and_true]
  rfl

theorem parseStat_isTraceroute (h : parseStat logged dpid s=some r) :
    r.isTraceroute=s.isTraceroute := by
  rw [FlowRule.isTraceroute,(parseStat_fields h).1]
  rfl

theorem parseStat_key (h : parseStat logged dpid s=some r) (h' : parseStat logged dpid s'=some r')
    (hk : s.key=s'.key) : r.key=r'.key := by
  simp only [Stat.key,Prod.mk.injEq] at hk
  rw [FlowRule.key,FlowRule.key,(parseStat_fields h).1,(parseStat_fields h').1,
    (parseStat_fields h).2.1,(parseStat_fields h').2.1,hk.1,hk.2.2]

theorem entry_key (hk : r.key=r'.key) : r.entry.key=r'.entry.key := by
  simp only [FlowRule.key,Prod.mk.injEq] at hk
  simp [Stat.key,FlowRule.entry,statOf,FlowRule.toDict,hk]

/-- The key of a valid rule's entry is read as a rule that is sent under the same key. -/
theorem entry_key_read {r₀ : FlowRule} (hc : new logged r₀=some c) (hk : s.key=c.entry.key)
    (h : parseStat logged dpid s=some r) : r.entry.key=s.key := by
  have hvlan := (new_accepts hc).2.1
  obtain ⟨hf,hp,-⟩ := parseStat_fields h
  have hfields : s.fields=reportedMatch c.fields.sent := congrArg Prod.fst hk
  have hothers : s.others=[] := congrArg (·.2.1) hk
  have hsame : reportedMatch (reportedMatch c.fields.sent).read.sent=reportedMatch c.fields.sent := by
    have hv : ((((c.fields.sent.dlVlan.map (·%65536)).map readVlan).filter (·≠vlanWildcard)).map
        (·%65536))=c.fields.sent.dlVlan.map (·%65536) := by
      cases hv : c.fields.sent.dlVlan with
      | none => rfl
      | some v =>
        have hrange := hvlan v (Option.filter_eq_some_iff.mp hv).1
        have hne : v≠0 := of_decide_eq_true (Option.filter_eq_some_iff.mp hv).2
        have hread : readVlan (v%65536)=v := by
          simp only [readVlan,standardVlan,ofUntagged,untagged]
          split_ifs <;> omega
        simp [hread,hne,vlanWildcard]
    simp only [reportedMatch,Match.read,Match.sent] at hv ⊢
    rw [hv]
    simp [Function.comp_def]
  rw [Stat.key,Stat.key,FlowRule.entry]
  simp [statOf,FlowRule.toDict,hf,hp,hfields,hothers,hsame]

/-- Nothing is lost between the rules and the switch: each command is read back as it was sent, and
each entry the diff looks at is named by the rule it is read as, and is that rule's entry where the
rule is a command. -/
structure ReadExactly (logged : Bool) (dpid : Nat) (table : List Stat) (commands : List FlowRule) :
    Prop where
  readBack : ∀ c∈commands,parseStat logged dpid c.entry=some c
  named : ∀ s∈table,s.isTraceroute=false → ∀ r∈parseStat logged dpid s,
    r.entry.key=s.key∧(r∈commands → r.entry=s)

/-- The switch has exactly the desired rules and the traceroute rules it had, and another diff, which
meets the hash in some other order, has an empty queue. -/
structure Reconciled (logged : Bool) (order : List Slot → List Slot) (dpid : Nat)
    (commands : List FlowRule) (before after : List Stat) : Prop where
  rules : after.Perm ((desired dpid commands).map entry++before.filter Stat.isTraceroute)
  settled : ∃ current,processStatsToFlows logged dpid after=some current∧
    actualDiff order dpid current commands=[]

section Round

variable {table : List Stat} {rules commands : List FlowRule} {order order' : List Slot → List Slot}

section Rules

variable (hrules : table.mapM (parseStat logged dpid)=some rules)
include hrules

theorem exists_read (hs : s∈table) : ∃ r,parseStat logged dpid s=some r :=
  Loops.exists_mapM_iff.mp ⟨rules,hrules⟩ s hs

theorem mem_visible_rules (r : FlowRule) :
    r∈visible rules ↔ ∃ s∈table,s.isTraceroute=false∧parseStat logged dpid s=some r := by
  rw [mem_visible,Bool.not_eq_true']
  constructor
  · intro ⟨hr,ht⟩
    obtain ⟨s,hs,hr⟩ := Loops.mem_of_mapM hrules hr
    exact ⟨s,hs,(parseStat_isTraceroute hr).symm.trans ht,hr⟩
  · intro ⟨s,hs,ht,hr⟩
    have hmem : some r∈rules.map some := Loops.mapM_eq_some_iff.mp hrules ▸ mem_map.mpr ⟨s,hs,hr⟩
    exact ⟨by simpa using hmem,(parseStat_isTraceroute hr).trans ht⟩

theorem rules_dpid : ∀ r∈rules,r.dpid=dpid := by
  intro r hr
  obtain ⟨s,-,hs⟩ := Loops.mem_of_mapM hrules hr
  exact (parseStat_fields hs).2.2

/-- Entries that are named by their rules are as distinct as these. -/
theorem visible_inj (htable : (table.map Stat.key).Nodup) (hnamed : ∀ s∈table,s.isTraceroute=false →
      ∀ r∈parseStat logged dpid s,r.entry.key=s.key) :
    ∀ x∈visible rules,∀ y∈visible rules,x.key=y.key → x=y := by
  intro x hx y hy hk
  obtain ⟨s,hs,hst,hsx⟩ := (mem_visible_rules hrules x).mp hx
  obtain ⟨u,hu,hut,huy⟩ := (mem_visible_rules hrules y).mp hy
  have hkey : s.key=u.key := by rw [← hnamed s hs hst x hsx,← hnamed u hu hut y huy,entry_key hk]
  rw [inj_on_of_nodup_map htable hs hu hkey,huy] at hsx
  exact (Option.some.inj hsx).symm

end Rules

variable (horder : ∀ l,(order l).Perm l) (horder' : ∀ l,(order' l).Perm l)
  (htable : (table.map Stat.key).Nodup) (hrules : table.mapM (parseStat logged dpid)=some rules)
  (hc : ((desired dpid commands).map FlowRule.key).Nodup)

include hc in
/-- Commands that are read back are kept apart by the switch. -/
theorem entry_inj (hback : ∀ c∈desired dpid commands,parseStat logged dpid c.entry=some c)
    {b c : FlowRule} (hb : b∈desired dpid commands) (hcd : c∈desired dpid commands)
    (hk : b.entry.key=c.entry.key) : b=c :=
  inj_on_of_nodup_map hc hb hcd (parseStat_key (hback b hb) (hback c hcd) hk)

variable {after : List Stat}

include hc horder' in
/-- What the next diff asks of the table it finds. -/
theorem settled_iff :
    (∃ current,processStatsToFlows logged dpid after=some current∧
      actualDiff order' dpid current commands=[]) ↔
      (∀ s∈after,∃ r,parseStat logged dpid s=some r)∧∀ r,
        (∃ s∈after,s.isTraceroute=false∧parseStat logged dpid s=some r) ↔ r∈desired dpid commands := by
  have hnil {seen : List FlowRule} (hseen : after.mapM (parseStat logged dpid)=some seen) :=
    actualDiff_eq_nil_iff order' dpid commands seen horder' hc (rules_dpid hseen)
  simp only [processStatsToFlows,Option.map_eq_some_iff]
  constructor
  · rintro ⟨_,⟨seen,hseen,rfl⟩,hempty⟩
    refine ⟨fun s => exists_read hseen,fun r => ?_⟩
    rw [← mem_visible_rules hseen,(hnil hseen).mp hempty r]
  · intro ⟨hall,hvis⟩
    obtain ⟨seen,hseen⟩ := Loops.exists_mapM_iff.mpr hall
    refine ⟨_,⟨seen,hseen,rfl⟩,(hnil hseen).mpr fun r => ?_⟩
    rw [mem_visible_rules hseen,hvis r]

include horder htable hrules hc in
theorem ReadExactly.rules_perm (h : ReadExactly logged dpid table (desired dpid commands))
    (htrace : ∀ c∈desired dpid commands,c.entry.isTraceroute=false) :
    (replaceFlowmods (actualDiff order dpid (fileFlows rules) commands) table).Perm
      ((desired dpid commands).map entry++table.filter Stat.isTraceroute) := by
  have hremoves := mem_removes order dpid commands rules horder hc (rules_dpid hrules)
  have hadds := mem_adds order dpid commands rules horder hc (rules_dpid hrules)
    (visible_inj hrules htable fun s hs ht r hr => (h.named s hs ht r hr).1)
  have hdesired {s : Stat} (hs : s∈table) (ht : s.isTraceroute=false) {r : FlowRule}
      (hr : parseStat logged dpid s=some r) :
      s∈(desired dpid commands).map entry ↔ r∈desired dpid commands := by
    rw [mem_map]
    constructor
    · intro ⟨c,hcd,hcs⟩
      have hback := h.readBack c hcd
      rw [hcs,hr] at hback
      rwa [Option.some.inj hback]
    · intro hrd
      exact ⟨r,hrd,(h.named s hs ht r hr).2 hrd⟩
  have hperm := reconcile_perm Stat.key table ((desired dpid commands).map entry)
    (((actualDiff order dpid (fileFlows rules) commands).filterMap FlowMod.remove).map entry)
    (((actualDiff order dpid (fileFlows rules) commands).filterMap FlowMod.add).map entry)
    (!·.isTraceroute) htable ?_ ?_ ?_ ?_
  · simpa [replaceFlowmods] using hperm
  · rw [map_map]
    exact hc.of_map.map_on fun b hb c hcd => entry_inj hc h.readBack hb hcd
  · intro e he s _ ht hk
    obtain ⟨c,hcd,rfl⟩ := mem_map.mp he
    have hf : s.fields=c.entry.fields := congrArg Prod.fst hk
    rw [Bool.not_eq_false',Stat.isTraceroute,hf] at ht
    exact Bool.false_ne_true ((htrace c hcd).symm.trans ht)
  · intro k
    simp only [map_map,mem_map,hremoves,mem_visible_rules hrules,Bool.not_eq_true']
    constructor
    · rintro ⟨r,⟨⟨s,hs,ht,hr⟩,hrd⟩,rfl⟩
      rw [← hdesired hs ht hr] at hrd
      exact ⟨s,hs,ht,by rwa [← mem_map],(h.named s hs ht r hr).1.symm⟩
    · rintro ⟨s,hs,ht,hsd,rfl⟩
      obtain ⟨r,hr⟩ := exists_read hrules hs
      rw [← mem_map,hdesired hs ht hr] at hsd
      exact ⟨r,⟨⟨s,hs,ht,hr⟩,hsd⟩,(h.named s hs ht r hr).1⟩
  · intro e
    simp only [mem_map,hadds,mem_visible_rules hrules,Bool.not_eq_true']
    constructor
    · rintro ⟨c,⟨hcd,hnew⟩,rfl⟩
      exact ⟨⟨c,hcd,rfl⟩,fun hold => hnew ⟨c.entry,hold.1,hold.2,h.readBack c hcd⟩⟩
    · rintro ⟨⟨c,hcd,rfl⟩,hnew⟩
      refine ⟨c,⟨hcd,?_⟩,rfl⟩
      rintro ⟨s,hs,ht,hr⟩
      rw [(h.named s hs ht c hr).2 hcd] at hnew
      exact hnew ⟨hs,ht⟩

include horder horder' htable hrules hc in
theorem ReadExactly.reconciled (h : ReadExactly logged dpid table (desired dpid commands))
    (htrace : ∀ c∈commands,c.isTraceroute=false) : Reconciled logged order' dpid commands table
      (replaceFlowmods (actualDiff order dpid (fileFlows rules) commands) table) := by
  have hct (c : FlowRule) (hcd : c∈desired dpid commands) : c.entry.isTraceroute=false := by
    rw [← parseStat_isTraceroute (h.readBack c hcd),htrace c ((mem_desired dpid commands c).mp hcd).1]
  have hperm := h.rules_perm horder htable hrules hc hct
  refine ⟨hperm,(settled_iff horder' hc).mpr ⟨?_,?_⟩⟩
  · intro s hs
    rcases mem_append.mp (hperm.mem_iff.mp hs) with hs | hs
    · obtain ⟨c,hcd,rfl⟩ := mem_map.mp hs
      exact ⟨c,h.readBack c hcd⟩
    · exact exists_read hrules (mem_filter.mp hs).1
  · intro r
    simp only [hperm.mem_iff,mem_append,mem_map,mem_filter]
    constructor
    · rintro ⟨s,⟨c,hcd,rfl⟩ | ⟨-,ht⟩,ht',hr⟩
      · rwa [← Option.some.inj ((h.readBack c hcd).symm.trans hr)]
      · exact absurd (ht'.symm.trans ht) Bool.false_ne_true
    · intro hrd
      exact ⟨_,.inl ⟨r,hrd,rfl⟩,hct r hrd,h.readBack r hrd⟩

theorem Reconciled.mem_commands (h : Reconciled logged order' dpid commands table after) (hs : s∈after)
    (ht : s.isTraceroute=false) : ∃ c∈desired dpid commands,c.entry=s := by
  rcases mem_append.mp (h.rules.mem_iff.mp hs) with hs | hs
  · exact mem_map.mp hs
  · exact absurd (ht.symm.trans (mem_filter.mp hs).2) Bool.false_ne_true

include horder' hc in
/-- After a round that leaves nothing to do each command is read back. -/
theorem Reconciled.readBack (h : Reconciled logged order' dpid commands table after) :
    ∀ c∈desired dpid commands,parseStat logged dpid c.entry=some c := by
  have hsource {c : FlowRule} (hcd : c∈desired dpid commands) :
      ∃ b∈desired dpid commands,parseStat logged dpid b.entry=some c := by
    obtain ⟨s,hs,ht,hr⟩ := (((settled_iff horder' hc).mp h.settled).2 c).mpr hcd
    obtain ⟨b,hb,rfl⟩ := h.mem_commands hs ht
    exact ⟨b,hb,hr⟩
  intro c hcd
  obtain ⟨b,hb,hbc⟩ := hsource hcd
  obtain ⟨a,ha,hab⟩ := hsource hb
  obtain ⟨_,-,hread⟩ := hsource ha
  -- `a` and `b` have one key on the switch, so what is read from their entries does too
  have hk := parseStat_key hab hbc (entry_key_read hread rfl hab).symm
  rwa [inj_on_of_nodup_map hc hb hcd hk] at hbc

include horder horder' htable hrules hc in
theorem Reconciled.readExactly (h : Reconciled logged order' dpid commands table
      (replaceFlowmods (actualDiff order dpid (fileFlows rules) commands) table)) :
    ReadExactly logged dpid table (desired dpid commands) := by
  have hback := h.readBack horder' hc
  have hremoves := mem_removes order dpid commands rules horder hc (rules_dpid hrules)
  have hdesired (c : FlowRule) :=
    desired_of_mem_adds order dpid commands rules horder hc (rules_dpid hrules) (c := c)
  have hadds := mem_adds order dpid commands rules horder hc (rules_dpid hrules)
  set removes := (actualDiff order dpid (fileFlows rules) commands).filterMap FlowMod.remove
  set adds := (actualDiff order dpid (fileFlows rules) commands).filterMap FlowMod.add
  -- an entry that no delete and no add names stays, so it is a command's
  have hkept {s : Stat} (hs : s∈table) (ht : s.isTraceroute=false)
      (hd : ¬∃ x∈removes,x.entry.key=s.key) (ha : ¬∃ c∈adds,c.entry.key=s.key) :
      ∃ c∈desired dpid commands,c.entry=s := by
    refine h.mem_commands ?_ ht
    have hagree : ∀ a∈adds.map entry,∀ b∈adds.map entry,a.key=b.key → a=b := by
      simp only [List.forall_mem_map]
      intro a ha b hb hk
      rw [entry_inj hc hback (hdesired a ha) (hdesired b hb) hk]
    rw [replaceFlowmods,mem_putAll Stat.key _ _ hagree,mem_deleteAll]
    simp only [map_map,mem_map]
    exact .inr ⟨⟨hs,hd⟩,ha⟩
  have hnamed : ∀ s∈table,s.isTraceroute=false →
      ∀ r∈parseStat logged dpid s,r.entry.key=s.key := by
    intro s hs ht r hr
    by_cases hd : ∃ x∈removes,x.entry.key=s.key
    · obtain ⟨x,hx,hk⟩ := hd
      obtain ⟨u,-,-,hux⟩ := (mem_visible_rules hrules x).mp ((hremoves x).mp hx).1
      exact entry_key_read hux hk.symm hr
    by_cases ha : ∃ c∈adds,c.entry.key=s.key
    · obtain ⟨c,hca,hk⟩ := ha
      exact entry_key_read (hback c (hdesired c hca)) hk.symm hr
    obtain ⟨c,hcd,rfl⟩ := hkept hs ht hd ha
    rw [Option.some.inj (hr.symm.trans (hback c hcd))]
  refine ⟨hback,fun s hs ht r hr => ⟨hnamed s hs ht r hr,fun hrd => ?_⟩⟩
  have hvisible : r∈visible rules := (mem_visible_rules hrules r).mpr ⟨s,hs,ht,hr⟩
  have hd : ¬∃ x∈removes,x.entry.key=s.key := by
    rintro ⟨x,hx,hk⟩
    obtain ⟨hv,hxd⟩ := (hremoves x).mp hx
    obtain ⟨u,hu,hut,hux⟩ := (mem_visible_rules hrules x).mp hv
    rw [inj_on_of_nodup_map htable hu hs ((hnamed u hu hut x hux).symm.trans hk),hr] at hux
    exact hxd (Option.some.inj hux ▸ hrd)
  have ha : ¬∃ c∈adds,c.entry.key=s.key := by
    rintro ⟨c,hca,hk⟩
    obtain rfl := entry_inj hc hback (hdesired c hca) hrd (hk.trans (hnamed s hs ht r hr).symm)
    exact ((hadds (visible_inj hrules htable hnamed) c).mp hca).2 hvisible
  obtain ⟨c,hcd,rfl⟩ := hkept hs ht hd ha
  rw [Option.some.inj (hr.symm.trans (hback c hcd))]

end Round

def oneSwitch : Env Unit where
  logged := false
  dpidLookup := fun _ => 7
  dpidLookup_injective := by
    intro a b _
    rfl
  nodeIdLookup := fun _ => 1
  keys := List.dedup
  keys_perm := fun _ => List.Perm.refl _
  spDijkstra := fun _ _ _ => []

def patched : Details Unit where
  state := .active
  internalIds := fun _ _ _ => 0
  endpoints := [⟨(),"e1",1,200,true,[]⟩,⟨(),"e2",2,300,true,[]⟩]

def wanted : List FlowRule :=
  [⟨32768,⟨some 1,some 200,none,none⟩,[.setVlanId 300,.output 2],7⟩,
   ⟨32768,⟨some 2,some 300,none,none⟩,[.setVlanId 200,.output 1],7⟩,
   ⟨32768,⟨none,some (-1),some 35020,none⟩,[.output 65533],7⟩,
   ⟨32768,⟨none,some (-1),some 34998,none⟩,[.output 65533],7⟩]

/-- An entry to replace, a stale one with the given VLAN and a traceroute one. -/
def worn (vlan : Int) : List Stat :=
  [⟨32768,⟨some 1,some 200,none,none⟩,[.output 9],[]⟩,⟨32768,⟨some 5,some vlan,none,none⟩,[.output 1],[]⟩,
   ⟨40000,⟨some 1,none,some 34997,none⟩,[.output 65533],[]⟩]

/-- What the switch with the stale entry of VLAN 0 is read as. -/
def misread : List FlowRule :=
  [⟨32768,⟨some 1,some 200,none,none⟩,[.output 9],7⟩,⟨32768,⟨some 5,some (-1),none,none⟩,[.output 1],7⟩,
   ⟨40000,⟨some 1,none,some 34997,none⟩,[.output 65533],7⟩]

end OESS.OpenFlow
