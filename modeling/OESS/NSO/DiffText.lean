import OESS.NSO.Converge

namespace OESS.NSO

open List KeyedTable KeyedDiff

/-- Connections seen, services not yet met, and the texts. -/
structure TextSync where
  synced : List (Layer×Nat)
  held : List NsoConnection
  texts : DeviceTexts

def TextSync.visit (s : TextSync) (c : Connection) : TextSync :=
  if c.key∈s.synced then s
  else
    { synced := s.synced++[c.key]
      held := KeyedTable.deleteKey NsoConnection.key c.key s.held
      texts := s.texts++nsoDiff c (s.held.find? (·.key=c.key)) }

def TextSync.leave (s : TextSync) (x : NsoConnection) : TextSync :=
  {s with texts := s.texts++nsoDiffEmpty x}

/-- The texts of a device, in the order in which they are joined. -/
def partsAt (texts : DeviceTexts) (device : String) : List Text :=
  (texts.filter (·.1=device)).map Prod.snd

/-- By parts; nodes of the list are there from the start. -/
def networkDiff (nodes : List Node) (texts : DeviceTexts) (device : String) : Option (List Text) :=
  if device∈nodes.map Node.shortName++texts.map Prod.fst then some (partsAt texts device) else none

namespace Controller

variable (s : Controller)

def services : List NsoConnection := KeyedTable.putAll NsoConnection.key s.nso []

def textSync : TextSync :=
  let met := s.visits.foldl TextSync.visit ⟨[],s.services,[]⟩
  ((met.held.filter (·.layer=.l2))++met.held.filter (·.layer=.l3)).foldl TextSync.leave met

/-- The short name under which the text is asked for. -/
def requestedName (nodeId : Nat) (nodeName : Option String) : String :=
  nodeName.getD (((s.nodes.filter (·.nodeId=nodeId)).getLast?.map Node.shortName).getD "")

/-- `get_diff_text`, the text by the parts that are joined. -/
def getDiffText (nodeId : Nat) (nodeName : Option String) : Option (List Text) :=
  networkDiff s.nodes s.textSync.texts (s.requestedName nodeId nodeName)

def diffText (device : String) : Option (List Text) := networkDiff s.nodes s.sync.texts device

/-- The two texts agree up to the order of their parts. -/
def TextsAgree (nodeId : Nat) (nodeName : Option String) : Prop :=
  Option.Rel List.Perm (s.getDiffText nodeId nodeName)
    (s.diffText (s.requestedName nodeId nodeName))

def reported (c : Connection) : Option NsoConnection := s.services.find? fun x => x.key=c.key

/-- One of the other layer with its id was met before. -/
def Shadowed (c : Connection) : Prop :=
  ∃ before after,s.visits=before++c::after∧c.key∉before.map Connection.key∧
    c.connId∈before.map Connection.connId

def shadowed : List Connection :=
  (KeyedTable.firsts Connection.key s.visits).filter fun c => c.key∉s.compared.map Connection.key

/-- The cached connections that `get_diff_text` compares. -/
def shown : List Connection := KeyedTable.firsts Connection.key s.visits

end Controller

/-- Nothing of it or of its service is on the device. -/
structure Idle (c : Connection) (held : Option NsoConnection) (device : String) : Prop where
  active : ∀ e∈c.active,e.shortNodeName≠device
  service : c.layer=.l3 → c.workgroup≠none → ∀ x,held=some x → ∀ y∈x.endpoint,y.device≠device

def emptied (held : Option NsoConnection) : DeviceTexts := held.elim [] nsoDiffEmpty

theorem foldl_textVisit (held : List NsoConnection) (conns : List Connection) :
    conns.foldl TextSync.visit ⟨[],held,[]⟩=
      ⟨(KeyedTable.firsts Connection.key conns).map Connection.key,
        held.filter (·.key∉(KeyedTable.firsts Connection.key conns).map Connection.key),
        (KeyedTable.firsts Connection.key conns).flatMap fun c =>
          nsoDiff c (held.find? (·.key=c.key))⟩ := by
  induction conns using reverseRecOn with
  | nil => simp [KeyedTable.firsts]
  | append_singleton conns c ih =>
    rw [foldl_append,ih,foldl_cons,foldl_nil,firsts_snoc,TextSync.visit]
    split_ifs with hc
    · rfl
    rw [find_filter held hc]
    simp only [map_append,flatMap_append,map_cons,map_nil,
      flatMap_cons,flatMap_nil,append_nil,TextSync.mk.injEq,true_and,and_true]
    rw [KeyedTable.deleteKey,filter_filter]
    congr 1
    funext x
    rw [Bool.eq_iff_iff]
    simp only [Bool.and_eq_true,decide_eq_true_eq,mem_append,mem_singleton,not_or]
    exact and_comm

theorem foldl_textLeave (s : TextSync) (xs : List NsoConnection) :
    (xs.foldl TextSync.leave s).texts=s.texts++xs.flatMap nsoDiffEmpty := by
  induction xs generalizing s with
  | nil => simp
  | cons x xs ih => simp [ih,TextSync.leave]

theorem partsAt_append (a b : DeviceTexts) (d : String) :
    partsAt (a++b) d=partsAt a d++partsAt b d := by
  simp [partsAt]

theorem partsAt_flatMap {ι : Type*} (f : ι → DeviceTexts) (l : List ι) (d : String) :
    partsAt (l.flatMap f) d=l.flatMap fun i => partsAt (f i) d := by
  simp only [partsAt,filter_flatMap,map_flatMap]

variable (s : Controller) (texts : DeviceTexts) (active : List Endpoint) (d : String)
  (held : Option NsoConnection) {ch : Char}

theorem partsAt_nil_iff : partsAt texts d=[] ↔ d∉texts.map Prod.fst := by
  rw [partsAt,map_eq_nil_iff,filter_eq_nil_iff,mem_map,not_exists]
  refine forall_congr' fun t => ?_
  rw [decide_eq_true_eq,not_and]

theorem networkDiff_rel_iff (nodes : List Node) (a b : DeviceTexts) (d : String) :
    Option.Rel List.Perm (networkDiff nodes a d) (networkDiff nodes b d) ↔
      (partsAt a d).Perm (partsAt b d) := by
  simp only [networkDiff,mem_append]
  constructor
  · intro h
    split_ifs at h with ha hb hb
    · obtain h | h := h
      exact h
    · cases h
    · cases h
    · rw [(partsAt_nil_iff a d).mpr fun h => ha (.inr h),
        (partsAt_nil_iff b d).mpr fun h => hb (.inr h)]
  · intro h
    have hsame : d∈a.map Prod.fst ↔ d∈b.map Prod.fst := by
      rw [← not_iff_not,← partsAt_nil_iff,← partsAt_nil_iff]
      constructor
      · intro hnil
        exact nil_perm.mp (hnil ▸ h)
      · intro hnil
        exact perm_nil.mp (hnil ▸ h)
    simp only [hsame]
    split_ifs
    · exact .some h
    · exact .none

theorem mem_shadowed_iff (c : Connection) : c∈s.shadowed ↔ s.Shadowed c := by
  rw [Controller.shadowed,mem_filter,decide_eq_true_eq,mem_firsts_iff]
  constructor
  · intro ⟨⟨before,after,hl,hk⟩,hnot⟩
    refine ⟨before,after,hl,hk,?_⟩
    by_contra hid
    exact hnot (mem_map_of_mem ((mem_firsts_iff Connection.connId _ c).mpr ⟨before,after,hl,hid⟩))
  · intro ⟨before,after,hl,hk,hid⟩
    refine ⟨⟨before,after,hl,hk⟩,fun hmem => ?_⟩
    obtain ⟨b,hb,he⟩ := mem_map.mp hmem
    obtain rfl : b=c := inj_on_of_nodup_map (firsts_spec Connection.key s.visits).1
      (firsts_coarser (p := Prod.snd) Connection.key hb)
      ((mem_firsts_iff _ _ c).mpr ⟨before,after,hl,hk⟩) he
    -- a compared connection is met with a new id, so before any connection with this id
    obtain ⟨before',after',hl',hid'⟩ := (mem_firsts_iff Connection.connId _ b).mp hb
    rcases append_eq_append_iff.mp (hl.symm.trans hl') with ⟨m,rfl,-⟩ | ⟨m,rfl,hm⟩
    · rw [map_append] at hid'
      exact hid' (mem_append_left _ hid)
    cases m with
    | nil =>
      rw [append_nil] at hid
      exact hid' hid
    | cons a m =>
      obtain rfl : b=a := (cons.inj hm).1
      exact hk (mem_map_of_mem (mem_append_right _ mem_cons_self))

theorem firsts_shadowed_perm : s.shown.Perm (s.compared++s.shadowed) := by
  refine (firsts_perm Connection.key Prod.snd s.visits).trans (Perm.of_eq ?_)
  exact congrArg _ (filter_congr fun c _ => decide_eq_decide.mpr .rfl)

theorem services_shadowed_perm : (s.services.filter (·.key∈s.shadowed.map Connection.key)).Perm
      (s.shadowed.filterMap s.reported) := by
  have hshadowed : (s.shadowed.map Connection.key).Nodup :=
    (firsts_spec Connection.key s.visits).1.sublist (filter_sublist.map _)
  have hservices : (s.services.map NsoConnection.key).Nodup := putAll_keys_nodup _ _ _ nodup_nil
  have hfound := found_perm hshadowed hservices
  rw [filterMap_map] at hfound
  refine (Perm.of_eq ?_).trans hfound
  exact filter_congr fun x _ => decide_eq_decide.mpr .rfl

/-- The services left over include those of the shadowed connections. -/
theorem leftovers_perm : (s.services.filter (·.key∉s.compared.map Connection.key)).Perm
      ((s.services.filter (·.key∉s.shown.map Connection.key))++
        s.shadowed.filterMap s.reported) := by
  have hkeys (k : Layer×Nat) : k∈s.shown.map Connection.key ↔
      k∈s.compared.map Connection.key∨k∈s.shadowed.map Connection.key := by
    rw [((firsts_shadowed_perm s).map Connection.key).mem_iff,map_append,mem_append]
  have hapart {k : Layer×Nat} (hk : k∈s.shadowed.map Connection.key) :
      k∉s.compared.map Connection.key := by
    obtain ⟨c,hc,rfl⟩ := mem_map.mp hk
    exact of_decide_eq_true (mem_filter.mp hc).2
  have hsplit := filter_append_perm (fun x : NsoConnection =>
    decide (x.key∉s.shadowed.map Connection.key))
    (s.services.filter (·.key∉s.compared.map Connection.key))
  rw [filter_filter,filter_filter] at hsplit
  have hleft : (s.services.filter fun x => decide (x.key∉s.shadowed.map Connection.key) &&
      decide (x.key∉s.compared.map Connection.key))=
      s.services.filter fun x => x.key∉s.shown.map Connection.key := by
    refine filter_congr fun x _ => ?_
    rw [Bool.eq_iff_iff]
    simp only [Bool.and_eq_true,decide_eq_true_eq,hkeys,not_or]
    exact and_comm
  have hright : (s.services.filter fun x => !decide (x.key∉s.shadowed.map Connection.key) &&
      decide (x.key∉s.compared.map Connection.key))=
      s.services.filter fun x => x.key∈s.shadowed.map Connection.key := by
    refine filter_congr fun x _ => ?_
    rw [Bool.eq_iff_iff]
    simp only [Bool.and_eq_true,Bool.not_eq_true',decide_eq_false_iff_not,decide_eq_true_eq,not_not]
    exact ⟨And.left,fun h => ⟨h,hapart h⟩⟩
  rw [hleft,hright] at hsplit
  exact hsplit.symm.trans ((services_shadowed_perm s).append_left _)

theorem textSync_texts : (partsAt s.textSync.texts d).Perm
    ((s.shown.flatMap fun c => partsAt (nsoDiff c (s.reported c)) d)++
    (s.services.filter (·.key∉s.shown.map Connection.key)).flatMap
      fun x => partsAt (nsoDiffEmpty x) d) := by
  rw [Controller.textSync,foldl_textLeave,foldl_textVisit,partsAt_append,partsAt_flatMap,partsAt_flatMap]
  exact Perm.append_left _ ((layers_perm _).flatMap_right _)

theorem sync_texts : (partsAt s.sync.texts d).Perm
    ((s.compared.flatMap fun c => partsAt (nsoDiff c (s.reported c)) d)++
    (s.services.filter (·.key∉s.compared.map Connection.key)).flatMap
      fun x => partsAt (nsoDiffEmpty x) d) := by
  rw [Controller.sync,(foldl_leave _ _).2,foldl_visit,partsAt_append,partsAt_flatMap,partsAt_flatMap]
  exact Perm.append_left _ ((layers_perm _).flatMap_right _)

/-- Shadowed connections are compared, not removed. -/
theorem parts_perm_iff : (partsAt s.textSync.texts d).Perm (partsAt s.sync.texts d) ↔
      (s.shadowed.flatMap fun c => partsAt (nsoDiff c (s.reported c)) d).Perm
        (s.shadowed.flatMap fun c => partsAt (emptied (s.reported c)) d) := by
  have hemptied : (s.shadowed.filterMap s.reported).flatMap (fun x => partsAt (nsoDiffEmpty x) d)=
      s.shadowed.flatMap fun c => partsAt (emptied (s.reported c)) d := by
    rw [filterMap_eq_flatMap_toList,flatMap_assoc]
    refine flatMap_congr fun c _ => ?_
    cases s.reported c <;> simp [emptied,partsAt]
  have htext := (textSync_texts s d).trans (Perm.append_right _
    ((firsts_shadowed_perm s).flatMap_right fun c => partsAt (nsoDiff c (s.reported c)) d))
  have hsync := (sync_texts s d).trans (Perm.append_left _
    ((leftovers_perm s).flatMap_right fun x => partsAt (nsoDiffEmpty x) d))
  rw [flatMap_append,append_assoc] at htext
  rw [flatMap_append,hemptied] at hsync
  have hswap := htext.trans (Perm.append_left _ perm_append_comm)
  constructor
  · intro h
    have hall := hswap.symm.trans (h.trans hsync)
    exact (perm_append_left_iff _).mp ((perm_append_left_iff _).mp hall)
  · intro h
    exact hswap.trans ((Perm.append_left _ (Perm.append_left _ h)).trans hsync.symm)

/-- The first character: taken away, added or kept. -/
def Headed (ch : Char) (line : String) : Prop := line.toList.head?=some ch
  deriving Decidable

@[simp] theorem Headed.append {a b : String} (h : Headed ch a) : Headed ch (a++b) := by
  rw [Headed,String.toList_append,head?_append,h,Option.some_or]

@[simp] theorem headed_toString (ch : Char) (a : String) : Headed ch (toString a) ↔ Headed ch a :=
  .rfl

def Loud (line : String) : Prop := Headed '+' line∨Headed ' ' line

theorem Headed.not_loud {line : String} (h : Headed ch line) (hplus : ch ≠ '+') (hblank : ch ≠ ' ') :
    ¬Loud line := by
  rintro (hloud | hloud)
  · exact hplus (Option.some.inj (h.symm.trans hloud))
  · exact hblank (Option.some.inj (h.symm.trans hloud))

def linesAt (d : String) (t : String×Text) : Text := if t.1=d then t.2 else []

theorem textAt_eq_flatMap : textAt texts d=texts.flatMap (linesAt d) := by
  induction texts with
  | nil => rfl
  | cons t texts ih =>
    rw [flatMap_cons,← ih,textAt,linesAt,filter_cons]
    split_ifs with h1 h2 h2
    · rfl
    · exact absurd (of_decide_eq_true h1) h2
    · exact absurd (decide_eq_true h2) h1
    · rfl

theorem partsAt_flatten : (partsAt texts d).flatten=textAt texts d := rfl

/-- Only a removal does nothing but take lines away. -/
structure TextBlocks (removed : NsoEndpoint → String×Text)
    (compared : NsoEndpoint → Endpoint → String×Text) (added : Endpoint → String×Text) : Prop where
  removedAt : ∀ y,(removed y).1=y.device
  removedLines : ∀ y,(removed y).2≠[]∧∀ l∈(removed y).2,Headed '-' l
  comparedAt : ∀ y e,(compared y e).1=y.device
  comparedLines : ∀ y e,(compared y e).2=[]∨∃ l∈(compared y e).2,Loud l
  addedAt : ∀ e,(added e).1=e.shortNodeName
  addedLines : ∀ e,∃ l∈(added e).2,Loud l

theorem innerTagLine_headed {sign : String} (h : Headed ch sign) (tag : Option Nat) :
    ∀ l∈innerTagLine sign tag,Headed ch l := by
  cases tag <;> simp [innerTagLine,String.append_assoc,h]

/-- The first lines of a comparison are about the interface. -/
theorem interfaceLines_loud {p : Prop} [Decidable p] {a b c : String} (hb : Loud b) (hc : Loud c)
    (rest : Text) : ∃ l∈(if p then [a,b] else [c])++rest,Loud l := by
  by_cases hp : p
  · exact ⟨b,by simp [hp],hb⟩
  · exact ⟨c,by simp [hp],hc⟩

theorem l2_blocks : TextBlocks L2Circuit.removed L2Circuit.compared L2Circuit.added where
  removedAt _ := rfl
  removedLines y := by
    have htag : ∀ l∈innerTagLine "-" y.innerTag,Headed '-' l := innerTagLine_headed (by decide) _
    refine ⟨by simp [L2Circuit.removed],?_⟩
    refine forall_mem_append.mpr ⟨?_,htag⟩
    simp +decide [String.append_assoc]
  comparedAt _ _ := rfl
  comparedLines y e := by
    by_cases h : L2Circuit.Agrees y e
    · exact .inl ((L2Circuit.compared_nil_iff y e).mpr h)
    refine .inr ?_
    simp only [L2Circuit.compared,h,append_assoc]
    apply interfaceLines_loud
    all_goals simp +decide [Loud,String.append_assoc]
  addedAt _ := rfl
  addedLines e := by
    refine ⟨s!"+  {e.interface}.{e.unit}\n",by simp [L2Circuit.added],?_⟩
    simp +decide [Loud,String.append_assoc]

theorem removedPeer_headed (p : NsoPeer) : ∀ l∈VRF.removedPeer p,Headed '-' l := by
  simp +decide [VRF.removedPeer,VRF.peerLines,String.append_assoc]

theorem l3_blocks (localAsn : Nat) :
    TextBlocks VRF.removed (VRF.compared localAsn) (VRF.added localAsn) where
  removedAt _ := rfl
  removedLines y := by
    have htag : ∀ l∈innerTagLine "-" y.innerTag,Headed '-' l := innerTagLine_headed (by decide) _
    have hpeers : ∀ l∈y.peer.flatMap VRF.removedPeer,Headed '-' l := by
      intro l hl
      obtain ⟨p,-,hl⟩ := mem_flatMap.mp hl
      exact removedPeer_headed p l hl
    refine ⟨by simp [VRF.removed],?_⟩
    refine forall_mem_append.mpr ⟨forall_mem_append.mpr ⟨?_,htag⟩,hpeers⟩
    simp +decide [String.append_assoc]
  comparedAt _ _ := rfl
  comparedLines y e := by
    unfold VRF.compared
    split_ifs
    · exact .inl rfl
    refine .inr ?_
    simp only [VRF.endpointLines,append_assoc]
    apply interfaceLines_loud
    all_goals simp +decide [Loud,String.append_assoc]
  addedAt _ := rfl
  addedLines e := by
    refine ⟨s!"+  {e.interface}.{e.unit}\n",by simp [VRF.added],?_⟩
    simp +decide [Loud,String.append_assoc]

def removedLines (removed : NsoEndpoint → String×Text) (reported : List NsoEndpoint) (d : String) :
    Text := reported.flatMap fun y => linesAt d (removed y)

section BlockLines

variable {removed : NsoEndpoint → String×Text} {compared : NsoEndpoint → Endpoint → String×Text}
  {added : Endpoint → String×Text} (h : TextBlocks removed compared added)

include h

theorem removedLines_nil_iff (reported : List NsoEndpoint) (d : String) :
    removedLines removed reported d=[] ↔ ∀ y∈reported,y.device≠d := by
  rw [removedLines,flatMap_eq_nil_iff]
  refine forall₂_congr fun y _ => ?_
  rw [linesAt,h.removedAt]
  split_ifs with hd
  · exact ⟨fun hnil => absurd hnil (h.removedLines y).1,fun hne => absurd hd hne⟩
  · exact ⟨fun _ => hd,fun _ => rfl⟩

theorem removedLines_headed (reported : List NsoEndpoint) (d : String) :
    ∀ l∈removedLines removed reported d,Headed '-' l := by
  intro l hl
  obtain ⟨y,-,hl⟩ := mem_flatMap.mp hl
  unfold linesAt at hl
  split_ifs at hl
  · exact (h.removedLines y).2 l hl
  · exact (not_mem_nil hl).elim

variable (active : List Endpoint) (reported : List NsoEndpoint) (d : String)

theorem textAt_of_away (haway : ∀ e∈active,e.shortNodeName≠d) :
    textAt (KeyedDiff.diff Endpoint.place NsoEndpoint.place removed compared added active reported)
      d=removedLines removed reported d := by
  rw [textAt_eq_flatMap]
  apply blocks_lines_of_away (A := (·.shortNodeName=d))
  · intro y e hk hat
    have hd : y.device≠d := fun hd => hat ((congrArg Prod.fst hk).trans hd)
    simp [linesAt,h.removedAt,h.comparedAt,hd]
  · intro e hat
    simp [linesAt,h.addedAt,hat]
  · intro e he
    rcases mem_of_mem_putAll _ he with he | he
    · exact haway e he
    · exact (not_mem_nil he).elim

theorem textAt_short (hquiet : ∀ l∈textAt (KeyedDiff.diff Endpoint.place NsoEndpoint.place removed compared added
      active reported) d,¬Loud l) :
    (textAt (KeyedDiff.diff Endpoint.place NsoEndpoint.place removed compared added active reported)
      d).length ≤ (removedLines removed reported d).length∧
    ((textAt (KeyedDiff.diff Endpoint.place NsoEndpoint.place removed compared added active reported)
      d).length=(removedLines removed reported d).length → ∀ e∈active,e.shortNodeName≠d) := by
  rw [textAt_eq_flatMap] at hquiet ⊢
  have hle := blocks_lines_le (A := fun e : Endpoint => e.shortNodeName=d)
    ?_ ?_ ?_ hquiet
  · refine ⟨hle.1,fun heq e he hd => ?_⟩
    obtain ⟨a,ha,hk⟩ := exists_mem_putAll Endpoint.place (.inl he)
    exact hle.2 heq a ha ((congrArg Prod.fst hk).trans hd)
  · intro y e hk
    unfold linesAt
    split_ifs
    · exact h.comparedLines y e
    · exact .inl rfl
  · intro y e hk hat
    have hd : y.device=d := (congrArg Prod.fst hk).symm.trans hat
    simp [linesAt,h.removedAt,hd,(h.removedLines y).1]
  · intro e
    constructor
    · intro hat
      obtain ⟨l,hl,hloud⟩ := h.addedLines e
      exact ⟨l,by simpa [linesAt,h.addedAt,hat] using hl,hloud⟩
    · intro hat
      simp [linesAt,h.addedAt,hat]

end BlockLines

theorem partsAt_filterMap {keys : List String} (hkeys : keys.Nodup) (p : String → Prop)
    [DecidablePred p] (g : String → Text) (d : String) :
    partsAt (keys.filterMap fun k => if p k then none else some (k,g k)) d=
      if d∈keys∧¬p d then [g d] else [] := by
  have hkept : (keys.filterMap fun k => if p k then none else some (k,g k))=
      (keys.filter fun k => ¬p k).map fun k => (k,g k) := by
    rw [← filterMap_eq_map,filterMap_filter]
    refine filterMap_congr fun k _ => ?_
    by_cases hp : p k <;> simp [hp]
  have hone := (hkeys.filter fun k => ¬p k).count (a := d)
  rw [hkept,partsAt,filter_map,map_map]
  change ((keys.filter fun k => ¬p k).filter (· == d)).map g=_
  rw [filter_beq,hone]
  split_ifs <;> simp_all

theorem mem_diffKeys_of_textAt {active : List Endpoint} {texts : DeviceTexts} {d : String}
    (h : textAt texts d≠[]) : d∈diffKeys active texts := by
  rw [← partsAt_flatten] at h
  rw [diffKeys,mem_dedup,mem_append]
  refine .inr ?_
  by_contra hno
  rw [(partsAt_nil_iff texts d).mpr hno] at h
  exact h rfl

theorem diffKeys_nodup (texts : DeviceTexts) : (diffKeys active texts).Nodup := nodup_dedup _

def heldEndpoints (held : Option NsoConnection) : List NsoEndpoint :=
  (held.map NsoConnection.endpoint).getD []

theorem mem_heldEndpoints {held : Option NsoConnection} {y : NsoEndpoint} :
    y∈heldEndpoints held ↔ ∃ x,held=some x∧y∈x.endpoint := by
  cases held <;> simp [heldEndpoints]

theorem l2NsoDiff_partsAt (d : String) : partsAt (l2NsoDiff active held) d=
      if textAt (l2Blocks active (heldEndpoints held)) d=[] then []
      else [textAt (l2Blocks active (heldEndpoints held)) d] := by
  rw [l2NsoDiff,partsAt_filterMap (diffKeys_nodup _ _),heldEndpoints]
  by_cases hnil : textAt (l2Blocks active ((held.map NsoConnection.endpoint).getD [])) d=[]
  · simp [hnil]
  · simp [mem_diffKeys_of_textAt hnil]

def vrfHead (id : Nat) (workgroup : Option String) (held : Option NsoConnection) : Text :=
  s!"OESS-VRF-{id}:\n"::VRF.workgroupLines workgroup ((held.bind NsoConnection.workgroup).getD "")

theorem l3NsoDiff_partsAt (vrfId : Option Nat) (localAsn : Nat) (workgroup : Option String)
    (active : List Endpoint) (held : Option NsoConnection) (d : String) :
    partsAt (l3NsoDiff vrfId localAsn workgroup active held) d=
      if d∈diffKeys active (l3Blocks localAsn active (heldEndpoints held))∧
        ¬(textAt (l3Blocks localAsn active (heldEndpoints held)) d=[]∧
          VRF.workgroupLines workgroup ((held.bind NsoConnection.workgroup).getD "")=[])
      then [vrfHead (vrfId.getD ((held.map NsoConnection.connectionId).getD 0)) workgroup held++
        textAt (l3Blocks localAsn active (heldEndpoints held)) d]
      else [] := by
  rw [l3NsoDiff,partsAt_filterMap (diffKeys_nodup _ _)]
  rfl

theorem flatten_part (t : Text) : (if t=[] then [] else [t]).flatten=t := by
  split_ifs with h
  · exact h.symm
  · simp

theorem l2_shortens (d : String) : KeyedDiff.Shortens Loud (partsAt (l2NsoDiff active held) d)
      (partsAt (held.elim [] fun x => l2NsoDiff [] (some x)) d) (∀ e∈active,e.shortNodeName≠d) := by
  have hempty : partsAt (held.elim [] fun x => l2NsoDiff [] (some x)) d=
      if removedLines L2Circuit.removed (heldEndpoints held) d=[] then []
      else [removedLines L2Circuit.removed (heldEndpoints held) d] := by
    cases held with
    | none => rfl
    | some x =>
      rw [Option.elim_some,l2NsoDiff_partsAt,l2Blocks,
        textAt_of_away l2_blocks _ _ _ fun e he => (not_mem_nil he).elim]
  rw [l2NsoDiff_partsAt,hempty]
  constructor
  · intro haway
    rw [l2Blocks,textAt_of_away l2_blocks _ _ _ haway]
  · rw [flatten_part]
    intro l hl
    exact (removedLines_headed l2_blocks _ d l hl).not_loud (by decide) (by decide)
  · rw [flatten_part,flatten_part]
    exact textAt_short l2_blocks active _ d

theorem workgroupLines_short {workgroup : Option String} {held : String}
    (hquiet : ∀ l∈VRF.workgroupLines workgroup held,¬Loud l) :
    (VRF.workgroupLines workgroup held).length ≤ 1∧
      ((VRF.workgroupLines workgroup held).length=1 → workgroup=none) := by
  cases workgroup with
  | none => exact ⟨Nat.le_refl 1,fun _ => rfl⟩
  | some name =>
    by_cases hne : name≠held
    · refine absurd ?_ (hquiet s!"+ Workgroup: {name}\n" (by simp [VRF.workgroupLines,hne]))
      simp +decide [Loud,String.append_assoc]
    · simp [VRF.workgroupLines,hne]

section VrfText

variable (id localAsn : Nat) (workgroup : Option String) (active : List Endpoint)
  (held : Option NsoConnection) (d : String)

theorem mem_l3DiffKeys (h : d∈diffKeys active (l3Blocks localAsn active (heldEndpoints held))) :
    (∃ e∈active,e.shortNodeName=d)∨∃ y∈heldEndpoints held,y.device=d := by
  rw [diffKeys,mem_dedup,mem_append] at h
  rcases h with h | h
  · obtain ⟨e,he,rfl⟩ := mem_map.mp h
    exact .inl ⟨e,he,rfl⟩
  obtain ⟨t,ht,rfl⟩ := mem_map.mp h
  rcases mem_blocks ht with ⟨y,hy,rfl⟩ | ⟨y,hy,e,-,-,rfl⟩ | ⟨e,he,rfl⟩
  · exact .inr ⟨y,hy,rfl⟩
  · exact .inr ⟨y,hy,rfl⟩
  · refine .inl ⟨e,?_,rfl⟩
    exact (mem_of_mem_putAll _ he).resolve_right not_mem_nil

theorem l3_emptied_partsAt (hid : ∀ x,held=some x → x.connectionId=id) :
    partsAt (held.elim [] fun x => l3NsoDiff none 0 none [] (some x)) d=
      if removedLines VRF.removed (heldEndpoints held) d=[] then []
      else [vrfHead id none held++removedLines VRF.removed (heldEndpoints held) d] := by
  cases held with
  | none => rfl
  | some x =>
    have htext : textAt (l3Blocks 0 [] (heldEndpoints (some x))) d=
        removedLines VRF.removed (heldEndpoints (some x)) d :=
      textAt_of_away (l3_blocks 0) _ _ _ fun e he => (not_mem_nil he).elim
    have hkeys : d∈diffKeys [] (l3Blocks 0 [] (heldEndpoints (some x))) ↔
        removedLines VRF.removed (heldEndpoints (some x)) d≠[] := by
      constructor
      · intro hd hnil
        rw [removedLines_nil_iff (l3_blocks 0)] at hnil
        rcases mem_l3DiffKeys 0 [] (some x) d hd with ⟨e,he,-⟩ | ⟨y,hy,hyd⟩
        · exact (not_mem_nil he).elim
        · exact hnil y hy hyd
      · intro hne
        exact mem_diffKeys_of_textAt (htext ▸ hne)
    have hgroup : VRF.workgroupLines none (((some x).bind NsoConnection.workgroup).getD "")≠[] := by
      simp [VRF.workgroupLines]
    rw [Option.elim_some,l3NsoDiff_partsAt]
    rw [htext,← hid x rfl]
    by_cases hnil : removedLines VRF.removed (heldEndpoints (some x)) d=[]
    · rw [if_neg fun h => hkeys.mp h.1 hnil,if_pos hnil]
    · rw [if_pos ⟨hkeys.mpr hnil,fun h => hgroup h.2⟩,if_neg hnil]
      rfl

theorem l3_shortens (hid : ∀ x,held=some x → x.connectionId=id) :
    KeyedDiff.Shortens Loud (partsAt (l3NsoDiff (some id) localAsn workgroup active held) d)
      (partsAt (held.elim [] fun x => l3NsoDiff none 0 none [] (some x)) d)
      ((∀ e∈active,e.shortNodeName≠d)∧
        (workgroup≠none → ∀ x,held=some x → ∀ y∈x.endpoint,y.device≠d)) := by
  have hnone := removedLines_nil_iff (l3_blocks localAsn) (heldEndpoints held) d
  rw [l3_emptied_partsAt id held d hid,l3NsoDiff_partsAt,Option.getD_some]
  constructor
  · intro ⟨haway,hservice⟩
    have htext : textAt (l3Blocks localAsn active (heldEndpoints held)) d=
        removedLines VRF.removed (heldEndpoints held) d :=
      textAt_of_away (l3_blocks localAsn) _ _ _ haway
    by_cases hnil : removedLines VRF.removed (heldEndpoints held) d=[]
    · rw [if_pos hnil,if_neg]
      intro h
      rcases mem_l3DiffKeys localAsn active held d h.1 with ⟨e,he,hed⟩ | ⟨y,hy,hyd⟩
      · exact haway e he hed
      · exact hnone.mp hnil y hy hyd
    · have hgroup : workgroup=none := by
        by_contra hne
        refine hnil (hnone.mpr fun y hy => ?_)
        obtain ⟨x,hx,hy⟩ := mem_heldEndpoints.mp hy
        exact hservice hne x hx y hy
      rw [if_neg hnil,htext,if_pos ⟨mem_diffKeys_of_textAt (htext ▸ hnil),fun h => hnil h.1⟩,hgroup]
  · intro l hl
    split_ifs at hl with hnil
    · exact (not_mem_nil hl).elim
    rw [flatten_singleton,mem_append] at hl
    rcases hl with hl | hl
    · rcases mem_cons.mp hl with rfl | hl
      · have hhead : Headed 'O' s!"OESS-VRF-{id}:\n" := by simp +decide [String.append_assoc]
        exact hhead.not_loud (by decide) (by decide)
      · obtain rfl := mem_singleton.mp hl
        refine Headed.not_loud (?_ : Headed '-' _) (by decide) (by decide)
        simp +decide [String.append_assoc]
    · exact (removedLines_headed (l3_blocks localAsn) _ d l hl).not_loud (by decide) (by decide)
  · intro hquiet
    have hshort := textAt_short (l3_blocks localAsn) active (heldEndpoints held) d
    have hblocks : KeyedDiff.diff Endpoint.place NsoEndpoint.place VRF.removed
        (VRF.compared localAsn) (VRF.added localAsn) active (heldEndpoints held)=
        l3Blocks localAsn active (heldEndpoints held) := rfl
    rw [hblocks] at hshort
    split_ifs at hquiet ⊢ with hcond hnil hnil
    · -- a device of the diff has an endpoint of the connection, which is compared, or of the service
      rw [flatten_singleton] at hquiet
      obtain ⟨hle,haway⟩ := hshort fun l hl => hquiet l (mem_append_right _ hl)
      rw [hnil,length_nil] at hle haway
      have hno := haway (by omega)
      rcases mem_l3DiffKeys localAsn active held d hcond.1 with ⟨e,he,hed⟩ | ⟨y,hy,hyd⟩
      · exact absurd hed (hno e he)
      · exact absurd hyd (hnone.mp hnil y hy)
    · rw [flatten_singleton] at hquiet ⊢
      rw [flatten_singleton]
      obtain ⟨hle,haway⟩ := hshort fun l hl => hquiet l (mem_append_right _ hl)
      obtain ⟨hgroup,hgroupEq⟩ := workgroupLines_short fun l hl =>
        hquiet l (mem_append_left _ (mem_cons_of_mem _ hl))
      have hempty : (vrfHead id none held).length=2 := rfl
      have hhead : (vrfHead id workgroup held).length=(VRF.workgroupLines workgroup
        ((held.bind NsoConnection.workgroup).getD "")).length+1 := rfl
      rw [length_append,length_append]
      refine ⟨by omega,fun heq => ⟨haway (by omega),fun hne => absurd (hgroupEq (by omega)) hne⟩⟩
    · refine ⟨Nat.le_refl _,fun _ => ⟨fun e he hed => ?_,fun _ x hx y hy => ?_⟩⟩
      · have hd : d∈diffKeys active (l3Blocks localAsn active (heldEndpoints held)) := by
          rw [diffKeys,mem_dedup]
          exact mem_append_left _ (mem_map.mpr ⟨e,he,hed⟩)
        have htext : textAt (l3Blocks localAsn active (heldEndpoints held)) d=[] := by
          by_contra hne
          exact hcond ⟨hd,fun h => hne h.1⟩
        rw [htext,hnil] at hshort
        exact (hshort fun l hl => (not_mem_nil hl).elim).2 rfl e he hed
      · exact hnone.mp hnil y (mem_heldEndpoints.mpr ⟨x,hx,hy⟩)
    · refine ⟨Nat.zero_le _,fun heq => ?_⟩
      simp [vrfHead] at heq

end VrfText

/-- The diff of a connection against the removal of its service. -/
theorem nsoDiff_shortens {c : Connection} {held : Option NsoConnection}
    (hkey : ∀ x,held=some x → x.key=c.key) (d : String) :
    KeyedDiff.Shortens Loud (partsAt (nsoDiff c held) d) (partsAt (emptied held) d)
      (Idle c held d) := by
  have hlayer : ∀ x,held=some x → x.layer=c.layer := fun x hx => congrArg Prod.fst (hkey x hx)
  have hid : ∀ x,held=some x → x.connectionId=c.connId := fun x hx => congrArg Prod.snd (hkey x hx)
  have hemptied : emptied held=held.elim [] fun x =>
      c.layer.casesOn (l2NsoDiff [] (some x)) (l3NsoDiff none 0 none [] (some x)) := by
    cases held with
    | none => rfl
    | some x =>
      rw [emptied,Option.elim_some,nsoDiffEmpty,hlayer x rfl]
      cases c.layer <;> rfl
  rw [nsoDiff,hemptied]
  cases hl : c.layer with
  | l2 =>
    have hidle : Idle c held d ↔ ∀ e∈c.active,e.shortNodeName≠d :=
      ⟨Idle.active,fun h => ⟨h,fun h3 => absurd (hl.symm.trans h3) (by decide)⟩⟩
    rw [hidle]
    exact l2_shortens c.active held d
  | l3 =>
    have hidle : Idle c held d ↔ (∀ e∈c.active,e.shortNodeName≠d)∧
        (c.workgroup≠none → ∀ x,held=some x → ∀ y∈x.endpoint,y.device≠d) :=
      ⟨fun h => ⟨h.active,h.service hl⟩,fun h => ⟨h.1,fun _ => h.2⟩⟩
    rw [hidle]
    exact l3_shortens c.connId c.localAsn c.workgroup c.active held d hid

theorem texts_agree_iff : (partsAt s.textSync.texts d).Perm (partsAt s.sync.texts d) ↔
      ∀ c,s.Shadowed c → Idle c (s.reported c) d := by
  have hshortens : ∀ c∈s.shadowed,KeyedDiff.Shortens Loud (partsAt (nsoDiff c (s.reported c)) d)
      (partsAt (emptied (s.reported c)) d) (Idle c (s.reported c) d) :=
    fun c _ => nsoDiff_shortens (fun x hx => (mem_of_find_key hx).2) d
  rw [parts_perm_iff,flatMap_perm_iff hshortens]
  refine forall_congr' fun c => ?_
  rw [mem_shadowed_iff]

end OESS.NSO
