import OESS.Framework.Runs
import OESS.Links.Calls

namespace OESS.Links

open Lookup Option List

namespace Tables

variable (t : Tables)

def EverEnd (id : Nat) : Prop := ∃ i∈t.instantiations,id∈i.ends

def liveEnds (link : Nat) : List Nat :=
  match t.current link with
  | none => []
  | some i => if i.state=.decom then [] else i.ends

def LiveEnd (id : Nat) : Prop := ∃ link,id∈t.liveEnds link

/-- The interface is an end of another link that is current and not decommissioned. -/
def SharedEnd (link id : Nat) : Prop := ∃ other,other≠link∧id∈t.liveEnds other

/-- An interface that was ever an end of a link is a trunk exactly if it is one now. -/
def TrunksExact : Prop := ∀ id,t.EverEnd id → (t.role id=some .trunk ↔ t.LiveEnd id)

section Ends

variable {t u : Tables} {link id : Nat}

theorem liveEnds_congr (h : u.current link=t.current link) : u.liveEnds link=t.liveEnds link := by
  rw [liveEnds,liveEnds,h]

theorem everEnd_congr (h : u.instantiations=t.instantiations) : u.EverEnd id ↔ t.EverEnd id := by
  rw [EverEnd,EverEnd,h]

theorem role_congr (h : u.interfaces=t.interfaces) : u.role id=t.role id := by rw [role,role,h]

theorem mem_liveEnds : id∈t.liveEnds link ↔ ∃ i,t.current link=some i∧i.state≠.decom∧id∈i.ends := by
  unfold liveEnds
  cases t.current link with
  | none => simp
  | some i => simp [mem_ite_nil_left]

theorem everEnd_of_liveEnds (h : id∈t.liveEnds link) : t.EverEnd id := by
  obtain ⟨i,hc,-,hid⟩ := mem_liveEnds.mp h
  exact ⟨i,(current_spec hc).1,hid⟩

theorem everEnd_of_shared (h : t.SharedEnd link id) : t.EverEnd id := by
  obtain ⟨other,-,ho⟩ := h
  exact everEnd_of_liveEnds ho

theorem liveEnd_split (link : Nat) : t.LiveEnd id ↔ id∈t.liveEnds link∨t.SharedEnd link id := by
  constructor
  · intro ⟨other,ho⟩
    by_cases heq : other=link
    · exact .inl (heq ▸ ho)
    · exact .inr ⟨other,heq,ho⟩
  · rintro (h | ⟨other,-,ho⟩)
    · exact ⟨link,h⟩
    · exact ⟨other,ho⟩

theorem trunksExact_congr (hi : u.instantiations=t.instantiations)
    (hf : u.interfaces=t.interfaces) : u.TrunksExact ↔ t.TrunksExact := by
  have hlive (id : Nat) : u.LiveEnd id ↔ t.LiveEnd id := by
    have heq (link : Nat) : u.liveEnds link=t.liveEnds link := liveEnds_congr (current_congr hi)
    simp only [LiveEnd,heq]
  simp only [TrunksExact,everEnd_congr hi,role_congr hf,hlive]

theorem liveEnd_moved {new : List Nat}
    (hlive : ∀ j,u.liveEnds j=if j=link then new else t.liveEnds j) (id : Nat) :
    u.LiveEnd id ↔ id∈new∨t.SharedEnd link id := by
  have hshared : u.SharedEnd link id ↔ t.SharedEnd link id := by
    refine exists_congr fun other => and_congr_right fun ho => ?_
    rw [hlive,if_neg ho]
  rw [liveEnd_split link,hlive,if_pos rfl,hshared]

/-- One link goes to new ends and no role changes. -/
theorem trunksExact_moved {new touched : List Nat} (h : t.TrunksExact)
    (hnew : ∀ id∈new,id∈touched) (hrole : ∀ id,u.role id=t.role id)
    (hever : ∀ id,u.EverEnd id ↔ t.EverEnd id∨id∈touched)
    (hlive : ∀ j,u.liveEnds j=if j=link then new else t.liveEnds j) :
    u.TrunksExact ↔ (∀ id∈new,t.role id=some .trunk)∧
      ∀ id∈t.liveEnds link++touched,t.role id=some .trunk → id∈new∨t.SharedEnd link id := by
  have hafter := liveEnd_moved hlive
  constructor
  · intro hu
    have hexact (id : Nat) (he : t.EverEnd id∨id∈touched) :
        t.role id=some .trunk ↔ id∈new∨t.SharedEnd link id := by
      rw [← hrole,← hafter]
      exact hu id ((hever id).mpr he)
    refine ⟨fun id hid => (hexact id (.inr (hnew id hid))).mpr (.inl hid),?_⟩
    intro id hid
    rcases mem_append.mp hid with hid | hid
    · exact (hexact id (.inl (everEnd_of_liveEnds hid))).mp
    · exact (hexact id (.inr hid)).mp
  · intro ⟨htrunk,hleft⟩ id he
    rw [hrole,hafter]
    constructor
    · intro hr
      rcases (hever id).mp he with he | he
      · rcases (liveEnd_split link).mp ((h id he).mp hr) with hl | hl
        · exact hleft id (mem_append_left _ hl) hr
        · exact .inr hl
      · exact hleft id (mem_append_right _ he) hr
    · rintro (hl | hl)
      · exact htrunk id hl
      · exact (h id (everEnd_of_shared hl)).mpr ((liveEnd_split link).mpr (.inr hl))

end Ends

section Create

variable {t : Tables} {m : Model}

theorem insertInstantiation_everEnd {t u : Tables} {i : Instantiation}
    (h : t.insertInstantiation i=some u) (id : Nat) : u.EverEnd id ↔ t.EverEnd id∨id∈i.ends := by
  unfold EverEnd
  rw [(insertInstantiation_spec h).1]
  simp only [mem_append,mem_singleton,or_and_right,exists_or,exists_eq_left]

theorem insertInstantiation_liveEnds {t u : Tables} {i : Instantiation} (he : i.ended=none)
    (h : t.insertInstantiation i=some u) (j : Nat) : u.liveEnds j=
      if j=i.link then (if i.state=.decom then [] else i.ends) else t.liveEnds j := by
  rw [liveEnds,insertInstantiation_current he h]
  split_ifs <;> simp_all [liveEnds]

theorem create_trunksExact (h : t.TrunksExact) : (t.create m).1.TrunksExact := by
  unfold create
  cases hl : t.insertLink m.name m.remoteUrn m.status m.metric with
  | none => exact h
  | some t₁ =>
    obtain ⟨-,-,hinst,hface,-⟩ := insertLink_spec hl
    have h₁ : t₁.TrunksExact := (trunksExact_congr hinst hface).mpr h
    cases hi : t₁.insertInstantiation (m.instantiation t.nextLink) with
    | none => simpa only [hi] using h₁
    | some t₂ =>
      simp only [hi]
      obtain ⟨-,ha,hz,hfree⟩ :=
        (insertInstantiation_isSome rfl).mp (by rw [hi]; rfl)
      have hface₂ := (insertInstantiation_spec hi).2.2.1
      have hrole (id : Nat) : t₂.role id=t₁.role id := role_congr hface₂
      have hlive (j : Nat) : t₂.liveEnds j=
          if j=t.nextLink then [m.interfaceA,m.interfaceZ] else t₁.liveEnds j := by
        rw [insertInstantiation_liveEnds rfl hi]
        simp [Model.instantiation,Instantiation.ends]
      have hnone : t₁.liveEnds t.nextLink=[] := by
        have hcur : t₁.current t.nextLink=none := hfree
        rw [liveEnds,hcur]
      -- the new link adds its ends to the live ones
      have hadd (id : Nat) : t₂.LiveEnd id ↔ id∈[m.interfaceA,m.interfaceZ]∨t₁.LiveEnd id := by
        rw [liveEnd_moved hlive,liveEnd_split t.nextLink,hnone]
        simp
      intro id he
      have hends : some id=some m.interfaceA∨some id=some m.interfaceZ ↔
          id∈[m.interfaceA,m.interfaceZ] := by
        simp
      have hlive₂ : (t₂.setRole (some m.interfaceA) (some m.interfaceZ) .trunk).LiveEnd id ↔
          t₂.LiveEnd id := .rfl
      rw [hlive₂,hadd,setRole_role]
      split_ifs with hid
      · have hmem := hends.mp hid
        have hknown : t₁.HasInterface id := by
          rcases hid with hid | hid
          all_goals rwa [some.inj hid]
        obtain ⟨r,hr⟩ := isSome_iff_exists.mp (role_isSome.mpr hknown)
        rw [hrole,hr]
        exact ⟨fun _ => .inl hmem,fun _ => rfl⟩
      · have hmem := fun hmem => hid (hends.mpr hmem)
        have he₂ : t₂.EverEnd id := he
        have he₁ : t₁.EverEnd id :=
          ((insertInstantiation_everEnd hi id).mp he₂).resolve_right hmem
        rw [hrole,h₁ id he₁]
        exact ⟨.inr,fun hor => hor.resolve_left hmem⟩

end Create

section Update

variable (t : Tables) (now : Nat) (c : Change)

/-- The name is taken, or a row has ended in this second. -/
def Refuses : Prop :=
  ¬((t.links.map fun l => if l.id=c.link then c.columns l else l).map Link.name).Nodup∨
    ((t.current c.link).isSome=true∧t.EndedNow c.link now)

def Accepts : Prop :=
  c.link∈t.links.map Link.id∧t.HasInterface c.interfaceA∧t.HasInterface c.interfaceZ
  deriving Decidable

def newEnds : List Nat :=
  if t.Accepts c∧c.state≠.decom then [c.interfaceA,c.interfaceZ] else []

def givenEnds : List Nat :=
  if t.Accepts c then [c.interfaceA,c.interfaceZ] else []

/-- The update is refused, or every end it makes live is a trunk, and each other trunk among the
ends it leaves or gives ends another live link. -/
def KeepsTrunks : Prop :=
  t.Refuses now c∨ ((∀ id∈t.newEnds c,t.role id=some .trunk)∧ ∀ id∈t.liveEnds c.link++t.givenEnds c,
        t.role id=some .trunk → id∈t.newEnds c∨t.SharedEnd c.link id)

variable {t now c}

theorem endCurrent_everEnd {u : Tables} {link id : Nat} (h : t.endCurrent link now=some u) :
    u.EverEnd id ↔ t.EverEnd id := by
  unfold EverEnd
  rw [(endCurrent_spec h).1]
  have hends (i : Instantiation) :
      (if i.key=(link,none) then i.endedAt now else i).ends=i.ends := by
    split_ifs <;> rfl
  simp only [List.mem_map,exists_exists_and_eq_and,hends]

theorem endCurrent_liveEnds {u : Tables} {link : Nat} (h : t.endCurrent link now=some u) (j : Nat) :
    u.liveEnds j=if j=link then [] else t.liveEnds j := by
  rw [liveEnds,endCurrent_current h]
  split_ifs <;> simp [liveEnds]

theorem update_refused (h : t.Refuses now c) :
    (t.update now c).1.instantiations=t.instantiations∧
      (t.update now c).1.interfaces=t.interfaces := by
  unfold update
  cases hu : t.updateLink c.link c.columns fun _ => rfl with
  | none => exact ⟨rfl,rfl⟩
  | some t₁ =>
    obtain ⟨-,hinst,hface,-⟩ := updateLink_spec hu
    have hnone : t₁.endCurrent c.link now=none := by
      have hbusy : (t.current c.link).isSome=true∧t.EndedNow c.link now := by
        rcases h with h | h
        · rw [updateLink_none_iff.mpr h] at hu
          cases hu
        · exact h
      have hnot : ¬(t₁.endCurrent c.link now).isSome=true := by
        rwa [endCurrent_isSome,not_not,current_congr hinst,EndedNow,hinst]
      simpa using hnot
    simp only [hnone]
    exact ⟨hinst,hface⟩

/-- Which ends are live then and which have ever been. -/
theorem update_moved (h : ¬t.Refuses now c) :
    (∀ id,(t.update now c).1.role id=t.role id)∧
    (∀ id,(t.update now c).1.EverEnd id ↔ t.EverEnd id∨id∈t.givenEnds c)∧
    ∀ j,(t.update now c).1.liveEnds j=if j=c.link then t.newEnds c else t.liveEnds j := by
  unfold Refuses at h
  rw [← updateLink_none_iff,not_or] at h
  obtain ⟨hname,htime⟩ := h
  obtain ⟨t₁,hu⟩ := ne_none_iff_exists'.mp hname
  obtain ⟨-,hinst,hface,-⟩ := updateLink_spec hu
  have hids := updateLink_linkIds hu
  have hsome : (t₁.endCurrent c.link now).isSome=true := by
    rwa [endCurrent_isSome,current_congr hinst,EndedNow,hinst]
  obtain ⟨t₂,he⟩ := isSome_iff_exists.mp hsome
  obtain ⟨-,hlinks₂,hface₂,-⟩ := endCurrent_spec he
  have hrole₂ (id : Nat) : t₂.role id=t.role id := role_congr (hface₂.trans hface)
  have hever₂ (id : Nat) : t₂.EverEnd id ↔ t.EverEnd id :=
    (endCurrent_everEnd he).trans (everEnd_congr hinst)
  have hlive₂ (j : Nat) : t₂.liveEnds j=if j=c.link then [] else t.liveEnds j := by
    rw [endCurrent_liveEnds he,liveEnds_congr (current_congr hinst)]
  have haccepts : (t₂.insertInstantiation c.instantiation).isSome=true ↔ t.Accepts c := by
    rw [insertInstantiation_isSome rfl,endCurrent_current he]
    unfold HasInterface Accepts
    rw [hlinks₂,hids,hface₂,hface]
    simp [Change.instantiation,HasInterface]
  cases hi : t₂.insertInstantiation c.instantiation with
  | none =>
    have hupdate : (t.update now c).1=t₂ := by simp only [update,hu,he,hi]
    rw [hupdate]
    have hnot : ¬t.Accepts c := by
      rw [← haccepts,hi]
      simp
    refine ⟨hrole₂,fun id => ?_,fun j => ?_⟩
    · rw [hever₂,givenEnds,if_neg hnot]
      simp
    · have hnew : t.newEnds c=[] := if_neg fun hn => hnot hn.1
      rw [hnew]
      exact hlive₂ j
  | some t₃ =>
    have hupdate : (t.update now c).1=t₃ := by simp only [update,hu,he,hi,setRole_none,ite_self]
    rw [hupdate]
    have hyes : t.Accepts c := haccepts.mp (by rw [hi]; rfl)
    have hface₃ := (insertInstantiation_spec hi).2.2.1
    refine ⟨fun id => ?_,fun id => ?_,fun j => ?_⟩
    · rw [role_congr hface₃,hrole₂]
    · rw [insertInstantiation_everEnd hi,hever₂,givenEnds,if_pos hyes]
      rfl
    · rw [insertInstantiation_liveEnds rfl hi,hlive₂,newEnds]
      by_cases hj : j=c.link
      · subst hj
        by_cases hd : c.state=.decom
        · simp [Change.instantiation,hd]
        · simp [Change.instantiation,hd,hyes,Instantiation.ends]
      · simp [Change.instantiation,hj]

theorem update_trunksExact_iff (h : t.TrunksExact) :
    (t.update now c).1.TrunksExact ↔ t.KeepsTrunks now c := by
  by_cases hr : t.Refuses now c
  · obtain ⟨hi,hf⟩ := update_refused hr
    rw [trunksExact_congr hi hf]
    exact ⟨fun _ => .inl hr,fun _ => h⟩
  obtain ⟨hrole,hever,hlive⟩ := update_moved hr
  have hnew : ∀ id∈t.newEnds c,id∈t.givenEnds c := by
    unfold newEnds givenEnds
    intro id hid
    split_ifs at hid with ha
    · rwa [if_pos ha.1]
    · exact absurd hid not_mem_nil
  rw [trunksExact_moved h hnew hrole hever hlive]
  exact ⟨.inr,fun hk => hk.resolve_left hr⟩

end Update

end Tables

inductive Call where
  | create (m : Model)
  | update (now : Nat) (c : Change)

def Tables.call (t : Tables) : Call → Tables
  | .create m => (t.create m).1
  | .update now c => (t.update now c).1

def Call.Keeps (t : Tables) : Call → Prop
  | .create _ => True
  | .update now c => t.KeepsTrunks now c

/-- Trunks are exact throughout a run exactly if they are at first and every call keeps them so. -/
theorem calls_trunksExact_iff (t : Tables) (calls : List Call) :
    Runs.Always Tables.call Tables.TrunksExact t calls ↔
      t.TrunksExact∧Runs.StepsOk Tables.call Call.Keeps t calls := by
  have hstep : ∀ s (e : Call),True → s.TrunksExact → ((s.call e).TrunksExact ↔ e.Keeps s) := by
    intro s e _ hs
    cases e with
    | create m => exact ⟨fun _ => trivial,fun _ => Tables.create_trunksExact hs⟩
    | update now c => exact Tables.update_trunksExact_iff hs
  constructor
  · intro h
    exact ⟨h.start,(Runs.always_iff_stepsOk (fun _ _ _ => trivial) hstep h.start trivial).mp h⟩
  · intro ⟨hs,h⟩
    exact (Runs.always_iff_stepsOk (fun _ _ _ => trivial) hstep hs trivial).mpr h

def pair : Tables where
  nodes := [⟨1,"a.example.net",some "a",some ⟨.nso,false,false⟩⟩,
    ⟨2,"z.example.net",some "z",some ⟨.nso,false,false⟩⟩]
  interfaces := [⟨1,1,"e0",.unknown⟩,⟨2,2,"e0",.unknown⟩]
  links := []
  instantiations := []
  nextLink := 1
  linkIds := List.nodup_nil
  linkNames := List.nodup_nil
  fresh := fun _ h => absurd h List.not_mem_nil
  keys := List.nodup_nil
  known := fun _ h => absurd h List.not_mem_nil

def pairModel : Model := ⟨"a-z",none,.up,some 1,1,none,2,none⟩

def pairDecom : Change := ⟨1,.decom,1,none,2,none,none,some .down,none,none⟩

def pairRetired : Tables := (pair.call (.create pairModel)).call (.update 10 pairDecom)

/-- The interfaces stay trunks when their only link is decommissioned. -/
theorem pair_decom_keeps_trunks : (pairRetired.role 1,pairRetired.role 2)=(some .trunk,some .trunk)∧
      (∀ i∈pairRetired.instantiations,i.ended=none → i.state=.decom)∧
      ¬Runs.Always Tables.call Tables.TrunksExact pair
        [.create pairModel,.update 10 pairDecom] := by
  have hroles : (pairRetired.role 1,pairRetired.role 2)=(some .trunk,some .trunk) := by
    decide +kernel
  have hdecom : ∀ i∈pairRetired.instantiations,i.ended=none → i.state=.decom := by decide +kernel
  have hever : ∃ i∈pairRetired.instantiations,1∈i.ends := by decide +kernel
  refine ⟨hroles,hdecom,fun h => ?_⟩
  have hexact : pairRetired.TrunksExact := h.2.2
  obtain ⟨link,hlink⟩ := (hexact 1 hever).mp (congrArg Prod.fst hroles)
  obtain ⟨i,hc,hstate,-⟩ := Tables.mem_liveEnds.mp hlink
  obtain ⟨hi,-,he⟩ := Tables.current_spec hc
  exact hstate (hdecom i hi he)

end OESS.Links
