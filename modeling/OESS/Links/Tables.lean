import OESS.Framework.Lookup

namespace OESS.Links

open Lookup Option Bool Function

inductive LinkState where
  | planned | available | active | maintenance | decom
  deriving DecidableEq

inductive Status where
  | up | down | unknown
  deriving DecidableEq

inductive Role where
  | unknown | trunk | customer
  deriving DecidableEq

inductive Controller where
  | openflow | netconf | nso
  deriving DecidableEq

structure NodeInstantiation where
  controller : Controller
  (decom mpls : Bool)

/-- A node with its current instantiation, if any. -/
structure Node where
  id : Nat
  name : String
  shortName : Option String
  current : Option NodeInstantiation

structure Interface where
  (id node : Nat)
  name : String
  role : Role

structure Link where
  id : Nat
  name : String
  remoteUrn : Option String
  status : Status
  metric : Option Int
  deriving DecidableEq

/-- An instantiation of a link, current as long as it has not ended. -/
structure Instantiation where
  link : Nat
  ended : Option Nat
  state : LinkState
  interfaceA : Nat
  ipA : Option String
  interfaceZ : Nat
  ipZ : Option String
  deriving DecidableEq

namespace Instantiation

def key (i : Instantiation) : Nat×Option Nat := (i.link,i.ended)

def ends (i : Instantiation) : List Nat := [i.interfaceA,i.interfaceZ]

def endedAt (now : Nat) (i : Instantiation) : Instantiation := {i with ended := some now}

end Instantiation

/-- Own ids and names, and one instantiation for each end time. -/
structure Tables where
  nodes : List Node
  interfaces : List Interface
  links : List Link
  instantiations : List Instantiation
  nextLink : Nat
  linkIds : (links.map Link.id).Nodup
  linkNames : (links.map Link.name).Nodup
  fresh : ∀ l∈links,l.id<nextLink
  keys : (instantiations.map Instantiation.key).Nodup
  known : ∀ i∈instantiations,i.link∈links.map Link.id

namespace Tables

variable {t u : Tables}

def role (t : Tables) (id : Nat) : Option Role := (lookup Interface.id id t.interfaces).map (·.role)

def current (t : Tables) (link : Nat) : Option Instantiation :=
  lookup Instantiation.key (link,none) t.instantiations

def HasInterface (t : Tables) (id : Nat) : Prop := id∈t.interfaces.map Interface.id
  deriving Decidable

variable {i : Instantiation}

theorem current_spec {link : Nat} (h : t.current link=some i) :
    i∈t.instantiations∧i.link=link∧i.ended=none := by
  obtain ⟨hi,hk⟩ := lookup_spec h
  exact ⟨hi,congrArg Prod.fst hk,congrArg Prod.snd hk⟩

theorem current_of_mem (hi : i∈t.instantiations) (he : i.ended=none) : t.current i.link=some i := by
  have hkey : i.key=(i.link,none) := by rw [Instantiation.key,he]
  rw [current,← hkey]
  exact lookup_of_mem t.keys hi

theorem current_eq_some {link : Nat} :
    t.current link=some i ↔ i∈t.instantiations∧i.link=link∧i.ended=none := by
  constructor
  · exact current_spec
  · rintro ⟨hi,rfl,he⟩
    exact current_of_mem hi he

/-! The statements. Each is refused if it would break a constraint. -/

def insertLink (t : Tables) (name : String) (remoteUrn : Option String) (status : Status)
    (metric : Option Int) : Option Tables :=
  if h : name∈t.links.map Link.name then none
  else some {t with
    links := t.links++[⟨t.nextLink,name,remoteUrn,status,metric⟩]
    nextLink := t.nextLink+1
    linkIds := nodup_map_snoc t.linkIds (not_mem_of_fresh t.fresh)
    linkNames := nodup_map_snoc t.linkNames h
    fresh := fresh_snoc t.fresh rfl
    known := by
      intro i hi
      rw [List.map_append]
      exact List.mem_append_left _ (t.known i hi)}

/-- `f` gives the new columns of the row. -/
def updateLink (t : Tables) (id : Nat) (f : Link → Link) (hf : ∀ l,(f l).id=l.id) : Option Tables :=
  if h : ((t.links.map fun l => if l.id=id then f l else l).map Link.name).Nodup then
    have hid : (t.links.map fun l => if l.id=id then f l else l).map Link.id=
        t.links.map Link.id := by
      rw [List.map_map]
      apply List.map_congr_left
      intro l _
      simp only [Function.comp_apply]
      split_ifs
      · exact hf l
      · rfl
    some {t with
      links := t.links.map fun l => if l.id=id then f l else l
      linkIds := hid.symm ▸ t.linkIds
      linkNames := h
      fresh := by
        intro l hl
        have hmem : l.id∈t.links.map Link.id := hid ▸ List.mem_map_of_mem hl
        obtain ⟨k,hk,hkl⟩ := List.mem_map.mp hmem
        exact hkl ▸ t.fresh k hk
      known := fun i hi => hid.symm ▸ t.known i hi}
  else none

def endCurrent (t : Tables) (link now : Nat) : Option Tables :=
  if h : ((t.instantiations.map fun i => if i.key=(link,none) then i.endedAt now else i).map
      Instantiation.key).Nodup then
    some {t with
      instantiations := t.instantiations.map fun i =>
        if i.key=(link,none) then i.endedAt now else i
      keys := h
      known := by
        intro i hi
        obtain ⟨k,hk,rfl⟩ := List.mem_map.mp hi
        have hl : (if k.key=(link,none) then k.endedAt now else k).link=k.link := by
          split_ifs <;> rfl
        rw [hl]
        exact t.known k hk}
  else none

def insertInstantiation (t : Tables) (i : Instantiation) : Option Tables :=
  if h : i.link∈t.links.map Link.id∧t.HasInterface i.interfaceA∧t.HasInterface i.interfaceZ∧
      i.key∉t.instantiations.map Instantiation.key then
    some {t with
      instantiations := t.instantiations++[i]
      keys := nodup_map_snoc t.keys h.2.2.2
      known := by
        intro k hk
        rcases List.mem_append.mp hk with hk | hk
        · exact t.known k hk
        · rw [List.mem_singleton.mp hk]
          exact h.1}
  else none

/-- No interface has an undefined id. -/
def setRole (t : Tables) (a z : Option Nat) (r : Role) : Tables :=
  {t with interfaces := t.interfaces.map fun f =>
    if some f.id=a∨some f.id=z then {f with role := r} else f}

variable {link now id : Nat} {a z : Option Nat} {r : Role} {name : String} {remoteUrn : Option
  String} {status : Status} {metric : Option Int}

@[simp] theorem setRole_links : (t.setRole a z r).links=t.links := rfl

@[simp] theorem setRole_current : (t.setRole a z r).current link=t.current link := rfl

theorem setRole_role : (t.setRole a z r).role id=
    if some id=a∨some id=z then (t.role id).map fun _ => r else t.role id := by
  have hkeep (f : Interface) :
      (if some f.id=a∨some f.id=z then {f with role := r} else f : Interface).id=f.id := by
    split_ifs <;> rfl
  rw [role,setRole,lookup_map hkeep,role]
  cases hf : lookup Interface.id id t.interfaces with
  | none => simp
  | some f =>
    have hid : f.id=id := (lookup_spec hf).2
    simp only [map_some,hid]
    split_ifs <;> rfl

theorem role_isSome : (t.role id).isSome=true ↔ t.HasInterface id := by
  rw [role,lookup]
  simp [HasInterface]

theorem insertLink_isSome (remoteUrn : Option String) (status : Status) (metric : Option Int) :
    (t.insertLink name remoteUrn status metric).isSome=true ↔ name∉t.links.map Link.name := by
  unfold insertLink
  split_ifs with h <;> simp [h]

theorem insertLink_spec (h : t.insertLink name remoteUrn status metric=some u) :
    name∉t.links.map Link.name∧u.links=t.links++[⟨t.nextLink,name,remoteUrn,status,metric⟩]∧
      u.instantiations=t.instantiations∧u.interfaces=t.interfaces∧u.nodes=t.nodes∧
      u.nextLink=t.nextLink+1 := by
  unfold insertLink at h
  split_ifs at h with hn
  cases h
  exact ⟨hn,rfl,rfl,rfl,rfl,rfl⟩

theorem updateLink_spec {f : Link → Link} {hf : ∀ l,(f l).id=l.id}
    (h : t.updateLink id f hf=some u) : u.links=t.links.map (fun l => if l.id=id then f l else l)∧
      u.instantiations=t.instantiations∧u.interfaces=t.interfaces∧u.nodes=t.nodes∧
      u.nextLink=t.nextLink := by
  unfold updateLink at h
  split_ifs at h with hn
  cases h
  exact ⟨rfl,rfl,rfl,rfl,rfl⟩

theorem updateLink_linkIds {f : Link → Link} {hf : ∀ l,(f l).id=l.id}
    (h : t.updateLink id f hf=some u) : u.links.map Link.id=t.links.map Link.id := by
  rw [(updateLink_spec h).1,List.map_map]
  apply List.map_congr_left
  intro l _
  simp only [comp_apply]
  split_ifs
  · exact hf l
  · rfl

theorem endCurrent_spec (h : t.endCurrent link now=some u) :
    u.instantiations=t.instantiations.map (fun i =>
        if i.key=(link,none) then i.endedAt now else i)∧
      u.links=t.links∧u.interfaces=t.interfaces∧u.nodes=t.nodes∧u.nextLink=t.nextLink := by
  unfold endCurrent at h
  split_ifs at h with hn
  cases h
  exact ⟨rfl,rfl,rfl,rfl,rfl⟩

theorem insertInstantiation_spec (h : t.insertInstantiation i=some u) :
    u.instantiations=t.instantiations++[i]∧u.links=t.links∧u.interfaces=t.interfaces∧
      u.nodes=t.nodes∧u.nextLink=t.nextLink := by
  unfold insertInstantiation at h
  split_ifs at h with hn
  cases h
  exact ⟨rfl,rfl,rfl,rfl,rfl⟩

theorem current_congr (h : u.instantiations=t.instantiations) : u.current link=t.current link := by
  rw [current,current,h]

theorem endCurrent_current (h : t.endCurrent link now=some u) (j : Nat) :
    u.current j=if j=link then none else t.current j := by
  have hmem := (endCurrent_spec h).1
  split_ifs with hj
  · subst hj
    cases hc : u.current j with
    | none => rfl
    | some k =>
      obtain ⟨hk,hl,he⟩ := current_spec hc
      rw [hmem] at hk
      obtain ⟨i,hi,rfl⟩ := List.mem_map.mp hk
      split_ifs at hl he with hik
      · cases he
      · exact absurd (by rw [Instantiation.key,hl,he]) hik
  · rw [Option.ext_iff]
    intro k
    rw [current_eq_some,current_eq_some,hmem]
    constructor
    · rintro ⟨hk,hl,he⟩
      obtain ⟨i,hi,rfl⟩ := List.mem_map.mp hk
      split_ifs at hl he with hik
      · cases he
      · rw [if_neg hik]
        exact ⟨hi,hl,he⟩
    · rintro ⟨hk,hl,he⟩
      refine ⟨List.mem_map.mpr ⟨k,hk,if_neg ?_⟩,hl,he⟩
      intro hkey
      exact hj (hl.symm.trans (congrArg Prod.fst hkey))

def EndedNow (t : Tables) (link now : Nat) : Prop :=
  ∃ i∈t.instantiations,i.link=link∧i.ended=some now
  deriving Decidable

theorem map_endedAt_key (l : List Instantiation) :
    (l.map fun i => if i.key=(link,none) then i.endedAt now else i).map Instantiation.key=
      (l.map Instantiation.key).map fun k => if k=(link,none) then (link,some now) else k := by
  rw [List.map_map,List.map_map]
  apply List.map_congr_left
  intro i _
  simp only [comp_apply]
  split_ifs with hk
  · have hl : i.link=link := congrArg Prod.fst hk
    simp only [Instantiation.key,Instantiation.endedAt,hl]
  · rfl

theorem mem_keys_current : (link,none)∈t.instantiations.map Instantiation.key ↔
    (t.current link).isSome=true := by
  rw [isSome_iff_exists,List.mem_map]
  constructor
  · rintro ⟨i,hi,hk⟩
    refine ⟨i,current_eq_some.mpr ⟨hi,congrArg Prod.fst hk,congrArg Prod.snd hk⟩⟩
  · rintro ⟨i,hi⟩
    obtain ⟨hm,hl,he⟩ := current_spec hi
    exact ⟨i,hm,by rw [Instantiation.key,hl,he]⟩

theorem mem_keys_ended : (link,some now)∈t.instantiations.map Instantiation.key ↔
    t.EndedNow link now := by
  rw [List.mem_map]
  constructor
  · rintro ⟨i,hi,hk⟩
    exact ⟨i,hi,congrArg Prod.fst hk,congrArg Prod.snd hk⟩
  · rintro ⟨i,hi,hl,he⟩
    exact ⟨i,hi,by rw [Instantiation.key,hl,he]⟩

theorem endCurrent_isSome : (t.endCurrent link now).isSome=true ↔
    ¬((t.current link).isSome=true∧t.EndedNow link now) := by
  have hiff : (t.endCurrent link now).isSome=true ↔
      ((t.instantiations.map Instantiation.key).map fun k =>
        if k=(link,none) then (link,some now) else k).Nodup := by
    rw [← map_endedAt_key]
    unfold endCurrent
    split_ifs with h
    · exact ⟨fun _ => h,fun _ => rfl⟩
    · exact ⟨fun hs => absurd hs false_ne_true,fun hs => absurd hs h⟩
  rw [hiff,← mem_keys_current,← mem_keys_ended]
  constructor
  · rintro hnodup ⟨hcur,hended⟩
    have hsame : (link,none)=(link,some now) := by
      apply List.inj_on_of_nodup_map hnodup hcur hended
      rw [if_pos rfl,if_neg (by simp)]
    cases congrArg Prod.snd hsame
  · intro hfree
    apply List.Nodup.map_on _ t.keys
    intro k hk j hj hkj
    split_ifs at hkj with h₁ h₂ h₂
    · rw [h₁,h₂]
    · exact absurd ⟨h₁ ▸ hk,hkj ▸ hj⟩ hfree
    · exact absurd ⟨h₂ ▸ hj,hkj ▸ hk⟩ hfree
    · exact hkj

theorem insertInstantiation_isSome (he : i.ended=none) :
    (t.insertInstantiation i).isSome=true ↔ i.link∈t.links.map Link.id∧
      t.HasInterface i.interfaceA∧t.HasInterface i.interfaceZ∧t.current i.link=none := by
  have hcur : t.current i.link=none ↔ i.key∉t.instantiations.map Instantiation.key := by
    rw [Instantiation.key,he,mem_keys_current,not_eq_true,isSome_eq_false_iff, isNone_iff_eq_none]
  rw [hcur]
  unfold insertInstantiation
  split_ifs with h
  · exact ⟨fun _ => h,fun _ => rfl⟩
  · exact ⟨fun hs => absurd hs false_ne_true,fun hs => absurd hs h⟩

theorem exists_insert (i : Instantiation) (he : i.ended=none) (hf : u.interfaces=t.interfaces)
    (hlink : i.link∈u.links.map Link.id) (ha : t.HasInterface i.interfaceA)
    (hz : t.HasInterface i.interfaceZ) (hfree : u.current i.link=none) :
    ∃ v,u.insertInstantiation i=some v := by
  rw [← isSome_iff_exists,insertInstantiation_isSome he]
  unfold HasInterface at *
  rw [hf]
  exact ⟨hlink,ha,hz,hfree⟩

theorem insertInstantiation_current (he : i.ended=none) (h : t.insertInstantiation i=some u)
    (j : Nat) : u.current j=if j=i.link then some i else t.current j := by
  have hfree := ((insertInstantiation_isSome he).mp (by rw [h]; rfl)).2.2.2
  rw [current,(insertInstantiation_spec h).1,lookup_append_singleton,← current]
  by_cases hj : j=i.link
  · subst hj
    rw [hfree,if_pos rfl,Instantiation.key,he,if_pos rfl]
    rfl
  · have hkey : i.key≠(j,none) := fun hk => hj (congrArg Prod.fst hk).symm
    rw [if_neg hj,if_neg hkey,or_none]

end Tables

end OESS.Links
