import OESS.Links.Tables

namespace OESS.Links

open Lookup Function
open List hiding lookup

/-- The link that `OESS::DB::Link::create` is asked for. -/
structure Model where
  name : String
  remoteUrn : Option String
  status : Status
  metric : Option Int
  interfaceA : Nat
  ipA : Option String
  interfaceZ : Nat
  ipZ : Option String

/-- For `OESS::DB::Link::update`; four columns are optional. -/
structure Change where
  link : Nat
  state : LinkState
  interfaceA : Nat
  ipA : Option String
  interfaceZ : Nat
  (ipZ name : Option String)
  status : Option Status
  remoteUrn : Option String
  metric : Option Int

def Model.instantiation (m : Model) (link : Nat) : Instantiation :=
  ⟨link,none,.planned,m.interfaceA,m.ipA,m.interfaceZ,m.ipZ⟩

def Change.instantiation (c : Change) : Instantiation :=
  ⟨c.link,none,c.state,c.interfaceA,c.ipA,c.interfaceZ,c.ipZ⟩

/-- The columns that are not defined keep their value. -/
def Change.columns (c : Change) (l : Link) : Link :=
  {l with
    name := c.name.getD l.name
    status := c.status.getD l.status
    remoteUrn := c.remoteUrn.or l.remoteUrn
    metric := c.metric.or l.metric}

namespace Tables

def create (t : Tables) (m : Model) : Tables×Option Nat :=
  match t.insertLink m.name m.remoteUrn m.status m.metric with
  | none => (t,none)
  | some t₁ =>
    match t₁.insertInstantiation (m.instantiation t.nextLink) with
    | none => (t₁,none)
    | some t₂ => (t₂.setRole (some m.interfaceA) (some m.interfaceZ) .trunk,some t.nextLink)

def update (t : Tables) (now : Nat) (c : Change) : Tables×Bool :=
  match t.updateLink c.link c.columns fun _ => rfl with
  | none => (t,false)
  | some t₁ =>
    match t₁.endCurrent c.link now with
    | none => (t₁,false)
    | some t₂ =>
      match t₂.insertInstantiation c.instantiation with
      | none => (t₂,false)
      | some t₃ =>
        -- the ids are read from the argument `model`, which only `create` has
        (if c.state=.decom then t₃.setRole none none .unknown else t₃,true)

variable {t u : Tables} {now : Nat} {c : Change}

theorem updateLink_none_iff : t.updateLink c.link c.columns (fun _ => rfl)=none ↔
    ¬((t.links.map fun l => if l.id=c.link then c.columns l else l).map Link.name).Nodup := by
  unfold updateLink
  split_ifs with h <;> simp only [h,not_true_eq_false,not_false_eq_true]

def history (t : Tables) (link : Nat) : List Instantiation :=
  t.instantiations.filter fun i => i.link=link

variable {link j : Nat}

theorem current_of_history (h : u.history link=t.history link) : u.current link=t.current link := by
  have hread (v : Tables) : v.current link=(v.history link).find? fun i => i.ended=none := by
    rw [current,history,lookup,find?_filter]
    simp [Instantiation.key]
  rw [hread,hread,h]

theorem endedNow_of_history (h : u.history link=t.history link) :
    u.EndedNow link now ↔ t.EndedNow link now := by
  have hread (v : Tables) : v.EndedNow link now ↔ ∃ i∈v.history link,i.ended=some now := by
    simp [EndedNow,history,and_assoc]
  rw [hread,hread,h]

def SameLink (t u : Tables) (link : Nat) : Prop :=
  lookup Link.id link u.links=lookup Link.id link t.links∧u.history link=t.history link

theorem SameLink.trans {v : Tables} (h : SameLink t u link) (h' : SameLink u v link) :
    SameLink t v link := ⟨h'.1.trans h.1,h'.2.trans h.2⟩

theorem updateLink_sameLink {f : Link → Link} {hf : ∀ l,(f l).id=l.id}
    (h : t.updateLink link f hf=some u) (hj : j≠link) : SameLink t u j := by
  obtain ⟨hl,hi,-⟩ := updateLink_spec h
  refine ⟨?_,by rw [history,history,hi]⟩
  have hkeep (l : Link) : (if l.id=link then f l else l).id=l.id := by
    split_ifs
    · exact hf l
    · rfl
  rw [hl,lookup_map hkeep]
  cases hfind : lookup Link.id j t.links with
  | none => rfl
  | some l =>
    have hid : l.id≠link := by rwa [(lookup_spec hfind).2]
    rw [Option.map_some,if_neg hid]

theorem endCurrent_sameLink (h : t.endCurrent link now=some u) (hj : j≠link) : SameLink t u j := by
  obtain ⟨hi,hl,-⟩ := endCurrent_spec h
  refine ⟨by rw [hl],?_⟩
  rw [history,history,hi,filter_map]
  have hlink (i : Instantiation) :
      (if i.key=(link,none) then i.endedAt now else i).link=i.link := by
    split_ifs <;> rfl
  have hfilter : t.instantiations.filter ((fun i => decide (i.link=j))∘
      fun i => if i.key=(link,none) then i.endedAt now else i)=
      t.instantiations.filter fun i => i.link=j := by
    apply filter_congr
    intro i _
    simp only [comp_apply,hlink]
  rw [hfilter]
  nth_rewrite 2 [← map_id (t.instantiations.filter (·.link=j))]
  apply map_congr_left
  intro i hi
  have hij : i.link=j := by simpa using (mem_filter.mp hi).2
  have hkey : i.key≠(link,none) := fun hk => hj (hij.symm.trans (congrArg Prod.fst hk))
  rw [if_neg hkey,id]

theorem insertInstantiation_sameLink {i : Instantiation} (h : t.insertInstantiation i=some u)
    (hj : j≠i.link) : SameLink t u j := by
  obtain ⟨hi,hl,-⟩ := insertInstantiation_spec h
  refine ⟨by rw [hl],?_⟩
  rw [history,history,hi]
  simp [hj.symm]

theorem setRole_none (r : Role) : t.setRole none none r=t := by simp [setRole]

/-- An update leaves the tables as they were, or after one, two or three statements. -/
theorem update_cases (P : Tables → Prop) (h₀ : P t)
    (h₁ : ∀ t₁,t.updateLink c.link c.columns (fun _ => rfl)=some t₁ → P t₁)
    (h₂ : ∀ t₁ t₂,P t₁ → t₁.endCurrent c.link now=some t₂ → P t₂)
    (h₃ : ∀ t₂ t₃,P t₂ → t₂.insertInstantiation c.instantiation=some t₃ → P t₃) :
    P (t.update now c).1 := by
  unfold update
  cases hu : t.updateLink c.link c.columns fun _ => rfl with
  | none => exact h₀
  | some t₁ =>
    have p₁ := h₁ t₁ hu
    cases he : t₁.endCurrent c.link now with
    | none => simpa only [he] using p₁
    | some t₂ =>
      have p₂ := h₂ t₁ t₂ p₁ he
      cases hi : t₂.insertInstantiation c.instantiation with
      | none => simpa only [he,hi] using p₂
      | some t₃ =>
        have p₃ := h₃ t₂ t₃ p₂ hi
        simpa only [he,hi,setRole_none,ite_self] using p₃

theorem update_sameLink (hj : j≠c.link) : SameLink t (t.update now c).1 j := by
  apply update_cases (SameLink t · j)
  · exact ⟨rfl,rfl⟩
  · intro t₁ h
    exact updateLink_sameLink h hj
  · intro t₁ t₂ hp h
    exact hp.trans (endCurrent_sameLink h hj)
  · intro t₂ t₃ hp h
    exact hp.trans (insertInstantiation_sameLink h hj)

theorem update_ground : (t.update now c).1.nodes=t.nodes∧
    (t.update now c).1.interfaces=t.interfaces∧(t.update now c).1.nextLink=t.nextLink∧
    (t.update now c).1.links.map Link.id=t.links.map Link.id := by
  apply update_cases fun u : Tables => u.nodes=t.nodes∧u.interfaces=t.interfaces∧
    u.nextLink=t.nextLink∧u.links.map Link.id=t.links.map Link.id
  · exact ⟨rfl,rfl,rfl,rfl⟩
  · intro t₁ h
    obtain ⟨-,-,hf,hn,hx⟩ := updateLink_spec h
    exact ⟨hn,hf,hx,updateLink_linkIds h⟩
  · intro t₁ t₂ hp h
    obtain ⟨-,hl,hf,hn,hx⟩ := endCurrent_spec h
    rwa [hn,hf,hx,hl]
  · intro t₂ t₃ hp h
    obtain ⟨-,hl,hf,hn,hx⟩ := insertInstantiation_spec h
    rwa [hn,hf,hx,hl]

theorem columns_name (h : c.name=none) (l : Link) : (c.columns l).name=l.name := by
  simp [Change.columns,h]

theorem map_columns_name (h : c.name=none) (links : List Link) :
    (links.map fun l => if l.id=c.link then c.columns l else l).map Link.name=
      links.map Link.name := by
  rw [map_map]
  apply map_congr_left
  intro l _
  simp only [comp_apply]
  split_ifs
  · exact columns_name h l
  · rfl

theorem update_names (h : c.name=none) :
    (t.update now c).1.links.map Link.name=t.links.map Link.name := by
  apply update_cases fun u : Tables => u.links.map Link.name=t.links.map Link.name
  · rfl
  · intro t₁ hu
    rw [(updateLink_spec hu).1,map_columns_name h]
  · intro t₁ t₂ hp he
    rw [(endCurrent_spec he).2.1,hp]
  · intro t₂ t₃ hp hi
    rw [(insertInstantiation_spec hi).2.1,hp]

theorem update_done (hname : c.name=none) (hk : c.link∈t.links.map Link.id)
    (ha : t.HasInterface c.interfaceA) (hz : t.HasInterface c.interfaceZ)
    (hfree : ¬t.EndedNow c.link now) :
    lookup Link.id c.link (t.update now c).1.links=
        (lookup Link.id c.link t.links).map c.columns∧
      (t.update now c).1.current c.link=some c.instantiation := by
  have hok : t.updateLink c.link c.columns (fun _ => rfl)≠none := by
    rw [ne_eq,updateLink_none_iff,not_not,map_columns_name hname]
    exact t.linkNames
  obtain ⟨t₁,hu⟩ := Option.ne_none_iff_exists'.mp hok
  obtain ⟨hl₁,hi₁,hf₁,-⟩ := updateLink_spec hu
  have hsome : (t₁.endCurrent c.link now).isSome=true := by
    rw [endCurrent_isSome,EndedNow,hi₁]
    exact fun h => hfree h.2
  obtain ⟨t₂,he⟩ := Option.isSome_iff_exists.mp hsome
  obtain ⟨-,hl₂,hf₂,-⟩ := endCurrent_spec he
  have hknown : c.link∈t₂.links.map Link.id := by rwa [hl₂,updateLink_linkIds hu]
  obtain ⟨t₃,hi⟩ := exists_insert c.instantiation rfl (hf₂.trans hf₁) hknown ha hz
    ((endCurrent_current he _).trans (if_pos rfl))
  have hupdate : (t.update now c).1=t₃ := by simp only [update,hu,he,hi,setRole_none,ite_self]
  rw [hupdate]
  constructor
  · have hkeep (l : Link) : (if l.id=c.link then c.columns l else l).id=l.id := by split_ifs <;> rfl
    rw [(insertInstantiation_spec hi).2.1,hl₂,hl₁,lookup_map hkeep]
    cases hfind : lookup Link.id c.link t.links with
    | none => rfl
    | some l => rw [Option.map_some,Option.map_some,if_pos (lookup_spec hfind).2]
  · rw [insertInstantiation_current rfl hi]
    exact if_pos rfl

variable {m : Model}

def place (f : Interface) : Nat×Nat×String := (f.id,f.node,f.name)

theorem setRole_places (a z : Option Nat) (r : Role) :
    (t.setRole a z r).interfaces.map place=t.interfaces.map place := by
  rw [setRole,map_map]
  apply map_congr_left
  intro f _
  simp only [comp_apply]
  split_ifs <;> rfl

theorem create_refused (h : m.name∈t.links.map Link.name) : t.create m=(t,none) := by
  have hnone : t.insertLink m.name m.remoteUrn m.status m.metric=none := dif_pos h
  rw [create,hnone]

theorem create_cases (P : Tables → Prop) (h₀ : P t)
    (h₁ : ∀ t₁,t.insertLink m.name m.remoteUrn m.status m.metric=some t₁ → P t₁)
    (h₂ : ∀ t₁ t₂,P t₁ → t₁.insertInstantiation (m.instantiation t.nextLink)=some t₂ → P t₂)
    (h₃ : ∀ t₂,P t₂ → P (t₂.setRole (some m.interfaceA) (some m.interfaceZ) .trunk)) :
    P (t.create m).1 := by
  unfold create
  cases hl : t.insertLink m.name m.remoteUrn m.status m.metric with
  | none => exact h₀
  | some t₁ =>
    have p₁ := h₁ t₁ hl
    cases hi : t₁.insertInstantiation (m.instantiation t.nextLink) with
    | none => simpa only [hi] using p₁
    | some t₂ =>
      have p₂ := h₃ t₂ (h₂ t₁ t₂ p₁ hi)
      simpa only [hi] using p₂

theorem create_sameLink (hj : j<t.nextLink) : SameLink t (t.create m).1 j := by
  have hne : t.nextLink≠j := by omega
  apply create_cases (SameLink t · j)
  · exact ⟨rfl,rfl⟩
  · intro t₁ h
    obtain ⟨-,hl,hi,-⟩ := insertLink_spec h
    refine ⟨?_,by rw [history,history,hi]⟩
    rw [hl,lookup_append_singleton,if_neg hne,Option.or_none]
  · intro t₁ t₂ hp h
    exact hp.trans (insertInstantiation_sameLink h hne.symm)
  · intro t₂ hp
    exact hp

theorem create_ground : (t.create m).1.nodes=t.nodes∧
    (t.create m).1.interfaces.map place=t.interfaces.map place∧
    t.nextLink≤(t.create m).1.nextLink∧
    t.links.map Link.name ⊆ (t.create m).1.links.map Link.name∧
    (t.create m).1.links.map Link.name ⊆ t.links.map Link.name++[m.name] := by
  apply create_cases fun u : Tables => u.nodes=t.nodes∧
    u.interfaces.map place=t.interfaces.map place∧t.nextLink≤u.nextLink∧
    t.links.map Link.name ⊆ u.links.map Link.name∧
    u.links.map Link.name ⊆ t.links.map Link.name++[m.name]
  · exact ⟨rfl,rfl,Nat.le_refl _,List.Subset.refl _,subset_append_left _ _⟩
  · intro t₁ h
    obtain ⟨-,hl,-,hf,hn,hx⟩ := insertLink_spec h
    refine ⟨hn,by rw [hf],by omega,?_⟩
    rw [hl,map_append]
    exact ⟨subset_append_left _ _,List.Subset.refl _⟩
  · intro t₁ t₂ hp h
    obtain ⟨-,hl,hf,hn,hx⟩ := insertInstantiation_spec h
    rwa [hn,hf,hx,hl]
  · intro t₂ hp
    rwa [setRole_places]

theorem current_nextLink (t : Tables) : t.current t.nextLink=none := by
  cases hc : t.current t.nextLink with
  | none => rfl
  | some i =>
    obtain ⟨hi,hlink,-⟩ := current_spec hc
    obtain ⟨l,hmem,hid⟩ := mem_map.mp (t.known i hi)
    have hlt := t.fresh l hmem
    omega

theorem create_done (hname : m.name∉t.links.map Link.name) (ha : t.HasInterface m.interfaceA)
    (hz : t.HasInterface m.interfaceZ) :
    lookup Link.id t.nextLink (t.create m).1.links=
        some ⟨t.nextLink,m.name,m.remoteUrn,m.status,m.metric⟩∧
      (t.create m).1.current t.nextLink=some (m.instantiation t.nextLink)∧
      t.nextLink<(t.create m).1.nextLink := by
  obtain ⟨t₁,hl⟩ := Option.isSome_iff_exists.mp
    ((insertLink_isSome m.remoteUrn m.status m.metric).mpr hname)
  obtain ⟨-,hl₁,hi₁,hf₁,hn₁,hx₁⟩ := insertLink_spec hl
  obtain ⟨t₂,hi⟩ := exists_insert (m.instantiation t.nextLink) rfl hf₁
    (by simp [hl₁,Model.instantiation]) ha hz ((current_congr hi₁).trans (current_nextLink t))
  have hcreate : (t.create m).1=t₂.setRole (some m.interfaceA) (some m.interfaceZ) .trunk := by
    simp only [create,hl,hi]
  obtain ⟨-,hl₂,-,-,hx₂⟩ := insertInstantiation_spec hi
  rw [hcreate]
  refine ⟨?_,?_,?_⟩
  · have hfresh : lookup Link.id t.nextLink t.links=none := by
      cases hfind : lookup Link.id t.nextLink t.links with
      | none => rfl
      | some l =>
        obtain ⟨hmem,hid⟩ := lookup_spec hfind
        have hlt := t.fresh l hmem
        omega
    rw [setRole_links,hl₂,hl₁,lookup_append_singleton,hfresh,if_pos rfl]
    rfl
  · rw [setRole_current,insertInstantiation_current rfl hi]
    exact if_pos rfl
  · have hx : (t₂.setRole (some m.interfaceA) (some m.interfaceZ) .trunk).nextLink=t₂.nextLink := rfl
    omega

end Tables

def Ground (t u : Tables) : Prop :=
  u.nodes=t.nodes∧u.interfaces.map Tables.place=t.interfaces.map Tables.place

theorem Ground.trans {v : Tables} (h : Ground t u) (h' : Ground u v) : Ground t v :=
  ⟨h'.1.trans h.1,h'.2.trans h.2⟩

theorem hasInterface_ground (h : Ground t u) (id : Nat) : u.HasInterface id ↔ t.HasInterface id := by
  have hread (v : Tables) :
      v.interfaces.map Interface.id=(v.interfaces.map Tables.place).map Prod.fst := by
    rw [map_map]
    rfl
  unfold Tables.HasInterface
  rw [hread,hread,h.2]

theorem Ground.find_interface (h : Ground t u) (name : String) (node : Nat) :
    (u.interfaces.find? fun f => decide (f.name=name∧f.node=node)).map (·.id)=
      (t.interfaces.find? fun f => decide (f.name=name∧f.node=node)).map (·.id) := by
  have hread (v : Tables) : (v.interfaces.find? fun f => decide (f.name=name∧f.node=node)).map (·.id)=
      ((v.interfaces.map Tables.place).find? fun p => decide (p.2.2=name∧p.2.1=node)).map (·.1) := by
    rw [find?_map,Option.map_map]
    rfl
  rw [hread,hread,h.2]

end OESS.Links
