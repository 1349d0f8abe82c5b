import OESS.Links.IsisLinks

namespace OESS.Links.Isis

open Lookup Tables Option
open List hiding lookup

variable (t : Tables)

def Live (i : Instantiation) : Prop := i∈t.instantiations∧i.ended=none∧i.state≠.decom

def OneLink : Prop := ∀ i j id,Live t i → Live t j → id∈i.ends → id∈j.ends → i=j

/-- One live link joins them and no other ends at either. -/
def Paired (a z : Nat) : Prop :=
  ∃ i,Live t i∧i.joins a z=true∧∀ j,Live t j → a∈j.ends∨z∈j.ends → j=i

def Trunks : Prop := ∀ i,Live t i → ∀ id∈i.ends,t.role id=some .trunk

/-- The adjacencies done have their links, and all ends are trunks. -/
def Settled (s : Tables×List Entry) : Prop := (∀ d∈s.2,Paired s.1 d.a d.z)∧Trunks s.1

section Live

variable {t u : Tables} {i j : Instantiation} {a z id : Nat}

theorem live_iff_current : Live t i ↔ t.current i.link=some i∧i.state≠.decom := by
  rw [current_eq_some]
  constructor
  · intro ⟨hi,he,hs⟩
    exact ⟨⟨hi,rfl,he⟩,hs⟩
  · intro ⟨⟨hi,_,he⟩,hs⟩
    exact ⟨hi,he,hs⟩

theorem Live.eq_of_link (hi : Live t i) (hj : Live t j) (h : i.link=j.link) : i=j := by
  have hi' := (live_iff_current.mp hi).1
  have hj' := (live_iff_current.mp hj).1
  rw [h,hj'] at hi'
  exact (some.inj hi').symm

theorem joins_iff : i.joins a z=true ↔
    i.interfaceA=a∧i.interfaceZ=z∨i.interfaceA=z∧i.interfaceZ=a := by
  simp [Instantiation.joins]

theorem joins_ends (h : i.joins a z=true) : a∈i.ends∧z∈i.ends := by
  unfold Instantiation.ends
  rcases joins_iff.mp h with ⟨rfl,rfl⟩ | ⟨rfl,rfl⟩ <;> simp

theorem mem_ends_of_joins (h : i.joins a z=true) (hid : id∈i.ends) : id=a∨id=z := by
  unfold Instantiation.ends at hid
  simp only [mem_cons,not_mem_nil,or_false] at hid
  rcases joins_iff.mp h with ⟨rfl,rfl⟩ | ⟨rfl,rfl⟩
  · exact hid
  · exact hid.symm

theorem otherEnd_mem (id : Nat) : i.otherEnd id∈i.ends := by
  unfold Instantiation.otherEnd Instantiation.ends
  split_ifs <;> simp

theorem joined_iff : joined t a z=true ↔ ∃ i∈t.instantiations,i.ended=none∧i.joins a z=true := by
  simp [joined]

theorem Live.not_joins (hfree : joined t a z=false) (hi : Live t i) : i.joins a z≠true := by
  intro hij
  have hjoined : joined t a z=true := joined_iff.mpr ⟨i,hi.1,hi.2.1,hij⟩
  rw [hfree] at hjoined
  cases hjoined

theorem mem_linksTo {node : Nat} (h : i∈linksTo t id node) : Live t i∧id∈i.ends := by
  unfold linksTo at h
  simp only [mem_filter,Bool.and_eq_true,beq_iff_eq,bne_iff_ne,contains_iff_mem] at h
  obtain ⟨⟨hi,⟨he,hs⟩,hid⟩,-⟩ := h
  exact ⟨⟨hi,he,hs⟩,hid⟩

theorem OneLink.paired (h : OneLink t) (hi : Live t i) (hj : i.joins a z=true) : Paired t a z := by
  obtain ⟨ha,hz⟩ := joins_ends hj
  refine ⟨i,hi,hj,?_⟩
  rintro j hlive (hend | hend)
  · exact h j i a hlive hi hend ha
  · exact h j i z hlive hi hend hz

end Live

def Joining (e : Entry) (n : Instantiation) : Prop :=
  n.joins e.a e.z=true∧∀ id,id∈n.ends ↔ id=e.a∨id=e.z

theorem instantiation_joining (e : Entry) (link : Nat) (state : LinkState) :
    Joining e (e.instantiation link state) := by
  refine ⟨?_,fun id => ?_⟩
  · simp [Entry.instantiation,Instantiation.joins]
  · simp [Entry.instantiation,Instantiation.ends]

section OneStep

variable {t u : Tables} {e : Entry} {done : List Entry} {n : Instantiation}

structure Replaces (t u : Tables) (e : Entry) (link : Nat) (n : Instantiation) : Prop where
  joining : Joining e n
  live : ∀ j,Live u j ↔ j=n∨(Live t j∧j.link≠link)

/-- A step that brings only `n` and pairs the adjacency leaves one live link at each interface. -/
theorem oneLink_of_paired {link : Nat} (hone : OneLink t) (h : Replaces t u e link n)
    (hp : Paired u e.a e.z) : OneLink u := by
  obtain ⟨i,-,hij,honly⟩ := hp
  have hni : n=i :=
    honly n ((h.live n).mpr (.inl rfl)) (.inl ((h.joining.2 e.a).mpr (.inl rfl)))
  have hmine {j : Instantiation} {id : Nat} (hj : Live u j) (hid : id∈j.ends) (hnid : id∈n.ends) :
      j=n := by
    rw [hni]
    apply honly j hj
    rcases (h.joining.2 id).mp hnid with rfl | rfl
    · exact .inl hid
    · exact .inr hid
  intro j k id hj hk hidj hidk
  rcases (h.live j).mp hj with hjn | ⟨hjold,-⟩
  · subst hjn
    exact (hmine hk hidk hidj).symm
  rcases (h.live k).mp hk with hkn | ⟨hkold,-⟩
  · subst hkn
    exact hmine hj hidj hidk
  · exact hone j k id hjold hkold hidj hidk

/-- A step that replaces the row of a link settles the adjacency exactly under these conditions. -/
theorem settled_replaced {link : Nat} (h : Replaces t u e link n)
    (hset : ∀ d∈done,Paired t d.a d.z) (hfree : joined t e.a e.z=false) :
    Settled (u,done++[e]) ↔ (∀ j,Live t j → j.link≠link → e.a∉j.ends∧e.z∉j.ends)∧
      (∀ d∈done,∀ i,Live t i → i.link=link → i.joins d.a d.z=false)∧Trunks u := by
  have hn : Live u n := (h.live n).mpr (.inl rfl)
  have hpair : Paired u e.a e.z ↔ ∀ j,Live t j → j.link≠link → e.a∉j.ends∧e.z∉j.ends := by
    constructor
    · intro ⟨i,_,_,honly⟩ j hj hlink
      have hni : n=i := honly n hn (.inl ((h.joining.2 e.a).mpr (.inl rfl)))
      have hju : Live u j := (h.live j).mpr (.inr ⟨hj,hlink⟩)
      have hnot (hend : e.a∈j.ends∨e.z∈j.ends) : False := by
        have hjn : j=n := (honly j hju hend).trans hni.symm
        -- the new row joins the two interfaces, which no old one did
        exact hj.not_joins hfree (hjn ▸ h.joining.1)
      exact ⟨fun ha => hnot (.inl ha),fun hz => hnot (.inr hz)⟩
    · intro hclear
      refine ⟨n,hn,h.joining.1,?_⟩
      intro j hj hend
      rcases (h.live j).mp hj with hjn | ⟨hjt,hlink⟩
      · exact hjn
      · obtain ⟨ha,hz⟩ := hclear j hjt hlink
        exact absurd hend (not_or.mpr ⟨ha,hz⟩)
  have hold (hclear : ∀ j,Live t j → j.link≠link → e.a∉j.ends∧e.z∉j.ends) (d : Entry)
      (hd : d∈done) : Paired u d.a d.z ↔ ∀ i,Live t i → i.link=link → i.joins d.a d.z=false := by
    obtain ⟨k,hk,hkj,honly⟩ := hset d hd
    constructor
    · intro ⟨i,hi,hij,_⟩ j hj hlink
      by_contra hjoin
      rw [Bool.not_eq_false] at hjoin
      have hjk : j=k := honly j hj (.inl (joins_ends hjoin).1)
      rcases (h.live i).mp hi with hin | ⟨hit,hne⟩
      · -- the new row joins the pair of `d`, so the pair of `d` is that of the step
        subst hin
        have hends := (joins_ends hij)
        have ha := (h.joining.2 d.a).mp hends.1
        have hz := (h.joining.2 d.z).mp hends.2
        have hcross : j.joins e.a e.z=true := by
          have hea := mem_ends_of_joins hij ((h.joining.2 e.a).mpr (.inl rfl))
          have hez := mem_ends_of_joins hij ((h.joining.2 e.z).mpr (.inr rfl))
          rw [joins_iff] at hjoin ⊢
          omega
        exact hj.not_joins hfree hcross
      · have hik : i=k := honly i hit (.inl (joins_ends hij).1)
        exact hne (by rw [hik,← hjk,hlink])
    · intro hother
      have hkl : k.link≠link := by
        intro hlink
        rw [hother k hk hlink] at hkj
        cases hkj
      refine ⟨k,(h.live k).mpr (.inr ⟨hk,hkl⟩),hkj,?_⟩
      intro j hj hend
      rcases (h.live j).mp hj with hjn | ⟨hjt,-⟩
      · subst hjn
        obtain ⟨ha,hz⟩ := hclear k hk hkl
        obtain ⟨hka,hkz⟩ := joins_ends hkj
        exfalso
        rcases hend with hend | hend
        · rcases (h.joining.2 d.a).mp hend with hd | hd
          · exact ha (hd ▸ hka)
          · exact hz (hd ▸ hka)
        · rcases (h.joining.2 d.z).mp hend with hd | hd
          · exact ha (hd ▸ hkz)
          · exact hz (hd ▸ hkz)
      · exact honly j hjt hend
  constructor
  · intro ⟨hpairs,htrunks⟩
    have hclear := hpair.mp (hpairs e (by simp))
    refine ⟨hclear,fun d hd => ?_,htrunks⟩
    exact (hold hclear d hd).mp (hpairs d (mem_append_left _ hd))
  · intro ⟨hclear,hdone,htrunks⟩
    have hpairs (d : Entry) (hd : d∈done) := (hold hclear d hd).mpr (hdone d hd)
    exact ⟨Runs.forall_mem_snoc hpairs (hpair.mpr hclear),htrunks⟩

theorem not_settled_of_unjoined (hi : u.instantiations=t.instantiations)
    (hfree : joined t e.a e.z=false) : ¬Settled (u,done++[e]) := by
  intro h
  obtain ⟨i,⟨hmem,hlive⟩,hij,-⟩ := h.1 e (by simp)
  exact Live.not_joins hfree ⟨hi ▸ hmem,hlive⟩ hij

end OneStep

section Moves

variable {t u : Tables} {e : Entry} {done : List Entry} {i : Instantiation} {keep new : Nat}

theorem replaces_of_current {link : Nat} {n : Instantiation} (hn : Joining e n) (hlink : n.link=link)
    (hstate : n.state≠.decom)
    (hcur : ∀ k,u.current k=if k=link then some n else t.current k) : Replaces t u e link n where
  joining := hn
  live := by
    intro j
    rw [live_iff_current,live_iff_current,hcur]
    by_cases hj : j.link=link
    · rw [if_pos hj]
      constructor
      · intro ⟨hsome,_⟩
        exact .inl (some.inj hsome).symm
      · rintro (rfl | ⟨-,hne⟩)
        · exact ⟨rfl,hstate⟩
        · exact absurd hj hne
    · rw [if_neg hj]
      constructor
      · intro h
        exact .inr ⟨h,hj⟩
      · rintro (rfl | ⟨h,-⟩)
        · exact absurd hlink hj
        · exact h

theorem relink_done (hi : Live t i) (hfree : ¬t.EndedNow i.link e.now) (ha : t.HasInterface e.a)
    (hz : t.HasInterface e.z) (k : Nat) : (relink t e i).current k=
      if k=i.link then some (e.instantiation i.link i.state) else t.current k := by
  obtain ⟨t₁,he⟩ := isSome_iff_exists.mp (endCurrent_isSome.mpr fun h => hfree h.2)
  obtain ⟨-,hl₁,hf₁,-⟩ := endCurrent_spec he
  obtain ⟨t₂,hi₂⟩ := exists_insert (e.instantiation i.link i.state) rfl hf₁
    (hl₁ ▸ t.known i hi.1) ha hz ((endCurrent_current he _).trans (if_pos rfl))
  have hrelink : relink t e i=t₂ := by simp only [relink,he,getD_some,hi₂]
  rw [hrelink,insertInstantiation_current rfl hi₂,endCurrent_current he]
  unfold Entry.instantiation
  split_ifs <;> rfl

theorem relink_stuck (hi : Live t i) (hbusy : t.EndedNow i.link e.now) : relink t e i=t := by
  have hcur := (live_iff_current.mp hi).1
  have hnone : t.endCurrent i.link e.now=none := by
    rw [← not_isSome_iff_eq_none,endCurrent_isSome,not_not,hcur]
    exact ⟨rfl,hbusy⟩
  have hinsert : t.insertInstantiation (e.instantiation i.link i.state)=none := by
    rw [← not_isSome_iff_eq_none,insertInstantiation_isSome rfl]
    intro h
    have hfree : t.current i.link=none := h.2.2.2
    rw [hcur] at hfree
    cases hfree
  simp only [relink,hnone,getD_none,hinsert]

theorem relink_role (t : Tables) (e : Entry) (i : Instantiation) (id : Nat) :
    (relink t e i).role id=t.role id := by
  have hinterfaces : (relink t e i).interfaces=t.interfaces := by
    have hended : ((t.endCurrent i.link e.now).getD t).interfaces=t.interfaces :=
      getD_cases (·.interfaces=t.interfaces) rfl fun u h => (endCurrent_spec h).2.2.1
    apply getD_cases fun u : Tables => u.interfaces=t.interfaces
    · exact hended
    · intro u h
      exact (insertInstantiation_spec h).2.2.1.trans hended
  rw [role,role,hinterfaces]

theorem move_role (id : Nat) : (move t e i keep new).role id=
    if id=new then (t.role id).map fun _ => .trunk
    else if id=i.otherEnd keep then (t.role id).map fun _ => .unknown
    else t.role id := by
  rw [move,relink_role,setRole_role,setRole_role]
  simp only [some.injEq,reduceCtorEq,or_false]
  split_ifs
  · rw [Option.map_map]
    rfl
  all_goals rfl

theorem move_replaces (hi : Live t i) (hfree : ¬t.EndedNow i.link e.now)
    (ha : t.HasInterface e.a) (hz : t.HasInterface e.z) :
    Replaces t (move t e i keep new) e i.link (e.instantiation i.link i.state) := by
  apply replaces_of_current (instantiation_joining e i.link i.state) rfl hi.2.2
  intro k
  have hground := (setRole_ground t (some (i.otherEnd keep)) none .unknown).trans
    (setRole_ground _ (some new) none .trunk)
  exact relink_done (t := (t.setRole (some (i.otherEnd keep)) none .unknown).setRole (some new) none
    .trunk) hi hfree ((hasInterface_ground hground _).mpr ha) ((hasInterface_ground hground _).mpr hz) k

theorem move_stuck (hi : Live t i) (hbusy : t.EndedNow i.link e.now) :
    (move t e i keep new).instantiations=t.instantiations := by
  have hstuck : move t e i keep new=
      (t.setRole (some (i.otherEnd keep)) none .unknown).setRole (some new) none .trunk :=
    relink_stuck hi hbusy
  rw [hstuck]
  rfl

/-- The interface that keeps its link, then that which gets it. -/
def Ends (e : Entry) (keep new : Nat) : Prop := keep=e.a∧new=e.z∨keep=e.z∧new=e.a

theorem move_trunks (hi : Live t i) (hkeep : keep∈i.ends) (hends : Ends e keep new)
    (hone : OneLink t) (htrunks : Trunks t) (hfree : ¬t.EndedNow i.link e.now)
    (ha : t.HasInterface e.a) (hz : t.HasInterface e.z)
    (hclear : ∀ j,Live t j → j.link≠i.link → e.a∉j.ends∧e.z∉j.ends) :
    Trunks (move t e i keep new) ↔ i.otherEnd keep≠keep∨keep=new := by
  have hrep : Replaces t (move t e i keep new) e i.link (e.instantiation i.link i.state) :=
    move_replaces hi hfree ha hz
  have hjoining := hrep.joining
  have hnew : t.HasInterface new := by
    rcases hends with ⟨-,rfl⟩ | ⟨-,rfl⟩
    · exact hz
    · exact ha
  have hmem (id : Nat) : id∈(e.instantiation i.link i.state).ends ↔ id=keep∨id=new := by
    rw [hjoining.2]
    rcases hends with ⟨rfl,rfl⟩ | ⟨rfl,rfl⟩
    · exact .rfl
    · exact or_comm
  constructor
  · intro h
    by_contra hnot
    rw [not_or,not_not] at hnot
    obtain ⟨hold,hne⟩ := hnot
    have hlive := (hrep.live _).mpr (.inl rfl)
    have hrole := h _ hlive keep ((hmem keep).mpr (.inl rfl))
    rw [move_role,if_neg hne,if_pos hold.symm] at hrole
    cases hr : t.role keep <;> simp at hrole
  · intro hold j hj id hid
    rw [move_role]
    rcases (hrep.live j).mp hj with rfl | ⟨hjt,hlink⟩
    · rcases (hmem id).mp hid with rfl | rfl
      · split_ifs with hkn hko
        · rw [htrunks i hi id hkeep]
          rfl
        · rcases hold with hold | hold
          · exact absurd hko.symm hold
          · exact absurd hold hkn
        · exact htrunks i hi id hkeep
      · rw [if_pos rfl]
        obtain ⟨r,hr⟩ := isSome_iff_exists.mp (role_isSome.mpr hnew)
        rw [hr]
        rfl
    · obtain ⟨hja,hjz⟩ := hclear j hjt hlink
      have hidnew : id≠new := by
        intro heq
        subst heq
        rcases hends with ⟨-,rfl⟩ | ⟨-,rfl⟩
        · exact hjz hid
        · exact hja hid
      have hidold : id≠i.otherEnd keep := by
        intro heq
        have hji : j=i := hone j i id hjt hi hid (heq ▸ otherEnd_mem keep)
        exact hlink (congrArg Instantiation.link hji)
      rw [if_neg hidnew,if_neg hidold]
      exact htrunks j hjt id hid

/-- The link `i` was not ended in this second, `new` is free, there is no loop, and no adjacency
done needs it. -/
def Movable (t : Tables) (done : List Entry) (e : Entry) (i : Instantiation) (keep new : Nat) :
    Prop :=
  ¬t.EndedNow i.link e.now∧(∀ j,Live t j → new∈j.ends → j=i)∧(i.otherEnd keep≠keep∨keep=new)∧
    ∀ d∈done,i.joins d.a d.z=false

theorem settled_move_iff (hi : Live t i) (hkeep : keep∈i.ends) (hends : Ends e keep new)
    (hone : OneLink t) (hset : Settled (t,done)) (ha : t.HasInterface e.a) (hz : t.HasInterface e.z)
    (hunjoined : joined t e.a e.z=false) :
    Settled (move t e i keep new,done++[e]) ↔ Movable t done e i keep new := by
  by_cases hfree : t.EndedNow i.link e.now
  · constructor
    · intro h
      exact absurd h (not_settled_of_unjoined (move_stuck hi hfree) hunjoined)
    · intro h
      exact absurd hfree h.1
  have hrep : Replaces t (move t e i keep new) e i.link (e.instantiation i.link i.state) :=
    move_replaces hi hfree ha hz
  have hclear : (∀ j,Live t j → j.link≠i.link → e.a∉j.ends∧e.z∉j.ends) ↔
      ∀ j,Live t j → new∈j.ends → j=i := by
    constructor
    · intro h j hj hnew
      by_contra hne
      have hlink : j.link≠i.link := fun hl => hne (hj.eq_of_link hi hl)
      obtain ⟨hja,hjz⟩ := h j hj hlink
      rcases hends with ⟨-,rfl⟩ | ⟨-,rfl⟩
      · exact hjz hnew
      · exact hja hnew
    · intro h j hj hlink
      have hne : j≠i := fun heq => hlink (congrArg Instantiation.link heq)
      have hjkeep : keep∉j.ends := fun hk => hne (hone j i keep hj hi hk hkeep)
      have hjnew : new∉j.ends := fun hn => hne (h j hj hn)
      rcases hends with ⟨rfl,rfl⟩ | ⟨rfl,rfl⟩
      · exact ⟨hjkeep,hjnew⟩
      · exact ⟨hjnew,hjkeep⟩
  have hdone : (∀ d∈done,∀ k,Live t k → k.link=i.link → k.joins d.a d.z=false) ↔
      ∀ d∈done,i.joins d.a d.z=false := by
    constructor
    · intro h d hd
      exact h d hd i hi rfl
    · intro h d hd k hk hlink
      rw [hk.eq_of_link hi hlink]
      exact h d hd
  rw [settled_replaced hrep hset.1 hunjoined,hclear,hdone]
  constructor
  · intro ⟨hnew,hd,htr⟩
    exact ⟨hfree,hnew,(move_trunks hi hkeep hends hone hset.2 hfree ha hz (hclear.mpr hnew)).mp htr,hd⟩
  · intro ⟨_,hnew,hold,hd⟩
    exact ⟨hnew,hd,(move_trunks hi hkeep hends hone hset.2 hfree ha hz (hclear.mpr hnew)).mpr hold⟩

end Moves

section Attach

variable {t u : Tables} {e : Entry} {done : List Entry}

theorem insert_role {i : Instantiation} (h : t.insertInstantiation i=some u) (id : Nat) :
    u.role id=t.role id := by
  rw [role,role,(insertInstantiation_spec h).2.2.1]

/-- The link of the name has no current instantiation. -/
def NameFree (t : Tables) (name : String) : Prop := ∀ l∈t.links,l.name=name → t.current l.id=none

theorem attach_stuck (h : ¬NameFree t e.name) : attach t e=t := by
  unfold NameFree at h
  simp only [not_forall] at h
  obtain ⟨l,hl,hname,hcur⟩ := h
  have hfind : lookup Link.name e.name t.links=some l := hname ▸ lookup_of_mem t.linkNames hl
  have hinsert : t.insertInstantiation (e.instantiation l.id .available)=none := by
    rw [← not_isSome_iff_eq_none,insertInstantiation_isSome rfl]
    intro h
    exact hcur h.2.2.2
  simp only [attach,hfind,hinsert,getD_none]

theorem attach_replaces (h : NameFree t e.name) (ha : t.HasInterface e.a)
    (hz : t.HasInterface e.z) :
    ∃ link n,Replaces t (attach t e) e link n∧(∀ j,Live t j → j.link≠link)∧
      ∀ id,(attach t e).role id=t.role id := by
  have hfree {link : Nat} (hcur : t.current link=none) : ∀ j,Live t j → j.link≠link := by
    intro j hj hlink
    have hjc := (live_iff_current.mp hj).1
    rw [hlink,hcur] at hjc
    cases hjc
  unfold attach
  cases hfind : lookup Link.name e.name t.links with
  | some l =>
    obtain ⟨hl,hname⟩ := lookup_spec hfind
    have hcur := h l hl hname
    obtain ⟨t₂,hi₂⟩ := exists_insert (e.instantiation l.id .available) rfl rfl
      (mem_map_of_mem hl) ha hz hcur
    refine ⟨l.id,e.instantiation l.id .available,?_,hfree hcur,?_⟩
    · simp only [hi₂]
      apply replaces_of_current (instantiation_joining e l.id .available) rfl
      · simp [Entry.instantiation]
      · exact insertInstantiation_current rfl hi₂
    · intro id
      simp only [hi₂]
      exact insert_role hi₂ id
  | none =>
    have hname : e.name∉t.links.map Link.name := by
      intro hmem
      obtain ⟨l,hl,hln⟩ := mem_map.mp hmem
      exact lookup_none hfind l hl hln
    obtain ⟨t₁,hl₁⟩ := isSome_iff_exists.mp ((insertLink_isSome none Status.up (some 1)).mpr hname)
    obtain ⟨-,hlinks,hinst,hface,-⟩ := insertLink_spec hl₁
    have hcur : t.current t.nextLink=none := current_nextLink t
    obtain ⟨t₂,hi₂⟩ := exists_insert (e.instantiation t.nextLink .available) rfl hface
      (by simp [hlinks,Entry.instantiation]) ha hz ((current_congr hinst).trans hcur)
    refine ⟨t.nextLink,e.instantiation t.nextLink .available,?_,hfree hcur,?_⟩
    · simp only [hl₁,hi₂,getD_some]
      apply replaces_of_current (instantiation_joining e t.nextLink .available) rfl
      · simp [Entry.instantiation]
      · intro k
        rw [insertInstantiation_current rfl hi₂,current_congr hinst]
    · intro id
      simp only [hl₁,hi₂,getD_some]
      rw [insert_role hi₂,role,role,hface]

/-- Nothing ends at the trunks, and the name is free. -/
def Attachable (t : Tables) (e : Entry) : Prop :=
  (∀ j,Live t j → e.a∉j.ends∧e.z∉j.ends)∧t.role e.a=some .trunk∧t.role e.z=some .trunk∧
    NameFree t e.name

theorem settled_attach_iff (hset : Settled (t,done)) (ha : t.HasInterface e.a)
    (hz : t.HasInterface e.z) (hunjoined : joined t e.a e.z=false) :
    Settled (attach t e,done++[e]) ↔ Attachable t e := by
  by_cases hname : NameFree t e.name
  · obtain ⟨link,n,hrep,hnone,hrole⟩ := attach_replaces hname ha hz
    rw [settled_replaced hrep hset.1 hunjoined]
    constructor
    · intro ⟨hclear,_,htrunks⟩
      have hlive := (hrep.live n).mpr (.inl rfl)
      have hra := htrunks n hlive e.a ((hrep.joining.2 e.a).mpr (.inl rfl))
      have hrz := htrunks n hlive e.z ((hrep.joining.2 e.z).mpr (.inr rfl))
      rw [hrole] at hra hrz
      exact ⟨fun j hj => hclear j hj (hnone j hj),hra,hrz,hname⟩
    · intro ⟨hclear,hra,hrz,_⟩
      refine ⟨fun j hj _ => hclear j hj,fun d _ i hi hlink => absurd hlink (hnone i hi),?_⟩
      intro j hj id hid
      rw [hrole]
      rcases (hrep.live j).mp hj with rfl | ⟨hjt,-⟩
      · rcases (hrep.joining.2 id).mp hid with rfl | rfl
        · exact hra
        · exact hrz
      · exact hset.2 j hjt id hid
  · constructor
    · intro h
      rw [attach_stuck hname] at h
      exact absurd h (not_settled_of_unjoined rfl hunjoined)
    · intro h
      exact absurd h.2.2.2 hname

end Attach

section Step

variable {t : Tables} {e : Entry} {done : List Entry}

/-- The adjacency finds a live link, one to move, or room for a new one. -/
def Ready (s : Tables×List Entry) (e : Entry) : Prop :=
  if joined s.1 e.a e.z then ∃ i,Live s.1 i∧i.joins e.a e.z=true
  else
    match linksTo s.1 e.a e.nodeZ,linksTo s.1 e.z e.nodeA with
    | i::_,_ => Movable s.1 s.2 e i e.a e.z
    | [],i::_ => Movable s.1 s.2 e i e.z e.a
    | [],[] => Attachable s.1 e

def step (s : Tables×List Entry) (e : Entry) : Tables×List Entry := (connect s.1 e,s.2++[e])

theorem settled_connect_iff (hone : OneLink t) (hset : Settled (t,done)) (ha : t.HasInterface e.a)
    (hz : t.HasInterface e.z) : Settled (connect t e,done++[e]) ↔ Ready (t,done) e := by
  unfold connect Ready
  cases hj : joined t e.a e.z with
  | true =>
    constructor
    · intro h
      obtain ⟨i,hi,hij,-⟩ := h.1 e (by simp)
      exact ⟨i,hi,hij⟩
    · intro ⟨i,hi,hij⟩
      exact ⟨Runs.forall_mem_snoc hset.1 (hone.paired hi hij),hset.2⟩
  | false =>
    cases hla : linksTo t e.a e.nodeZ with
    | cons i rest =>
      obtain ⟨hi,hend⟩ := mem_linksTo (hla ▸ mem_cons_self)
      exact settled_move_iff hi hend (.inl ⟨rfl,rfl⟩) hone hset ha hz hj
    | nil =>
      cases hlz : linksTo t e.z e.nodeA with
      | cons i rest =>
        obtain ⟨hi,hend⟩ := mem_linksTo (hlz ▸ mem_cons_self)
        exact settled_move_iff hi hend (.inr ⟨rfl,rfl⟩) hone hset ha hz hj
      | nil => exact settled_attach_iff hset ha hz hj

theorem connect_cases (ha : t.HasInterface e.a) (hz : t.HasInterface e.z) :
    (connect t e).instantiations=t.instantiations∨∃ link n,Replaces t (connect t e) e link n := by
  have hmove {i : Instantiation} (keep new : Nat) (hi : Live t i) :
      (move t e i keep new).instantiations=t.instantiations∨
        ∃ link n,Replaces t (move t e i keep new) e link n := by
    by_cases hbusy : t.EndedNow i.link e.now
    · exact .inl (move_stuck hi hbusy)
    · exact .inr ⟨_,_,move_replaces hi hbusy ha hz⟩
  unfold connect
  split_ifs
  · exact .inl rfl
  split
  next hla => exact hmove _ _ (mem_linksTo (hla ▸ mem_cons_self)).1
  next hlz => exact hmove _ _ (mem_linksTo (hlz ▸ mem_cons_self)).1
  by_cases hname : NameFree t e.name
  · obtain ⟨link,n,hr,-,-⟩ := attach_replaces hname ha hz
    exact .inr ⟨link,n,hr⟩
  · exact .inl (by rw [attach_stuck hname])

theorem oneLink_connect (hone : OneLink t) (ha : t.HasInterface e.a) (hz : t.HasInterface e.z)
    (h : Settled (connect t e,done++[e])) : OneLink (connect t e) := by
  rcases connect_cases ha hz with hsame | ⟨link,n,hr⟩
  · unfold OneLink Live
    rw [hsame]
    exact hone
  · exact oneLink_of_paired hone hr (h.1 e (by simp))

end Step

def Report.adjacency (r : Report) (node intf : String) : Option (String×Adjacency) :=
  (lookup Prod.fst node r.adjs).bind fun l => lookup Prod.fst intf l.2

def Report.Reports (r : Report) (node intf remote remoteIntf : String) : Prop :=
  ∃ x,r.adjacency node intf=some x∧x.2.remoteNode=remote∧r.intfs x.2.remoteIp=some remoteIntf

def Known (node intf : String) (id : Nat) : Prop :=
  ∃ n,nodeInfo t node=some n∧getInterfaceIdByNames t n.name intf=some id

theorem entry_clock (r : Report) (t : Tables) (clock : String → String → Nat)
    (x : String×String×Adjacency) : ({r with clock := clock} : Report).entry t x=
      (r.entry t x).map fun e => {e with now := clock x.1 x.2.1} := by
  simp only [Report.entry,Option.bind_eq_bind,Option.pure_def,Option.map_bind,Function.comp_def,Option.map_some]

theorem mem_entries {r : Report} {t : Tables} {node intf remote remoteIntf : String} {a z : Nat}
    (h : r.Reports node intf remote remoteIntf) (h' : r.Reports remote remoteIntf node intf)
    (ha : Known t node intf a) (hz : Known t remote remoteIntf z) :
    ∃ e∈r.entries t,e.a=a∧e.z=z := by
  obtain ⟨x,hx,rfl,hintf⟩ := h
  obtain ⟨y,hy,-,-⟩ := h'
  obtain ⟨nodeA,hnodeA,hida⟩ := ha
  obtain ⟨nodeZ,hnodeZ,hidz⟩ := hz
  obtain ⟨l,hl,hxl⟩ := bind_eq_some_iff.mp hx
  obtain ⟨m,hm,hym⟩ := bind_eq_some_iff.mp hy
  obtain ⟨hlmem,rfl⟩ := lookup_spec hl
  obtain ⟨hxmem,rfl⟩ := lookup_spec hxl
  have hall : (l.1,x.1,x.2)∈r.all := by exact mem_flatMap.mpr ⟨l,hlmem,mem_map.mpr ⟨x,hxmem,rfl⟩⟩
  have hentry : r.entry t (l.1,x.1,x.2)=some ⟨a,z,nodeA.id,nodeZ.id,
      l.1++"-"++x.1++"--"++x.2.remoteNode++"-"++remoteIntf,y.2.remoteIp,x.2.remoteIp,
      r.clock l.1 x.1⟩ := by
    simp only [Report.entry,hintf,hm,hym,hnodeA,hnodeZ,hida,hidz,Option.bind_eq_bind,bind_some,Option.pure_def]
  exact ⟨_,mem_filterMap.mpr ⟨_,hall,hentry⟩,rfl,rfl⟩

/-- A report that is handled on tables with one live link at each interface. -/
structure Call where
  tables : Tables
  report : Report
  one : OneLink tables

namespace Call

variable (c : Call)

def entries : List Entry := c.report.entries c.tables

def result : Tables := c.report.handleLinks c.tables

/-- Interfaces that report each other are the only ends of one link, ends are trunks, and the report
again changes nothing. -/
def Complete : Prop :=
  (∀ node intf remote remoteIntf a z,c.report.Reports node intf remote remoteIntf →
    c.report.Reports remote remoteIntf node intf → Known c.tables node intf a →
    Known c.tables remote remoteIntf z → Paired c.result a z)∧Trunks c.result∧
  ∀ clock,({c.report with clock := clock} : Report).handleLinks c.result=c.result

/-- The tables are settled after every adjacency. -/
def Throughout : Prop := Runs.Always step Settled (c.tables,[]) c.entries

/-- All ends are trunks at first, and each adjacency is ready in its turn. -/
def Prepared : Prop := Trunks c.tables∧Runs.StepsOk step Ready (c.tables,[]) c.entries

theorem foldl_step (es : List Entry) (s : Tables×List Entry) :
    es.foldl step s=(es.foldl connect s.1,s.2++es) := by
  induction es generalizing s with
  | nil => simp
  | cons e es ih =>
    rw [foldl_cons,ih,step,append_assoc]
    rfl

theorem ground_entries (es : List Entry) (t : Tables) : Ground t (es.foldl connect t) := by
  induction es generalizing t with
  | nil => exact ⟨rfl,rfl⟩
  | cons e es ih => exact (connect_ground t e).trans (ih _)

theorem always_oneLink {t : Tables} {done es : List Entry} (hone : OneLink t)
    (hknown : ∀ e∈es,∀ u,Ground t u → u.HasInterface e.a∧u.HasInterface e.z)
    (h : Runs.Always step Settled (t,done) es) :
    Runs.Always step (fun s => OneLink s.1∧Settled s) (t,done) es := by
  induction es generalizing t done with
  | nil => exact ⟨hone,h⟩
  | cons e es ih =>
    obtain ⟨ha,hz⟩ := hknown e (by simp) t ⟨rfl,rfl⟩
    have hnext : OneLink (connect t e) := oneLink_connect hone ha hz h.2.start
    refine ⟨⟨hone,h.1⟩,ih hnext ?_ h.2⟩
    intro d hd u hu
    exact hknown d (mem_cons_of_mem _ hd) u ((connect_ground t e).trans hu)

theorem entries_known {e : Entry} (he : e∈c.entries) {u : Tables} (hu : Ground c.tables u) :
    u.HasInterface e.a∧u.HasInterface e.z := by
  obtain ⟨x,-,hx⟩ := mem_filterMap.mp he
  obtain ⟨ha,hz,-⟩ := entry_spec hx
  exact ⟨(hasInterface_ground hu _).mpr ha,(hasInterface_ground hu _).mpr hz⟩

theorem throughout_iff : c.Throughout ↔ c.Prepared := by
  have hstart : Settled (c.tables,[]) ↔ Trunks c.tables := by simp [Settled]
  have hiff (htrunks : Trunks c.tables) :
      Runs.Always step (fun s => OneLink s.1∧Settled s) (c.tables,[]) c.entries ↔
        Runs.StepsOk step Ready (c.tables,[]) c.entries := by
    apply Runs.always_iff_stepsOk_of_mem (I := fun s => Ground c.tables s.1)
    · intro s e hs
      exact hs.trans (connect_ground s.1 e)
    · intro s e he hs ⟨hone,hset⟩
      obtain ⟨ha,hz⟩ := c.entries_known he hs
      rw [← settled_connect_iff hone hset ha hz]
      exact ⟨fun h => h.2,fun h => ⟨oneLink_connect hone ha hz h,h⟩⟩
    · exact ⟨c.one,hstart.mpr htrunks⟩
    · exact ⟨rfl,rfl⟩
  constructor
  · intro h
    have htrunks := hstart.mp h.start
    exact ⟨htrunks,(hiff htrunks).mp (always_oneLink c.one (fun e he u hu => c.entries_known he hu) h)⟩
  · intro ⟨htrunks,h⟩
    exact ((hiff htrunks).mpr h).mono fun s hs => hs.2

theorem complete_of_throughout (h : c.Throughout) : c.Complete := by
  have hend : Settled (c.result,c.entries) := by
    have hlast := Runs.always_iff_past.mp h c.entries (prefix_rfl)
    rw [foldl_step] at hlast
    have hresult : c.result=c.entries.foldl connect c.tables := handleLinks_eq c.report c.tables
    rw [hresult]
    simpa using hlast
  have hground : Ground c.tables c.result := by
    rw [result,handleLinks_eq]
    exact ground_entries _ _
  refine ⟨?_,hend.2,?_⟩
  · intro node intf remote remoteIntf a z hr hr' ha hz
    obtain ⟨e,he,rfl,rfl⟩ := mem_entries hr hr' ha hz
    exact hend.1 e he
  · intro clock
    rw [handleLinks_eq]
    have hquiet : ∀ e∈({c.report with clock := clock} : Report).entries c.result,
        joined c.result e.a e.z=true := by
      intro e he
      obtain ⟨x,hx,hentry⟩ := mem_filterMap.mp he
      rw [entry_ground _ hground,entry_clock] at hentry
      obtain ⟨d,hd,rfl⟩ := map_eq_some_iff.mp hentry
      obtain ⟨i,⟨hi,hended,-⟩,hij,-⟩ := hend.1 d (mem_filterMap.mpr ⟨x,hx,hd⟩)
      exact joined_iff.mpr ⟨i,hi,hended,hij⟩
    generalize ({c.report with clock := clock} : Report).entries c.result=es at hquiet
    induction es with
    | nil => rfl
    | cons e es ih =>
      have hskip : connect c.result e=c.result := if_pos (hquiet e (by simp))
      rw [foldl_cons,hskip]
      exact ih fun d hd => hquiet d (mem_cons_of_mem _ hd)

/-- Adjacencies are settled exactly if each finds what it needs; the call is then complete. -/
theorem complete_when_prepared : (c.Throughout ↔ c.Prepared)∧(c.Prepared → c.Complete) :=
  ⟨c.throughout_iff,fun h => c.complete_of_throughout (c.throughout_iff.mpr h)⟩

end Call

def parallel : Tables where
  nodes := [⟨1,"A",none,some ⟨.netconf,false,true⟩⟩,⟨2,"Z",none,some ⟨.netconf,false,true⟩⟩]
  interfaces := [⟨1,1,"e1",.trunk⟩,⟨2,1,"e2",.trunk⟩,⟨3,2,"e1",.trunk⟩,⟨4,2,"e2",.trunk⟩]
  links := [⟨1,"first",none,.up,some 1⟩,⟨2,"second",none,.up,some 1⟩]
  instantiations := [⟨1,none,.active,1,none,3,none⟩,⟨2,none,.active,2,none,4,none⟩]
  nextLink := 3
  linkIds := by decide
  linkNames := by decide
  fresh := by decide
  keys := by decide
  known := by decide

theorem parallel_oneLink : OneLink parallel := by
  have hall : ∀ i∈parallel.instantiations,∀ j∈parallel.instantiations,∀ id∈i.ends,id∈j.ends → i=j := by
    decide +kernel
  intro i j id hi hj hidi hidj
  exact hall i hi.1 j hj.1 id hidi hidj

def swapped : Report where
  adjs := [("A",[("e1",⟨"Z","10.0.0.4"⟩),("e2",⟨"Z","10.0.0.3"⟩)]),
    ("Z",[("e1",⟨"A","10.0.0.2"⟩),("e2",⟨"A","10.0.0.1"⟩)])]
  intfs := fun ip =>
    lookup Prod.fst ip [("10.0.0.1","e1"),("10.0.0.2","e2"),("10.0.0.3","e1"),("10.0.0.4","e2")]
      |>.map Prod.snd
  clock := fun _ _ => 10

def swappedCall : Call := ⟨parallel,swapped,parallel_oneLink⟩

/-- Interface 4 gets the first link as a trunk and becomes unknown when the second leaves it. -/
theorem swappedCall_untrunked :
    (∃ i∈swappedCall.result.instantiations,i.ended=none∧i.state=.active∧i.joins 1 4=true)∧
      swappedCall.result.role 4=some .unknown∧¬swappedCall.Complete := by
  have hlink : ∃ i∈swappedCall.result.instantiations,i.ended=none∧i.state=.active∧
      i.joins 1 4=true := by decide +kernel
  have hrole : swappedCall.result.role 4=some .unknown := by decide +kernel
  refine ⟨hlink,hrole,?_⟩
  intro ⟨_,htrunks,_⟩
  obtain ⟨i,hi,he,hs,hij⟩ := hlink
  have htrunk := htrunks i ⟨hi,he,by rw [hs]; simp⟩ 4 (joins_ends hij).2
  cases htrunk

end OESS.Links.Isis
