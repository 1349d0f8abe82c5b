import OESS.Links.NsoLinks

namespace OESS.Links.Nso

open Lookup Tables
open List hiding lookup

variable {t : Tables} {now : Nat} {s : Tables×List Row} {b : Backbone} {report : List Backbone}

/-- Links still in the index have not been touched. -/
structure Kept (t : Tables) (s : Tables×List Row) : Prop where
  ground : Ground t s.1
  next : t.nextLink≤ s.1.nextLink
  names : t.links.map Link.name ⊆ s.1.links.map Link.name
  index : s.2.Sublist (fetchAll t)
  untouched : ∀ r∈s.2,SameLink t s.1 r.link.id

theorem kept_start : Kept t (t,fetchAll t) where
  ground := ⟨rfl,rfl⟩
  next := Nat.le_refl _
  names := List.Subset.refl _
  index := Sublist.refl _
  untouched := fun _ _ => ⟨rfl,rfl⟩

variable {r : Row}

theorem Kept.link_mem (h : Kept t s) (hr : r∈s.2) : r.link∈t.links :=
  (mem_fetchAll.mp (h.index.subset hr)).1

theorem Kept.id_lt (h : Kept t s) (hr : r∈s.2) : r.link.id<t.nextLink :=
  t.fresh r.link (h.link_mem hr)

theorem Kept.id_ne (h : Kept t s) {q : Row} (hq : q∈s.2) (hr : r∈s.2) (hne : nameOf q≠nameOf r) :
    q.link.id≠r.link.id := by
  intro hid
  apply hne
  rw [nameOf,nameOf,inj_on_of_nodup_map t.linkIds (h.link_mem hq) (h.link_mem hr) hid]

theorem sync_cases (now : Nat) (h : Kept t s) (b : Backbone) : (lookupEnds t b=none∧sync now s b=s)∨
    (∃ e,lookupEnds t b=some e∧(∀ r∈s.2,nameOf r≠b.name)∧
      sync now s b=((s.1.create (b.model e)).1,s.2))∨
    ∃ e r,lookupEnds t b=some e∧r∈s.2∧nameOf r=b.name∧
      sync now s b=(if r.changed b e then (s.1.update now (r.change b e)).1 else s.1,
        s.2.filter fun q => nameOf q≠b.name) := by
  have hends := lookupEnds_ground h.ground b
  rw [sync,hends]
  cases he : lookupEnds t b with
  | none => exact .inl ⟨rfl,rfl⟩
  | some e =>
    cases hr : lookup nameOf b.name s.2 with
    | none => exact .inr (.inl ⟨e,rfl,lookup_none hr,rfl⟩)
    | some r =>
      obtain ⟨hmem,hname⟩ := lookup_spec hr
      exact .inr (.inr ⟨e,r,rfl,hmem,hname,rfl⟩)

theorem sync_frame (h : Kept t s) (b : Backbone) {id : Nat} (hid : id<s.1.nextLink)
    (hs : ∀ r∈s.2,r.link.id≠id) : SameLink s.1 (sync now s b).1 id := by
  obtain ⟨-,heq⟩ | ⟨e,-,-,heq⟩ | ⟨e,r,-,hr,-,heq⟩ := sync_cases now h b
  · rw [heq]
    exact ⟨rfl,rfl⟩
  · rw [heq]
    exact create_sameLink hid
  · rw [heq]
    split_ifs
    · exact update_sameLink (hs r hr).symm
    · exact ⟨rfl,rfl⟩

theorem sync_next (now : Nat) (h : Kept t s) (b : Backbone) : s.1.nextLink≤(sync now s b).1.nextLink := by
  obtain ⟨-,heq⟩ | ⟨e,-,-,heq⟩ | ⟨e,r,-,hr,-,heq⟩ := sync_cases now h b
  · exact Nat.le_of_eq (by rw [heq])
  · rw [heq]
    exact create_ground.2.2.1
  · rw [heq]
    split_ifs
    · exact Nat.le_of_eq update_ground.2.2.1.symm
    · exact Nat.le_refl _

theorem sync_names (now : Nat) (h : Kept t s) (b : Backbone) :
    s.1.links.map Link.name ⊆ (sync now s b).1.links.map Link.name∧
      ∀ name∈(sync now s b).1.links.map Link.name,name∈s.1.links.map Link.name∨
        b.name=name∧∃ e,lookupEnds t b=some e := by
  obtain ⟨-,heq⟩ | ⟨e,he,-,heq⟩ | ⟨e,r,-,hr,-,heq⟩ := sync_cases now h b
  · rw [heq]
    exact ⟨List.Subset.refl _,fun _ => .inl⟩
  · rw [heq]
    refine ⟨create_ground.2.2.2.1,fun name hin => ?_⟩
    rcases mem_append.mp (create_ground.2.2.2.2 hin) with hold | hnew
    · exact .inl hold
    · exact .inr ⟨(mem_singleton.mp hnew).symm,e,he⟩
  · rw [heq]
    split_ifs
    · rw [update_names rfl]
      exact ⟨List.Subset.refl _,fun _ => .inl⟩
    · exact ⟨List.Subset.refl _,fun _ => .inl⟩

theorem sync_ground (h : Kept t s) (b : Backbone) : Ground s.1 (sync now s b).1 := by
  obtain ⟨-,heq⟩ | ⟨e,-,-,heq⟩ | ⟨e,r,-,hr,-,heq⟩ := sync_cases now h b
  · rw [heq]
    exact ⟨rfl,rfl⟩
  · rw [heq]
    exact ⟨create_ground.1,create_ground.2.1⟩
  · rw [heq]
    split_ifs
    · exact ⟨update_ground.1,by rw [update_ground.2.1]⟩
    · exact ⟨rfl,rfl⟩

theorem sync_index (h : Kept t s) (b : Backbone) : (sync now s b).2=
    s.2.filter fun r => (firstOf t [b] (nameOf r)).isNone := by
  obtain ⟨hnone,heq⟩ | ⟨e,hsome,hs,heq⟩ | ⟨e,r,hsome,hr,hname,heq⟩ := sync_cases now h b
  · rw [heq]
    symm
    rw [filter_eq_self]
    intro r _
    rw [firstOf_skip fun _ => hnone]
    rfl
  · rw [heq]
    symm
    rw [filter_eq_self]
    intro r hr
    rw [firstOf_skip fun hb => absurd hb.symm (hs r hr)]
    rfl
  · rw [heq]
    apply filter_congr
    intro q _
    by_cases hq : nameOf q=b.name
    · rw [hq,firstOf_here hsome]
      simp
    · rw [firstOf_skip fun hb => absurd hb.symm hq]
      simp [hq,firstOf]

theorem sync_kept (now : Nat) (h : Kept t s) (b : Backbone) : Kept t (sync now s b) where
  ground := h.ground.trans (sync_ground h b)
  next := Nat.le_trans h.next (sync_next now h b)
  names := List.Subset.trans h.names (sync_names now h b).1
  index := by
    rw [sync_index h b]
    exact filter_sublist.trans h.index
  untouched := by
    intro q hq
    rw [sync_index h b,mem_filter] at hq
    obtain ⟨hmem,hunmet⟩ := hq
    refine (h.untouched q hmem).trans ?_
    obtain ⟨-,heq⟩ | ⟨e,-,-,heq⟩ | ⟨e,r,hsome,hr,hname,heq⟩ := sync_cases now h b
    · rw [heq]
      exact ⟨rfl,rfl⟩
    · rw [heq]
      exact create_sameLink (Nat.lt_of_lt_of_le (h.id_lt hmem) h.next)
    · have hne : nameOf q≠nameOf r := by
        intro hqr
        rw [hqr,hname,firstOf_here hsome] at hunmet
        cases hunmet
      rw [heq]
      split_ifs
      · exact update_sameLink (h.id_ne hmem hr hne)
      · exact ⟨rfl,rfl⟩

theorem foldl_kept (h : Kept t s) (report : List Backbone) : Kept t (report.foldl (sync now) s) := by
  induction report generalizing s with
  | nil => exact h
  | cons b report ih => exact ih (sync_kept now h b)

theorem foldl_frame (now : Nat) (h : Kept t s) (report : List Backbone) {id : Nat} (hid : id<s.1.nextLink)
    (hs : ∀ r∈s.2,r.link.id≠id) : SameLink s.1 (report.foldl (sync now) s).1 id := by
  induction report generalizing s with
  | nil => exact ⟨rfl,rfl⟩
  | cons b report ih =>
    have hrest : ∀ r∈(sync now s b).2,r.link.id≠id := by
      intro r hr
      rw [sync_index h b] at hr
      exact hs r (mem_filter.mp hr).1
    exact (sync_frame h b hid hs).trans
      (ih (sync_kept now h b) (Nat.lt_of_lt_of_le hid (sync_next now h b)) hrest)

theorem firstOf_cons (b : Backbone) (report : List Backbone) (name : String) :
    firstOf t (b::report) name=(firstOf t [b] name).or (firstOf t report name) := by
  unfold firstOf
  rw [findSome?_cons,findSome?_cons]
  cases (if b.name=name then (lookupEnds t b).map fun e => (b,e) else none) <;> rfl

theorem foldl_index (h : Kept t s) (report : List Backbone) : (report.foldl (sync now) s).2=
    s.2.filter fun r => (firstOf t report (nameOf r)).isNone := by
  induction report generalizing s with
  | nil => simp [firstOf]
  | cons b report ih =>
    rw [foldl_cons,ih (sync_kept now h b),sync_index h b,filter_filter]
    apply filter_congr
    intro r _
    rw [firstOf_cons b report]
    cases firstOf t [b] (nameOf r) <;> simp

def Row.rewritten (r : Row) (b : Backbone) (e : End×End) : Row :=
  ⟨(r.change b e).columns r.link,(r.change b e).instantiation⟩

def Holds (t : Tables) (r : Row) : Prop :=
  lookup Link.id r.link.id t.links=some r.link∧t.current r.link.id=some r.current

theorem Holds.sameLink {u : Tables} (h : Holds t r) (hs : SameLink t u r.link.id) :
    Holds u r := ⟨hs.1.trans h.1,(current_of_history hs.2).trans h.2⟩

theorem holds_fetchAll (h : r∈fetchAll t) : Holds t r := by
  obtain ⟨hl,hr,-⟩ := mem_fetchAll.mp h
  exact ⟨lookup_id hl,(row_eq_some.mp hr).1⟩

theorem Holds.update {u : Tables} {c : Change} (hr : Holds u r) (hlink : c.link=r.link.id)
    (hname : c.name=none) (hfree : ¬u.EndedNow r.link.id now) (ha : u.HasInterface c.interfaceA)
    (hz : u.HasInterface c.interfaceZ) :
    Holds (u.update now c).1 ⟨c.columns r.link,c.instantiation⟩ := by
  rw [← hlink] at hfree
  have hfind : lookup Link.id c.link u.links=some r.link := hlink ▸ hr.1
  have hknown : c.link∈u.links.map Link.id := mem_map.mpr ⟨r.link,(lookup_spec hfind).1,hlink.symm⟩
  have hdone := update_done hname hknown ha hz hfree
  rwa [hfind,hlink] at hdone

/-- The row once the first backbone of its name has been met. -/
def Row.met (r : Row) (p : Backbone×(End×End)) : Row :=
  if r.changed p.1 p.2 then r.rewritten p.1 p.2 else r

theorem met_id (r : Row) (p : Backbone×(End×End)) : (r.met p).link.id=r.link.id := by
  unfold Row.met
  split_ifs <;> rfl

theorem foldl_met (h : Kept t s) (hfree : ∀ r∈fetchAll t,¬t.EndedNow r.link.id now) (hr : r∈s.2)
    {p : Backbone×(End×End)} (hp : firstOf t report (nameOf r)=some p) :
    Holds (report.foldl (sync now) s).1 (r.met p) := by
  induction report generalizing s with
  | nil => cases hp
  | cons b report ih =>
    rw [firstOf_cons] at hp
    cases hfirst : firstOf t [b] (nameOf r) with
    | none =>
      rw [hfirst] at hp
      have hstays : r∈(sync now s b).2 := by
        rw [sync_index h b,mem_filter,hfirst]
        exact ⟨hr,rfl⟩
      exact ih (sync_kept now h b) hstays hp
    | some q =>
      rw [hfirst] at hp
      cases hp
      obtain ⟨hmem,hname,hends⟩ := firstOf_spec hfirst
      rw [mem_singleton] at hmem
      -- this is the step that meets the link; nothing touches it afterwards
      have hgone : ∀ q∈(sync now s b).2,q.link.id≠r.link.id := by
        intro q hq
        rw [sync_index h b,mem_filter] at hq
        refine h.id_ne hq.1 hr ?_
        intro hqr
        rw [hqr,hfirst] at hq
        cases hq.2
      have hlt := Nat.lt_of_lt_of_le (h.id_lt hr) (Nat.le_trans h.next (sync_next now h b))
      have hafter := foldl_frame now (sync_kept now h b) report hlt hgone
      have hrow : Holds s.1 r := (holds_fetchAll (h.index.subset hr)).sameLink (h.untouched r hr)
      have hfree' : ¬s.1.EndedNow r.link.id now := by
        rw [endedNow_of_history (h.untouched r hr).2]
        exact hfree r (h.index.subset hr)
      have hstep : Holds (sync now s b).1 (r.met p) := by
        obtain ⟨hnone,-⟩ | ⟨e,-,hs,-⟩ | ⟨e,q,hsome,hq,hqname,heq⟩ := sync_cases now h b
        · rw [hmem,hnone] at hends
          cases hends
        · exact absurd (hname.symm.trans (congrArg Backbone.name hmem)) (hs r hr)
        · have hqr : q=r := by
            apply inj_on_of_nodup_map (fetchAll_names.sublist (h.index.map _)) hq hr
            rw [hqname,← hname,hmem]
          rw [hmem,hsome] at hends
          have hpe : p=(b,e) := by rw [← hmem,Option.some.inj hends]
          rw [heq,hpe,hqr,Row.met]
          obtain ⟨ha,hz⟩ := lookupEnds_known hsome
          split_ifs
          · exact hrow.update rfl rfl hfree' ((hasInterface_ground h.ground _).mpr ha)
              ((hasInterface_ground h.ground _).mpr hz)
          · exact hrow
      apply hstep.sameLink
      rwa [met_id]

theorem foldl_new (now : Nat) (h : Kept t s) (hb : b∈report) {e : End×End} (he : lookupEnds t b=some e)
    (hname : b.name∉s.1.links.map Link.name) :
    ∃ r,Holds (report.foldl (sync now) s).1 r∧r.link.name=b.name∧r.current.state=.planned∧
      t.nextLink≤r.link.id := by
  induction report generalizing s with
  | nil => exact absurd hb not_mem_nil
  | cons c report ih =>
    have hindex : ∀ r∈s.2,nameOf r≠b.name := by
      intro r hr hrb
      apply hname
      rw [← hrb]
      exact h.names (mem_map_of_mem (h.link_mem hr))
    by_cases hc : c.name=b.name∧∃ e,lookupEnds t c=some e
    · obtain ⟨hcb,e',he'⟩ := hc
      obtain ⟨hnone,-⟩ | ⟨e₁,hsome,-,heq⟩ | ⟨e₁,q,-,hq,hqname,-⟩ := sync_cases now h c
      · rw [hnone] at he'
        cases he'
      · obtain ⟨ha,hz⟩ := lookupEnds_known hsome
        have hfresh : (c.model e₁).name∉s.1.links.map Link.name := by
          have hmodel : (c.model e₁).name=b.name := hcb
          rwa [hmodel]
        have hdone := create_done hfresh
          ((hasInterface_ground h.ground _).mpr ha) ((hasInterface_ground h.ground _).mpr hz)
        obtain ⟨hlink,hcur,hlt⟩ := hdone
        have hlt' : s.1.nextLink<(sync now s c).1.nextLink := by rwa [heq]
        have hold : ∀ r∈(sync now s c).2,r.link.id≠s.1.nextLink := by
          intro r hr
          have hlt := (sync_kept now h c).id_lt hr
          have hle := h.next
          omega
        have hframe := foldl_frame now (sync_kept now h c) report hlt' hold
        have hrow : Holds (sync now s c).1
            ⟨⟨s.1.nextLink,c.name,none,c.status,some 1⟩,(c.model e₁).instantiation s.1.nextLink⟩ := by
          rw [heq]
          exact ⟨hlink,hcur⟩
        exact ⟨_,hrow.sameLink hframe,hcb,rfl,h.next⟩
      · exact absurd (hqname.trans hcb) (hindex q hq)
    · have hmem : b∈report := by
        rcases mem_cons.mp hb with hb | hb
        · subst hb
          exact absurd ⟨rfl,e,he⟩ hc
        · exact hb
      apply ih (sync_kept now h c) hmem
      intro hin
      rcases (sync_names now h c).2 _ hin with hold | hnew
      · exact hname hold
      · exact hc hnew

theorem foldl_names (h : Kept t s) {name : String}
    (hn : name∈(report.foldl (sync now) s).1.links.map Link.name) :
    name∈s.1.links.map Link.name∨firstOf t report name≠none := by
  induction report generalizing s with
  | nil => exact .inl hn
  | cons b report ih =>
    rcases ih (sync_kept now h b) hn with hin | hin
    · rcases (sync_names now h b).2 name hin with hold | ⟨rfl,e,he⟩
      · exact .inl hold
      · exact .inr (by rw [firstOf_here he]; simp)
    refine .inr ?_
    rw [firstOf_cons b report]
    cases firstOf t [b] name with
    | none => exact hin
    | some p => simp

theorem sync_quiet {idx : List Row} (h : Kept t (t,idx)) (b : Backbone)
    (hname : ∀ e,lookupEnds t b=some e → b.name∈t.links.map Link.name)
    (hsame : ∀ r∈idx,∀ p,firstOf t [b] (nameOf r)=some p → r.changed p.1 p.2=false) :
    (sync now (t,idx) b).1=t := by
  obtain ⟨-,heq⟩ | ⟨e,he,-,heq⟩ | ⟨e,r,he,hr,hrb,heq⟩ := sync_cases now h b
  · rw [heq]
  · rw [heq]
    exact congrArg Prod.fst (create_refused (hname e he))
  · have hfirst : firstOf t [b] (nameOf r)=some (b,e) := hrb ▸ firstOf_here he
    have hc : r.changed b e=false := hsame r hr (b,e) hfirst
    rw [heq]
    rw [if_neg (by rw [hc]; exact Bool.false_ne_true)]

theorem foldl_quiet {idx : List Row} (h : Kept t (t,idx))
    (hnames : ∀ b∈report,∀ e,lookupEnds t b=some e → b.name∈t.links.map Link.name)
    (hsame : ∀ r∈idx,∀ p,firstOf t report (nameOf r)=some p → r.changed p.1 p.2=false) :
    (report.foldl (sync now) (t,idx)).1=t := by
  induction report generalizing idx with
  | nil => rfl
  | cons b report ih =>
    have hstep : (sync now (t,idx) b).1=t := by
      apply sync_quiet h b (hnames b (by simp))
      intro r hr p hp
      apply hsame r hr p
      rw [firstOf_cons,hp,Option.some_or]
    have hkept := sync_kept now h b
    have hpair : sync now (t,idx) b=(t,(sync now (t,idx) b).2) := Prod.ext hstep rfl
    rw [foldl_cons,hpair]
    rw [hpair] at hkept
    apply ih hkept fun c hc => hnames c (mem_cons_of_mem _ hc)
    intro r hr p hp
    rw [sync_index h b,mem_filter,Option.isNone_iff_eq_none] at hr
    apply hsame r hr.1 p
    rw [firstOf_cons,hr.2,Option.none_or,hp]

variable {u : Tables} {rs : List Row}

theorem retire_ground (u : Tables) (r : Row) : Ground u (retire now u r) :=
  ⟨update_ground.1,by rw [retire,update_ground.2.1]⟩

theorem foldl_retire_ground (u : Tables) (rs : List Row) : Ground u (rs.foldl (retire now) u) := by
  induction rs generalizing u with
  | nil => exact ⟨rfl,rfl⟩
  | cons r rs ih => exact (retire_ground u r).trans (ih _)

theorem foldl_retire_frame (u : Tables) {id : Nat} (h : ∀ r∈rs,r.link.id≠id) :
    SameLink u (rs.foldl (retire now) u) id := by
  induction rs generalizing u with
  | nil => exact ⟨rfl,rfl⟩
  | cons r rs ih =>
    have hfirst : SameLink u (retire now u r) id := update_sameLink (h r (by simp)).symm
    exact hfirst.trans (ih _ fun q hq => h q (mem_cons_of_mem _ hq))

theorem foldl_retire_names (now : Nat) (u : Tables) (rs : List Row) :
    (rs.foldl (retire now) u).links.map Link.name=u.links.map Link.name := by
  induction rs generalizing u with
  | nil => rfl
  | cons r rs ih =>
    rw [foldl_cons,ih]
    exact update_names rfl

def Row.retired (r : Row) : Row := ⟨r.retirement.columns r.link,r.retirement.instantiation⟩

theorem foldl_retire_done (hids : (rs.map (·.link.id)).Nodup) (hrows : ∀ r∈rs,Holds u r)
    (hfree : ∀ r∈rs,¬u.EndedNow r.link.id now)
    (hends : ∀ r∈rs,u.HasInterface r.current.interfaceA∧u.HasInterface r.current.interfaceZ)
    (hr : r∈rs) : Holds (rs.foldl (retire now) u) r.retired := by
  induction rs generalizing u with
  | nil => exact absurd hr not_mem_nil
  | cons q rs ih =>
    rw [map_cons,nodup_cons] at hids
    have hother : ∀ p∈rs,p.link.id≠q.link.id := by
      intro p hp hpq
      exact hids.1 (mem_map.mpr ⟨p,hp,hpq⟩)
    rcases mem_cons.mp hr with hr | hr
    · subst hr
      obtain ⟨ha,hz⟩ := hends r (by simp)
      have hfirst : Holds (retire now u r) r.retired :=
        (hrows r (by simp)).update rfl rfl (hfree r (by simp)) ha hz
      exact hfirst.sameLink (foldl_retire_frame _ hother)
    · have hsame : ∀ p∈rs,SameLink u (retire now u q) p.link.id := by
        intro p hp
        exact update_sameLink (hother p hp)
      apply ih hids.2 _ _ _ hr
      · intro p hp
        exact (hrows p (mem_cons_of_mem _ hp)).sameLink (hsame p hp)
      · intro p hp
        rw [endedNow_of_history (hsame p hp).2]
        exact hfree p (mem_cons_of_mem _ hp)
      · intro p hp
        rw [hasInterface_ground (retire_ground u q),hasInterface_ground (retire_ground u q)]
        exact hends p (mem_cons_of_mem _ hp)

/-- A run of the handler: the keys come in some order, the clock is past every end. -/
structure Run where
  tables : Tables
  report : List Backbone
  now : Nat
  order : List Row → List Row
  perm : ∀ rows,(order rows).Perm rows
  later : ∀ i∈tables.instantiations,∀ e,i.ended=some e → e<now

namespace Run

variable (x : Run)

def result : Tables := linkHandler x.order x.now x.tables x.report

def looped : Tables×List Row := x.report.foldl (sync x.now) (x.tables,fetchAll x.tables)

theorem result_eq : x.result=(x.order x.looped.2).foldl (retire x.now) x.looped.1 := rfl

theorem notEndedNow (link : Nat) : ¬x.tables.EndedNow link x.now := by
  intro ⟨i,hi,_,he⟩
  exact absurd (x.later i hi x.now he) (Nat.lt_irrefl _)

theorem looped_kept : Kept x.tables x.looped := foldl_kept kept_start x.report

theorem mem_left : r∈x.order x.looped.2 ↔
    r∈fetchAll x.tables∧firstOf x.tables x.report (nameOf r)=none := by
  rw [(x.perm _).mem_iff,looped,foldl_index kept_start,mem_filter,Option.isNone_iff_eq_none]

theorem ground : Ground x.tables x.result := by
  exact x.looped_kept.ground.trans (foldl_retire_ground _ _)

theorem result_sameLink {id : Nat} (h : ∀ r∈x.order x.looped.2,r.link.id≠id) :
    SameLink x.looped.1 x.result id := foldl_retire_frame _ h

theorem result_met (hr : r∈fetchAll x.tables) {p : Backbone×(End×End)}
    (hp : firstOf x.tables x.report (nameOf r)=some p) : Holds x.result (r.met p) := by
  have hmet := foldl_met kept_start (fun r _ => x.notEndedNow r.link.id) hr hp
  apply hmet.sameLink
  rw [met_id]
  apply x.result_sameLink
  intro q hq hqr
  obtain ⟨hqf,hqn⟩ := x.mem_left.mp hq
  have hlink := inj_on_of_nodup_map x.tables.linkIds (mem_fetchAll.mp hqf).1
    (mem_fetchAll.mp hr).1 hqr
  rw [nameOf,hlink,← nameOf,hp] at hqn
  cases hqn

theorem result_left (hr : r∈fetchAll x.tables) (hp : firstOf x.tables x.report (nameOf r)=none) :
    Holds x.result r.retired := by
  have hkept := x.looped_kept
  have hin {q : Row} (hq : q∈x.order x.looped.2) : q∈x.looped.2 := (x.perm _).mem_iff.mp hq
  have hids : ((x.order x.looped.2).map (·.link.id)).Nodup := by
    have hnodup : (x.looped.2.map (·.link.id)).Nodup := by
      have hnames : (x.looped.2.map nameOf).Nodup := fetchAll_names.sublist (hkept.index.map _)
      refine Nodup.map_on ?_ hnames.of_map
      intro q hq s hs hid
      by_contra hne
      apply hkept.id_ne hq hs _ hid
      intro hname
      exact hne (inj_on_of_nodup_map hnames hq hs hname)
    exact ((x.perm _).map _).nodup_iff.mpr hnodup
  rw [result_eq]
  apply foldl_retire_done hids
  · intro q hq
    exact (holds_fetchAll (hkept.index.subset (hin hq))).sameLink (hkept.untouched q (hin hq))
  · intro q hq
    rw [endedNow_of_history (hkept.untouched q (hin hq)).2]
    exact x.notEndedNow q.link.id
  · intro q hq
    have hm := (mem_fetchAll.mp (hkept.index.subset (hin hq))).2.2
    simp only [Row.managed,Bool.and_eq_true,decide_eq_true_eq] at hm
    rw [hasInterface_ground hkept.ground,hasInterface_ground hkept.ground]
    exact ⟨controllerOf_known hm.1,controllerOf_known hm.2⟩
  · exact x.mem_left.mpr ⟨hr,hp⟩

theorem result_other {l : Link} (hl : l∈x.tables.links)
    (h : ∀ r∈fetchAll x.tables,r.link≠l) : SameLink x.tables x.result l.id := by
  have hne : ∀ r∈fetchAll x.tables,r.link.id≠l.id := by
    intro r hr hid
    exact h r hr (inj_on_of_nodup_map x.tables.linkIds (mem_fetchAll.mp hr).1 hl hid)
  have hloop : SameLink x.tables x.looped.1 l.id :=
    foldl_frame x.now kept_start x.report (x.tables.fresh l hl) hne
  refine hloop.trans (x.result_sameLink fun r hr => ?_)
  exact hne r (x.mem_left.mp hr).1

theorem result_new (hb : b∈x.report) {e : End×End}
    (he : lookupEnds x.tables b=some e) (hname : b.name∉x.tables.links.map Link.name) :
    ∃ r,Holds x.result r∧r.link.name=b.name∧r.current.state=.planned := by
  obtain ⟨r,hr,hn,hs,hnext⟩ := foldl_new x.now kept_start hb he hname
  refine ⟨r,hr.sameLink (x.result_sameLink fun q hq => ?_),hn,hs⟩
  have hlt := x.tables.fresh q.link (mem_fetchAll.mp (x.mem_left.mp hq).1).1
  omega

end Run

theorem live_holds (h : Holds t r) (hs : r.current.state≠.decom) : live t r.link.name=[r] := by
  rw [live_eq (lookup_spec h.1).1,row_eq_some.mpr ⟨h.2,rfl,hs⟩]
  rfl

theorem live_retired (h : Holds t r) (hs : r.current.state=.decom) : live t r.link.name=[] := by
  have hrow : row t r.link=none := by rw [row,h.2,Option.bind_some,if_pos hs]
  rw [live_eq (lookup_spec h.1).1,hrow]
  rfl

theorem live_fetchAll (h : r∈fetchAll t) : live t (nameOf r)=[r] := by
  obtain ⟨hl,hr,-⟩ := mem_fetchAll.mp h
  rw [nameOf,live_eq hl,hr]
  rfl

theorem live_singleton {name : String} (h : live t name=[r]) :
    r.link∈t.links∧r.link.name=name∧row t r.link=some r := by
  have hmem : r∈live t name := by rw [h]; exact mem_singleton_self r
  rw [live,mem_filterMap] at hmem
  obtain ⟨l,hl,hr⟩ := hmem
  have hlink := (row_eq_some.mp hr).2.1
  subst hlink
  rw [mem_filter] at hl
  exact ⟨hl.1,by simpa using hl.2,hr⟩

def Row.Matches (r : Row) (b : Backbone) (e : End×End) : Prop :=
  r.link.status=b.status∧r.current.state=b.linkState∧
    ((⟨r.current.interfaceA,r.current.ipA⟩,⟨r.current.interfaceZ,r.current.ipZ⟩)=e∨
      (⟨r.current.interfaceZ,r.current.ipZ⟩,⟨r.current.interfaceA,r.current.ipA⟩)=e)

def SaysSame (p q : Backbone×(End×End)) : Prop := p.1.inService=q.1.inService∧(p.2=q.2∨p.2.swap=q.2)

theorem rewritten_matches (r : Row) (p : Backbone×(End×End)) (b : Backbone) (e : End×End) :
    (r.rewritten p.1 p.2).Matches b e ↔ SaysSame p (b,e) := by
  have hservice : p.1.status=b.status∧p.1.linkState=b.linkState ↔ p.1.inService=b.inService := by
    unfold Backbone.status Backbone.linkState
    cases p.1.inService <;> cases b.inService <;> simp
  have hstatus : (r.rewritten p.1 p.2).link.status=p.1.status := rfl
  have hstate : (r.rewritten p.1 p.2).current.state=p.1.linkState := rfl
  rw [Row.Matches,hstatus,hstate,← and_assoc,hservice]
  exact .rfl

theorem rewritten_unchanged (r : Row) (b : Backbone) (e : End×End) :
    (r.rewritten b e).changed b e=false := by
  simp [Row.changed,Row.rewritten,Row.change,Change.instantiation,Change.columns]

theorem linkState_ne_decom (b : Backbone) : b.linkState≠.decom := by
  unfold Backbone.linkState
  cases b.inService <;> simp

namespace Run

variable (x : Run)

/-- No live link whose name is reported is decommissioned. -/
def SparesReported : Prop :=
  ∀ r,live x.tables r.link.name=[r] → r.link.name∈x.report.map Backbone.name →
    ∃ r',live x.result r.link.name=[r']∧r'.link.id=r.link.id

/-- A backbone with known interfaces has one live link. -/
def Settles : Prop :=
  ∀ b∈x.report,∀ e,lookupEnds x.tables b=some e → ∃ r,live x.result b.name=[r]∧r.Matches b e

def Rests : Prop := ∀ (order : List Row → List Row) (now : Nat),(∀ rows,(order rows).Perm rows) →
    linkHandler order now x.result x.report=x.result

/-- A reported link of NSO has known interfaces. -/
def ReportedKnown : Prop := ∀ r∈fetchAll x.tables,nameOf r∈x.report.map Backbone.name →
    ∃ b∈x.report,b.name=nameOf r∧lookupEnds x.tables b≠none

def writer (r : Row) : Option (Backbone×(End×End)) :=
  (firstOf x.tables x.report r.link.name).filter fun p =>
    r.managed x.tables && r.changed p.1 p.2

/-- Every backbone with two known interfaces has a live link. If the first of its name is written
over the link, the two say the same; else the link is as reported. -/
def LinkedBefore : Prop := ∀ b∈x.report,∀ e,lookupEnds x.tables b=some e →
    ∃ r,live x.tables b.name=[r]∧
      match x.writer r with
      | some p => SaysSame p (b,e)
      | none => r.Matches b e

theorem mem_fetchAll_of_live {name : String} (h : live x.tables name=[r])
    (hm : r.managed x.tables=true) : r∈fetchAll x.tables := by
  obtain ⟨hl,-,hr⟩ := live_singleton h
  exact mem_fetchAll.mpr ⟨hl,hr,hm⟩

theorem live_unmanaged (h : live x.tables r.link.name=[r]) (hm : r.managed x.tables=false) :
    live x.result r.link.name=[r] := by
  obtain ⟨hl,-,hr⟩ := live_singleton h
  have hsame := x.result_other hl (by
    intro q hq hlink
    obtain ⟨-,hqr,hqm⟩ := mem_fetchAll.mp hq
    rw [hlink,hr] at hqr
    rw [Option.some.inj hqr,hqm] at hm
    cases hm)
  rw [(live_sameLink hl hsame).2,h]

theorem live_met (h : live x.tables r.link.name=[r]) {q : Backbone×(End×End)}
    (hq : firstOf x.tables x.report r.link.name=some q) : live x.result r.link.name=
      [match x.writer r with
        | some p => r.rewritten p.1 p.2
        | none => r] := by
  rw [writer,hq]
  cases hm : r.managed x.tables with
  | false =>
    rw [x.live_unmanaged h hm]
    rfl
  | true =>
    obtain ⟨-,-,hr⟩ := live_singleton h
    have hstate := (row_eq_some.mp hr).2.2
    have hholds := x.result_met (x.mem_fetchAll_of_live h hm) hq
    unfold Row.met at hholds
    cases hc : r.changed q.1 q.2 with
    | false =>
      rw [hc,if_neg Bool.false_ne_true] at hholds
      rw [live_holds hholds hstate]
      simp [Option.filter,hc]
    | true =>
      rw [hc,if_pos rfl] at hholds
      have hname : (r.rewritten q.1 q.2).link.name=r.link.name := rfl
      have hlive := live_holds hholds (linkState_ne_decom q.1)
      rw [hname] at hlive
      rw [hlive]
      simp [Option.filter,hc]

theorem live_ended {l : Link} (hl : l∈x.tables.links) (hrow : row x.tables l=none) :
    live x.result l.name=[] := by
  have hsame := x.result_other hl (by
    intro q hq hlink
    have hqr := (mem_fetchAll.mp hq).2.1
    rw [hlink,hrow] at hqr
    cases hqr)
  rw [(live_sameLink hl hsame).2,live_eq hl,hrow]
  rfl

theorem live_absent (hb : b∈x.report) {e : End×End}
    (he : lookupEnds x.tables b=some e) (h : live x.tables b.name=[]) :
    live x.result b.name=[]∨∃ r,live x.result b.name=[r]∧r.current.state=.planned := by
  by_cases hname : b.name∈x.tables.links.map Link.name
  · left
    obtain ⟨l,hl,hn⟩ := mem_map.mp hname
    rw [← hn,live_eq hl,Option.toList_eq_nil_iff] at h
    rw [← hn,x.live_ended hl h]
  · right
    obtain ⟨r,hr,hn,hs⟩ := x.result_new hb he hname
    have hlive := live_holds hr (by rw [hs]; simp)
    exact ⟨r,hn ▸ hlive,hs⟩

theorem sparesReported_iff : x.SparesReported ↔ x.ReportedKnown := by
  constructor
  · intro h r hr hname
    obtain ⟨r',hr',-⟩ := h r (live_fetchAll hr) hname
    cases hfirst : firstOf x.tables x.report (nameOf r) with
    | none =>
      have hleft := live_retired (x.result_left hr hfirst) rfl
      have hsame : r.retired.link.name=r.link.name := rfl
      rw [hsame,hr'] at hleft
      cases hleft
    | some p =>
      obtain ⟨hp,hpn,hpe⟩ := firstOf_spec hfirst
      exact ⟨p.1,hp,hpn,by rw [hpe]; simp⟩
  · intro h r hlive hname
    cases hm : r.managed x.tables with
    | false => exact ⟨r,x.live_unmanaged hlive hm,rfl⟩
    | true =>
      obtain ⟨b,hb,hbn,hends⟩ := h r (x.mem_fetchAll_of_live hlive hm) hname
      obtain ⟨e,he⟩ := Option.ne_none_iff_exists'.mp hends
      obtain ⟨p,hp⟩ := firstOf_of_mem hb he
      rw [hbn] at hp
      refine ⟨_,x.live_met hlive hp,?_⟩
      split <;> rfl

theorem settles_iff : x.Settles ↔ x.LinkedBefore := by
  refine forall_congr' fun b => forall_congr' fun hb => forall_congr' fun e =>
    forall_congr' fun he => ?_
  obtain ⟨q,hq⟩ := firstOf_of_mem hb he
  rcases hlive : live x.tables b.name with _ | ⟨r,rest⟩
  · constructor
    · intro ⟨r,hr,hmatch⟩
      rcases x.live_absent hb he hlive with hnil | ⟨r',hr',hplanned⟩
      · rw [hnil] at hr
        cases hr
      rw [hr'] at hr
      have hrr : r'=r := by simpa using hr
      rw [hrr,hmatch.2.1] at hplanned
      unfold Backbone.linkState at hplanned
      split_ifs at hplanned
    · intro ⟨r,hr,_⟩
      cases hr
  · have hrest : rest=[] := by
      have hmem : r∈live x.tables b.name := by rw [hlive]; simp
      rw [live,mem_filterMap] at hmem
      obtain ⟨l,hl,-⟩ := hmem
      rw [mem_filter] at hl
      have hn : l.name=b.name := by simpa using hl.2
      rw [← hn,live_eq hl.1] at hlive
      cases hrow : row x.tables l <;> simp_all
    subst hrest
    have hname := (live_singleton hlive).2.1
    rw [← hname] at hq
    have hresult := x.live_met (hname ▸ hlive) hq
    rw [hname] at hresult
    rw [hresult]
    simp only [cons.injEq,and_true,exists_eq_left']
    cases hw : x.writer r with
    | none => exact .rfl
    | some p => exact rewritten_matches r p b e

theorem result_unchanged (h : x.LinkedBefore) (hr : r∈fetchAll x.result) {p : Backbone×(End×End)}
    (hp : firstOf x.tables x.report (nameOf r)=some p) : r.changed p.1 p.2=false := by
  obtain ⟨hmem,hname,hends⟩ := firstOf_spec hp
  obtain ⟨r₀,hlive₀,-⟩ := h p.1 hmem p.2 hends
  have hname₀ := (live_singleton hlive₀).2.1
  have hfirst : firstOf x.tables x.report r₀.link.name=some p := by rw [hname₀,hname,hp]
  have hafter := x.live_met (hname₀ ▸ hlive₀) hfirst
  rw [hname₀,hname,live_fetchAll hr] at hafter
  have hrow := head_eq_of_cons_eq hafter
  unfold writer at hrow
  rw [hfirst] at hrow
  have hmanaged : r.managed x.tables=true := by
    rw [← managed_ground x.ground]
    exact (mem_fetchAll.mp hr).2.2
  cases hc : r₀.managed x.tables && r₀.changed p.1 p.2 with
  | true =>
    simp only [Option.filter,hc] at hrow
    rw [hrow]
    exact rewritten_unchanged r₀ p.1 p.2
  | false =>
    simp only [Option.filter,hc,Bool.false_eq_true,if_false] at hrow
    rwa [← hrow,hmanaged] at hc

theorem result_reported (hr : r∈fetchAll x.result) : firstOf x.tables x.report (nameOf r)≠none := by
  intro hnone
  have hlive := live_fetchAll hr
  obtain ⟨hl,-,hm⟩ := mem_fetchAll.mp hr
  rw [managed_ground x.ground] at hm
  have hin : nameOf r∈x.looped.1.links.map Link.name := by
    rw [← foldl_retire_names x.now x.looped.1 (x.order x.looped.2)]
    exact mem_map_of_mem hl
  rcases foldl_names kept_start hin with hold | hnew
  · obtain ⟨l,hmem,hname⟩ := mem_map.mp hold
    cases hrow : row x.tables l with
    | none =>
      rw [← hname,x.live_ended hmem hrow] at hlive
      cases hlive
    | some r₀ =>
      have hlink := (row_eq_some.mp hrow).2.1
      subst hlink
      have hlive₀ : live x.tables r₀.link.name=[r₀] := by
        rw [live_eq hmem,hrow]
        rfl
      cases hm₀ : r₀.managed x.tables with
      | false =>
        rw [← hname,x.live_unmanaged hlive₀ hm₀] at hlive
        have hrr : r₀=r := head_eq_of_cons_eq hlive
        rw [hrr,hm] at hm₀
        cases hm₀
      | true =>
        have hname₀ : nameOf r₀=nameOf r := hname
        rw [← hname₀] at hnone
        have hleft := live_retired (x.result_left (x.mem_fetchAll_of_live hlive₀ hm₀) hnone) rfl
        have hsame : r₀.retired.link.name=nameOf r := hname
        rw [hsame,hlive] at hleft
        cases hleft
  · exact hnew hnone

theorem rests_of (h : x.LinkedBefore) : x.Rests := by
  intro order now hperm
  have hquiet : (x.report.foldl (sync now) (x.result,fetchAll x.result)).1=x.result := by
    apply foldl_quiet kept_start
    · intro b hb e he
      rw [lookupEnds_ground x.ground] at he
      obtain ⟨r,hr,-⟩ := x.settles_iff.mpr h b hb e he
      by_contra hname
      rw [live_none hname] at hr
      cases hr
    · intro r hr p hp
      rw [firstOf_ground x.ground] at hp
      exact x.result_unchanged h hr hp
  have hnothing : (x.report.foldl (sync now) (x.result,fetchAll x.result)).2=[] := by
    rw [foldl_index kept_start,filter_eq_nil_iff]
    intro r hr
    rw [firstOf_ground x.ground,Option.isNone_iff_eq_none]
    exact x.result_reported hr
  unfold linkHandler
  have hnil := hperm (x.report.foldl (sync now) (x.result,fetchAll x.result)).2
  rw [hnothing,perm_nil] at hnil
  simp only [hnothing,hnil,hquiet,foldl_nil]

/-- A run spares reported links, links all backbones and comes to rest exactly if links with a
reported name are reported with known interfaces, and backbones with such have their link. -/
theorem faithful_iff : x.SparesReported∧x.Settles∧x.Rests ↔ x.ReportedKnown∧x.LinkedBefore := by
  rw [sparesReported_iff,settles_iff]
  exact ⟨fun h => ⟨h.1,h.2.1⟩,fun h => ⟨h.1,h.2,x.rests_of h.2⟩⟩

end Run

def oneBackbone : Tables where
  nodes := [⟨1,"a.example.net",some "a",some ⟨.nso,false,false⟩⟩,
    ⟨2,"z.example.net",some "z",some ⟨.nso,false,false⟩⟩]
  interfaces := [⟨1,1,"e0",.trunk⟩,⟨2,2,"e0",.trunk⟩]
  links := [⟨1,"a-z",none,.up,some 1⟩]
  instantiations := [⟨1,none,.active,1,some "10.0.0.1",2,some "10.0.0.2"⟩]
  nextLink := 2
  linkIds := by decide
  linkNames := by decide
  fresh := by decide
  keys := by decide
  known := by decide

def renamedPort : Run where
  tables := oneBackbone
  report := [⟨"a-z",true,[⟨"a","e0",some "10.0.0.1"⟩,⟨"z","e1",some "10.0.0.2"⟩]⟩]
  now := 10
  order := id
  perm := fun _ => List.Perm.refl _
  later := by decide

/-- The link is decommissioned although its name is reported. -/
theorem renamedPort_decommissioned :
    (live renamedPort.tables "a-z").length=1∧"a-z"∈renamedPort.report.map Backbone.name∧
      live renamedPort.result "a-z"=[]∧
      renamedPort.result.instantiations.map (fun i => (i.ended,i.state))=
        [(some 10,.active),(none,.decom)]∧
      ¬renamedPort.SparesReported := by
  have hgone : live renamedPort.result "a-z"=[] := by decide +kernel
  refine ⟨by decide +kernel,by decide +kernel,hgone,by decide +kernel,?_⟩
  intro h
  obtain ⟨r',hr',-⟩ := h ⟨⟨1,"a-z",none,.up,some 1⟩,
    ⟨1,none,.active,1,some "10.0.0.1",2,some "10.0.0.2"⟩⟩ (by decide +kernel) (by decide +kernel)
  cases hr'

end OESS.Links.Nso
