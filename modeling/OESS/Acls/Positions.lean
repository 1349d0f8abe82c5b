import OESS.Acls.Changes
import OESS.Framework.Runs

namespace OESS.Acls

open OESS.Ranking
open OESS.Runs List Table Store

variable (t : Table)

def Distinct : Prop :=
  ∀ a∈t.rows,∀ b∈t.rows,a.interface=b.interface → a.evalPosition=b.evalPosition → a=b
  deriving Decidable

def Table.others (x interface : Nat) : List Acl := (t.fetchAll interface).filter fun a => a.id≠x

/-- The ACLs other than `x` stay in order and decide as before. -/
structure OrderKept (x : Nat) (t t' : Table) : Prop where
  ids : ∀ i,(t'.others x i).map Acl.id=(t.others x i).map Acl.id
  decisions : ∀ i workgroup vlan,
    aclsAllow (t'.others x i) workgroup vlan=aclsAllow (t.others x i) workgroup vlan

def Event.subject (s : Store) : Event → Option Nat
  | .create _ => some s.acls.nextId
  | .edit r | .delete r => some r.id
  | .migrate _ => none

def Kept (s : Store) (e : Event) : Prop :=
  ∀ x,e.subject s=some x → OrderKept x s.acls (s.step e).acls

/-- ACLs before and behind `acl` are ten apart if one is `passed`. -/
def Spaced (acl : Acl) (passed : Int → Prop) : Prop :=
  ∀ a∈t.rows,∀ b∈t.rows,a.interface=acl.interface → b.interface=acl.interface →
    a.evalPosition<acl.evalPosition → acl.evalPosition<b.evalPosition →
    passed a.evalPosition∨passed b.evalPosition → a.evalPosition+10<b.evalPosition

def Between (old new position : Int) : Prop :=
  (new ≤ position∧position<old)∨(old<position∧position ≤ new)
  deriving Decidable

/-- There is room for what the request does to the positions. -/
def Roomy (s : Store) : Event → Prop
  | .create _ => True
  | .edit r => ∀ acl∈s.acls.rows,acl.id=r.id →
      Spaced s.acls acl (Between acl.evalPosition r.evalPosition)∧
      ∀ i∈r.interface,i≠acl.interface →
        ∀ b∈s.acls.rows,b.interface=i → b.evalPosition≠r.evalPosition
  | .delete r => ∀ acl∈s.acls.rows,acl.id=r.id → Spaced s.acls acl fun _ => True
  | .migrate r => r.src=r.dst∨∀ a∈s.acls.rows,∀ b∈s.acls.rows,
      a.interface=r.src → b.interface=r.dst → a.evalPosition≠b.evalPosition

instance (t : Table) (acl : Acl) (passed : Int → Prop) [DecidablePred passed] :
    Decidable (Spaced t acl passed) :=
  inferInstanceAs (Decidable (∀ a∈t.rows,∀ b∈t.rows,_))

instance (s : Store) (e : Event) : Decidable (Roomy s e) := by
  cases e <;> unfold Roomy <;> infer_instance

variable {t t' : Table} {x : Nat} {g : Acl → Acl}

/-- Apart from `x` only positions have changed. -/
structure Rewritten (x : Nat) (g : Acl → Acl) (t t' : Table) : Prop where
  rows : (t'.rows.filter (·.id≠x))=(t.rows.filter (·.id≠x)).map g
  id : ∀ a,(g a).id=a.id
  interface : ∀ a,(g a).interface=a.interface
  rule : ∀ a,(g a).vlanAllowed=a.vlanAllowed

/-- `g` keeps the order of the ACLs other than `x` on every interface. -/
def Ascending (x : Nat) (g : Acl → Acl) (t : Table) : Prop :=
  ∀ a∈t.rows,∀ b∈t.rows,a.id≠x → b.id≠x → a.interface=b.interface →
    a.evalPosition<b.evalPosition → (g a).evalPosition<(g b).evalPosition

def Table.rest (x interface : Nat) : List Acl :=
  (t.rows.filter (·.interface==interface)).filter fun a => a.id≠x

theorem Table.mem_rest {i : Nat} {a : Acl} : a∈t.rest x i ↔ a∈t.rows∧a.interface=i∧a.id≠x := by
  simp only [Table.rest,mem_filter,beq_iff_eq,decide_eq_true_eq,and_assoc]

theorem Table.others_eq {i : Nat} (h : ((t.rest x i).map Acl.evalPosition).Nodup) :
    t.others x i=rank Acl.evalPosition (t.rest x i) :=
  rank_filter h

theorem Rewritten.rest (h : Rewritten x g t t') (i : Nat) : t'.rest x i=(t.rest x i).map g := by
  have hcomm (t : Table) : t.rest x i= (t.rows.filter (·.id≠x)).filter fun a => a.interface==i := by
    simp only [Table.rest,filter_filter,Bool.and_comm]
  rw [hcomm t',hcomm t,h.rows,filter_map]
  congr 2
  funext a
  simp [h.interface]

theorem Ascending.eq (hg : Ascending x g t) (ht : Distinct t) {a b : Acl} (ha : a∈t.rows)
    (hb : b∈t.rows) (hax : a.id≠x) (hbx : b.id≠x) (hi : a.interface=b.interface)
    (hp : (g a).evalPosition=(g b).evalPosition) : a=b := by
  rcases lt_trichotomy a.evalPosition b.evalPosition with hlt | heq | hgt
  · exact absurd hp (ne_of_lt (hg a ha b hb hax hbx hi hlt))
  · exact ht a ha b hb hi heq
  · exact absurd hp (ne_of_gt (hg b hb a ha hbx hax hi.symm hgt))

theorem Ascending.rest_nodup (hg : Ascending x g t) (ht : Distinct t) (i : Nat) :
    (((t.rest x i).map g).map Acl.evalPosition).Nodup := by
  have hrows : (t.rest x i).Nodup := ((Nodup.of_map _ t.keyed).filter _).filter _
  rw [map_map]
  apply hrows.map_on
  intro a ha b hb hab
  obtain ⟨ha,hai,hax⟩ := mem_rest.mp ha
  obtain ⟨hb,hbi,hbx⟩ := mem_rest.mp hb
  exact hg.eq ht ha hb hax hbx (hai.trans hbi.symm) hab

theorem ascending_id : Ascending x id t := fun _ _ _ _ _ _ _ h => h

theorem Distinct.rest_nodup (ht : Distinct t) (x i : Nat) :
    ((t.rest x i).map Acl.evalPosition).Nodup := by
  simpa using ascending_id.rest_nodup ht i

section

variable (h : Rewritten x g t t')
include h

theorem Rewritten.others (ht : Distinct t) (hg : Ascending x g t) (i : Nat) :
    t'.others x i=(t.others x i).map g := by
  have hrest : ((t'.rest x i).map Acl.evalPosition).Nodup := by
    rw [h.rest i]
    exact hg.rest_nodup ht i
  rw [others_eq hrest,others_eq (ht.rest_nodup x i),h.rest i]
  apply rank_map (ht.rest_nodup x i)
  intro a ha b hb hab
  obtain ⟨ha,hai,hax⟩ := mem_rest.mp ha
  obtain ⟨hb,hbi,hbx⟩ := mem_rest.mp hb
  exact hg a ha b hb hax hbx (hai.trans hbi.symm) hab

theorem Rewritten.orderKept (ht : Distinct t) (hg : Ascending x g t) : OrderKept x t t' := by
  constructor
  · intro i
    rw [h.others ht hg i,map_map]
    exact map_congr_left fun a _ => h.id a
  · intro i workgroup vlan
    rw [h.others ht hg i,aclsAllow,findSome?_map]
    congr 2
    funext a
    exact congrFun (congrFun (h.rule a) workgroup) vlan

theorem Rewritten.source {a : Acl} (ha : a∈t'.rows) (hax : a.id≠x) : ∃ b∈t.rows,b.id≠x∧g b=a := by
  have hmem : a∈t'.rows.filter fun a => a.id≠x := mem_filter.mpr ⟨ha,by simpa using hax⟩
  rw [h.rows] at hmem
  obtain ⟨b,hb,rfl⟩ := mem_map.mp hmem
  obtain ⟨hb,hbx⟩ := mem_filter.mp hb
  exact ⟨b,hb,by simpa using hbx,rfl⟩

theorem Rewritten.distinct (ht : Distinct t) (hg : Ascending x g t)
    (hx : ∀ a∈t'.rows,a.id=x → ∀ b∈t.rows,b.id≠x → b.interface=a.interface →
      (g b).evalPosition≠a.evalPosition) :
    Distinct t' := by
  intro a ha b hb hi hp
  by_cases hax : a.id=x
  · by_cases hbx : b.id=x
    · exact eq_of_id ha hb (hax.trans hbx.symm)
    · obtain ⟨c,hc,hcx,rfl⟩ := h.source hb hbx
      exact absurd hp.symm (hx a ha hax c hc hcx ((h.interface c).symm.trans hi.symm))
  · obtain ⟨c,hc,hcx,rfl⟩ := h.source ha hax
    by_cases hbx : b.id=x
    · exact absurd hp (hx b hb hbx c hc hcx ((h.interface c).symm.trans hi))
    obtain ⟨d,hd,hdx,rfl⟩ := h.source hb hbx
    have hcd : c.interface=d.interface := by rw [← h.interface c,← h.interface d,hi]
    rw [hg.eq ht hc hd hcx hdx hcd hp]

end

theorem rewritten_of_map {f : Acl → Acl} (hrows : t'.rows=t.rows.map f)
    (hf : ∀ a,(f a).id=a.id) (hfg : ∀ a∈t.rows,a.id≠x → f a=g a) :
    (t'.rows.filter (·.id≠x))=(t.rows.filter (·.id≠x)).map g := by
  rw [hrows,filter_map]
  have hsame : ((fun a : Acl => decide (a.id≠x))∘f)=fun a => decide (a.id≠x) := by
    funext a
    simp [hf]
  rw [hsame]
  apply map_congr_left
  intro a ha
  obtain ⟨ha,hax⟩ := mem_filter.mp ha
  exact hfg a ha (by simpa using hax)

theorem insert_rewritten (a : Acl) : Rewritten t.nextId id t (t.insert a) := by
  refine ⟨?_,fun _ => rfl,fun _ => rfl,fun _ => rfl⟩
  simp

theorem create_distinct {a : Acl} {position : Option Int} (ht : Distinct t)
    (h : t.create a position=.ok t') : Distinct t'∧OrderKept t.nextId t t' := by
  obtain ⟨p,rfl,hfree⟩ := create_ok h
  have hrw := insert_rewritten (t := t) {a with evalPosition := p}
  refine ⟨hrw.distinct ht ascending_id ?_,hrw.orderKept ht ascending_id⟩
  intro b hb hid c hc _ hci
  have hbnew : b={a with id := t.nextId,evalPosition := p} := by
    rcases mem_append.mp hb with hb | hb
    · exact absurd hid (ne_of_lt (t.fresh b hb))
    · exact mem_singleton.mp hb
  subst hbnew
  exact hfree c hc hci

variable {acl : Acl}

theorem remove_rewritten (t : Table) (acl : Acl) (x : Nat) : Rewritten x (Table.closeGap acl) t
    ((t.mapRows (Table.closeGap acl) (closeGap_id acl)).deleteId x) := by
  refine ⟨?_,closeGap_id acl,closeGap_interface,closeGap_vlanAllowed⟩
  rw [deleteId_rows,filter_filter]
  simp only [Bool.and_self]
  exact rewritten_of_map (mapRows_rows t _ _) (closeGap_id acl) fun _ _ _ => rfl

theorem Distinct.ne_position (ht : Distinct t) (hacl : acl∈t.rows) {a : Acl} (ha : a∈t.rows)
    (hid : a.id≠acl.id) (hi : a.interface=acl.interface) : a.evalPosition≠acl.evalPosition := by
  intro hp
  exact hid (congrArg Acl.id (ht a ha acl hacl hi hp))

theorem closeGap_ascending (ht : Distinct t) (hacl : acl∈t.rows)
    (hspaced : Spaced t acl fun _ => True) : Ascending acl.id (Table.closeGap acl) t := by
  intro a ha b hb hax hbx hab hlt
  rw [closeGap_evalPosition,closeGap_evalPosition,hab]
  by_cases hi : b.interface=acl.interface
  · have hgap := hspaced a ha b hb (hab.trans hi) hi
    have hane := ht.ne_position hacl ha hax (hab.trans hi)
    simp only [hi,and_true]
    split_ifs with h1 h2 h3
    · omega
    · omega
    · have hapart := hgap (by omega) h3 (.inl trivial)
      omega
    · exact hlt
  · simpa only [hi,and_false]

theorem remove_distinct (ht : Distinct t) (hfetch : t.fetch x=some acl)
    (hspaced : Spaced t acl fun _ => True) (h : t.remove x=.ok t') :
    Distinct t'∧OrderKept x t t' := by
  obtain ⟨hacl,rfl⟩ := fetch_spec hfetch
  obtain ⟨acl',hfetch',rfl⟩ := remove_ok h
  obtain rfl : acl=acl' := Option.some.inj (hfetch.symm.trans hfetch')
  have hrw := remove_rewritten t acl acl.id
  have hasc := closeGap_ascending ht hacl hspaced
  refine ⟨hrw.distinct ht hasc ?_,hrw.orderKept ht hasc⟩
  intro a ha hid
  exact absurd hid (by simpa using of_mem_filter ha)

variable {new : Int}

theorem movedTo_cases (old new position : Int) :
    (movedTo old new position=some (position+10)∧new ≤ position∧position<old)∨
    (movedTo old new position=some (position-10)∧old<position∧position ≤ new)∨
    (movedTo old new position=none∧¬Between old new position) := by
  unfold movedTo Between
  split_ifs <;> simp_all <;> omega

theorem edited_rewritten (t : Table) (acl : Acl) (r : EditRequest) :
    Rewritten acl.id (shifted acl r.evalPosition) t (edited t acl r) := by
  refine ⟨rewritten_of_map (edited_rows t acl r) ?_ ?_,shifted_id,shifted_interface,
    shifted_vlanAllowed⟩
  · intro a
    split_ifs
    all_goals exact shifted_id a
  · intro a _ hid
    exact if_neg hid

theorem shifted_ascending (ht : Distinct t) (hacl : acl∈t.rows)
    (hspaced : Spaced t acl (Between acl.evalPosition new)) :
    Ascending acl.id (shifted acl new) t := by
  intro a ha b hb hax hbx hab hlt
  by_cases hi : b.interface=acl.interface
  · have hai := hab.trans hi
    have hgap := hspaced a ha b hb hai hi
    have hane := ht.ne_position hacl ha hax hai
    have hbne := ht.ne_position hacl hb hbx hi
    rw [shifted_evalPosition hax hai,shifted_evalPosition hbx hi]
    -- The one case in which the shift brings two ACLs closer is the one `hgap` is about.
    obtain ⟨h,_,_⟩ | ⟨h,_,_⟩ | ⟨h,hstay⟩ := movedTo_cases acl.evalPosition new a.evalPosition <;>
    obtain ⟨h',_,_⟩ | ⟨h',_,_⟩ | ⟨h',hstay'⟩ := movedTo_cases acl.evalPosition new b.evalPosition <;>
      rw [h,h'] <;> simp only [Option.getD_some,Option.getD_none] <;>
      unfold Between at * <;> omega
  · rwa [shifted_elsewhere hi,shifted_elsewhere fun hai => hi (hab.symm.trans hai)]

theorem edit_distinct {r : EditRequest} (ht : Distinct t) (hacl : acl∈t.rows)
    (hspaced : Spaced t acl (Between acl.evalPosition r.evalPosition))
    (hfree : ∀ i∈r.interface,i≠acl.interface →
      ∀ b∈t.rows,b.interface=i → b.evalPosition≠r.evalPosition) :
    Distinct (edited t acl r)∧OrderKept acl.id t (edited t acl r) := by
  have hrw := edited_rewritten t acl r
  have hasc := shifted_ascending ht hacl hspaced
  refine ⟨hrw.distinct ht hasc ?_,hrw.orderKept ht hasc⟩
  intro a ha hid b hb hbx hi
  rw [edited_subject hacl ha hid] at hi ⊢
  have hposition : (r.model.write acl).evalPosition=r.evalPosition := rfl
  have hinterface : (r.model.write acl).interface=r.interface.getD acl.interface := rfl
  rw [hinterface] at hi
  by_cases hbi : b.interface=acl.interface
  · have hbne := ht.ne_position hacl hb hbx hbi
    rw [shifted_evalPosition hbx hbi]
    obtain ⟨h,_,_⟩ | ⟨h,_,_⟩ | ⟨h,hstay⟩ :=
        movedTo_cases acl.evalPosition r.evalPosition b.evalPosition <;>
      rw [h] <;> simp only [Option.getD_some,Option.getD_none] <;>
      unfold Between at * <;> omega
  · rw [shifted_elsewhere hbi]
    cases hr : r.interface with
    | none =>
      rw [hr] at hi
      exact absurd hi hbi
    | some i =>
      rw [hr] at hi
      have hbi' : b.interface=i := hi
      exact hfree i hr (fun h => hbi (hbi'.trans h)) b hb hbi'

theorem migrate_distinct {src dst : Nat} (ht : Distinct t)
    (hfree : src=dst∨∀ a∈t.rows,∀ b∈t.rows,a.interface=src → b.interface=dst →
      a.evalPosition≠b.evalPosition) :
    Distinct (t.updateAll (moveOnto dst) (t.fetchAll src)) := by
  intro a' ha' b' hb' hi hp
  obtain ⟨a,ha,haid,hap,hai⟩ := migrated_row ha'
  obtain ⟨b,hb,hbid,hbp,hbi⟩ := migrated_row hb'
  apply eq_of_id ha' hb'
  rw [haid,hbid]
  rw [hap,hbp] at hp
  rw [hai,hbi] at hi
  have hsame : a.interface=b.interface := by
    by_contra hne
    split_ifs at hi with h1 h2 h2
    · exact hne (h1.trans h2.symm)
    · rcases hfree with hsd | hfree
      · exact hne (h1.trans (hsd.trans hi))
      · exact hfree a ha b hb h1 hi.symm hp
    · rcases hfree with hsd | hfree
      · exact hne (hi.trans (hsd.symm.trans h2.symm))
      · exact hfree b hb a ha h2 hi hp.symm
    · exact hne hi
  exact congrArg Acl.id (ht a ha b hb hsame hp)

theorem orderKept_refl (x : Nat) (t : Table) : OrderKept x t t := ⟨fun _ => rfl,fun _ _ _ => rfl⟩

/-- A request that finds room leaves distinct positions and the other ACLs in order. -/
theorem step_distinct {s : Store} {e : Event} (hs : Distinct s.acls) (he : Roomy s e) :
    Distinct (s.step e).acls∧Kept s e := by
  unfold Kept Store.step
  cases h : s.handle e with
  | error failure => exact ⟨hs,fun x _ => orderKept_refl x s.acls⟩
  | ok s' =>
    cases e with
    | create r =>
      obtain ⟨t,_,hcreate,rfl⟩ := createAcl_ok h
      obtain ⟨hd,ho⟩ := create_distinct hs hcreate
      refine ⟨hd,?_⟩
      rintro x ⟨⟩
      exact ho
    | edit r =>
      obtain ⟨_,rfl⟩ | ⟨acl,hfetch,_,rfl⟩ := editAcl_ok h
      · exact ⟨hs,fun x _ => orderKept_refl x _⟩
      obtain ⟨hacl,hid⟩ := fetch_spec hfetch
      obtain ⟨hspaced,hfree⟩ := he acl hacl hid
      obtain ⟨hd,ho⟩ := edit_distinct hs hacl hspaced hfree
      rw [edited,hid] at hd ho
      refine ⟨hd,?_⟩
      rintro x ⟨⟩
      exact ho
    | delete r =>
      obtain ⟨acl,t,hfetch,_,hremove,rfl⟩ := deleteAcl_ok h
      obtain ⟨hacl,hid⟩ := fetch_spec hfetch
      obtain ⟨hd,ho⟩ := remove_distinct hs hfetch (he acl hacl hid) hremove
      refine ⟨hd,?_⟩
      rintro x ⟨⟩
      exact ho
    | migrate r =>
      have hacls := migrateInterface_ok h
      refine ⟨?_,fun x hx => by cases hx⟩
      rw [hacls]
      exact migrate_distinct hs he

theorem Table.eq_of_ids {l m : List Acl} (hl : ∀ a∈l,a∈t.rows) (hm : ∀ a∈m,a∈t.rows)
    (h : l.map Acl.id=m.map Acl.id) : l=m := by
  have hback (k : List Acl) (hk : ∀ a∈k,a∈t.rows) : (k.map Acl.id).filterMap t.fetch=k := by
    rw [filterMap_map]
    exact (filterMap_congr fun a ha => fetch_eq (hk a ha)).trans filterMap_some
  rw [← hback l hl,h,hback m hm]

theorem Rewritten.ascending (h : Rewritten x g t t') (ht : Distinct t) (ht' : Distinct t')
    (ho : OrderKept x t t') : Ascending x g t := by
  intro a ha b hb hax hbx hab hlt
  have hrest := h.rest b.interface
  have hbefore := ht.rest_nodup x b.interface
  have hafter := ht'.rest_nodup x b.interface
  have hids := ho.ids b.interface
  rw [others_eq hbefore,others_eq hafter] at hids
  have hmem (c : Acl) (hc : c∈t'.rest x b.interface) : c∈t'.rows := (mem_rest.mp hc).1
  have hrank : rank Acl.evalPosition (t'.rest x b.interface)=
      (rank Acl.evalPosition (t.rest x b.interface)).map g := by
    apply eq_of_ids
    · intro c hc
      exact hmem c ((mem_rank _ _ c).mp hc)
    · intro c hc
      rw [((rank_perm _ _).map g).mem_iff,← hrest] at hc
      exact hmem c hc
    · rw [hids,map_map]
      exact map_congr_left fun c _ => (h.id c).symm
  rw [hrest] at hrank hafter
  exact lt_of_rank_map hbefore hafter hrank (mem_rest.mpr ⟨ha,hab,hax⟩)
    (mem_rest.mpr ⟨hb,rfl,hbx⟩) hlt

theorem id_ne_of_position {acl a : Acl} (hacl : acl∈t.rows) (ha : a∈t.rows)
    (h : a.evalPosition≠acl.evalPosition) : a.id≠acl.id :=
  fun hid => h (congrArg Acl.evalPosition (eq_of_id ha hacl hid))

theorem spaced_of_closeGap (hacl : acl∈t.rows)
    (h : Ascending acl.id (Table.closeGap acl) t) : Spaced t acl fun _ => True := by
  intro a ha b hb hai hbi halt hblt _
  have hax := id_ne_of_position hacl ha (ne_of_lt halt)
  have hbx := id_ne_of_position hacl hb (ne_of_gt hblt)
  have hlt := h a ha b hb hax hbx (hai.trans hbi.symm) (halt.trans hblt)
  rw [closeGap_evalPosition,closeGap_evalPosition] at hlt
  omega

theorem spaced_of_shifted (hacl : acl∈t.rows)
    (h : Ascending acl.id (shifted acl new) t) : Spaced t acl (Between acl.evalPosition new) := by
  intro a ha b hb hai hbi halt hblt hpassed
  have hax := id_ne_of_position hacl ha (ne_of_lt halt)
  have hbx := id_ne_of_position hacl hb (ne_of_gt hblt)
  have hlt := h a ha b hb hax hbx (hai.trans hbi.symm) (halt.trans hblt)
  rw [shifted_evalPosition hax hai,shifted_evalPosition hbx hbi] at hlt
  obtain ⟨hm,_,_⟩ | ⟨hm,_,_⟩ | ⟨hm,hstay⟩ := movedTo_cases acl.evalPosition new a.evalPosition <;>
  obtain ⟨hm',_,_⟩ | ⟨hm',_,_⟩ | ⟨hm',hstay'⟩ :=
      movedTo_cases acl.evalPosition new b.evalPosition <;>
    rw [hm,hm'] at hlt <;> simp only [Option.getD_some,Option.getD_none] at hlt <;>
    unfold Between at * <;> omega

/-- A request that was committed with positions distinct and in order had room. -/
theorem roomy_of_kept {s s' : Store} {e : Event} (h : s.handle e=.ok s') (hs : Distinct s.acls)
    (hs' : Distinct s'.acls) (hkept : Kept s e) : Roomy s e := by
  rw [Kept,Store.step,h] at hkept
  cases e with
  | create r => trivial
  | edit r =>
    intro acl hacl hid
    obtain rfl := editAcl_of_mem hacl hid h
    have ho := hkept r.id rfl
    rw [← hid] at ho
    have hrw := edited_rewritten s.acls acl r
    refine ⟨spaced_of_shifted hacl (hrw.ascending hs hs' ho),?_⟩
    intro i hi hne b hb hbi hposition
    -- The edited ACL and `b` would share a place on their interface.
    have hbx : b.id≠acl.id := fun hbx => hne (hbi ▸ congrArg Acl.interface (eq_of_id hb hacl hbx))
    have hstayed : b∈(edited s.acls acl r).rows := by
      rw [edited_rows]
      refine mem_map.mpr ⟨b,hb,?_⟩
      rw [if_neg hbx,shifted_elsewhere (by rw [hbi]; exact hne)]
    have hinterface : (r.model.write acl).interface=i := congrArg (Option.getD · acl.interface) hi
    have hsame := hs' _ (mem_edited hacl) _ hstayed (hinterface.trans hbi.symm) hposition.symm
    exact hbx (congrArg Acl.id hsame).symm
  | delete r =>
    intro acl hacl hid
    obtain ⟨acl',t,hfetch,_,hremove,rfl⟩ := deleteAcl_ok h
    obtain ⟨acl'',hfetch',rfl⟩ := remove_ok hremove
    rw [← hid,fetch_eq hacl] at hfetch'
    obtain rfl := Option.some.inj hfetch'
    have hrw := remove_rewritten s.acls acl acl.id
    have ho := hkept r.id rfl
    rw [← hid] at ho hs'
    exact spaced_of_closeGap hacl (hrw.ascending hs hs' ho)
  | migrate r =>
    by_cases hsd : r.src=r.dst
    · exact .inl hsd
    refine .inr ?_
    intro a ha b hb hai hbi hp
    have hmoved {c : Acl} (hc : c∈s.acls.rows) :
        (if c.interface=r.src then changed (moveOnto r.dst) c else c)∈s'.acls.rows := by
      rw [migrateInterface_ok h,updateAll_rows]
      exact mem_map_of_mem hc
    have ha' := hmoved ha
    have hb' := hmoved hb
    rw [if_pos hai] at ha'
    rw [if_neg fun hbs => hsd (hbs.symm.trans hbi)] at hb'
    have hsame := hs' _ ha' _ hb' (by simp [changed,moveOnto,write_interface,hbi])
      (by simpa [changed,moveOnto,write_interface] using hp)
    have hab : a=b := eq_of_id ha hb (by
      have hid := congrArg Acl.id hsame
      rwa [changed_id] at hid)
    exact hsd (hai.symm.trans (hab ▸ hbi))

/-- Positions stay distinct and in order in a run exactly if every committed request finds room. -/
theorem positions_kept_iff (s : Store) (es : List Event) :
    Always Store.step (fun s => Distinct s.acls) s es∧StepsOk Store.step Kept s es ↔
      Distinct s.acls∧StepsOk Store.step (fun s e => ∀ s',s.handle e=.ok s' → Roomy s e) s es := by
  induction es generalizing s with
  | nil => exact .rfl
  | cons e es ih =>
    constructor
    · intro ⟨⟨hs,halways⟩,hkept,hrest⟩
      obtain ⟨hnext,hroom⟩ := (ih _).mp ⟨halways,hrest⟩
      refine ⟨hs,fun s' h => ?_,hroom⟩
      rw [Store.step,h] at hnext
      exact roomy_of_kept h hs hnext hkept
    · intro ⟨hs,hroom,hrest⟩
      have hstep : Distinct (s.step e).acls∧Kept s e := by
        cases h : s.handle e with
        | ok s' => exact step_distinct hs (hroom s' h)
        | error failure =>
          rw [Kept,Store.step,h]
          exact ⟨hs,fun x _ => orderKept_refl x s.acls⟩
      obtain ⟨halways,hkept⟩ := (ih _).mpr ⟨hstep.1,hrest⟩
      exact ⟨⟨hs,halways⟩,hstep.2,hkept⟩

/-- If all requests find room, positions stay distinct and the order and the decisions of the other
ACLs as they were. -/
theorem positions_distinct_in_order (s : Store) (es : List Event) (hs : Distinct s.acls)
    (hes : StepsOk Store.step Roomy s es) :
    Always Store.step (fun s => Distinct s.acls) s es∧StepsOk Store.step Kept s es :=
  ⟨always_of_step (fun _ _ hs he => (step_distinct hs he).1) hs hes,
    stepsOk_of_step (P := fun s => Distinct s.acls) (fun _ _ hs he => step_distinct hs he) hs hes⟩

def membership : OESS.Access.Directory where
  users := [⟨1,"member",.active⟩]
  workgroups := [⟨1,.normal,.active⟩,⟨2,.admin,.active⟩]
  memberships := [⟨1,1,.normal⟩,⟨2,1,.normal⟩]

def bare : Store where
  directory := membership
  interfaces := [⟨1,some 1⟩,⟨2,some 1⟩]
  acls := noAcls

def creating (interface : Nat) (position : Option Int) : Event :=
  .create ⟨"member",none,none,interface,.allow,position,1,some 4094,none,true⟩

def moving (id : Nat) (interface : Option Nat) (position : Int) : Event :=
  .edit ⟨"member",id,none,none,interface,.allow,position,1,some 4094,none,true⟩

def deleting (id : Nat) : Event := .delete ⟨"member",id,true⟩

def migrating (src dst : Nat) : Event := .migrate ⟨"member",src,dst,true⟩

/-- A run with automatic positions, a move, a deletion and a migration. -/
theorem spacedRun_distinct :
    let es := [creating 1 none,creating 1 none,creating 1 none,moving 3 none 10,deleting 1,
      migrating 1 2]
    Always Store.step (fun s => Distinct s.acls) bare es∧StepsOk Store.step Kept bare es :=
  positions_distinct_in_order bare _ (by decide)
    ⟨trivial,trivial,trivial,by decide +kernel,by decide +kernel,by decide +kernel,trivial⟩

/-- Positions collide after a deletion, an edit and a migration. -/
theorem positions_collide :
    ¬Always Store.step (fun s => Distinct s.acls) bare
      [creating 1 none,creating 1 (some 12),creating 1 (some 2),deleting 1]∧
    ¬StepsOk Store.step Kept bare
      [creating 1 none,creating 1 (some 12),creating 1 (some 5),deleting 1]∧
    ¬Always Store.step (fun s => Distinct s.acls) bare
      [creating 1 none,creating 2 none,moving 1 (some 2) 10]∧
    ¬Always Store.step (fun s => Distinct s.acls) bare
      [creating 1 none,creating 2 none,migrating 1 2] := by
  refine ⟨?_,?_,?_,?_⟩
  · intro h
    exact absurd h.2.2.2.2.start (by decide +kernel)
  · intro h
    have hids := (h.2.2.2.1 1 rfl).ids 1
    exact absurd hids (by decide +kernel)
  all_goals
    intro h
    exact absurd h.2.2.2.start (by decide +kernel)

end OESS.Acls
