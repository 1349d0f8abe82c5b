import OESS.Framework.Lookup
import OESS.Framework.Ranking

namespace OESS.Acls

open OESS.Ranking List

inductive AllowDeny where
  | allow | deny
  deriving DecidableEq

/-- An ACL of an interface; without a workgroup it is for all of them. -/
structure Acl where
  id : Nat
  workgroup : Option Nat
  interface : Nat
  allowDeny : AllowDeny
  (evalPosition vlanStart : Int)
  vlanEnd : Option Int
  notes : Option String
  entity : Option Nat
  deriving DecidableEq

/-- An absent field is not written; `some none` is NULL. -/
structure Model where
  workgroup : Option (Option Nat)
  interface : Option Nat
  allowDeny : Option AllowDeny
  (evalPosition vlanStart vlanEnd : Option Int)
  notes : Option String
  entity : Option (Option Nat)

def Model.fromRow (a : Acl) : Model where
  workgroup := a.workgroup.map some
  interface := some a.interface
  allowDeny := some a.allowDeny
  evalPosition := some a.evalPosition
  vlanStart := some a.vlanStart
  vlanEnd := a.vlanEnd.or (some a.vlanStart)
  notes := a.notes
  entity := a.entity.map some

/-- A range without an end is a single VLAN. -/
def Model.toHash (m : Model) : Model := {m with vlanEnd := m.vlanEnd.or m.vlanStart}

/-- An update writes the defined fields of the hash. -/
def Model.write (m : Model) (a : Acl) : Acl where
  id := a.id
  workgroup := m.toHash.workgroup.getD a.workgroup
  interface := m.toHash.interface.getD a.interface
  allowDeny := m.toHash.allowDeny.getD a.allowDeny
  evalPosition := m.toHash.evalPosition.getD a.evalPosition
  vlanStart := m.toHash.vlanStart.getD a.vlanStart
  vlanEnd := m.toHash.vlanEnd.or a.vlanEnd
  notes := m.toHash.notes.or a.notes
  entity := m.toHash.entity.getD a.entity

@[simp] theorem Model.write_id (m : Model) (a : Acl) : (m.write a).id=a.id := rfl

/-- No ACL has an id that the table is still to give. -/
structure Table where
  rows : List Acl
  nextId : Nat
  keyed : (rows.map Acl.id).Nodup
  fresh : ∀ a∈rows,a.id<nextId

def noAcls : Table := ⟨[],1,List.nodup_nil,fun _ h => absurd h List.not_mem_nil⟩

namespace Table

variable (t : Table)

def insert (a : Acl) : Table where
  rows := t.rows++[{a with id := t.nextId}]
  nextId := t.nextId+1
  keyed := Lookup.nodup_map_snoc t.keyed (Lookup.not_mem_of_fresh t.fresh)
  fresh := Lookup.fresh_snoc t.fresh rfl

def mapRows (f : Acl → Acl) (hf : ∀ a,(f a).id=a.id) : Table where
  rows := t.rows.map f
  nextId := t.nextId
  keyed := by
    rw [List.map_map,show Acl.id∘f=Acl.id from funext hf]
    exact t.keyed
  fresh := by
    intro b hb
    obtain ⟨a,ha,rfl⟩ := List.mem_map.mp hb
    rw [hf a]
    exact t.fresh a ha

variable (x : Nat)

def deleteId : Table where
  rows := t.rows.filter fun a => a.id≠x
  nextId := t.nextId
  keyed := t.keyed.sublist (List.filter_sublist.map Acl.id)
  fresh := fun a ha => t.fresh a (List.mem_of_mem_filter ha)

@[simp] theorem insert_rows (a : Acl) : (t.insert a).rows=t.rows++[{a with id := t.nextId}] := rfl

@[simp] theorem mapRows_rows (f : Acl → Acl) (hf : ∀ a,(f a).id=a.id) :
    (t.mapRows f hf).rows=t.rows.map f := rfl

@[simp] theorem deleteId_rows : (t.deleteId x).rows=t.rows.filter fun a => a.id≠x := rfl

variable (interface : Nat)

def hasUsedEvalPosition (position : Int) : Bool :=
  t.rows.any fun a => a.interface==interface && a.evalPosition==position

def getNextEvalPosition : Int :=
  match ((t.rows.filter (·.interface==interface)).map Acl.evalPosition).max? with
  | none => 10
  | some position => position+10

/-- An undefined position is chosen by the table. For a taken one the source dies instead of giving
an error; the rows stay as they are either way. -/
def create (a : Acl) (position : Option Int) : Except String Table :=
  match position with
  | some p =>
    if t.hasUsedEvalPosition a.interface p=true then
      .error ("There is already an acl at eval position "++toString p)
    else .ok (t.insert {a with evalPosition := p})
  | none => .ok (t.insert {a with evalPosition := t.getNextEvalPosition a.interface})

def fetch : Option Acl := t.rows.find? fun a => a.id==x

def fetchAll : List Acl := rank Acl.evalPosition (t.rows.filter (·.interface==interface))

def update (m : Model) : Table :=
  t.mapRows (fun a => if a.id=x then m.write a else a) fun a => by split_ifs <;> simp

/-- In an edit or a migration each ACL is written by its id. -/
def updateAll (change : Acl → Option Model) (acls : List Acl) : Table :=
  acls.foldl (fun t a => match change a with | none => t | some m => t.update a.id m) t

/-- A deletion closes a gap of ten behind the row. -/
def closeGap (removed a : Acl) : Acl :=
  if removed.evalPosition<a.evalPosition∧a.interface=removed.interface then
    {a with evalPosition := a.evalPosition-10}
  else a

@[simp] theorem closeGap_id (removed a : Acl) : (closeGap removed a).id=a.id := by
  unfold closeGap
  split_ifs <;> rfl

def remove : Except String Table :=
  match t.fetch x with
  | none => .error ("Couldn't find ACL "++toString x++".")
  | some a => .ok ((t.mapRows (closeGap a) (closeGap_id a)).deleteId x)

end Table

/-- The answer of one ACL: `none` where it does not apply. -/
def Acl.vlanAllowed (a : Acl) (workgroup : Nat) (vlan : Int) : Option Bool :=
  if a.workgroup.any (· != workgroup)=true then none
  else if a.vlanEnd.getD a.vlanStart<vlan∨vlan<a.vlanStart then none
  else some (a.allowDeny==.allow)

/-- The first ACL that applies decides. -/
def aclsAllow (acls : List Acl) (workgroup : Nat) (vlan : Int) : Bool :=
  (acls.findSome? (·.vlanAllowed workgroup vlan)).getD false

variable {t : Table} (change : Acl → Option Model) {a : Acl}

theorem Table.eq_of_id {b : Acl} (ha : a∈t.rows) (hb : b∈t.rows) (hab : a.id=b.id) : a=b :=
  inj_on_of_nodup_map t.keyed ha hb hab

theorem Table.fetch_spec {x : Nat} (h : t.fetch x=some a) : a∈t.rows∧a.id=x :=
  ⟨mem_of_find?_eq_some h,by simpa using find?_some h⟩

theorem Table.mem_fetchAll {interface : Nat} :
    a∈t.fetchAll interface ↔ a∈t.rows∧a.interface=interface := by
  simp [Table.fetchAll]

theorem Table.hasUsedEvalPosition_iff {interface : Nat} {position : Int} :
    t.hasUsedEvalPosition interface position=true ↔
      ∃ a∈t.rows,a.interface=interface∧a.evalPosition=position := by
  simp [Table.hasUsedEvalPosition]

theorem Table.lt_getNextEvalPosition (ha : a∈t.rows) :
    a.evalPosition<t.getNextEvalPosition a.interface := by
  have hmem : a.evalPosition∈ (t.rows.filter (·.interface==a.interface)).map Acl.evalPosition :=
    mem_map_of_mem (mem_filter.mpr ⟨ha,by simp⟩)
  unfold Table.getNextEvalPosition
  cases h : ((t.rows.filter (·.interface==a.interface)).map Acl.evalPosition).max? with
  | none =>
    rw [max?_eq_none_iff.mp h] at hmem
    exact absurd hmem not_mem_nil
  | some position =>
    have hle : a.evalPosition ≤ position := (max?_eq_some_iff.mp h).2 _ hmem
    simp only
    omega

theorem Table.create_ok {position : Option Int} {t' : Table} (h : t.create a position=.ok t') :
    ∃ p,t'=t.insert {a with evalPosition := p}∧
      ∀ b∈t.rows,b.interface=a.interface → b.evalPosition≠p := by
  cases position with
  | none =>
    refine ⟨_,(Except.ok.inj h).symm,?_⟩
    intro b hb hbi
    rw [← hbi]
    exact ne_of_lt (lt_getNextEvalPosition hb)
  | some p =>
    by_cases hused : t.hasUsedEvalPosition a.interface p=true
    · simp only [Table.create,if_pos hused] at h
      cases h
    simp only [Table.create,if_neg hused] at h
    refine ⟨p,(Except.ok.inj h).symm,?_⟩
    intro b hb hbi hbp
    exact hused (hasUsedEvalPosition_iff.mpr ⟨b,hb,hbi,hbp⟩)

theorem Table.remove_ok {x : Nat} {t' : Table} (h : t.remove x=.ok t') :
    ∃ a,t.fetch x=some a∧t'=(t.mapRows (closeGap a) (closeGap_id a)).deleteId x := by
  cases ha : t.fetch x with
  | none => simp [Table.remove,ha] at h
  | some a =>
    simp only [Table.remove,ha,Except.ok.injEq] at h
    exact ⟨a,rfl,h.symm⟩

def changed (change : Acl → Option Model) (a : Acl) : Acl := (change a).elim a fun m => m.write a

@[simp] theorem changed_id (a : Acl) : (changed change a).id=a.id := by
  unfold changed
  cases change a <;> rfl

theorem Table.updateAll_cons (a : Acl) (acls : List Acl) :
    ∃ t' : Table,t.updateAll change (a::acls)=t'.updateAll change acls∧
      ((∀ b∈t.rows,b.id=a.id → b=a) →
        t'.rows=t.rows.map fun b => if b=a then changed change b else b) := by
  refine ⟨match change a with | none => t | some m => t.update a.id m,rfl,?_⟩
  intro hloaded
  cases hc : change a with
  | none =>
    have hsame : ∀ b∈t.rows,(if b=a then changed change b else b)=id b := by
      intro b hb
      split_ifs with hba
      · simp [hba,changed,hc]
      · rfl
    rw [map_congr_left hsame,map_id]
  | some m =>
    apply map_congr_left
    intro b hb
    by_cases hba : b=a
    · simp [hba,changed,hc]
    · rw [if_neg hba,if_neg fun hid => hba (hloaded b hb hid)]

theorem Table.updateAll_rows_of_nodup (acls : List Acl) (hacls : (acls.map Acl.id).Nodup)
    (t : Table) (hloaded : ∀ a∈acls,∀ b∈t.rows,b.id=a.id → b=a) : (t.updateAll change acls).rows=
      t.rows.map fun b => if b∈acls then changed change b else b := by
  induction acls generalizing t with
  | nil => simp [Table.updateAll]
  | cons a acls ih =>
    obtain ⟨hfirst,hrest⟩ := nodup_cons.mp hacls
    obtain ⟨t',hloop,hrows⟩ := updateAll_cons change a acls
    have hnext := hrows (hloaded a mem_cons_self)
    -- The row just written is not among those still to come.
    have hgone : ∀ b : Acl,b.id=a.id → b∉acls := by
      intro b hid hb
      exact hfirst (hid ▸ mem_map_of_mem hb)
    have hstill : ∀ c∈acls,∀ b∈t'.rows,b.id=c.id → b=c := by
      intro c hc b' hb' hid
      rw [hnext] at hb'
      obtain ⟨b,hb,rfl⟩ := mem_map.mp hb'
      have hbc : b=c := by
        apply hloaded c (mem_cons_of_mem a hc) b hb
        rw [← hid]
        split_ifs <;> simp
      have hba : b≠a := fun hba => hgone b (congrArg Acl.id hba) (hbc ▸ hc)
      rwa [if_neg hba]
    rw [hloop,ih hrest t' hstill,hnext,map_map]
    apply map_congr_left
    intro b hb
    by_cases hba : b=a
    · have hnot := hgone (changed change b) (by rw [changed_id,hba])
      simp [hba] at hnot ⊢
      exact fun h => absurd h hnot
    · simp [hba]

theorem Table.updateAll_rows (interface : Nat) : (t.updateAll change (t.fetchAll interface)).rows=
      t.rows.map fun a => if a.interface=interface then changed change a else a := by
  have hids : ((t.fetchAll interface).map Acl.id).Nodup :=
    ((rank_perm _ _).map Acl.id).nodup_iff.mpr (t.keyed.sublist (filter_sublist.map Acl.id))
  rw [updateAll_rows_of_nodup change _ hids t
    fun a ha b hb hab => eq_of_id hb (mem_fetchAll.mp ha).1 hab]
  apply map_congr_left
  intro a ha
  simp only [mem_fetchAll,ha,true_and]

end OESS.Acls
