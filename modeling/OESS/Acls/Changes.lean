import OESS.Acls.Handlers

namespace OESS.Acls

open Table List

variable {t : Table} {acl : Acl} {new : Int}

theorem Table.fetch_eq {a : Acl} (ha : a∈t.rows) : t.fetch a.id=some a := by
  have hsome : (t.fetch a.id).isSome=true := find?_isSome.mpr ⟨a,ha,by simp⟩
  obtain ⟨b,hb⟩ := Option.isSome_iff_exists.mp hsome
  obtain ⟨hbmem,hbid⟩ := fetch_spec hb
  rw [hb,eq_of_id hbmem ha hbid]

variable (a : Acl) {r : EditRequest}

theorem closeGap_interface : (Table.closeGap acl a).interface=a.interface := by
  unfold Table.closeGap
  split_ifs <;> rfl

theorem closeGap_vlanAllowed : (Table.closeGap acl a).vlanAllowed=a.vlanAllowed := by
  unfold Table.closeGap
  split_ifs <;> rfl

theorem closeGap_evalPosition : (Table.closeGap acl a).evalPosition=
    if acl.evalPosition<a.evalPosition∧a.interface=acl.interface then a.evalPosition-10
    else a.evalPosition := by
  unfold Table.closeGap
  split_ifs <;> rfl

theorem write_position (position : Int) :
    {Model.fromRow a with evalPosition := some position}.write a=
      {a with evalPosition := position,vlanEnd := some (a.vlanEnd.getD a.vlanStart)} := by
  cases a with
  | mk id workgroup interface allowDeny evalPosition vlanStart vlanEnd notes entity =>
    cases workgroup <;> cases vlanEnd <;> cases notes <;> cases entity <;> rfl

def shifted (acl : Acl) (new : Int) (a : Acl) : Acl :=
  if a.interface=acl.interface then changed (moveOver acl new) a else a

theorem shifted_eq (acl : Acl) (new : Int) (a : Acl) : shifted acl new a=a∨
    ∃ position,a.interface=acl.interface∧a.id≠acl.id∧
      movedTo acl.evalPosition new a.evalPosition=some position∧
      shifted acl new a=
        {a with evalPosition := position,vlanEnd := some (a.vlanEnd.getD a.vlanStart)} := by
  by_cases hi : a.interface=acl.interface
  · by_cases hid : a.id=acl.id
    · simp [shifted,changed,moveOver,hid]
    cases hm : movedTo acl.evalPosition new a.evalPosition with
    | none => simp [shifted,changed,moveOver,hm]
    | some position =>
      refine .inr ⟨position,hi,hid,rfl,?_⟩
      rw [← write_position]
      simp [shifted,hi,changed,moveOver,hid,hm]
  · exact .inl (if_neg hi)

theorem shifted_id : (shifted acl new a).id=a.id := by
  obtain h | ⟨_,_,_,_,h⟩ := shifted_eq acl new a <;> rw [h]

theorem shifted_interface : (shifted acl new a).interface=a.interface := by
  obtain h | ⟨_,_,_,_,h⟩ := shifted_eq acl new a <;> rw [h]

theorem shifted_vlanAllowed : (shifted acl new a).vlanAllowed=a.vlanAllowed := by
  obtain h | ⟨_,_,_,_,h⟩ := shifted_eq acl new a
  · rw [h]
  · funext workgroup vlan
    rw [h]
    simp [Acl.vlanAllowed]

theorem shifted_self : shifted acl new acl=acl := by
  obtain h | ⟨_,_,hid,_⟩ := shifted_eq acl new acl
  · exact h
  · exact absurd rfl hid

theorem shifted_evalPosition {a : Acl} (hid : a.id≠acl.id) (hi : a.interface=acl.interface) :
    (shifted acl new a).evalPosition=
      (movedTo acl.evalPosition new a.evalPosition).getD a.evalPosition := by
  cases hm : movedTo acl.evalPosition new a.evalPosition with
  | none => simp [shifted,changed,moveOver,hm]
  | some position => simp [shifted,hi,changed,moveOver,hid,hm,write_position]

theorem shifted_elsewhere {a : Acl} (hi : a.interface≠acl.interface) : shifted acl new a=a :=
  if_neg hi

def edited (t : Table) (acl : Acl) (r : EditRequest) : Table :=
  (t.updateAll (moveOver acl r.evalPosition) (t.fetchAll acl.interface)).update acl.id r.model

theorem edited_rows (t : Table) (acl : Acl) (r : EditRequest) : (edited t acl r).rows=
    t.rows.map fun a => if a.id=acl.id then r.model.write (shifted acl r.evalPosition a)
      else shifted acl r.evalPosition a := by
  rw [edited,Table.update,mapRows_rows,updateAll_rows,map_map]
  apply map_congr_left
  intro a _
  have hid : (if a.interface=acl.interface then changed (moveOver acl r.evalPosition) a else a).id=
      a.id := by
    exact shifted_id a
  simp only [Function.comp_apply,hid]
  rfl

theorem mem_edited (hacl : acl∈t.rows) : r.model.write acl∈(edited t acl r).rows := by
  rw [edited_rows]
  exact mem_map.mpr ⟨acl,hacl,by rw [if_pos rfl,shifted_self]⟩

theorem Store.editAcl_of_mem {s s' : Store} {a : Acl} (ha : a∈s.acls.rows) (hid : a.id=r.id)
    (h : s.editAcl r=.ok s') : s'={s with acls := edited s.acls a r} := by
  have hfetch := fetch_eq ha
  rw [hid] at hfetch
  obtain ⟨hnone,_⟩ | ⟨acl',hfound,_,rfl⟩ := Store.editAcl_ok h
  · rw [hfetch] at hnone
    cases hnone
  · rw [hfetch] at hfound
    obtain rfl := Option.some.inj hfound
    rw [edited,hid]

theorem edited_subject (hacl : acl∈t.rows) {a : Acl} (ha : a∈(edited t acl r).rows)
    (hid : a.id=acl.id) : a=r.model.write acl := by
  rw [edited_rows] at ha
  obtain ⟨b,hb,rfl⟩ := mem_map.mp ha
  have hbid : b.id=acl.id := by
    split_ifs at hid with h
    · exact h
    · rwa [shifted_id] at hid
  rw [if_pos hbid,eq_of_id hb hacl hbid,shifted_self]

theorem write_interface (interface : Nat) :
    {Model.fromRow a with interface := some interface}.write a=
      {a with interface,vlanEnd := some (a.vlanEnd.getD a.vlanStart)} := by
  cases a with
  | mk id workgroup interface allowDeny evalPosition vlanStart vlanEnd notes entity =>
    cases workgroup <;> cases vlanEnd <;> cases notes <;> cases entity <;> rfl

theorem migrated_row {src dst : Nat} {a' : Acl}
    (h : a'∈(t.updateAll (moveOnto dst) (t.fetchAll src)).rows) :
    ∃ a∈t.rows,a'.id=a.id∧a'.evalPosition=a.evalPosition∧
      a'.interface=if a.interface=src then dst else a.interface := by
  rw [updateAll_rows] at h
  obtain ⟨a,ha,rfl⟩ := mem_map.mp h
  refine ⟨a,ha,?_⟩
  by_cases hi : a.interface=src
  · simp [hi,changed,moveOnto,write_interface]
  · simp [hi]

end OESS.Acls
