import OESS.Acls.Changes
import OESS.Framework.Runs

namespace OESS.Acls

open OESS.Runs Option Table Store List

def Table.rowsOn (t : Table) (interface : Nat) : List Acl :=
  t.rows.filter fun a => a.interface==interface

def Event.requester : Event → Option String
  | .create r | .edit r | .delete r => some r.username
  | .migrate _ => none

/-- Only ACLs of interfaces the user is authorised for change. -/
def OwnersOnly (s : Store) (e : Event) : Prop :=
  ∀ username,e.requester=some username → ∀ i,(s.step e).acls.rowsOn i≠s.acls.rowsOn i →
    Authorised s username i

/-- An edit names the ACL's interface or one of its user's. -/
def MayMove (s : Store) : Event → Prop
  | .edit r => ∀ acl∈s.acls.rows,acl.id=r.id →
      ∀ i∈r.interface,i=acl.interface∨Authorised s r.username i
  | _ => True

variable {s s' : Store} {t : Table}

variable {i : Nat}

theorem rowsOn_map {f : Acl → Acl} (t' : Table) (hrows : t'.rows=t.rows.map f)
    (hf : ∀ a∈t.rows,((f a).interface=i ↔ a.interface=i)∧(a.interface=i → f a=a)) :
    t'.rowsOn i=t.rowsOn i := by
  have hsame : ∀ a∈t.rows,((fun a : Acl => a.interface==i)∘f) a=(a.interface==i) := by
    intro a ha
    rw [Function.comp_apply,Bool.eq_iff_iff,beq_iff_eq,beq_iff_eq]
    exact (hf a ha).1
  rw [Table.rowsOn,hrows,List.filter_map,List.filter_congr hsame]
  have hid : ∀ a∈t.rows.filter (·.interface==i),f a=id a := by
    intro a ha
    obtain ⟨ha,hai⟩ := List.mem_filter.mp ha
    exact (hf a ha).2 (by simpa using hai)
  rw [List.map_congr_left hid,List.map_id]
  rfl

theorem insert_rowsOn {a : Acl} (hi : i≠a.interface) : (t.insert a).rowsOn i=t.rowsOn i := by
  simp [Table.rowsOn,Ne.symm hi]

theorem closeGap_rowsOn {acl : Acl} (hacl : acl∈t.rows) (hi : i≠acl.interface) :
    ((t.mapRows (Table.closeGap acl) (closeGap_id acl)).deleteId acl.id).rowsOn i=
      t.rowsOn i := by
  have hmap : (t.mapRows (Table.closeGap acl) (closeGap_id acl)).rowsOn i=t.rowsOn i := by
    apply rowsOn_map _ rfl
    intro a _
    refine ⟨by rw [closeGap_interface],?_⟩
    intro hai
    exact if_neg fun h => hi (hai.symm.trans h.2)
  rw [← hmap,Table.rowsOn,deleteId_rows,List.filter_filter]
  apply List.filter_congr
  intro a ha
  -- A row with the id of the deleted one is on its interface.
  obtain ⟨b,hb,rfl⟩ := List.mem_map.mp ha
  by_cases hid : b.id=acl.id
  · have hb' : b=acl := eq_of_id hb hacl hid
    simp [closeGap_interface,hb',Ne.symm hi]
  · simp [hid]

theorem edited_rowsOn {acl : Acl} {r : EditRequest} (hacl : acl∈t.rows) (hi : i≠acl.interface)
    (hr : i≠r.interface.getD acl.interface) : (edited t acl r).rowsOn i=t.rowsOn i := by
  apply rowsOn_map _ (edited_rows t acl r)
  intro a ha
  by_cases hid : a.id=acl.id
  · have haacl : a=acl := eq_of_id ha hacl hid
    have hdest : (r.model.write (shifted acl r.evalPosition a)).interface=
        r.interface.getD acl.interface := by
      rw [haacl,shifted_self]
      rfl
    rw [if_pos hid,hdest,haacl]
    exact ⟨⟨fun h => absurd h.symm hr,fun h => absurd h.symm hi⟩,fun h => absurd h.symm hi⟩
  · rw [if_neg hid,shifted_interface]
    refine ⟨.rfl,?_⟩
    intro hai
    exact shifted_elsewhere fun h => hi (hai.symm.trans h)

/-- A request changes ACLs where its user is authorised, or where an edit moves one to. -/
theorem ownersOnly_of_mayMove {e : Event} (he : MayMove s e) : OwnersOnly s e := by
  intro username hrequester i hchanged
  unfold Store.step at hchanged
  split at hchanged
  next s' h =>
    cases e with
    | create r =>
      obtain rfl : r.username=username := some.inj hrequester
      obtain ⟨t,haccess,hcreate,rfl⟩ := createAcl_ok h
      obtain ⟨p,rfl,_⟩ := create_ok hcreate
      by_cases hi : i=r.interface
      · rwa [hi]
      · exact absurd (insert_rowsOn hi) hchanged
    | edit r =>
      obtain rfl : r.username=username := some.inj hrequester
      obtain ⟨_,rfl⟩ | ⟨acl,hfetch,haccess,rfl⟩ := editAcl_ok h
      · exact absurd rfl hchanged
      obtain ⟨hacl,hid⟩ := fetch_spec hfetch
      by_cases hi : i=acl.interface
      · rwa [hi]
      by_cases hr : i=r.interface.getD acl.interface
      · cases hri : r.interface with
        | none =>
          rw [hri] at hr
          exact absurd hr hi
        | some j =>
          rw [hri] at hr
          obtain rfl : i=j := hr
          exact (he acl hacl hid i hri).resolve_left hi
      · rw [← hid] at hchanged
        exact absurd (edited_rowsOn hacl hi hr) hchanged
    | delete r =>
      obtain rfl : r.username=username := some.inj hrequester
      obtain ⟨acl,t,hfetch,haccess,hremove,rfl⟩ := deleteAcl_ok h
      obtain ⟨hacl,hid⟩ := fetch_spec hfetch
      obtain ⟨acl',hfetch',rfl⟩ := remove_ok hremove
      obtain rfl : acl=acl' := some.inj (hfetch.symm.trans hfetch')
      by_cases hi : i=acl.interface
      · rwa [hi]
      · rw [← hid] at hchanged
        exact absurd (closeGap_rowsOn hacl hi) hchanged
    | migrate r => cases hrequester
  next failure h =>
    exact absurd rfl hchanged

/-- A committed edit puts the ACL on the interface it names. -/
theorem mayMove_of_ownersOnly {r : EditRequest} (h : s.editAcl r=.ok s')
    (howners : OwnersOnly s (.edit r)) : MayMove s (.edit r) := by
  intro acl hacl hid i hi
  by_cases hsame : i=acl.interface
  · exact .inl hsame
  refine .inr (howners r.username rfl i ?_)
  rw [Store.step,Store.handle,h]
  obtain rfl := editAcl_of_mem hacl hid h
  have hmoved : r.model.write acl∈(edited s.acls acl r).rowsOn i := by
    refine mem_filter.mpr ⟨mem_edited hacl,?_⟩
    have hdest : (r.model.write acl).interface=r.interface.getD acl.interface := rfl
    rw [hdest,hi]
    simp
  intro heq
  rw [heq] at hmoved
  obtain ⟨hbefore,hplace⟩ := mem_filter.mp hmoved
  -- Before the edit the row of that id was the one of `acl`, on its interface.
  have hrow : r.model.write acl=acl := eq_of_id hbefore hacl rfl
  rw [hrow] at hplace
  exact hsame (beq_iff_eq.mp hplace).symm

/-- A run keeps to the owners exactly if every committed edit may move its ACL; a request that fails
needs nothing. -/
theorem ownersOnly_iff_mayMove (s : Store) (es : List Event) : StepsOk Store.step OwnersOnly s es ↔
    StepsOk Store.step (fun s e => ∀ s',s.handle e=.ok s' → MayMove s e) s es := by
  induction es generalizing s with
  | nil => exact .rfl
  | cons e es ih =>
    refine and_congr ⟨fun howners s' h => ?_,fun hmay => ?_⟩ (ih _)
    · cases e with
      | edit r => exact mayMove_of_ownersOnly h howners
      | _ => trivial
    · cases h : s.handle e with
      | ok s' => exact ownersOnly_of_mayMove (hmay s' h)
      | error failure =>
        intro _ _ i hchanged
        rw [Store.step,h] at hchanged
        exact absurd rfl hchanged

/-- Only authorised users change ACLs if edits name only interfaces of their users. -/
theorem acls_changed_by_owners (s : Store) (es : List Event)
    (hes : StepsOk Store.step MayMove s es) : StepsOk Store.step OwnersOnly s es :=
  stepsOk_of_step (P := fun _ => True) (fun _ _ _ he => ⟨trivial,ownersOnly_of_mayMove he⟩) trivial
    hes

/-- Two interfaces of different workgroups. -/
def neighbours : Store where
  directory := {
    users := [⟨1,"member",.active⟩]
    workgroups := [⟨1,.normal,.active⟩,⟨2,.normal,.active⟩]
    memberships := [⟨1,1,.normal⟩] }
  interfaces := [⟨1,some 1⟩,⟨2,some 2⟩]
  acls := noAcls

def allowAll (interface : Nat) : Event :=
  .create ⟨"member",none,none,interface,.allow,none,1,some 4094,none,true⟩

def moveTo (interface : Option Nat) : Event :=
  .edit ⟨"member",1,none,none,interface,.allow,10,1,some 4094,none,true⟩

theorem stayingEdit_byOwners :
    StepsOk Store.step OwnersOnly neighbours [allowAll 1,moveTo (some 1),allowAll 2] :=
  acls_changed_by_owners neighbours _ ⟨trivial,fun acl hacl _ i hi => Or.inl (by
      have hplace : ∀ acl∈(neighbours.step (allowAll 1)).acls.rows,acl.interface=1 := by
        decide +kernel
      rw [hplace acl hacl,some.inj hi]),trivial,trivial⟩

/-- An edit that moves an ACL opens another's interface to everyone. -/
theorem edit_reaches_foreign_interface :
    ¬StepsOk Store.step OwnersOnly neighbours [allowAll 1,moveTo (some 2)] := by
  intro h
  have hauth := h.2.1 "member" rfl 2 (by decide +kernel)
  rcases hauth with ⟨w,hw,haccess⟩ | haccess
  · obtain rfl : 2=w := some.inj hw
    exact absurd haccess (by decide +kernel)
  · exact absurd haccess (by decide +kernel)

end OESS.Acls
