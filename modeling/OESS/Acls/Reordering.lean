import OESS.Acls.Table
import OESS.Framework.Loops

namespace OESS.Acls

open Ranking List Function

-- the ACLs of an interface, and the one that moves to a position
variable (rows : List Acl) (acl : Acl) (position : Int)

def Held : Prop := ∃ a∈rows,a.id≠acl.id∧a.evalPosition=position
  deriving Decidable

/-- `acl` is put before or after the one at the position. -/
def pushed (a : Acl) : List Acl :=
  (if position<acl.evalPosition∧a.evalPosition=position then [acl] else [])++[a]++
    if ¬position<acl.evalPosition∧a.evalPosition=position then [acl] else []

def allIntAcls : List Acl :=
  ((rank Acl.evalPosition rows).filter (·.id≠acl.id)).flatMap (pushed acl position)

def renumber (rows : List Acl) (eval : Int) : List Nat → List Acl
  | [] => rows
  | x::xs =>
    renumber (rows.map fun a => if a.id=x then {a with evalPosition := eval} else a) (eval+10) xs

/-- The interface is not written. -/
def written (r a : Acl) : Acl :=
  if a.id=r.id then {r with id := a.id,interface := a.interface} else a

/-- `check`: the user may edit the ACL, and the interface has the VLANs. -/
def updateAcl (check : Acl → Except String Unit) (r : Acl) : Except String (List Acl) :=
  match rows.find? fun a => a.id==r.id with
  | none => .error "There is no interface with id: "
  | some acl => do
    check acl
    pure (if acl.evalPosition≠r.evalPosition∧Held rows acl r.evalPosition then
      renumber (rows.map (written r)) 10 ((allIntAcls rows acl r.evalPosition).map Acl.id)
    else rows.map (written r))

/-- The others stay, and `acl` goes next to the one at the position. -/
def place (a : Acl) : Int :=
  if a.id≠acl.id then 2*a.evalPosition
  else if ¬Held rows acl position then 2*position
  else if position<acl.evalPosition then 2*position-1 else 2*position+1

/-- `f` gives them positions in the order of their places. -/
structure Placed (f : Acl → Acl) : Prop where
  distinct : ∀ a∈rows,∀ b∈rows,(f a).evalPosition=(f b).evalPosition → a=b
  order : ∀ a∈rows,∀ b∈rows,place rows acl position a<place rows acl position b →
    (f a).evalPosition<(f b).evalPosition
  free : ¬Held rows acl position → (f acl).evalPosition=position

variable {rows acl position} {a : Acl} {f : Acl → Acl}

theorem mem_pushed {u : Acl} : u∈pushed acl position a ↔ u=a∨u=acl∧a.evalPosition=position := by
  by_cases hp : a.evalPosition=position
  · by_cases hl : position<acl.evalPosition <;> simp [pushed,hp,hl,or_comm]
  · simp [pushed,hp]

theorem mem_allIntAcls {u : Acl} : u∈allIntAcls rows acl position ↔
    u∈rows∧u.id≠acl.id∨u=acl∧Held rows acl position := by
  simp only [allIntAcls,mem_flatMap,mem_filter,mem_rank,decide_eq_true_eq,Held,mem_pushed]
  grind

theorem allIntAcls_sorted (hrows : (rows.map Acl.evalPosition).Nodup) (h : Held rows acl position) :
    (allIntAcls rows acl position).Pairwise
      fun a b => place rows acl position a<place rows acl position b := by
  have hother {a : Acl} (ha : a∈(rank Acl.evalPosition rows).filter (·.id≠acl.id)) :
      place rows acl position a=2*a.evalPosition := if_pos (by simpa using (mem_filter.mp ha).2)
  have hacl : place rows acl position acl=
      if position<acl.evalPosition then 2*position-1 else 2*position+1 := by
    simp [place,h]
  rw [allIntAcls,pairwise_flatMap]
  constructor
  · intro a ha
    unfold pushed
    split_ifs <;> simp [hother ha,hacl] <;> omega
  · refine ((rank_strict hrows).filter _).imp_of_mem ?_
    intro a b ha hb hab u hu v hv
    obtain rfl | ⟨rfl,hu⟩ := mem_pushed.mp hu <;> obtain rfl | ⟨rfl,hv⟩ := mem_pushed.mp hv <;>
      simp only [hother ha,hother hb,hacl] <;> omega

theorem renumber_eq (rows : List Acl) {order : List Nat} (h : order.Nodup) (eval : Int) :
    ∃ p : Nat → Int,order.Pairwise (fun j k => p j<p k)∧(∀ k∈order,eval≤p k)∧
      renumber rows eval order=
        rows.map fun a => if a.id∈order then {a with evalPosition := p a.id} else a := by
  induction order generalizing rows eval with
  | nil => exact ⟨fun _ => 0,.nil,by simp,by simp [renumber]⟩
  | cons x xs ih =>
    obtain ⟨hx,hxs⟩ := nodup_cons.mp h
    obtain ⟨p,hp,hle,hrows⟩ := ih _ hxs (eval+10)
    have hkept (k : Nat) (hk : k∈xs) : update p x eval k=p k := by
      apply update_of_ne
      intro hkx
      exact hx (hkx ▸ hk)
    refine ⟨update p x eval,pairwise_cons.mpr ⟨?_,?_⟩,forall_mem_cons.mpr ⟨by simp,?_⟩,?_⟩
    · intro k hk
      rw [update_self,hkept k hk]
      exact Int.lt_of_lt_of_le (by omega) (hle k hk)
    · refine hp.imp_of_mem fun hj hk hjk => ?_
      rwa [hkept _ hj,hkept _ hk]
    · intro k hk
      rw [hkept k hk]
      exact Int.le_trans (by omega) (hle k hk)
    · rw [renumber,hrows,map_map]
      apply map_congr_left
      intro a _
      by_cases ha : a.id=x
      · simp [ha,hx]
      · simp [ha]

section

variable (hids : (rows.map Acl.id).Nodup) (hrows : (rows.map Acl.evalPosition).Nodup)
  (hacl : acl∈rows)
include hids hrows hacl

theorem placed_of_pairwise (h : Held rows acl position)
    (hf : (allIntAcls rows acl position).Pairwise
      fun a b => (f a).evalPosition<(f b).evalPosition) : Placed rows acl position f := by
  have hmem {a : Acl} (ha : a∈rows) : a∈allIntAcls rows acl position := by
    rw [mem_allIntAcls]
    by_cases hid : a.id=acl.id
    · exact .inr ⟨inj_on_of_nodup_map hids ha hacl hid,h⟩
    · exact .inl ⟨ha,hid⟩
  have hinj : ((allIntAcls rows acl position).map fun a => (f a).evalPosition).Nodup :=
    pairwise_map.mpr (hf.imp ne_of_lt)
  exact ⟨fun a ha b hb => inj_on_of_nodup_map hinj (hmem ha) (hmem hb),
    fun a ha b hb => lt_of_pairwise (allIntAcls_sorted hrows h) hf (hmem ha) (hmem hb),
    fun hfree => absurd h hfree⟩

theorem allIntAcls_ids (h : Held rows acl position) :
    ((allIntAcls rows acl position).map Acl.id).Nodup := by
  have hmem {a : Acl} (ha : a∈allIntAcls rows acl position) : a∈rows :=
    (mem_allIntAcls.mp ha).elim And.left fun h => h.1 ▸ hacl
  refine pairwise_map.mpr ((allIntAcls_sorted hrows h).imp_of_mem fun ha hb hlt hab => ?_)
  rw [inj_on_of_nodup_map hids (hmem ha) (hmem hb) hab] at hlt
  exact lt_irrefl _ hlt

end

/-- A successful move leaves distinct positions, in the order asked for. -/
theorem updateAcl_placed {check : Acl → Except String Unit} {r : Acl} {rows' : List Acl}
    (hids : (rows.map Acl.id).Nodup) (hrows : (rows.map Acl.evalPosition).Nodup)
    (hfind : (rows.find? (·.id==r.id))=some acl) (hnew : acl.evalPosition≠r.evalPosition)
    (h : updateAcl rows check r=.ok rows') :
    ∃ f,rows'=rows.map f∧(∀ a,(f a).id=a.id)∧Placed rows acl r.evalPosition f := by
  have hacl := mem_of_find?_eq_some hfind
  have hid : acl.id=r.id := by simpa using find?_some hfind
  have hwritten (a : Acl) : (written r a).id=a.id∧(written r a).evalPosition=
      if a.id=acl.id then r.evalPosition else a.evalPosition := by
    rw [written,hid]
    split_ifs <;> exact ⟨rfl,rfl⟩
  rw [updateAcl,hfind] at h
  obtain ⟨_,_,h⟩ := Loops.bind_eq_ok h
  cases h
  by_cases hheld : Held rows acl r.evalPosition
  · rw [if_pos ⟨hnew,hheld⟩]
    obtain ⟨p,hp,-,heq⟩ :=
      renumber_eq (rows.map (written r)) (allIntAcls_ids hids hrows hacl hheld) 10
    refine ⟨_,heq.trans (map_map ..),?_,placed_of_pairwise hids hrows hacl hheld ?_⟩
    · intro a
      rw [comp_apply]
      split_ifs <;> exact (hwritten a).1
    · rw [pairwise_map] at hp
      refine hp.imp_of_mem fun ha hb hab => ?_
      simpa only [comp_apply,(hwritten _).1,mem_map_of_mem ha,mem_map_of_mem hb,if_true] using hab
  · rw [if_neg fun h => hheld h.2]
    refine ⟨written r,rfl,fun a => (hwritten a).1,?_,?_,fun _ => by simp [hwritten]⟩
    · intro a ha b hb hab
      rw [(hwritten a).2,(hwritten b).2] at hab
      split_ifs at hab with hax hbx hbx
      · exact inj_on_of_nodup_map hids ha hb (hax.trans hbx.symm)
      · exact absurd ⟨b,hb,hbx,hab.symm⟩ hheld
      · exact absurd ⟨a,ha,hax,hab⟩ hheld
      · exact inj_on_of_nodup_map hrows ha hb hab
    · intro a ha b hb hab
      rw [(hwritten a).2,(hwritten b).2]
      simp only [place,hheld,not_false_eq_true,if_true] at hab
      omega

def aclAt (id : Nat) (position : Int) : Acl := ⟨id,none,1,.allow,position,1,none,none,none⟩

/-- The first goes behind the second. -/
theorem updateAcl_behind : ∃ f,[aclAt 1 20,aclAt 2 10]=[aclAt 1 10,aclAt 2 25].map f∧
    (∀ a,(f a).id=a.id)∧Placed [aclAt 1 10,aclAt 2 25] (aclAt 1 10) 25 f :=
  updateAcl_placed (by decide) (by decide) rfl (by decide)
    (show updateAcl [aclAt 1 10,aclAt 2 25] (fun _ => .ok ()) (aclAt 1 25)=.ok _ by decide)

end OESS.Acls
