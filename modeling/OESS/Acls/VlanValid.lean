import OESS.Acls.Table

namespace OESS.Acls

open List

/-- A number and the zeros in front of it. -/
structure Numeral where
  (zeros value : Nat)
  deriving DecidableEq

/-- Between two commas of a range's text, without blanks. -/
inductive TagText where
  | range (start stop : Numeral)
  | blank
  | other

def rangeHelp : String := "Input must be a comma separated list of VLAN ranges. Ex 1-4095"

/-- Accepted ranges are stored as they were written. -/
def validateVlanTagRange : List TagText → Except String (List (Numeral×Numeral))
  | [] => .ok []
  | .blank::ts => validateVlanTagRange ts
  | .other::_ => .error rangeHelp
  | .range start stop::ts =>
    if start.value<1∨start.value>4095∨stop.value<1∨stop.value>4095∨start.value>stop.value then
      .error rangeHelp
    else do
      let ranges ← validateVlanTagRange ts
      return (start,stop)::ranges

/-- The keys that `_process_mpls_vlan_tag` adds for a range: the text of its start, then numbers. -/
def rangeKeys (r : Numeral×Numeral) : List Numeral :=
  if r.1.value≤r.2.value then
    r.1::(List.range' (r.1.value+1) (r.2.value-r.1.value)).map (⟨0,·⟩)
  else []

structure VlanInterface where
  acls : List Acl
  usedVlans : List Int
  mplsVlanTagRange : List (Numeral×Numeral)

variable (i : VlanInterface)

def VlanInterface.vlanInUse (vlan : Int) : Bool := i.usedVlans.contains vlan

def VlanInterface.mplsRange : List Numeral := i.mplsVlanTagRange.flatMap rangeKeys

def VlanInterface.vlanValid (workgroup : Nat) (vlan : Int) : Bool :=
  if vlan<1∨vlan>4095 then false
  else if i.vlanInUse vlan then false
  else if aclsAllow i.acls workgroup vlan=false then false
  else i.mplsRange.contains ⟨0,vlan.toNat⟩

/-- The ACL is for the workgroup and covers the VLAN. -/
def Acl.Applies (workgroup : Nat) (vlan : Int) (a : Acl) : Prop :=
  (∀ w∈a.workgroup,w=workgroup)∧a.vlanStart≤vlan∧vlan≤a.vlanEnd.getD a.vlanStart
  deriving Decidable

theorem vlanAllowed_eq (a : Acl) (workgroup : Nat) (vlan : Int) : a.vlanAllowed workgroup vlan=
      if a.Applies workgroup vlan then some (a.allowDeny==.allow) else none := by
  have hworkgroup : a.workgroup.any (· != workgroup)=true ↔ ¬∀ w∈a.workgroup,w=workgroup := by
    cases a.workgroup <;> simp
  unfold Acl.vlanAllowed Acl.Applies
  grind

theorem aclsAllow_iff (acls : List Acl) (workgroup : Nat) (vlan : Int) :
    aclsAllow acls workgroup vlan=true ↔
      ∃ a,acls.find? (·.Applies workgroup vlan)=some a∧a.allowDeny=.allow := by
  unfold aclsAllow
  induction acls with
  | nil => simp
  | cons a acls ih =>
    by_cases h : a.Applies workgroup vlan
    · simp [vlanAllowed_eq,h]
    · simp only [findSome?_cons,find?_cons,vlanAllowed_eq,h,if_false,decide_false]
      simpa only [vlanAllowed_eq] using ih

def Covers (vlan : Int) (r : Numeral×Numeral) : Prop := r.1.value≤vlan∧vlan≤r.2.value

theorem mem_rangeKeys {r : Numeral×Numeral} {vlan : Int} (hpos : 1≤vlan) :
    ⟨0,vlan.toNat⟩∈rangeKeys r ↔ Covers vlan r∧(r.1.value<vlan∨r.1.zeros=0) := by
  obtain ⟨⟨zeros,start⟩,stop⟩ := r
  unfold rangeKeys Covers
  split_ifs with h
  · simp only [mem_cons,Numeral.mk.injEq,mem_map,mem_range'_1,true_and, exists_eq_right]
    change start≤ stop.value at h
    omega
  · grind

/-- What the check of a VLAN is for. -/
structure VlanInterface.Valid (i : VlanInterface) (workgroup : Nat) (vlan : Int) : Prop where
  tag : 1≤vlan∧vlan≤4095
  unused : vlan∉i.usedVlans
  allowed : ∃ a,i.acls.find? (·.Applies workgroup vlan)=some a∧a.allowDeny=.allow
  inRange : ∃ r∈i.mplsVlanTagRange,Covers vlan r

/-- The check is right exactly if a valid VLAN is among the keys: the key of a start with leading
zeros is its text. -/
theorem vlanValid_iff (i : VlanInterface) (workgroup : Nat) (vlan : Int) :
    (i.vlanValid workgroup vlan=true ↔ i.Valid workgroup vlan) ↔
      (i.Valid workgroup vlan → ∃ r∈i.mplsVlanTagRange,
        Covers vlan r∧(r.1.value<vlan∨r.1.zeros=0)) := by
  have hvalid : i.vlanValid workgroup vlan=true ↔ i.Valid workgroup vlan∧
      ∃ r∈i.mplsVlanTagRange,Covers vlan r∧(r.1.value<vlan∨r.1.zeros=0) := by
    unfold VlanInterface.vlanValid VlanInterface.vlanInUse VlanInterface.mplsRange
    split_ifs with htag hused hacl
    · exact iff_of_false (by simp) fun h => absurd h.1.tag (by omega)
    · exact iff_of_false (by simp) fun h => h.1.unused (by simpa using hused)
    · have hallowed := aclsAllow_iff i.acls workgroup vlan
      exact iff_of_false (by simp) fun h => absurd (hallowed.mpr h.1.allowed) (by simp [hacl])
    · have hpos : 1≤vlan := by omega
      simp only [contains_iff_mem,mem_flatMap,mem_rangeKeys hpos]
      refine ⟨fun h => ⟨⟨by omega,by simpa using hused,?_,?_⟩,h⟩,And.right⟩
      · exact (aclsAllow_iff _ _ _).mp (by simpa using hacl)
      · obtain ⟨r,hr,hcovers,-⟩ := h
        exact ⟨r,hr,hcovers⟩
  rw [hvalid]
  exact and_iff_left_iff_imp

def paddedInterface : VlanInterface where
  acls := [⟨1,none,1,.allow,10,1,some 4095,none,none⟩]
  usedVlans := []
  mplsVlanTagRange := [(⟨2,1⟩,⟨0,20⟩)]

/-- 001-20 is accepted, but VLAN 1 is not valid in it. -/
theorem vlanValid_padded :
    (validateVlanTagRange [.range ⟨2,1⟩ ⟨0,20⟩]).toOption=some paddedInterface.mplsVlanTagRange∧
      paddedInterface.vlanValid 5 1=false∧paddedInterface.Valid 5 1 := by
  refine ⟨by decide,by decide,by decide,by decide,⟨_,rfl,rfl⟩,_,mem_singleton_self _,?_⟩
  exact ⟨by decide,by decide⟩
end OESS.Acls
