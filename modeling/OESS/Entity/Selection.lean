import OESS.Acls.VlanValid
import OESS.Framework.Runs
import OESS.Provision.Interface

namespace OESS.Entity

open Provision (CloudType)
open Acls Runs List

structure Intf where
  id : Nat
  cloudInterconnectType : Option CloudType
  cloudInterconnectId : Option String
  vlans : VlanInterface

/-- An interface may be undef. -/
structure State where
  interfaces : List (Option Intf)
  reservations : List (Nat×Int)

structure CrossConnection where
  bandwidthInMbps : Int
  (primaryAzurePort secondaryAzurePort : String)

/-- A call, with the answers of the database, if there is one, and of Azure. -/
structure Call where
  tag : Int
  workgroup : Nat
  bandwidth : Int
  cloudAccountId : Option String
  endpoints : Option (Except String (List Nat))
  expressRouteCrossConnection : Option String → String → Except String CrossConnection
  fetchInterface : String → Option Nat

/-- What becomes of an interface: the loop goes on, ends with an error (`none` if the call dies), or
puts another in its place. -/
inductive Turn where
  | next
  | stop (error : Option String)
  | place (i : Option Intf)

def part (separator : String) (n : Nat) (text : String) : String :=
  ((text.splitOn separator)[n]?).getD ""

namespace Call

variable (c : Call)

/-- The choice of `AzureInterfaceSelector`. -/
def azureInterface (intfs : List Intf) (conn : CrossConnection) : Option Intf :=
  let azure := intfs.filter fun i => i.cloudInterconnectType=some .azureExpressRoute
  if (azure.getLast?.bind Intf.cloudInterconnectId).getD ""∈["","0"] then none
  else
    match c.endpoints with
    | some (.ok used) => do
      let ids := [conn.primaryAzurePort,conn.secondaryAzurePort].filterMap c.fetchInterface
      let id ← ids.find? fun id => id∉used
      azure.reverse.find? fun i => i.id=id
    | _ => none

def turn (all : List (Option Intf)) (i : Intf) : Turn :=
  match i.cloudInterconnectType,c.cloudAccountId with
  | some .gcpPartnerInterconnect,none => .stop (some "cloud_account_id not provided.")
  | some .gcpPartnerInterconnect,some key =>
    if part "-" 4 (i.cloudInterconnectId.getD "")≠"zone"++part "/" 2 key then .next
    else .place (some i)
  | some .azureExpressRoute,none => .stop (some "cloud_account_id not provided.")
  | some .azureExpressRoute,some key =>
    match c.expressRouteCrossConnection i.cloudInterconnectId key with
    | .error text => .stop (some text)
    | .ok conn =>
      if conn.bandwidthInMbps≠c.bandwidth then
        .stop (some ("Bandwidth set on Azure endpoint must match the bandwidth configured via "++
          "Azure Portal."))
      else
        match all.mapM id with
        | none => .stop none
        | some intfs => .place (c.azureInterface intfs conn)
  | _,_ => .place (some i)

def Free (reservations : List (Nat×Int)) (i : Intf) : Prop :=
  i.vlans.vlanValid c.workgroup c.tag=true∧(i.id,c.tag)∉reservations
  deriving Decidable

/-- The loop over the interfaces, whose variable is an alias of the list's element. -/
def scan (reservations : List (Nat×Int)) (seen : List (Option Intf)) :
    List (Option Intf) → State×Except (Option String) Intf
  | [] => (⟨seen,reservations⟩,.error (some "Unknown error occurred."))
  | none::rest => (⟨seen++none::rest,reservations⟩,.error none)
  | some i::rest =>
    match c.turn (seen++some i::rest) i with
    | .next => scan reservations (seen++[some i]) rest
    | .stop error => (⟨seen++some i::rest,reservations⟩,.error error)
    | .place none => (⟨seen++none::rest,reservations⟩,
        .error (some "Couldn't find an available interface for azure connection."))
    | .place (some j) =>
      if c.Free reservations j then
        (⟨seen++some j::rest,reservations++[(j.id,c.tag)]⟩,.ok j)
      else scan reservations (seen++[some j]) rest

def refusal : Option String :=
  match c.cloudAccountId,c.endpoints with
  | some key,some (.error text) => if key="" then none else some text
  | _,_ => none

/-- An interface that the loop comes to and looks up again is found in its place. -/
def Keeps (reservations : List (Nat×Int)) (all : List (Option Intf)) : List (Option Intf) → Prop
  | [] | none::_ => True
  | some i::rest =>
    match c.turn all i with
    | .next => Keeps reservations all rest
    | .stop _ => True
    | .place j => j=some i∧(c.Free reservations i∨Keeps reservations all rest)

end Call

variable (s : State)

def selectInterface (c : Call) : State×Except (Option String) Intf :=
  match c.refusal with
  | some text => (s,.error (some text))
  | none => c.scan s.reservations [] s.interfaces

def step (c : Call) : State := (selectInterface s c).1

def returned : State → List Call → List (Intf×Call)
  | _,[] => []
  | s,c::cs =>
    match (selectInterface s c).2 with
    | .ok i => (i,c)::returned (step s c) cs
    | .error _ => returned (step s c) cs

/-- The calls never select an interface twice for one tag, select only what accepts it, and keep the
list. -/
def Selects (cs : List Call) : Prop :=
  ((returned s cs).map fun x => (x.1.id,x.2.tag)).Nodup∧
    (∀ x∈returned s cs,x.1.vlans.vlanValid x.2.workgroup x.2.tag=true)∧
    StepsOk step (fun s c => (step s c).interfaces=s.interfaces) s cs

def Reserves (c : Call) (reservations : List (Nat×Int))
    (y : State×Except (Option String) Intf) : Prop :=
  match y.2 with
  | .ok i => c.Free reservations i∧y.1.reservations=reservations++[(i.id,c.tag)]
  | .error _ => y.1.reservations=reservations

section

variable (c : Call) (reservations : List (Nat×Int)) (seen rest : List (Option Intf))

theorem scan_reserves : Reserves c reservations (c.scan reservations seen rest) := by
  fun_induction Call.scan c reservations seen rest with
  | case1 | case2 | case4 | case5 => rfl
  | case3 _ _ _ _ ih | case7 _ _ _ _ _ _ ih => exact ih
  | case6 _ _ _ _ _ hfree => exact ⟨hfree,rfl⟩

theorem scan_seen : ∃ l,(c.scan reservations seen rest).1.interfaces=seen++l := by
  fun_induction Call.scan c reservations seen rest with
  | case1 => exact ⟨[],(append_nil _).symm⟩
  | case2 | case4 | case5 | case6 => exact ⟨_,rfl⟩
  | case3 _ _ _ _ ih | case7 _ _ _ _ _ _ ih =>
    obtain ⟨l,hl⟩ := ih
    exact ⟨_,hl.trans (append_assoc ..)⟩

theorem scan_same_iff : (c.scan reservations seen rest).1.interfaces=seen++rest ↔
    c.Keeps reservations (seen++rest) rest := by
  fun_induction Call.scan c reservations seen rest with
  | case1 | case2 => simp [Call.Keeps]
  | case3 seen i rest hturn ih => simpa [Call.Keeps,hturn] using ih
  | case4 _ _ _ _ hturn | case5 _ _ _ hturn => simp [Call.Keeps,hturn]
  | case6 _ _ _ _ hturn hfree =>
    simp only [Call.Keeps,hturn,append_cancel_left_eq,cons.injEq,and_true]
    exact ⟨fun h => ⟨h,.inl (Option.some.inj h ▸ hfree)⟩,And.left⟩
  | case7 seen i rest j hturn hfree ih =>
    by_cases hj : j=i
    · subst hj
      simpa [Call.Keeps,hturn,hfree] using ih
    · obtain ⟨l,hl⟩ := scan_seen c reservations (seen++[some j]) rest
      simp [Call.Keeps,hturn,hl,hj]

end

theorem returned_distinct (cs : List Call) : ((returned s cs).map fun x => (x.1.id,x.2.tag)).Nodup∧
      ∀ x∈returned s cs,x.2.Free s.reservations x.1 := by
  induction cs generalizing s with
  | nil => simp [returned]
  | cons c cs ih =>
    obtain ⟨hnodup,hfree⟩ := ih (step s c)
    have hreserves : Reserves c s.reservations (selectInterface s c) := by
      unfold selectInterface
      split
      · rfl
      · exact scan_reserves ..
    unfold Reserves at hreserves
    unfold returned
    split at hreserves
    next i hr =>
      rw [step,hreserves.2] at hfree
      have hother (x : Intf×Call) (hx : x∈returned (step s c) cs) :
          (x.1.id,x.2.tag)≠(i.id,c.tag)∧x.2.Free s.reservations x.1 := by
        have h := hfree x hx
        simp only [Call.Free,mem_append,mem_singleton,not_or] at h
        exact ⟨h.2.2,h.1,h.2.1⟩
      simp only [map_cons,nodup_cons,mem_map,forall_mem_cons]
      refine ⟨⟨?_,hnodup⟩,hreserves.1,fun x hx => (hother x hx).2⟩
      rintro ⟨x,hx,heq⟩
      exact (hother x hx).1 heq
    next e hr =>
      exact ⟨hnodup,hreserves ▸ hfree⟩

def port (id : Nat) : Option Intf := some ⟨id,some .azureExpressRoute,some "az",
    ⟨[⟨1,none,id,.allow,10,100,none,none,none⟩],[],[(⟨0,100⟩,⟨0,100⟩)]⟩⟩

end OESS.Entity
