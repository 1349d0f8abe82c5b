import Mathlib.Algebra.Group.Nat.Defs
import Mathlib.Data.List.Basic
import Mathlib.Logic.Function.Basic

namespace OESS.Cloud

open List Function

inductive Version where
  | ipv4 | ipv6
  deriving DecidableEq

def Version.width : Version → Nat
  | ipv4 => 32
  | ipv6 => 128

/-- A `Net::IP` prefix: its first address has no host bit. -/
structure Network where
  (first hostBits : Nat)
  aligned : 2^hostBits∣first

namespace Network

/-- The address after `last_ip`. -/
def behind (p : Network) : Nat := p.first+2^p.hostBits

def Overlaps (p q : Network) : Prop := p.first<q.behind∧q.first<p.behind

def nextPrefix (p : Network) : Network :=
  ⟨p.behind,p.hostBits,Nat.dvd_add p.aligned (Nat.dvd_refl _)⟩

def prefixFromAddress (v : Version) (address length : Nat) : Network :=
  ⟨address/2^(v.width-length)*2^(v.width-length),v.width-length,Nat.dvd_mul_left _ _⟩

end Network

/-- `key`: the account with the port of the Azure interconnect (`AzurePeeringConfig`) or with the
interface (`PeeringConfig`). -/
structure Peering (κ : Type) where
  version : Version
  key : κ
  net : Network

/-- The newest entry of `prefixes` for a key stands first. -/
structure PeeringConfig (κ : Type) where
  prefixes : List (Peering κ)
  next : Version → Network

namespace PeeringConfig

variable {κ : Type}

def new (address : Version → Nat) : PeeringConfig κ :=
  ⟨[],fun v => .prefixFromAddress v (address v) (v.width-2)⟩

def put (c : PeeringConfig κ) (p : Peering κ) (next : Network) : PeeringConfig κ :=
  ⟨p::c.prefixes,update c.next p.version next⟩

/-- Loads the peers with the prefixes of their local addresses. -/
def load (c : PeeringConfig κ) : List (Peering κ) → PeeringConfig κ
  | [] => c
  | p::ps => load (c.put p (if (c.next p.version).first≤p.net.first then p.net.nextPrefix
      else (c.next p.version).nextPrefix)) ps

variable {c : PeeringConfig κ} {v : Version} {key : κ} {p : Peering κ}

/-- What was loaded or handed out lies below the next prefix. -/
structure Clear (start : Version → Nat) (c : PeeringConfig κ) : Prop where
  small : ∀ v,(c.next v).hostBits=2
  start : ∀ v,start v≤(c.next v).first
  below : ∀ p∈c.prefixes,p.net.behind≤(c.next p.version).first

variable {start : Version → Nat}

theorem Clear.put (h : Clear start c) {next : Network} (hsmall : next.hostBits=2)
    (hp : p.net.behind≤next.first) (hnext : (c.next p.version).first≤next.first) :
    Clear start (c.put p next) := by
  have hgrow (w : Version) : (c.next w).first≤(update c.next p.version next w).first := by
    rw [update_apply]
    split_ifs with hw
    · rwa [hw]
    · exact Nat.le_refl _
  refine ⟨fun w => ?_,fun w => Nat.le_trans (h.start w) (hgrow w),forall_mem_cons.mpr ⟨?_,?_⟩⟩
  · simp only [PeeringConfig.put,update_apply]
    split_ifs
    · exact hsmall
    · exact h.small w
  · simpa [PeeringConfig.put] using hp
  · intro q hq
    exact Nat.le_trans (h.below q hq) (hgrow q.version)

theorem Clear.load {ps : List (Peering κ)} (h : Clear start c)
    (hps : ∀ p∈ps,p.net.hostBits=2∨p.net.behind≤ start p.version) :
    Clear start (c.load ps)∧c.prefixes⊆(c.load ps).prefixes∧ps⊆(c.load ps).prefixes := by
  induction ps generalizing c with
  | nil => exact ⟨h,Subset.refl _,nil_subset _⟩
  | cons p ps ih =>
    obtain ⟨hp,hps⟩ := forall_mem_cons.mp hps
    have hstart := h.start p.version
    have hnext : (c.next p.version).behind=(c.next p.version).first+4 := by
      simp [Network.behind,h.small]
    have hpos : p.net.first<p.net.behind := Nat.lt_add_of_pos_right (Nat.two_pow_pos _)
    have hput : Clear start (c.put p (if (c.next p.version).first≤p.net.first then p.net.nextPrefix
        else (c.next p.version).nextPrefix)) := by
      split_ifs with hge
      · -- what ends below the start is below the next prefix
        exact h.put (hp.resolve_right (by omega)) (Nat.le_refl _) (Nat.le_trans hge (Nat.le_of_lt hpos))
      refine h.put (h.small _) ?_ (Nat.le_add_right _ _)
      change p.net.behind≤(c.next p.version).behind
      rcases hp with hp | hp
      · rw [Network.behind,hp]
        omega
      · omega
    obtain ⟨hclear,hkept,hloaded⟩ := ih hput hps
    exact ⟨hclear,fun q hq => hkept (mem_cons_of_mem p hq),
      cons_subset.mpr ⟨hkept mem_cons_self,hloaded⟩⟩

variable [DecidableEq κ]

def stored (c : PeeringConfig κ) (v : Version) (key : κ) : Option (Peering κ) :=
  c.prefixes.find? fun p => p.version=v∧p.key=key

/-- The prefix handed out by `prefix`, `primary_prefix` and `secondary_prefix`. -/
def request (c : PeeringConfig κ) (v : Version) (key : κ) : Peering κ×PeeringConfig κ :=
  match c.stored v key with
  | some p => (p,c)
  | none => (⟨v,key,c.next v⟩,c.put ⟨v,key,c.next v⟩ (c.next v).nextPrefix)

def serve (c : PeeringConfig κ) : List (Version×κ) → List (Peering κ)×PeeringConfig κ
  | [] => ([],c)
  | (v,key)::rs =>
    let r := c.request v key
    let s := serve r.2 rs
    (r.1::s.1,s.2)

theorem Clear.request (h : Clear start c) (v : Version) (key : κ) : Clear start (c.request v key).2∧
    c.prefixes⊆(c.request v key).2.prefixes∧(c.request v key).1∈(c.request v key).2.prefixes := by
  unfold PeeringConfig.request
  split
  · next p hp => exact ⟨h,Subset.refl _,mem_of_find?_eq_some hp⟩
  · exact ⟨h.put (h.small v) (Nat.le_refl _) (Nat.le_add_right _ _),subset_cons_self ..,mem_cons_self⟩

theorem Clear.serve (h : Clear start c) (rs : List (Version×κ)) : Clear start (c.serve rs).2∧
    c.prefixes⊆(c.serve rs).2.prefixes∧(c.serve rs).1⊆(c.serve rs).2.prefixes := by
  induction rs generalizing c with
  | nil => exact ⟨h,Subset.refl _,nil_subset _⟩
  | cons r rs ih =>
    obtain ⟨hr,hkept,hmem⟩ := h.request r.1 r.2
    obtain ⟨hs,hkept',hall⟩ := ih hr
    exact ⟨hs,List.Subset.trans hkept hkept',cons_subset.mpr ⟨hkept' hmem,hall⟩⟩

theorem request_of_stored (h : c.stored v key=some p) : (c.request v key).1=p := by rw [request,h]

theorem stored_request : (c.request v key).2.stored v key=some (c.request v key).1 := by
  unfold request
  split
  · assumption
  · simp [stored,put]

theorem stored_serve (h : c.stored v key=some p) (rs : List (Version×κ)) :
    (c.serve rs).2.stored v key=some p := by
  induction rs generalizing c with
  | nil => exact h
  | cons r rs ih =>
    refine ih ?_
    unfold request
    split
    · exact h
    next hnone =>
    have hne : ¬(r.1=v∧r.2=key) := by
      intro ⟨hv,hkey⟩
      rw [hv,hkey,h] at hnone
      cases hnone
    exact (find?_cons_of_neg (by simpa using hne)).trans h

/-- A new key gets a free prefix of the small length, and a key that asks again the same. -/
def Fresh (address : Version → Nat) (ps : List (Peering κ)) (before after : List (Version×κ))
    (v : Version) (key : κ) : Prop :=
  let s := ((new address).load ps).serve before
  let r := s.2.request v key
  ((r.2.serve after).2.request v key).1=r.1∧(s.2.stored v key=none →
    v.width-r.1.net.hostBits=v.width-2∧∀ p∈ps++s.1,p.version=v → ¬r.1.net.Overlaps p.net)

/-- A request gets a fresh prefix if what is loaded has the small length or ends below the first
prefix. -/
theorem request_fresh (address : Version → Nat) (ps : List (Peering κ))
    (before after : List (Version×κ)) (v : Version) (key : κ) (h : ∀ p∈ps,p.net.hostBits=2∨
      p.net.behind≤((new address : PeeringConfig κ).next p.version).first) :
    Fresh address ps before after v key := by
  have hnew : Clear _ (new address : PeeringConfig κ) :=
    ⟨fun v => by cases v <;> rfl,fun _ => Nat.le_refl _,fun _ hp => by cases hp⟩
  obtain ⟨hload,-,hps⟩ := hnew.load h
  obtain ⟨hs,hkept,hserved⟩ := hload.serve before
  constructor
  · exact request_of_stored (stored_serve stored_request after)
  · intro hnone
    rw [request,hnone,hs.small]
    refine ⟨rfl,fun p hp hv hover => ?_⟩
    have hmem := (mem_append.mp hp).elim (fun hp => hkept (hps hp)) fun hp => hserved hp
    have hbelow := hs.below p hmem
    rw [hv] at hbelow
    exact absurd hover.1 (Nat.not_lt.mpr hbelow)

/-- 192.168.100.250 and 3FFE:FFFF:0:CD30::2. -/
def azure : Version → Nat
  | .ipv4 => 0xC0A864FA
  | .ipv6 => 0x3FFEFFFF0000CD300000000000000002

/-- 192.168.101.0. -/
def loaded (length : Nat) : Peering Nat := ⟨.ipv4,1,.prefixFromAddress .ipv4 0xC0A86500 length⟩

theorem loaded_small_fresh : Fresh azure [loaded 30] [(.ipv4,3)] [] .ipv4 2 :=
  request_fresh azure [loaded 30] _ [] .ipv4 2 (by decide)

/-- The length of a larger prefix is taken over, or it contains the next prefix. -/
theorem loaded_large_not_fresh : ¬Fresh azure [loaded 24] [] [] .ipv4 2∧
    ¬Fresh azure [loaded 16] [] [] .ipv4 2 := by
  constructor
  · intro h
    exact absurd (h.2 rfl).1 (by decide)
  · intro h
    exact (h.2 rfl).2 (loaded 16) mem_cons_self rfl ⟨by decide,by decide⟩

end PeeringConfig

end OESS.Cloud
