import Mathlib.Data.List.Basic
import Mathlib.Tactic.Common

namespace OESS.Vlans

open List Option

def maxVlanTag : Int := 4096

def minVlanTag : Int := 1

def untagged : Int := -1

/-- Between two commas: two numbers, one, or neither. -/
inductive RangeElement where
  | span (start stop : Nat)
  | tag (n : Int)
  | other
  deriving DecidableEq

def RangeElement.tags : RangeElement → Option (List Int)
  | .span start stop =>
    if ((start : Int) < minVlanTag∧(start : Int)≠untagged)∨(stop : Int) > maxVlanTag then none
    else some ((List.range' start (stop+1-start)).map Int.ofNat)
  | .tag n => if (n < minVlanTag∧n≠untagged)∨n > maxVlanTag then none else some [n]
  | .other => none

/-- It gives up at the first element it cannot take. -/
def collectTags : List RangeElement → Option (List Int)
  | [] => some []
  | e::es => do
    let ts ← e.tags
    let rest ← collectTags es
    return ts++rest

/-- `_process_tag_string`; the range -1 alone is empty. -/
def processTagString (string : List RangeElement) : Option (List Int) :=
  if string=[.tag untagged] then some [] else collectTags string

variable {ts : List Int}

theorem tags_le {e : RangeElement} (h : e.tags=some ts) : ∀ t∈ts,t ≤ maxVlanTag := by
  cases e with
  | span start stop =>
    rw [RangeElement.tags,ite_none_left_eq_some] at h
    obtain ⟨hbound,h⟩ := h
    cases h
    intro t ht
    obtain ⟨n,hn,rfl⟩ := mem_map.mp ht
    obtain ⟨i,hi,rfl⟩ := mem_range'.mp hn
    have hstop : (stop : Int) ≤ maxVlanTag := Int.not_lt.mp fun hlt => hbound (.inr hlt)
    have hle : start+1*i ≤ stop := by omega
    exact Int.le_trans (Int.ofNat_le.mpr hle) hstop
  | tag n =>
    rw [RangeElement.tags,ite_none_left_eq_some] at h
    obtain ⟨hbound,h⟩ := h
    cases h
    intro t ht
    rw [mem_singleton.mp ht]
    exact Int.not_lt.mp fun hlt => hbound (.inr hlt)
  | other => cases h

theorem collectTags_le {es : List RangeElement} (h : collectTags es=some ts) :
    ∀ t∈ts,t ≤ maxVlanTag := by
  induction es generalizing ts with
  | nil =>
    cases h
    intro t ht
    cases ht
  | cons e es ih =>
    obtain ⟨first,hfirst,h⟩ := bind_eq_some_iff.mp h
    obtain ⟨rest,hrest,h⟩ := bind_eq_some_iff.mp h
    cases h
    intro t ht
    rcases mem_append.mp ht with ht | ht
    · exact tags_le hfirst t ht
    · exact ih hrest t ht

theorem processTagString_le {string : List RangeElement} (h : processTagString string=some ts) :
    ∀ t∈ts,t ≤ maxVlanTag := by
  unfold processTagString at h
  split_ifs at h
  · cases h
    intro t ht
    cases ht
  · exact collectTags_le h

/-- Interfaces of the live instantiation. -/
structure Link where
  ends : Option (Nat×Nat)
  nodesLive : Bool

/-- Links, the nodes of interfaces, and the VLAN ranges of nodes. -/
structure Network where
  link : Nat → Option Link
  node : Nat → Nat
  vlanTagRange : Nat → Option (List RangeElement)

namespace Network

variable (net : Network)

def ends (link : Nat) : Option (Nat×Nat) := (net.link link).bind Link.ends

/-- A missing or malformed range allows nothing. -/
def allowedVlans (node : Nat) : List Int := ((net.vlanTagRange node).bind processTagString).getD []

theorem allowedVlans_le (node : Nat) : ∀ t∈net.allowedVlans node,t ≤ maxVlanTag := by
  unfold allowedVlans
  cases h : (net.vlanTagRange node).bind processTagString with
  | none =>
    intro t ht
    cases ht
  | some ts =>
    obtain ⟨string,-,hstring⟩ := bind_eq_some_iff.mp h
    exact processTagString_le hstring

end Network

end OESS.Vlans
