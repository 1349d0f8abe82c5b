import Mathlib.Algebra.GroupWithZero.Nat
import Mathlib.Data.Bool.Basic
import OESS.Database.Provisioned

namespace OESS.Database

open List

/-- What `is_within_mac_limit` reads about a node and a workgroup. -/
structure MacLimits where
  (nodeLimit nodeCount endLimit workgroupCount : Nat)

def MacLimits.within (l : MacLimits) (new : Nat) : Bool :=
  decide (new+l.nodeCount≤l.nodeLimit) && decide (new+l.workgroupCount≤l.endLimit)

-- `accepted`: the interface and the VLAN of the endpoint have passed their checks.
variable (accepted : Endpoint → Bool) (limits : Endpoint → MacLimits) (valid : Option String → Bool)
variable (macs : List String) (ps : List Endpoint)

/-- `validate_endpoints` reads the list from its beginning for every endpoint. -/
def validateEndpoints : Bool := ps.all fun p => accepted p &&
  (limits p).within (shiftMacs p.macNum macs).length && (shiftMacs p.macNum macs).all valid

def checkedMacs : List (Option String) := ps.flatMap fun p => shiftMacs p.macNum macs

/-- `edit_circuit` takes what it stores at an endpoint off the list. -/
def storedMacs : List String → List Endpoint → List (Endpoint×List (Option String))
  | _,[] => []
  | macs,p::ps => (p,shiftMacs p.macNum macs)::storedMacs (macs.drop p.macNum) ps

variable {macs ps}

theorem mem_shiftMacs {n : Nat} {m : Option String} : m∈shiftMacs n macs ↔ ∃ i<n,macs[i]?=m := by
  simp [shiftMacs]

theorem mem_storedMacs {m : Option String} : (∃ s∈storedMacs macs ps,m∈s.2) ↔
    m∈shiftMacs (ps.map Endpoint.macNum).sum macs := by
  induction ps generalizing macs with
  | nil => simp [storedMacs,shiftMacs]
  | cons p ps ih =>
    have hsplit (n k : Nat) : shiftMacs (n+k) macs=shiftMacs n macs++shiftMacs k (macs.drop n) := by
      simp [shiftMacs,range_add]
    rw [map_cons,sum_cons,hsplit,mem_append,← ih]
    simp [storedMacs]

theorem storedMacs_length {s : Endpoint×List (Option String)} (h : s∈storedMacs macs ps) :
    s.1∈ps∧s.2.length=s.1.macNum := by
  induction ps generalizing macs with
  | nil => cases h
  | cons p ps ih =>
    rcases mem_cons.mp h with rfl | h
    · simp [shiftMacs]
    · exact ⟨mem_cons_of_mem p (ih h).1,(ih h).2⟩

variable {accepted limits valid}

/-- All stored addresses have been checked exactly if each that is taken off the list is among the
first ones. -/
theorem storedMacs_checked_iff (h : validateEndpoints accepted limits valid macs ps=true) :
    (∀ s∈storedMacs macs ps,(∀ m∈s.2,m∈checkedMacs macs ps)∧(limits s.1).within s.2.length=true) ↔
      ∀ i<(ps.map Endpoint.macNum).sum,∃ p∈ps,∃ j<p.macNum,macs[j]?=macs[i]? := by
  constructor
  · intro hall i hi
    obtain ⟨s,hs,hm⟩ := mem_storedMacs.mpr (mem_shiftMacs.mpr ⟨i,hi,rfl⟩)
    have hmem := (hall s hs).1 _ hm
    simpa only [checkedMacs,mem_flatMap,mem_shiftMacs] using hmem
  · intro hfirst s hs
    constructor
    · intro m hm
      obtain ⟨i,hi,rfl⟩ := mem_shiftMacs.mp (mem_storedMacs.mp ⟨s,hs,hm⟩)
      simpa only [checkedMacs,mem_flatMap,mem_shiftMacs] using hfirst i hi
    · -- the number of addresses is the one that was checked, whichever they are
      obtain ⟨hp,hlength⟩ := storedMacs_length hs
      have hchecked := all_eq_true.mp h s.1 hp
      simp only [Bool.and_eq_true,shiftMacs,length_map,length_range] at hchecked
      rw [hlength]
      exact hchecked.1.2

def macEnd (macNum : Nat) : Endpoint := ⟨"node","port",some 1,none,macNum⟩

/-- One address for the first endpoint and none for the second. -/
theorem storedMacs_one_checked : validateEndpoints (fun _ => true) (fun _ => ⟨9,0,9,0⟩)
    (· == some "00:00:00:00:00:01") ["00:00:00:00:00:01"] [macEnd 1,macEnd 0]=true∧
      ∀ s∈storedMacs ["00:00:00:00:00:01"] [macEnd 1,macEnd 0],
        (∀ m∈s.2,m∈checkedMacs ["00:00:00:00:00:01"] [macEnd 1,macEnd 0])∧
          (MacLimits.mk 9 0 9 0).within s.2.length=true := by
  refine (and_iff_left_of_imp fun h => ?_).mpr (by decide)
  exact (storedMacs_checked_iff h).mpr (by decide)

/-- The address of the second endpoint is stored, but never checked. -/
theorem storedMacs_unchecked : validateEndpoints (fun _ => true) (fun _ => ⟨9,0,9,0⟩)
    (· == some "00:00:00:00:00:01") ["00:00:00:00:00:01","x"] [macEnd 1,macEnd 1]=true∧
      ¬∀ s∈storedMacs ["00:00:00:00:00:01","x"] [macEnd 1,macEnd 1],
        ∀ m∈s.2,m∈checkedMacs ["00:00:00:00:00:01","x"] [macEnd 1,macEnd 1] := by decide

def hexDigits : List Char := "0123456789abcdef".toList

def isHex (c : Char) : Bool := hexDigits.contains c.toLower

def hexValue (c : Char) : Nat := hexDigits.idxOf c.toLower

/-- `$` is also before a last newline. -/
def atEnd (s : List Char) : Bool := s==[] || s==['\n']

/-- `n` pairs of digits, each with a separator or at the end. -/
def matchPairs : Nat → List Char → Bool
  | 0,s => atEnd s
  | n+1,a::b::s => isHex a && isHex b &&
      (s.head?.any [':','-'].contains && matchPairs n s.tail || atEnd s && matchPairs n s)
  | _,_ => false

def macValidate : List Char → Bool := matchPairs 6

/-- `hex` reads up to the first character that is no digit. -/
def hex (s : List Char) : Nat := (s.takeWhile isHex).foldl (fun n c => n*16+hexValue c) 0

def pairs : List Char → List (List Char)
  | a::b::s => [a,b]::pairs s
  | _ => []

/-- The number read from the last twelve characters, the colons removed. -/
def macHex2num (mac : List Char) : Nat :=
  let s := mac.filter (· != ':')
  (pairs ((replicate 12 '0'++s).drop s.length)).foldl (fun n p => n*256+hex p) 0

/-- `%02x` of a byte. -/
def hexByte (n : Nat) : List Char := [hexDigits.getD (n/16) '0',hexDigits.getD (n%16) '0']

def macBytes : Nat → Nat → List (List Char)
  | 0,_ => []
  | k+1,n => macBytes k (n/256)++[hexByte (n%256)]

def macNum2hex (n : Nat) : List Char := [':'].intercalate (macBytes 6 n)

/-- The spelling that is given back: the digits in lower case, with colons. -/
def canonical (mac : List Char) : List Char :=
  [':'].intercalate (pairs ((mac.filter isHex).map Char.toLower))

variable {mac : List Char}

theorem matchPairs_digits {n : Nat} (h : matchPairs n mac=true) (hdash : '-'∉mac) (hline : '\n'∉mac) :
    mac.filter (· != ':')=mac.filter isHex∧(mac.filter isHex).length=2*n := by
  have hcolon : isHex ':'=false := rfl
  fun_induction matchPairs n mac with
  | case1 s => cases s <;> simp_all [atEnd]
  | case2 n a b s => cases s <;> grind
  | case3 => cases h

theorem hexDigits_hexValue {c : Char} (h : isHex c=true) :
    hexValue c<16∧hexDigits.getD (hexValue c) '0'=c.toLower := by
  have hc : c.toLower∈hexDigits := contains_iff_mem.mp h
  exact ⟨idxOf_lt_length_of_mem hc,by simp [hexValue,getElem?_idxOf hc]⟩

/-- `n` is what was read before. -/
theorem macBytes_pairs {s : List Char} {j : Nat} (hs : ∀ c∈s,isHex c=true) (hj : s.length=2*j) (n k : Nat) :
    macBytes (k+j) ((pairs s).foldl (fun n p => n*256+hex p) n)=
      macBytes k n++pairs (s.map Char.toLower) := by
  induction j generalizing s n k with
  | zero => simp [length_eq_zero_iff.mp hj,pairs]
  | succ j ih =>
    obtain _ | ⟨a,_ | ⟨b,s⟩⟩ := s <;> simp only [length_nil,length_cons] at hj <;> try omega
    simp only [forall_mem_cons] at hs
    obtain ⟨ha,hb,hs⟩ := hs
    obtain ⟨hlta,hdigita⟩ := hexDigits_hexValue ha
    obtain ⟨hltb,hdigitb⟩ := hexDigits_hexValue hb
    have hpair : hex [a,b]=hexValue a*16+hexValue b := by simp [hex,ha,hb]
    have hbyte : hexByte (hex [a,b])=[a.toLower,b.toLower] := by
      rw [hexByte,hpair,← hdigita,← hdigitb]
      congr <;> omega
    have hsplit : (n*256+hex [a,b])/256=n∧(n*256+hex [a,b])%256=hex [a,b] := by omega
    rw [pairs,foldl_cons,Nat.add_comm j,← Nat.add_assoc,ih hs (by omega),macBytes,hsplit.1,hsplit.2,
      hbyte,append_assoc]
    rfl

/-- A valid address is given back in its canonical spelling if only colons separate its digits. -/
theorem macNum2hex_macHex2num (h : macValidate mac=true) (hdash : '-'∉mac) (hline : '\n'∉mac) :
    macNum2hex (macHex2num mac)=canonical mac := by
  obtain ⟨hs,hlength⟩ := matchPairs_digits h hdash hline
  have hbytes := macBytes_pairs (fun c hc => (mem_filter.mp hc).2) hlength 0 0
  rw [macNum2hex,macHex2num,hs,hlength,canonical]
  exact congrArg _ hbytes

theorem macNum2hex_upper : macNum2hex (macHex2num "00:0A:00:00:00:01:".toList)=
    "00:0a:00:00:00:01".toList :=
  macNum2hex_macHex2num (by decide) (by decide) (by decide)

end OESS.Database
