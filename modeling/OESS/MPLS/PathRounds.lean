import Mathlib.Data.List.Induction
import OESS.Framework.CondVar

namespace OESS.MPLS.Paths

open CondVar List

abbrev Lists := String → Option (List String)

abbrev Entries := List (String×List String)

/-- The LSPs in two tables, and their hops. -/
inductive Query where
  | mplsTable | vplsTable | lspPaths
  deriving DecidableEq

structure Reply where
  node : Nat
  query : Query
  error : Option String
  results : Option Entries

/-- The two hashes, and the arguments of the processing. -/
structure Round where
  (circuitLsps lspPaths : Lists)
  processed : List (Lists×Lists)

def push (h : Lists) (e : String×List String) : Lists :=
  Function.update h e.1 (some ((h e.1).getD []++e.2))

def merge (h : Lists) (es : Entries) : Lists := es.foldl push h

def note (r : Reply) (s : Round) : Round :=
  match r.error,r.query with
  | some _,_ => s
  | none,.lspPaths => {s with lspPaths := merge s.lspPaths (r.results.getD [])}
  | none,_ => {s with circuitLsps := merge s.circuitLsps (r.results.getD [])}

/-- For hops not without both an error and results. -/
def ends (r : Reply) : Bool := !(r.query==.lspPaths && r.error.isNone && r.results.isNone)

def processResults (s : Round) : Round :=
  {s with processed := s.processed++[(s.circuitLsps,s.lspPaths)]}

def requests (overlay : String) (nodes : Option (List Nat)) : List (Nat×Query) :=
  if overlay≠"vpn-mpls" then []
  else (nodes.getD []).flatMap fun n => [(n,.mplsTable),(n,.vplsTable),(n,.lspPaths)]

def pathHandler (overlay : String) (nodes : Option (List Nat)) (replies : List Reply) : Round :=
  let start : Round := ⟨fun _ => none,fun _ => none,[]⟩
  if overlay≠"vpn-mpls" then start
  else
    match nodes with
    | none => start
    | some _ =>
      (Group.run processResults note ends (requests overlay nodes).length start replies).data

/-- Replies as they arrive: every request is answered once. -/
structure Run where
  overlay : String
  nodes : Option (List Nat)
  replies : List Reply
  answered : (replies.map fun r => (r.node,r.query)).Perm (requests overlay nodes)

def Run.processed (x : Run) : List (Lists×Lists) :=
  (pathHandler x.overlay x.nodes x.replies).processed

def gathered (rs : List Entries) : Lists := fun k =>
  if ∃ r∈rs,∃ e∈r,e.1=k then
    some ((rs.flatMap fun r => r.filter (·.1==k)).flatMap Prod.snd)
  else none

/-- The results of replies without an error to the queries of `p`. -/
def answers (p : Query → Bool) (replies : List Reply) : List Entries :=
  (replies.filter fun r => r.error.isNone && p r.query).map fun r => r.results.getD []

theorem merge_append (h : Lists) (es es' : Entries) : merge h (es++es')=merge (merge h es) es' :=
  foldl_append

theorem gathered_eq (rs : List Entries) : gathered rs=gathered [rs.flatten] := by
  funext k
  have hmem : (∃ r∈rs,∃ e∈r,e.1=k) ↔ ∃ r∈[rs.flatten],∃ e∈r,e.1=k := by
    simp only [mem_singleton,exists_eq_left,mem_flatten]
    constructor
    · rintro ⟨r,hr,e,he,hk⟩
      exact ⟨e,⟨r,hr,he⟩,hk⟩
    · rintro ⟨e,⟨r,hr,he⟩,hk⟩
      exact ⟨r,hr,e,he,hk⟩
  have hlist : (rs.flatMap fun r => r.filter (·.1==k))=
      [rs.flatten].flatMap fun r => r.filter fun e => e.1==k := by
    simp [flatMap]
  simp only [gathered,hmem,hlist]

theorem gathered_snoc (es : Entries) (e : String×List String) :
    gathered [es++[e]]=push (gathered [es]) e := by
  funext k
  by_cases hk : k=e.1
  · subst hk
    have hnew : ∃ r∈[es++[e]],∃ e'∈r,e'.1=e.1 := ⟨es++[e],by simp,e,by simp,rfl⟩
    rw [push,gathered,gathered,if_pos hnew]
    by_cases hold : ∃ r∈[es],∃ e'∈r,e'.1=e.1
    · rw [if_pos hold]
      simp
    have hnone : (es.filter fun e' => e'.1==e.1)=[] := by
      apply filter_eq_nil_iff.mpr
      intro e' he' hk
      exact hold ⟨es,by simp,e',he',by simpa using hk⟩
    rw [if_neg hold]
    simp [hnone]
  · have hsame : (∃ r∈[es++[e]],∃ e'∈r,e'.1=k) ↔ ∃ r∈[es],∃ e'∈r,e'.1=k := by
      simp only [mem_singleton,exists_eq_left,mem_append]
      constructor
      · rintro ⟨e',he' | rfl,hk'⟩
        · exact ⟨e',he',hk'⟩
        · exact absurd hk'.symm hk
      · rintro ⟨e',he',hk'⟩
        exact ⟨e',.inl he',hk'⟩
    have hlist : ((es++[e]).filter fun e' => e'.1==k)=es.filter fun e' => e'.1==k := by
      have hne : (e.1==k)=false := by simpa using fun h => hk h.symm
      simp [hne]
    rw [push,Function.update_of_ne hk]
    simp only [gathered,hsame,flatMap_cons,hlist]

theorem merge_eq_gathered (es : Entries) : merge (fun _ => none) es=gathered [es] := by
  induction es using reverseRecOn with
  | nil =>
    funext k
    simp [merge,gathered]
  | append_singleton es e ih => rw [merge_append,ih,gathered_snoc]; rfl

variable (replies : List Reply)

theorem foldl_note (s : Round) : replies.foldl (fun s r => note r s) s=
      ⟨merge s.circuitLsps (answers (· != .lspPaths) replies).flatten,
        merge s.lspPaths (answers (· == .lspPaths) replies).flatten,s.processed⟩ := by
  induction replies generalizing s with
  | nil => rfl
  | cons r rs ih =>
    obtain ⟨node,query,error,results⟩ := r
    rw [foldl_cons,ih]
    cases error with
    | some e => simp [note,answers]
    | none => cases query <;> simp [note,answers,merge_append]

theorem foldl_note_gathered : replies.foldl (fun s r => note r s) ⟨fun _ => none,fun _ => none,[]⟩=
      ⟨gathered (answers (· != .lspPaths) replies),gathered (answers (· == .lspPaths) replies),
        []⟩ := by
  rw [foldl_note,merge_eq_gathered,merge_eq_gathered,← gathered_eq,← gathered_eq]

theorem ends_iff (r : Reply) :
    ends r=true ↔ (r.query=.lspPaths → r.error=none → r.results≠none) := by
  obtain ⟨node,query,error,results⟩ := r
  cases query <;> cases error <;> cases results <;> simp [ends]

/-- The merge of all good replies is processed once exactly for the network type, known nodes, and
an error or results in every reply for hops. -/
theorem Run.processed_once_iff (x : Run) :
    x.processed=[(gathered (answers (· != .lspPaths) x.replies),
        gathered (answers (· == .lspPaths) x.replies))] ↔
      x.overlay="vpn-mpls"∧x.nodes≠none∧
        ∀ r∈x.replies,r.query=.lspPaths → r.error=none → r.results≠none := by
  obtain ⟨overlay,nodes,replies,h⟩ := x
  by_cases ho : overlay="vpn-mpls"
  · cases nodes with
    | none => simp [Run.processed,pathHandler]
    | some nodes =>
      have hlen : (requests overlay (some nodes)).length=replies.length := by
        rw [← h.length_eq,length_map]
      have hrun : pathHandler overlay (some nodes) replies=
          (Group.run processResults note ends replies.length ⟨fun _ => none,fun _ => none,[]⟩
            replies).data := by
        simp only [pathHandler,ho,ne_eq,not_true_eq_false,if_false,← hlen]
      subst ho
      simp only [Run.processed,hrun,ne_eq,reduceCtorEq,not_false_eq_true,true_and]
      by_cases hall : ∀ r∈replies,ends r=true
      · rw [run_all replies _ hall,foldl_note_gathered]
        refine iff_of_true rfl ?_
        intro r hr
        exact (ends_iff r).mp (hall r hr)
      · have hsome : ∃ r∈replies,ends r=false := by simpa using hall
        rw [run_some replies _ hsome,foldl_note_gathered]
        refine iff_of_false (by simp) ?_
        intro hn
        apply hall
        intro r hr
        exact (ends_iff r).mpr (hn r hr)
  · simp [Run.processed,pathHandler,ho]

def emptyPaths : Run where
  overlay := "vpn-mpls"
  nodes := some [1]
  replies := [⟨1,.mplsTable,none,some [("10",["lsp-a"])]⟩,⟨1,.vplsTable,none,some []⟩,
    ⟨1,.lspPaths,none,none⟩]
  answered := by decide

theorem emptyPaths_unprocessed : emptyPaths.processed=[] := by
  have hsome : ∃ r∈emptyPaths.replies,ends r=false := ⟨⟨1,.lspPaths,none,none⟩,by simp [emptyPaths],rfl⟩
  have hrun : Group.run processResults note ends emptyPaths.replies.length _ _=_ :=
    run_some emptyPaths.replies ⟨fun _ => none,fun _ => none,[]⟩ hsome
  have hdata := congrArg Group.data hrun
  exact congrArg Round.processed hdata

end OESS.MPLS.Paths
