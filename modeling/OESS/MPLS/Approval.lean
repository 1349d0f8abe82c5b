import OESS.Framework.Licences
import OESS.MPLS.DiffRounds
import Mathlib.Data.List.Perm.Basic
import Mathlib.Tactic.Common

namespace OESS.MPLS

open Licences List Function Option

def View.large (v : View) : Bool :=
  match v.deviceDiff with
  | none => false
  | some diff => largeDiff diff

theorem switchDiff_large {v : View} {force : Bool} (h : (switchDiff v force).2=true)
    (hv : v.large=true) : force=true := by
  cases force with
  | true => rfl
  | false =>
    unfold View.large at hv
    unfold switchDiff deviceDiff at h
    cases hd : v.deviceDiff with
    | none => simp [hd] at hv
    | some diff =>
      simp only [hd] at hv h
      simp only [Bool.false_eq_true,if_false] at h
      split_ifs at h

def Entry.forcedWork (node : Nat) : Entry → Bool
  | .worked k force _ _ => k=node∧force
  | _ => false

def Request.forced (node : Nat) (r : Request) : Bool := r.node=node∧r.force

/-- A flag was cleared after a blocked reply, with no forced diff since. -/
abbrev Approved (node : Nat) (log : List Entry) : Prop :=
  Unspent (.blocked node) (.cleared node) (.requested node true) log

/-- The node was blocked, and a flag no longer set was approved. -/
def Approvable (s : State) (node : Nat) : Prop :=
  .blocked node∈s.log∧(s.db node=.none → Approved node s.log)

structure Inv (s : State) : Prop where
  small : ∀ node force v,.worked node force v true∈s.log → v.large=true → force=true
  licensed : ∀ node,Licensed (.blocked node) (.cleared node) (.requested node true) s.log
  recorded : ∀ node,s.db node=.pending → .blocked node∈s.log
  child : ∀ node,s.child node=some .pending → Approvable s node
  cache : ∀ node,s.child node=none → s.cache node=.pending → Approvable s node
  single : ∀ node,s.log.countP (Entry.forcedWork node)+s.requests.countP (Request.forced node)≤
    s.log.count (.requested node true)

section Steps

variable {s : State}

variable {node : Nat} {e : Entry}

theorem Approvable.snoc {t : State} (h : Approvable s node) (hlog : t.log=s.log++[e])
    (hdb : t.db node=s.db node) (he : e≠.requested node true) : Approvable t node := by
  obtain ⟨hb,ha⟩ := h
  rw [Approvable,hlog,hdb]
  exact ⟨mem_append_left _ hb,fun hn => (ha hn).snoc he⟩

theorem approvable_of_pending (h : Inv s) (hdb : s.db node=.pending) : Approvable s node := by
  refine ⟨h.recorded node hdb,fun hn => ?_⟩
  rw [hdb] at hn
  cases hn

theorem inv_start : Inv .start where
  small _ _ _ h := absurd h not_mem_nil
  licensed _ := licensed_nil
  recorded _ h := by cases h
  child _ h := by cases h
  cache _ _ h := by cases h
  single _ := Nat.le_refl _

theorem Inv.updateCache (h : Inv s) : Inv {s with cache := s.db} := by
  refine {h with cache := fun node _ hc => ?_}
  have happ : Approvable s node := approvable_of_pending h hc
  exact happ

theorem Inv.restart (h : Inv s) : Inv s.restart where
  small := h.small
  licensed := h.licensed
  recorded := h.recorded
  child _ hc := by cases hc
  cache node _ hc := by
    have happ : Approvable s node := approvable_of_pending h hc
    exact happ
  single node := by
    have hcount : (s.requests.map fun r => {r with awaited := false}).countP
        (Request.forced node)=s.requests.countP (Request.forced node) := by
      rw [countP_map]
      rfl
    simp only [State.restart,hcount]
    exact h.single node

theorem Inv.makeBaby (h : Inv s) (node : Nat) : Inv (s.makeBaby node) := by
  unfold State.makeBaby
  split_ifs with hchild
  · exact h
  have hnone : s.child node=none := by simpa using hchild
  refine {h with child := fun k hk => ?_,cache := fun k hk hc => ?_}
  · by_cases hkn : k=node
    · rw [hkn] at hk ⊢
      simp only [update_self,some.injEq] at hk
      exact h.cache node hnone hk
    · simp only [update_of_ne hkn] at hk
      exact h.child k hk
  · by_cases hkn : k=node
    · simp [hkn] at hk
    · simp only [update_of_ne hkn] at hk
      exact h.cache k hk hc

theorem small_snoc (h : Inv s)
    (he : ∀ node force v,e=.worked node force v true → v.large=true → force=true) :
    ∀ node force v,.worked node force v true∈s.log++[e] → v.large=true → force=true := by
  intro node force v hmem
  rcases mem_append.mp hmem with hmem | hmem
  · exact h.small node force v hmem
  · exact he node force v (mem_singleton.mp hmem).symm

theorem recorded_snoc (h : Inv s) (hdb : s.db node=.pending) :
    .blocked node∈s.log++[e] := mem_append_left _ (h.recorded node hdb)

theorem Inv.round (h : Inv s) (node : Nat) : Inv (s.round node) := by
  unfold State.round
  cases hc : s.child node with
  | none => exact h
  | some flag =>
    dsimp only
    generalize hforce : (decide (flag=.pending∧s.db node=.none))=force
    have happroved : force=true → Approved node s.log := by
      intro hf
      rw [hf,decide_eq_true_eq] at hforce
      exact (h.child node (hforce.1 ▸ hc)).2 hforce.2
    have hkept : ∀ k,Approvable s k → (k=node → force=false) →
        Approvable {s with
          log := s.log++[.requested node force]} k := by
      intro k hk hkn
      refine hk.snoc rfl rfl ?_
      intro he
      cases he
      exact Bool.noConfusion (hkn rfl)
    refine ⟨?_,?_,?_,?_,?_,?_⟩
    · exact small_snoc h fun k f v he => (by cases he)
    · intro k
      apply (h.licensed k).snoc
      intro he
      cases he
      exact happroved rfl
    · exact fun k hk => recorded_snoc h hk
    · intro k hk
      cases force with
      | false => exact hkept k (h.child k hk) fun _ => rfl
      | true =>
        by_cases hkn : k=node
        · simp [hkn] at hk
        · simp only [if_true,update_of_ne hkn] at hk
          exact hkept k (h.child k hk) fun he => absurd he hkn
    · intro k hk hcache
      have hkn : k≠node := by
        intro he
        cases force with
        | false => simp [he,hc] at hk
        | true => simp [he] at hk
      have hnone : s.child k=none := by
        cases force with
        | false => simpa using hk
        | true => simpa [update_of_ne hkn] using hk
      exact hkept k (h.cache k hnone hcache) fun he => absurd he hkn
    · intro k
      have hsingle := h.single k
      by_cases hk : node=k <;> cases force <;>
        simp [Entry.forcedWork,Request.forced,hk] <;> omega

theorem countP_eraseIdx {α : Type*} {p : α → Bool} {l : List α} {i : Nat} {a : α}
    (h : l[i]?=some a) : (l.eraseIdx i).countP p+(if p a then 1 else 0)=l.countP p := by
  obtain ⟨hi,rfl⟩ := List.getElem?_eq_some_iff.mp h
  rw [← (getElem_cons_eraseIdx_perm hi).countP_eq p,countP_cons]

section

variable (h : Inv s)
include h

variable (i node : Nat)

theorem Inv.work (v : View) : Inv (s.work i v) := by
  unfold State.work
  cases hr : s.requests[i]? with
  | none => exact h
  | some r =>
    have hkept : ∀ k,Approvable s k → Approvable {s with
        log := s.log++[.worked r.node r.force v (switchDiff v r.force).2]} k :=
      fun k hk => hk.snoc rfl rfl fun he => (by cases he)
    refine ⟨?_,?_,?_,?_,?_,?_⟩
    · apply small_snoc h
      intro k f w he hlarge
      obtain ⟨-,rfl,rfl,hinst⟩ := Entry.worked.inj he
      exact switchDiff_large hinst hlarge
    · intro k
      exact (h.licensed k).snoc fun he => (by cases he)
    · exact fun k hk => recorded_snoc h hk
    · exact fun k hk => hkept k (h.child k hk)
    · exact fun k hk hcache => hkept k (h.cache k hk hcache)
    · intro k
      have hsingle := h.single k
      have hqueue := countP_eraseIdx (p := Request.forced k) hr
      have hforced : Entry.forcedWork k (.worked r.node r.force v (switchDiff v r.force).2)=
          Request.forced k r := rfl
      simp only [countP_append,countP_singleton,count_append,
        hforced]
      omega

theorem Inv.loseRequest : Inv {s with requests := s.requests.eraseIdx i} := by
  refine {h with single := fun node => ?_}
  have hless : (s.requests.eraseIdx i).countP (Request.forced node)≤
      s.requests.countP (Request.forced node) := (eraseIdx_sublist _ _).countP_le
  have hsingle := h.single node
  dsimp only
  omega

theorem Inv.loseReply : Inv {s with replies := s.replies.eraseIdx i} := {h with}

theorem Inv.setPendingDiff (flag : PendingDiff) (hf : flag=.pending → .blocked node∈s.log) :
    Inv (s.setPendingDiff node flag) := by
  have hkept : ∀ k,k≠node → Approvable s k → Approvable (s.setPendingDiff node flag) k := by
    intro k hk happ
    have hdb : (s.setPendingDiff node flag).db k=s.db k := update_of_ne hk _ _
    rwa [Approvable,hdb]
  refine {h with recorded := fun k hk => ?_,child := fun k hk => ?_,cache := fun k hk hc => ?_}
  · by_cases hkn : k=node
    · rw [hkn] at hk ⊢
      simp only [State.setPendingDiff,update_self] at hk
      exact hf hk
    · simp only [State.setPendingDiff,update_of_ne hkn] at hk
      exact h.recorded k hk
  · by_cases hkn : k=node
    · rw [hkn] at hk ⊢
      simp only [State.setPendingDiff,update_self,some.injEq] at hk
      refine ⟨hf hk,fun hn => ?_⟩
      simp [State.setPendingDiff,hk] at hn
    · simp only [State.setPendingDiff,update_of_ne hkn] at hk
      exact hkept k hkn (h.child k hk)
  · by_cases hkn : k=node
    · simp [State.setPendingDiff,hkn] at hk
    · simp only [State.setPendingDiff,update_of_ne hkn] at hk
      exact hkept k hkn (h.cache k hk hc)

theorem Inv.note (he : e=.blocked node∨e=.cleared node) : Inv {s with log := s.log++[e]} := by
  have hreq (k : Nat) : e≠.requested k true := by rcases he with rfl | rfl <;> simp
  refine ⟨?_,?_,?_,?_,?_,?_⟩
  · exact small_snoc h fun k f v hw => by rcases he with rfl | rfl <;> cases hw
  · exact fun k => (h.licensed k).snoc fun hr => absurd hr (hreq k)
  · exact fun k hk => recorded_snoc h hk
  · exact fun k hk => (h.child k hk).snoc rfl rfl (hreq k)
  · exact fun k hk hc => (h.cache k hk hc).snoc rfl rfl (hreq k)
  · intro k
    have hsingle := h.single k
    rcases he with rfl | rfl <;> simpa [Entry.forcedWork] using hsingle

theorem Inv.blocked : Inv {s.setPendingDiff node .pending with log := s.log++[.blocked node]} :=
  (h.note node (.inl rfl)).setPendingDiff node .pending fun _ => mem_append_right _ mem_cons_self

theorem Inv.callback (r : Reply) : Inv (s.callback r) := by
  unfold State.callback
  cases r.status with
  | blocked => exact h.blocked r.node
  | failure => exact h.setPendingDiff r.node .error (by simp)
  | success => exact h.setPendingDiff r.node .none (by simp)

theorem Inv.reply : Inv (s.reply i) := by
  unfold State.reply
  cases s.replies[i]? with
  | none => exact h
  | some r => exact (h.loseReply i).callback r

/-- A flag still held was set by a blocked reply. -/
theorem Inv.clear : Inv (s.clear node) := by
  have hkept : ∀ k,Approvable s k → Approvable (s.clear node) k := by
    intro k happ
    by_cases hkn : k=node
    · rw [hkn] at happ ⊢
      exact ⟨mem_append_left _ happ.1,fun _ => unspent_granted happ.1⟩
    · exact happ.snoc rfl (update_of_ne hkn _ _) fun he => (by cases he)
  refine {h.note node (.inr rfl) with
    recorded := fun k hk => ?_
    child := fun k hk => hkept k (h.child k hk)
    cache := fun k hk hc => hkept k (h.cache k hk hc)}
  by_cases hkn : k=node
  · simp [State.clear,hkn] at hk
  · simp only [State.clear,update_of_ne hkn] at hk
    exact recorded_snoc h hk

theorem Inv.step (e : Event) : Inv (step s e) := by
  cases e with
  | restart => exact h.restart
  | updateCache => exact h.updateCache
  | makeBaby node => exact h.makeBaby node
  | round node => exact h.round node
  | work i view => exact h.work i view
  | loseRequest i => exact h.loseRequest i
  | reply i => exact h.reply i
  | loseReply i => exact h.loseReply i
  | clear node => exact h.clear node

end

theorem inv_run (es : List Event) (h : Inv s) : Inv (es.foldl MPLS.step s) := by
  induction es generalizing s with
  | nil => exact h
  | cons e es ih => exact ih (h.step e)

end Steps

/-- Only a forced diff installs a large diff; each is requested after the flag was cleared, which
was after a blocked reply, with no forced diff in between; no request is worked on twice. -/
theorem forced_diffs_approved (es : List Event) (node : Nat) :
    (∀ force v,.worked node force v true∈(es.foldl step .start).log → v.large=true → force=true)∧
    (∀ past rest,(es.foldl step .start).log=past++.requested node true::rest →
      ∃ older newer,past=older++.cleared node::newer∧.blocked node∈older∧
        .requested node true∉newer)∧
    (es.foldl step .start).log.countP (Entry.forcedWork node)≤
      (es.foldl step .start).log.count (.requested node true)∧
    (es.foldl step .start).log.count (.requested node true)≤
      (es.foldl step .start).log.count (.cleared node) := by
  have h : Inv (es.foldl step .start) := inv_run es inv_start
  refine ⟨h.small node,h.licensed node,?_,(h.licensed node).count_le (by simp)⟩
  have hsingle := h.single node
  omega

end OESS.MPLS
