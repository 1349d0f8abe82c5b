import Mathlib.Data.List.Induction
import OESS.FV.Daemon

namespace OESS.FV

open OESS.Lookup List Option

namespace Fv

variable {s u v : Fv} {l k : Link} {name : String} {timeout t : Int}

/-- Both ends of the link have heard a packet, one of them from elsewhere. -/
def Crossed (s : Fv) (l : Link) : Prop := s.down l.a=false∧s.down l.z=false∧
    ∃ atA atZ,s.heardAt l.a=some atA∧s.heardAt l.z=some atZ∧linedUp l atA atZ=false

/-- Both ends are up and have heard a young packet of the other. -/
def Verified (timeout t : Int) (s : Fv) (l : Link) : Prop := s.down l.a=false∧s.down l.z=false∧
    ∃ atA atZ,s.heardAt l.a=some atA∧s.heardAt l.z=some atZ∧linedUp l atA atZ=true∧
      t-atA.timestamp<timeout∧t-atZ.timestamp<timeout

theorem down_eq_false {e : End} : s.down e=false ↔ ∃ d,e.dpid=some d∧s.statusAt d=some .up := by
  unfold down
  cases e.dpid <;> simp

structure SameFor (s u : Fv) (l k : Link) : Prop where
  a : k.a=l.a
  z : k.z=l.z
  heard : u.lastHeard=s.lastHeard
  status : ∀ d,l.At d → u.statusAt d=s.statusAt d

section

variable (h : SameFor s u l k)
include h

theorem SameFor.down_eq {e : End} (he : ∀ d,e.dpid=some d → l.At d) : u.down e=s.down e := by
  unfold down
  cases hd : e.dpid with
  | none => rfl
  | some d => simp only [h.status d (he d hd)]

theorem SameFor.heardAt_eq (e : End) : u.heardAt e=s.heardAt e := by
  unfold heardAt
  rw [h.heard]

theorem SameFor.linedUp_eq (atA atZ : Heard) : linedUp k atA atZ=linedUp l atA atZ := by
  unfold linedUp
  rw [h.a,h.z]

theorem SameFor.crossed : u.Crossed k ↔ s.Crossed l := by
  simp only [Crossed,h.a,h.z,h.down_eq fun _ => .inl,h.down_eq fun _ => .inr,h.heardAt_eq,h.linedUp_eq]

theorem SameFor.verified : Verified timeout t u k ↔ Verified timeout t s l := by
  simp only [Verified,h.a,h.z,h.down_eq fun _ => .inl,h.down_eq fun _ => .inr,h.heardAt_eq,h.linedUp_eq]

end

theorem link_spec (h : s.link name=some l) : l∈s.links∧l.name=name := lookup_spec h

theorem eq_of_link (h : s.link name=some l) (hk : k∈s.links) (hname : k.name=name) : k=l := by
  have hfound : s.link k.name=some k := lookup_of_mem s.distinct hk
  rw [hname] at hfound
  exact some_inj.mp (hfound.symm.trans h)

/-- A turn without a reload: a link is up only if it was before, or has been verified. -/
structure Quiet (timeout t : Int) (s u : Fv) (name : String) : Prop where
  nodes : u.nodes=s.nodes
  heard : u.lastHeard=s.lastHeard
  ends : ∀ k∈u.links,k.a.dpid=none∨∃ l∈s.links,l.name=k.name∧k.a=l.a∧k.z=l.z
  ups : ∀ k∈u.links,k.fvStatus=.up → k∈s.links∧k.name≠name∨k.name=name∧Verified timeout t s k

section

variable (hl : s.link name=some l)
include hl

theorem quiet_modify {f : Link → Link} {hf : ∀ l,(f l).name=l.name∧(f l).a=l.a∧(f l).z=l.z}
    (hother : ∀ k,k.name≠name → f k=k) (hup : (f l).fvStatus=.up → Verified timeout t s l) :
    Quiet timeout t s (s.modify f hf) name where
  nodes := rfl
  heard := rfl
  ends := by
    intro k hmem
    obtain ⟨k,hk,rfl⟩ := mem_map.mp hmem
    obtain ⟨hname,ha,hz⟩ := hf k
    exact .inr ⟨k,hk,hname.symm,ha,hz⟩
  ups := by
    intro k hmem hstatus
    obtain ⟨k,hk,rfl⟩ := mem_map.mp hmem
    obtain ⟨hname,ha,hz⟩ := hf k
    by_cases hsame : k.name=name
    · have hkl : k=l := eq_of_link hl hk hsame
      subst hkl
      have hfor : SameFor s s k (f k) := ⟨ha,hz,rfl,fun _ _ => rfl⟩
      exact .inr ⟨hname.trans hsame,hfor.verified.mpr (hup hstatus)⟩
    · rw [hother k hsame]
      exact .inl ⟨hk,hsame⟩

theorem quiet_mark {status : LinkStatus} {now : Int} (hup : status=.up → Verified timeout t s l) :
    Quiet timeout t s (s.mark name status now) name := by
  refine quiet_modify hl (fun k hk => if_neg hk) ?_
  rwa [if_pos (link_spec hl).2]

theorem quiet_markStatus : Quiet timeout t s (s.markStatus name .down) name := by
  refine quiet_modify hl (fun k hk => if_neg hk) ?_
  rw [if_pos (link_spec hl).2]
  intro h
  cases h

theorem quiet_refl (hnot : l.fvStatus≠.up) : Quiet timeout t s s name where
  nodes := rfl
  heard := rfl
  ends := fun k hk => .inr ⟨k,hk,rfl,rfl,rfl⟩
  ups := by
    intro k hk hstatus
    refine .inl ⟨hk,fun hname => ?_⟩
    rw [eq_of_link hl hk hname] at hstatus
    exact hnot hstatus

end

theorem quiet_markBlank (hl : s.link name=none) : Quiet timeout t s (s.markBlank t) name := by
  have hne : ∀ k∈s.links,k.name≠name := lookup_none hl
  unfold markBlank
  split_ifs with hblank
  · refine ⟨rfl,rfl,fun k hmem => ?_,fun k hmem hstatus => ?_⟩
    · obtain ⟨k,hk,rfl⟩ := mem_map.mp hmem
      refine .inr ⟨k,hk,?_⟩
      split_ifs <;> exact ⟨rfl,rfl,rfl⟩
    · obtain ⟨k,hk,rfl⟩ := mem_map.mp hmem
      split_ifs at hstatus ⊢ with hname
      exact .inl ⟨hk,hne k hk⟩
  · refine ⟨rfl,rfl,fun k hk => ?_,fun k hk hstatus => ?_⟩
    · rcases mem_append.mp hk with hk | hk
      · exact .inr ⟨k,hk,rfl,rfl,rfl⟩
      · rw [mem_singleton.mp hk]
        exact .inl rfl
    · rcases mem_append.mp hk with hk | hk
      · exact .inl ⟨hk,hne k hk⟩
      · rw [mem_singleton.mp hk] at hstatus
        cases hstatus

theorem quiet_unverified (hl : s.link name=some l) (hv : Quiet timeout t s v name) :
    Quiet timeout t s (match l.fvStatus with
        | .up => v
        | .unknown => if t-l.lastVerified>timeout then s.mark name .down t else s
        | .down => s) name := by
  cases hstatus : l.fvStatus with
  | up => exact hv
  | down => exact quiet_refl hl (by simp [hstatus])
  | unknown =>
    split_ifs
    · exact quiet_mark hl (by simp)
    · exact quiet_refl hl (by simp [hstatus])

theorem checkLink_cases (s : Fv) (timeout t : Int) (db : Snapshot) (name : String) :
    Quiet timeout t s (s.checkLink timeout t db name) name∨
      ∃ l,s.link name=some l∧s.Crossed l∧s.checkLink timeout t db name=s.loadState db t := by
  unfold checkLink
  cases hl : s.link name with
  | none => exact .inl (quiet_markBlank hl)
  | some l =>
    have hunknown : Quiet timeout t s (s.mark name .unknown t) name := quiet_mark hl (by simp)
    have hunheard : Quiet timeout t s (match l.fvStatus with
          | .up => s.mark name .down t
          | .unknown => if t-l.lastVerified>timeout then s.mark name .down t else s
          | .down => s) name := quiet_unverified hl (quiet_mark hl (by simp))
    dsimp only
    cases ha : s.down l.a with
    | true =>
      exact .inl hunknown
    | false =>
      cases hz : s.down l.z with
      | true =>
        exact .inl hunknown
      | false =>
        cases hatA : s.heardAt l.a with
        | none => exact .inl hunheard
        | some atA =>
          cases hatZ : s.heardAt l.z with
          | none => exact .inl hunheard
          | some atZ =>
            dsimp only
            cases hlined : linedUp l atA atZ with
            | true =>
              by_cases hyoung : t-atA.timestamp<timeout∧t-atZ.timestamp<timeout
              · rw [if_pos hyoung]
                exact .inl (quiet_mark hl fun _ => ⟨ha,hz,atA,atZ,hatA,hatZ,hlined,hyoung⟩)
              · rw [if_neg hyoung]
                exact .inl (quiet_unverified hl (quiet_markStatus hl))
            | false =>
              exact .inr ⟨l,rfl,⟨ha,hz,atA,atZ,hatA,hatZ,hlined⟩,rfl⟩

/-- Ends stay, and no node gets another's datapath id. -/
structure Steady (s : Fv) (db : Snapshot) : Prop where
  ends : ∀ k∈db.links,∀ l∈s.links,k.name=l.name → db.endOf k.a=l.a∧db.endOf k.z=l.z
  keys : ∀ n∈db.nodes,∀ m∈db.nodes,n.id=m.dpid → n.dpid=m.dpid

/-- No link up is crossed; if any is, the read is steady. -/
structure RoundOk (s : Fv) (db : String → Snapshot) : Prop where
  ups : ∀ l∈s.links,l.fvStatus=.up → ¬s.Crossed l
  reads : (∃ l∈s.links,s.Crossed l) → ∀ l∈s.links,Steady s (db l.name)

/-- The state within a round from `s`; `done` are the links whose turn is over. -/
structure Progress (timeout t : Int) (s : Fv) (done : List String) (u : Fv) : Prop where
  heard : u.lastHeard=s.lastHeard
  source : u.nodes=s.nodes∨∃ l∈s.links,s.Crossed l
  ends : ∀ k∈u.links,∀ l∈s.links,l.name=k.name → k.a.dpid=none∨k.a=l.a∧k.z=l.z
  ups : ∀ k∈u.links,k.fvStatus=.up → ∃ l∈s.links,l.name=k.name∧k.a=l.a∧k.z=l.z∧
    (k.name∈done → Verified timeout t u k)∧
    (k.name∉done → l.fvStatus=.up∧∀ d,l.At d → u.statusAt d=s.statusAt d)

variable {done : List String} {db : Snapshot}

theorem progress_start : Progress timeout t s [] s where
  heard := rfl
  source := .inl rfl
  ends := by
    intro k hk l hl hname
    rw [inj_on_of_nodup_map s.distinct hl hk hname]
    exact .inr ⟨rfl,rfl⟩
  ups := by
    intro k hk hup
    exact ⟨k,hk,rfl,rfl,rfl,fun h => absurd h not_mem_nil,fun _ => ⟨hup,fun _ _ => rfl⟩⟩

theorem Progress.quiet (h : Progress timeout t s done u) (hname : name∈s.links.map Link.name)
    (hq : Quiet timeout t u v name) : Progress timeout t s (done++[name]) v := by
  have hstatus (d : Nat) : v.statusAt d=u.statusAt d := by
    unfold statusAt
    rw [hq.nodes]
  have hends : ∀ k∈v.links,∀ l∈s.links,l.name=k.name → k.a.dpid=none∨k.a=l.a∧k.z=l.z := by
    intro k hk l hl hlk
    rcases hq.ends k hk with hnone | ⟨k',hk',hname',ha,hz⟩
    · exact .inl hnone
    · rw [ha,hz]
      exact h.ends k' hk' l hl (hlk.trans hname'.symm)
  refine ⟨hq.heard.trans h.heard,hq.nodes ▸ h.source,hends,fun k hk hup => ?_⟩
  have hfor : SameFor u v k k := ⟨rfl,rfl,hq.heard,fun d _ => hstatus d⟩
  rcases hq.ups k hk hup with ⟨hku,hne⟩ | ⟨hkn,hverified⟩
  · obtain ⟨l,hl,hlk,ha,hz,hover,hahead⟩ := h.ups k hku hup
    have hmem : k.name∈done++[name] ↔ k.name∈done := by simp [hne]
    refine ⟨l,hl,hlk,ha,hz,?_,?_⟩
    · rwa [hmem,hfor.verified]
    · rw [hmem]
      intro hnot
      obtain ⟨hlup,hsame⟩ := hahead hnot
      exact ⟨hlup,fun d hd => (hstatus d).trans (hsame d hd)⟩
  · obtain ⟨l,hl,hln⟩ := mem_map.mp hname
    have hlk : l.name=k.name := hln.trans hkn.symm
    obtain ⟨d,hd,-⟩ := down_eq_false.mp hverified.1
    rcases hends k hk l hl hlk with hnone | ⟨ha,hz⟩
    · rw [hd] at hnone
      cases hnone
    · refine ⟨l,hl,hlk,ha,hz,fun _ => hfor.verified.mpr hverified,fun hnot => ?_⟩
      exact absurd (mem_append_right _ (mem_singleton.mpr hkn)) hnot

theorem statusAt_loadState {d : Nat} (hkeys : ∀ n∈db.nodes,∀ m∈db.nodes,n.id=m.dpid → n.dpid=m.dpid)
    (hloaded : ∃ m∈db.nodes,m.dpid=d) (hknown : (entry u.nodes d).isSome=true) :
    (u.loadState db t).statusAt d=u.statusAt d := by
  obtain ⟨m,hm,rfl⟩ := hloaded
  obtain ⟨n,hn⟩ := entry_of_dpid hm
  obtain ⟨e,he⟩ := isSome_iff_exists.mp hknown
  have hmem : n∈db.nodes := mem_reverse.mp (mem_of_find?_eq_some hn)
  have hkeyed : n.id=m.dpid∨n.dpid=m.dpid := by simpa using find?_some hn
  have hdpid : n.dpid=m.dpid := hkeyed.elim (hkeys n hmem m hm) id
  have hentry : entry (u.loadState db t).nodes m.dpid=some (u.loadNode n) := u.entry_loadNodes hn
  unfold statusAt
  rw [hentry,he,bind_some,bind_some,loadNode,hdpid,he]

theorem loadLink_up {j : DbLink} (h : (u.loadLink db t j).fvStatus=.up) :
    ∃ old,u.link j.name=some old∧old.fvStatus=.up := by
  unfold loadLink at h
  cases hold : u.link j.name with
  | none =>
    rw [hold] at h
    cases h
  | some old =>
    rw [hold] at h
    exact ⟨old,rfl,h⟩

theorem loaded_of_at {j : DbLink} {d : Nat} (h : (u.loadLink db t j).At d) : ∃ m∈db.nodes,m.dpid=d := by
  obtain ⟨-,ha,hz⟩ := u.loadLink_fields db t j
  rcases h with h | h
  · rw [ha] at h
    exact dpidOf_spec h
  · rw [hz] at h
    exact dpidOf_spec h

variable {dbs : String → Snapshot}

/-- A crossed link is not up; the others keep what they earned. -/
theorem Progress.load (h : Progress timeout t s done u) (hok : RoundOk s dbs)
    (hname : name∈s.links.map Link.name) (hnot : name∉done) (hk : u.link name=some k)
    (hcrossed : u.Crossed k) : Progress timeout t s (done++[name]) (u.loadState (dbs name) t) := by
  obtain ⟨hku,hkn⟩ := link_spec hk
  obtain ⟨l,hl,hln⟩ := mem_map.mp hname
  have hexists : ∃ l∈s.links,s.Crossed l := by
    rcases h.source with hnodes | hexists
    · obtain ⟨d,hd,-⟩ := down_eq_false.mp hcrossed.1
      rcases h.ends k hku l hl (hln.trans hkn.symm) with hnone | ⟨ha,hz⟩
      · rw [hd] at hnone
        cases hnone
      · have hfor : SameFor s u l k := ⟨ha,hz,h.heard,fun d _ => by rw [statusAt,hnodes,statusAt]⟩
        exact ⟨l,hl,hfor.crossed.mp hcrossed⟩
    · exact hexists
  have hdown : k.fvStatus≠.up := by
    intro hup
    obtain ⟨l,hl,-,ha,hz,-,hahead⟩ := h.ups k hku hup
    obtain ⟨hlup,hsame⟩ := hahead (hkn ▸ hnot)
    have hfor : SameFor s u l k := ⟨ha,hz,h.heard,hsame⟩
    exact hok.ups l hl hlup (hfor.crossed.mp hcrossed)
  have hsteady : Steady s (dbs name) := hln ▸ hok.reads hexists l hl
  refine ⟨h.heard,.inr hexists,?_,?_⟩
  · intro k' hk' l' hl' hname'
    obtain ⟨j,hj,rfl⟩ := mem_map.mp hk'
    obtain ⟨hjn,ha,hz⟩ := u.loadLink_fields (dbs name) t j
    rw [ha,hz]
    exact .inr (hsteady.ends j hj l' hl' (hjn.symm.trans hname'.symm))
  · intro k' hk' hup
    obtain ⟨j,hj,rfl⟩ := mem_map.mp hk'
    obtain ⟨hjn,hja,hjz⟩ := u.loadLink_fields (dbs name) t j
    obtain ⟨old,hold,holdup⟩ := loadLink_up hup
    obtain ⟨holdu,holdn⟩ := link_spec hold
    obtain ⟨l',hl',hln',ha,hz,hover,hahead⟩ := h.ups old holdu holdup
    obtain ⟨hsa,hsz⟩ := hsteady.ends j hj l' hl' (holdn.symm.trans hln'.symm)
    have hka : (u.loadLink (dbs name) t j).a=l'.a := hja.trans hsa
    have hkz : (u.loadLink (dbs name) t j).z=l'.z := hjz.trans hsz
    have hstatus : ∀ d,l'.At d → (u.loadState (dbs name) t).statusAt d=u.statusAt d := by
      intro d hd
      have hat : (u.loadLink (dbs name) t j).At d := by rwa [Link.At,hka,hkz]
      have holdat : old.At d := by rwa [Link.At,ha,hz]
      exact statusAt_loadState hsteady.keys (loaded_of_at hat) (u.known old holdu d holdat)
    refine ⟨l',hl',hln'.trans (holdn.trans hjn.symm),hka,hkz,?_,?_⟩
    · intro hmem
      rw [hjn,mem_append,mem_singleton] at hmem
      rcases hmem with hdone | hlast
      · have hfor : SameFor u (u.loadState (dbs name) t) old (u.loadLink (dbs name) t j) := by
          refine ⟨hka.trans ha.symm,hkz.trans hz.symm,rfl,fun d hd => hstatus d ?_⟩
          rwa [Link.At,← ha,← hz]
        exact hfor.verified.mpr (hover (holdn ▸ hdone))
      · rw [hlast,hk] at hold
        cases hold
        exact absurd holdup hdown
    · intro hmem
      rw [hjn,mem_append,not_or] at hmem
      obtain ⟨hlup,hsame⟩ := hahead (holdn ▸ hmem.1)
      exact ⟨hlup,fun d hd => (hstatus d hd).trans (hsame d hd)⟩

theorem Progress.foldl (hok : RoundOk s dbs) (rest : List String) (hnodup : (done++rest).Nodup)
    (hnames : ∀ n∈rest,n∈s.links.map Link.name) (h : Progress timeout t s done u) :
    Progress timeout t s (done++rest)
      (rest.foldl (fun u name => u.checkLink timeout t (dbs name) name) u) := by
  induction rest generalizing done u with
  | nil => rwa [append_nil]
  | cons n rest ih =>
    have hn : n∈s.links.map Link.name := hnames n mem_cons_self
    have hnot : n∉done := by
      intro hdone
      exact (nodup_append.mp hnodup).2.2 n hdone n mem_cons_self rfl
    have hstep : Progress timeout t s (done++[n]) (u.checkLink timeout t (dbs n) n) := by
      rcases u.checkLink_cases timeout t (dbs n) n with hq | ⟨k,hk,hcrossed,hload⟩
      · exact h.quiet hn hq
      · rw [hload]
        exact h.load hok hn hnot hk hcrossed
    rw [append_cons] at hnodup ⊢
    exact ih hnodup (fun m hm => hnames m (mem_cons_of_mem n hm)) hstep

theorem doWork_progress (hok : RoundOk s dbs) :
    Progress timeout t s (s.links.map Link.name) (s.doWork timeout t false dbs) :=
  Progress.foldl hok (s.links.map Link.name) s.distinct (fun _ hn => hn) progress_start

theorem doWork_ups (hok : RoundOk s dbs) (hk : k∈(s.doWork timeout t false dbs).links)
    (hup : k.fvStatus=.up) : Verified timeout t (s.doWork timeout t false dbs) k := by
  obtain ⟨l,hl,hlk,-,-,hover,-⟩ := (doWork_progress hok).ups k hk hup
  exact hover (hlk ▸ mem_map_of_mem hl)

end Fv

def Event.heardAt (k : Nat×Nat) : Event → Option Heard
  | .packet dst p => if k=dst then some p else none
  | _ => none

def lastPacket (events : List Event) (k : Nat×Nat) : Option Heard :=
  events.reverse.findSome? (Event.heardAt k)

section History

variable {s : Fv} {timeout : Int} {k : Nat×Nat} {p : Heard} (events : List Event)

theorem lastPacket_snoc (e : Event) :
    lastPacket (events++[e]) k=(e.heardAt k).or (lastPacket events k) := by
  rw [lastPacket,reverse_append,reverse_singleton,singleton_append,findSome?_cons]
  cases e.heardAt k <;> rfl

theorem lastHeard_forget (links : List Link) (heard : Nat×Nat → Option Heard)
    (h : links.foldl (fun h l => Fv.forget l h) heard k=some p) : heard k=some p := by
  induction links generalizing heard with
  | nil => exact h
  | cons l links ih =>
    have hrest := ih (Fv.forget l heard) h
    unfold Fv.forget at hrest
    split_ifs at hrest
    exact hrest

theorem lastHeard_doWork (names : List String) (t : Int) (db : String → Snapshot) (s : Fv) :
    (names.foldl (fun u name => u.checkLink timeout t (db name) name) s).lastHeard=s.lastHeard := by
  induction names generalizing s with
  | nil => rfl
  | cons n names ih =>
    rw [foldl_cons,ih]
    rcases s.checkLink_cases timeout t (db n) n with hq | ⟨l,-,-,hload⟩
    · exact hq.heard
    · rw [hload]
      rfl

theorem lastHeard_step {e : Event} (h : (s.step timeout e).lastHeard k=some p) :
    (e.heardAt k).or (s.lastHeard k)=some p := by
  cases e with
  | packet dst q =>
    have hheard : (if k=dst then some q else s.lastHeard k)=some p := h
    change (if k=dst then some q else none).or (s.lastHeard k)=some p
    split_ifs at hheard ⊢ with hk
    all_goals exact hheard
  | port dpid port linkStatus t =>
    have hport : (s.portStatus dpid port linkStatus t).lastHeard k=some p := h
    unfold Fv.portStatus at hport
    split_ifs at hport
    · exact lastHeard_forget _ _ hport
    · exact hport
  | link db t | leave dpid | join dpid => exact h
  | work t overloaded db =>
    have hwork : (s.doWork timeout t overloaded db).lastHeard k=some p := h
    unfold Fv.doWork at hwork
    split_ifs at hwork
    · exact hwork
    · rwa [lastHeard_doWork] at hwork

theorem lastHeard_run (h : (run timeout events).lastHeard k=some p) :
    lastPacket events k=some p := by
  induction events using reverseRecOn generalizing p with
  | nil => cases h
  | append_singleton events e ih =>
    have hrun : run timeout (events++[e])=(run timeout events).step timeout e := by
      rw [run,foldl_append]
      rfl
    rw [hrun] at h
    rw [lastPacket_snoc]
    have hor := lastHeard_step h
    cases he : e.heardAt k with
    | some q =>
      rwa [he] at hor
    | none =>
      rw [he] at hor
      exact ih hor

end History

/-- At `t` the last packet at each end is the other's and young. -/
def Vouched (timeout t : Int) (events : List Event) (u : Fv) (l : Link) : Prop :=
  ∃ a z atA atZ,l.a.dpid=some a∧l.z.dpid=some z∧u.statusAt a=some .up∧u.statusAt z=some .up∧
    lastPacket events (a,l.a.port)=some atA∧atA.dpid=z∧atA.port=l.z.port∧t-atA.timestamp<timeout∧
    lastPacket events (z,l.z.port)=some atZ∧atZ.dpid=a∧atZ.port=l.a.port∧t-atZ.timestamp<timeout

theorem vouched_of_verified {timeout t : Int} {events : List Event} {l : Link}
    (h : Fv.Verified timeout t (run timeout events) l) :
    Vouched timeout t events (run timeout events) l := by
  obtain ⟨hdownA,hdownZ,atA,atZ,hatA,hatZ,hlined,hyoungA,hyoungZ⟩ := h
  obtain ⟨a,ha,hupA⟩ := Fv.down_eq_false.mp hdownA
  obtain ⟨z,hz,hupZ⟩ := Fv.down_eq_false.mp hdownZ
  have hheardA : (run timeout events).lastHeard (a,l.a.port)=some atA := by
    rwa [Fv.heardAt,ha] at hatA
  have hheardZ : (run timeout events).lastHeard (z,l.z.port)=some atZ := by
    rwa [Fv.heardAt,hz] at hatZ
  have horigin : l.z.dpid=some atA.dpid∧l.z.port=atA.port∧
      l.a.dpid=some atZ.dpid∧l.a.port=atZ.port := by simpa [Fv.linedUp] using hlined
  obtain ⟨hzd,hzp,had,hap⟩ := horigin
  have hdz : atA.dpid=z := some_inj.mp (hzd.symm.trans hz)
  have hda : atZ.dpid=a := some_inj.mp (had.symm.trans ha)
  exact ⟨a,z,atA,atZ,ha,hz,hupA,hupZ,lastHeard_run events hheardA,hdz,hzp.symm,hyoungA,
    lastHeard_run events hheardZ,hda,hap.symm,hyoungZ⟩

/-- A link is up only if both its ends vouch for it. -/
theorem round_vouched (timeout t : Int) (events : List Event) (db : String → Snapshot)
    (hok : Fv.RoundOk (run timeout events) db) :
    ∀ l∈(run timeout (events++[.work t false db])).links,l.fvStatus=.up →
      Vouched timeout t (events++[.work t false db])
        (run timeout (events++[.work t false db])) l := by
  intro l hl hup
  apply vouched_of_verified
  have hrun : run timeout (events++[.work t false db])=
      (run timeout events).doWork timeout t false db := by
    rw [run,foldl_append]
    rfl
  rw [hrun] at hl ⊢
  exact Fv.doWork_ups hok hl hup

theorem wireHeard_vouched :
    ((run 15000 (wireHeard++[.work 1500 false fun _ => wire])).links.map Link.fvStatus=[.up])∧
      ∀ l∈(run 15000 (wireHeard++[.work 1500 false fun _ => wire])).links,l.fvStatus=.up →
        Vouched 15000 1500 (wireHeard++[.work 1500 false fun _ => wire])
          (run 15000 (wireHeard++[.work 1500 false fun _ => wire])) l := by
  refine ⟨by decide +kernel,round_vouched 15000 1500 wireHeard (fun _ => wire) ⟨?_,?_⟩⟩
  · intro l hl hup
    rw [mem_singleton.mp hl] at hup
    cases hup
  · intro ⟨l,hl,hcrossed⟩
    rw [mem_singleton.mp hl] at hcrossed
    obtain ⟨-,-,atA,atZ,hatA,hatZ,hlined⟩ := hcrossed
    have hA : (run 15000 wireHeard).heardAt ⟨some 11,1⟩=some ⟨12,2,1000⟩ := by decide +kernel
    have hZ : (run 15000 wireHeard).heardAt ⟨some 12,2⟩=some ⟨11,1,1000⟩ := by decide +kernel
    cases hA.symm.trans hatA
    cases hZ.symm.trans hatZ
    cases hlined

/-- Its first end then hears port 5 of datapath 13 only. -/
def rewired : List Event := wireHeard++[.work 1500 false fun _ => wire,.packet (11,1) ⟨13,5,2000⟩,
    .work 100000 false fun _ => wire]

/-- The link stays up although the last packet came from elsewhere. -/
theorem rewired_stays_up : (run 15000 rewired).links.map Link.fvStatus=[.up]∧
    lastPacket rewired (11,1)=some ⟨13,5,2000⟩∧
    ∃ l∈(run 15000 rewired).links,l.fvStatus=.up∧
      ¬Vouched 15000 100000 rewired (run 15000 rewired) l := by
  have hlinks : (run 15000 rewired).links=[⟨"a-z",⟨some 11,1⟩,⟨some 12,2⟩,.up,1500⟩] := by
    decide +kernel
  have hlast : lastPacket rewired (11,1)=some ⟨13,5,2000⟩ := by decide +kernel
  refine ⟨by rw [hlinks]; rfl,hlast,_,hlinks ▸ mem_singleton_self _,rfl,?_⟩
  intro ⟨a,z,atA,atZ,ha,hz,_,_,hA,horigin,_⟩
  cases ha
  cases hz
  cases hlast.symm.trans hA
  cases horigin

end OESS.FV
