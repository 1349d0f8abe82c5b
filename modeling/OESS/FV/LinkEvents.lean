import Mathlib.Data.List.Chain
import OESS.Framework.Runs
import OESS.FV.Daemon

namespace OESS.FV

open OESS.Lookup Option

/-- The state after a write, with the event sent before it. -/
structure Moment where
  state : Fv
  sent : Option (String×LinkStatus)

namespace Fv

variable (s : Fv)

def fvStatus (name : String) : Option LinkStatus := (s.link name).map Link.fvStatus

/-- The turn of a link that is not verified: `v` if the link was up and is down. -/
def unverified (timeout t : Int) (l : Link) (v : Fv) : Moment :=
  match l.fvStatus with
  | .up => ⟨v,some (l.name,.down)⟩
  | .unknown =>
    if t-l.lastVerified>timeout then ⟨s.mark l.name .down t,some (l.name,.down)⟩ else ⟨s,none⟩
  | .down => ⟨s,none⟩

/-- The turn of a link in `do_work` with the event it sends. -/
def turn (timeout t : Int) (db : Snapshot) (name : String) : Moment :=
  match s.link name with
  | none => ⟨s.markBlank t,none⟩
  | some l =>
    if s.down l.a then ⟨s.mark l.name .unknown t,none⟩
    else if s.down l.z then ⟨s.mark l.name .unknown t,none⟩
    else match s.heardAt l.a,s.heardAt l.z with
      | some atA,some atZ =>
        if linedUp l atA atZ then
          if t-atA.timestamp<timeout∧t-atZ.timestamp<timeout then
            match l.fvStatus with
            | .up => ⟨s.mark l.name .up t,none⟩
            | _ => ⟨s.mark l.name .up t,some (l.name,.up)⟩
          else s.unverified timeout t l (s.markStatus l.name .down)
        else ⟨s.loadState db t,none⟩
      | _,_ => s.unverified timeout t l (s.mark l.name .down t)

def turns (timeout t : Int) (db : String → Snapshot) : Fv → List String → List Moment
  | _,[] => []
  | s,name::names =>
    s.turn timeout t (db name) name::turns timeout t db (s.turn timeout t (db name) name).state names

def moments (timeout : Int) : Event → List Moment
  | .work t false db => turns timeout t db s (s.links.map Link.name)
  | e => [⟨s.step timeout e,none⟩]

def history (timeout : Int) : Fv → List Event → List Moment
  | _,[] => []
  | s,e::events => s.moments timeout e++history timeout (s.step timeout e) events

end Fv

/-- What was sent for a link, and its status then. -/
structure Entry where
  (sent status : Option LinkStatus)
  deriving DecidableEq

def Moment.entry (name : String) (m : Moment) : Entry :=
  ⟨m.sent.bind fun e => if e.1=name then some e.2 else none,m.state.fvStatus name⟩

/-- What happens to a link from moment to moment. -/
def log (timeout : Int) (name : String) (events : List Event) : List Entry :=
  (Fv.history timeout Fv.new events).map (Moment.entry name)

/-- An event sets its status; else it stays, is unknown or gone. -/
structure Entry.Follows (a b : Entry) : Prop where
  silent : b.sent=none → b.status=a.status∨b.status=none∨b.status=some .unknown
  sends : ∀ x,b.sent=some x → a.status≠none∧a.status≠some x∧b.status=some x

namespace Fv

variable {s u : Fv} {l : Link} {name : String} {timeout t : Int}

/-- Each link keeps its status, is unknown or gone. -/
def Silent (s u : Fv) : Prop :=
  ∀ name,u.fvStatus name=s.fvStatus name∨u.fvStatus name=none∨u.fvStatus name=some .unknown

theorem Silent.follows (h : Silent s u) (name : String) (sent : Option LinkStatus) :
    Entry.Follows ⟨sent,s.fvStatus name⟩ (Moment.entry name ⟨u,none⟩) :=
  ⟨fun _ => h name,fun _ hx => nomatch hx⟩

theorem silent_refl : Silent s s := fun _ => .inl rfl

variable (db : Snapshot) {f : Link → Link} {status : LinkStatus}

theorem fvStatus_map (hu : u.links=s.links.map f) (hf : ∀ l,(f l).name=l.name) :
    u.fvStatus name=(s.link name).map fun l => (f l).fvStatus := by
  rw [fvStatus,link,hu,lookup_map hf,map_map]
  rfl

theorem silent_map (hu : u.links=s.links.map f) (hf : ∀ l,(f l).name=l.name)
    (h : ∀ l,(f l).fvStatus=l.fvStatus∨(f l).fvStatus=.unknown) : Silent s u := by
  intro name
  rw [fvStatus_map hu hf,fvStatus]
  cases s.link name with
  | none => exact .inl rfl
  | some l =>
    rcases h l with hl | hl
    · exact .inl (congrArg some hl)
    · exact .inr (.inr (congrArg some hl))

theorem silent_reset {chosen : Link → Prop} [DecidablePred chosen] (hu : u.links=s.links.map fun l =>
    if chosen l then {l with fvStatus := .unknown,lastVerified := t} else l) : Silent s u := by
  apply silent_map hu
  · intro l
    split_ifs <;> rfl
  · intro l
    split_ifs
    · exact .inr rfl
    · exact .inl rfl

theorem silent_unknown : Silent s (s.mark name .unknown t) := silent_reset rfl

theorem fvStatus_change {hf : ∀ l,(f l).name=l.name∧(f l).a=l.a∧(f l).z=l.z}
    (hl : s.link name=some l) (hother : ∀ m,m.name≠name → f m=m) (k : String) :
    (s.modify f hf).fvStatus k=if k=name then some (f l).fvStatus else s.fvStatus k := by
  rw [fvStatus_map rfl fun l => (hf l).1]
  split_ifs with hk
  · rw [hk,hl,map_some]
  unfold fvStatus
  cases hfound : s.link k with
  | none => rfl
  | some m =>
    have hm : m.name≠name := fun h => hk ((lookup_spec hfound).2.symm.trans h)
    rw [map_some,hother m hm,map_some]

theorem fvStatus_mark (hl : s.link name=some l) (k : String) :
    (s.mark name status t).fvStatus k=if k=name then some status else s.fvStatus k := by
  rw [mark,fvStatus_change hl (fun m hm => if_neg hm),if_pos (lookup_spec hl).2]

theorem fvStatus_markStatus (hl : s.link name=some l) (k : String) :
    (s.markStatus name status).fvStatus k=if k=name then some status else s.fvStatus k := by
  rw [markStatus,fvStatus_change hl (fun m hm => if_neg hm),if_pos (lookup_spec hl).2]

theorem silent_markBlank : Silent s (s.markBlank t) := by
  unfold markBlank
  split_ifs with hblank
  · exact silent_unknown
  intro name
  unfold fvStatus link
  rw [lookup_append_singleton]
  cases lookup Link.name name s.links with
  | some l => exact .inl rfl
  | none =>
    by_cases hname : ""=name
    · rw [if_pos hname]
      exact .inr (.inr rfl)
    · rw [if_neg hname]
      exact .inl rfl

theorem silent_loadState : Silent s (s.loadState db t) := by
  intro name
  cases hfound : (s.loadState db t).link name with
  | none => exact .inr (.inl (congrArg (Option.map Link.fvStatus) hfound))
  | some l =>
    obtain ⟨hmem,hname⟩ := lookup_spec hfound
    obtain ⟨k,hk,rfl⟩ := List.mem_map.mp hmem
    have hkname : k.name=name := (s.loadLink_fields db t k).1.symm.trans hname
    have hstatus : (s.loadState db t).fvStatus name=some (s.loadLink db t k).fvStatus :=
      congrArg (Option.map Link.fvStatus) hfound
    rw [hstatus,fvStatus,loadLink,hkname]
    cases s.link name with
    | none => exact .inr (.inr rfl)
    | some old => exact .inl rfl

theorem silent_portStatus (dpid port : Nat) (linkStatus : Option Nat) :
    Silent s (s.portStatus dpid port linkStatus t) := by
  unfold portStatus
  split_ifs
  · exact silent_reset rfl
  · exact silent_refl

theorem turn_state : (s.turn timeout t db name).state=s.checkLink timeout t db name := by
  unfold turn checkLink
  cases hl : s.link name with
  | none => rfl
  | some l =>
    have hname : l.name=name := (lookup_spec hl).2
    have hunverified (v : Fv) : (s.unverified timeout t l v).state=
        (match l.fvStatus with
          | .up => v
          | .unknown => if t-l.lastVerified>timeout then s.mark name .down t else s
          | .down => s) := by
      rw [unverified,hname]
      cases l.fvStatus with
      | unknown =>
        split_ifs <;> rfl
      | _ => rfl
    dsimp only
    rw [hname]
    by_cases ha : s.down l.a=true
    · rw [if_pos ha,if_pos ha]
    rw [if_neg ha,if_neg ha]
    by_cases hz : s.down l.z=true
    · rw [if_pos hz,if_pos hz]
    rw [if_neg hz,if_neg hz]
    cases s.heardAt l.a with
    | none => exact hunverified _
    | some atA =>
      cases s.heardAt l.z with
      | none => exact hunverified _
      | some atZ =>
        dsimp only
        by_cases hlined : linedUp l atA atZ=true
        · rw [if_pos hlined,if_pos hlined]
          by_cases hyoung : t-atA.timestamp<timeout∧t-atZ.timestamp<timeout
          · rw [if_pos hyoung,if_pos hyoung]
            cases l.fvStatus <;> rfl
          · rw [if_neg hyoung,if_neg hyoung]
            exact hunverified _
        · rw [if_neg hlined,if_neg hlined]

theorem follows_sent {x : LinkStatus} (hl : s.link name=some l) (hx : l.fvStatus≠x)
    (hu : ∀ k,u.fvStatus k=if k=name then some x else s.fvStatus k) (k : String)
    (sent : Option LinkStatus) :
    Entry.Follows ⟨sent,s.fvStatus k⟩ (Moment.entry k ⟨u,some (name,x)⟩) := by
  unfold Moment.entry
  dsimp only [bind_some]
  rw [hu]
  by_cases hk : name=k
  · rw [if_pos hk,if_pos hk.symm]
    refine ⟨by simp,fun y hy => ?_⟩
    cases hy
    rw [fvStatus,← hk,hl]
    exact ⟨by simp,fun h => hx (some_inj.mp h),rfl⟩
  · rw [if_neg hk,if_neg (Ne.symm hk)]
    exact ⟨fun _ => .inl rfl,fun y hy => nomatch hy⟩

theorem follows_unverified {v : Fv} (hl : s.link name=some l)
    (hv : ∀ k,v.fvStatus k=if k=name then some .down else s.fvStatus k) (k : String)
    (sent : Option LinkStatus) :
    Entry.Follows ⟨sent,s.fvStatus k⟩ (Moment.entry k (s.unverified timeout t l v)) := by
  have hname : l.name=name := (lookup_spec hl).2
  rw [unverified,hname]
  cases hstatus : l.fvStatus with
  | up => exact follows_sent hl (by simp [hstatus]) hv k sent
  | down => exact silent_refl.follows k sent
  | unknown =>
    split_ifs
    · exact follows_sent hl (by simp [hstatus]) (fvStatus_mark hl) k sent
    · exact silent_refl.follows k sent

theorem follows_turn (k : String) (sent : Option LinkStatus) :
    Entry.Follows ⟨sent,s.fvStatus k⟩ (Moment.entry k (s.turn timeout t db name)) := by
  unfold turn
  cases hl : s.link name with
  | none => exact silent_markBlank.follows k sent
  | some l =>
    have hname : l.name=name := (lookup_spec hl).2
    dsimp only
    rw [hname]
    have hunheard : Entry.Follows ⟨sent,s.fvStatus k⟩
        (Moment.entry k (s.unverified timeout t l (s.mark name .down t))) :=
      follows_unverified hl (fvStatus_mark hl) k sent
    split_ifs
    · exact silent_unknown.follows k sent
    · exact silent_unknown.follows k sent
    · cases s.heardAt l.a with
      | none => exact hunheard
      | some atA =>
        cases s.heardAt l.z with
        | none => exact hunheard
        | some atZ =>
          dsimp only
          split_ifs
          · cases hstatus : l.fvStatus with
            | up =>
              have hsame : Silent s (s.mark name .up t) := by
                intro m
                rw [fvStatus_mark hl]
                split_ifs with hm
                · rw [hm,fvStatus,hl,map_some,hstatus]
                  exact .inl rfl
                · exact .inl rfl
              exact hsame.follows k sent
            | down | unknown => exact follows_sent hl (by simp [hstatus]) (fvStatus_mark hl) k sent
          · exact follows_unverified hl (fvStatus_markStatus hl) k sent
          · exact (silent_loadState db).follows k sent

theorem follows_step {e : Event} (he : ∀ t db,e≠.work t false db) (k : String)
    (sent : Option LinkStatus) :
    Entry.Follows ⟨sent,s.fvStatus k⟩ (Moment.entry k ⟨s.step timeout e,none⟩) := by
  apply Silent.follows
  cases e with
  | packet dst p => exact fun _ => .inl rfl
  | port dpid port linkStatus t => exact silent_portStatus dpid port linkStatus
  | link db t => exact silent_loadState db
  | leave dpid | join dpid => exact fun _ => .inl rfl
  | work t overloaded db =>
    cases overloaded with
    | false => exact absurd rfl (he t db)
    | true => exact silent_map rfl (fun _ => rfl) fun _ => .inr rfl

variable {rest : List Entry}

theorem isChain_turns (db : String → Snapshot) (k : String) (names : List String)
    (hrest : ∀ sent,List.IsChain Entry.Follows
      (⟨sent,(names.foldl (fun u name => u.checkLink timeout t (db name) name) s).fvStatus k⟩::rest))
    (sent : Option LinkStatus) : List.IsChain Entry.Follows
      (⟨sent,s.fvStatus k⟩::((turns timeout t db s names).map (Moment.entry k)++rest)) := by
  induction names generalizing s sent with
  | nil => exact hrest sent
  | cons name names ih =>
    apply List.IsChain.cons_cons (follows_turn (db name) k sent)
    apply ih
    rwa [turn_state]

theorem isChain_moments (e : Event) (k : String)
    (hrest : ∀ sent,List.IsChain Entry.Follows (⟨sent,(s.step timeout e).fvStatus k⟩::rest))
    (sent : Option LinkStatus) : List.IsChain Entry.Follows
      (⟨sent,s.fvStatus k⟩::((s.moments timeout e).map (Moment.entry k)++rest)) := by
  have hone (he : ∀ t db,e≠.work t false db) : List.IsChain Entry.Follows
      (⟨sent,s.fvStatus k⟩::([⟨s.step timeout e,none⟩].map (Moment.entry k)++rest)) :=
    List.IsChain.cons_cons (follows_step he k sent) (hrest none)
  cases e with
  | work t overloaded db =>
    cases overloaded with
    | false => exact isChain_turns db k _ hrest sent
    | true => exact hone (by simp)
  | _ => exact hone (by simp)

theorem isChain_history (events : List Event) (k : String) (sent : Option LinkStatus) :
    List.IsChain Entry.Follows
      (⟨sent,s.fvStatus k⟩::(history timeout s events).map (Moment.entry k)) := by
  induction events generalizing s sent with
  | nil => exact List.isChain_singleton _
  | cons e events ih =>
    rw [history,List.map_append]
    exact isChain_moments e k (fun sent => ih sent) sent

end Fv

theorem isChain_log (timeout : Int) (name : String) (events : List Event) :
    List.IsChain Entry.Follows (⟨none,none⟩::log timeout name events) :=
  Fv.isChain_history (s := Fv.new) events name none

/-- Between two equal events sent for a link its status was unknown. -/
theorem log_separated (timeout : Int) (name : String) (events : List Event) (x : LinkStatus)
    {past mid future : List Entry} {a b : Entry}
    (hlog : log timeout name events=past++(a::mid++b::future)) (ha : a.sent=some x)
    (hb : b.sent=some x) (hmid : ∀ e∈mid,e.sent=none) : ∃ e∈mid,e.status=some .unknown := by
  have hchain : List.IsChain Entry.Follows ((⟨none,none⟩::past)++(a::mid++b::future)) := by
    rw [List.cons_append,← hlog]
    exact isChain_log timeout name events
  obtain ⟨-,hlater,hfirst⟩ := List.isChain_append.mp hchain
  have hstatus : a.status=some x := by
    obtain ⟨e,he⟩ := List.getLast?_isSome.mpr (List.cons_ne_nil ⟨none,none⟩ past)
      |> isSome_iff_exists.mp
    exact ((hfirst e he a rfl).sends x ha).2.2
  have hbetween : List.IsChain Entry.Follows (a::mid++[b]) := by
    rw [← List.singleton_append (l := future),← List.append_assoc] at hlater
    exact hlater.left_of_append
  -- Until it is unknown, the link has the status of the event or has left the daemon.
  have hstep (d e : Entry) (hde : d.Follows e) (hd : d.status=some x∨d.status=none) :
      (e.status=some x∨e.status=none)∨(e.status=some .unknown∨e.sent≠none) := by
    by_cases hsent : e.sent=none
    · rcases hde.silent hsent with hsame | hnone | hunknown
      · exact .inl (hsame ▸ hd)
      · exact .inl (.inr hnone)
      · exact .inr (.inl hunknown)
    · exact .inr (.inr hsent)
  rcases Runs.isChain_until hstep hbetween (.inl hstatus) with ⟨e,he,hunknown⟩ | ⟨d,hd,hdb⟩
  · exact ⟨e,he,hunknown.resolve_right fun hsent => hsent (hmid e he)⟩
  · obtain ⟨hsome,hother,-⟩ := hdb.sends x hb
    exact absurd hd (not_or.mpr ⟨hother,hsome⟩)

/-- Found up, its port comes up again, and found up once more. -/
def upTwice : List Event :=
  wireHeard++.work 1500 false (fun _ => ⟨[],[],by decide⟩)::.port 11 1 (some 1) 1600::wireHeard++
    [.work 1700 false fun _ => ⟨[],[],by decide⟩]

theorem upTwice_separated : log 15000 "a-z" upTwice=
    [⟨none,some .unknown⟩,⟨none,some .unknown⟩,⟨none,some .unknown⟩]++
      (⟨some .up,some .up⟩::[⟨none,some .unknown⟩,⟨none,some .unknown⟩,⟨none,some .unknown⟩,
        ⟨none,some .unknown⟩]++⟨some .up,some .up⟩::[])∧
    ∃ e∈[⟨none,some .unknown⟩,⟨none,some .unknown⟩,⟨none,some .unknown⟩,⟨none,some .unknown⟩],
      (e : Entry).status=some .unknown := by
  have hlog : log 15000 "a-z" upTwice=
      [⟨none,some .unknown⟩,⟨none,some .unknown⟩,⟨none,some .unknown⟩]++
        (⟨some .up,some .up⟩::[⟨none,some .unknown⟩,⟨none,some .unknown⟩,⟨none,some .unknown⟩,
          ⟨none,some .unknown⟩]++⟨some .up,some .up⟩::[]) := by decide +kernel
  exact ⟨hlog,log_separated 15000 "a-z" upTwice .up hlog rfl rfl (by decide)⟩

end OESS.FV
