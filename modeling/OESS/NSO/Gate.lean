import OESS.NSO.Converge

namespace OESS.NSO

open List

/-- The configuration of the device changes. -/
def Touches (s : Controller) : Change → String → Prop
  | .create c,d => ∃ e∈c.active,e.shortNodeName=d
  | .edit c,d => ∃ x∈s.nso,x.key=c.key∧∃ y,y.device=d∧
      ((y∈x.endpoint∧y∉(Client.payload s.localAsn c).endpoint)∨
        (y∈(Client.payload s.localAsn c).endpoint∧y∉x.endpoint))
  | .delete x,d => ∃ y∈x.endpoint,y.device=d

/-- No change goes to NSO that touches a pending device. -/
def GateHolds (s : Controller) : Prop :=
  ∀ ch∈s.issued,∀ d,Touches s ch d → s.diff.pendingDiff d≠.pending

/-- Nothing is removed from, and no connection leaves, a blocked device. -/
structure GateSuffices (s : Controller) : Prop where
  removals : ∀ x∈s.leftovers,∀ y∈x.endpoint,¬Blocked s y.device
  edits : ∀ c∈s.compared,∀ x∈s.nso,x.key=c.key → nsoDiff c (some x)≠[] →
    (∀ e∈c.endpoints,¬Blocked s e.shortNodeName) →
    ∀ y∈x.endpoint,(∀ e∈c.endpoints,e.shortNodeName≠y.device) → ¬Blocked s y.device

theorem mem_issued (s : Controller) (ch : Change) : ch∈s.issued ↔
    ch∈s.sync.changes∧withheld s.diff.pendingDiff ch=false := by
  rw [Controller.issued,mem_filter,Bool.not_eq_true']
  rfl

theorem payload_device {localAsn : Nat} {c : Connection} {y : NsoEndpoint}
    (h : y∈(Client.payload localAsn c).endpoint) : ∃ e∈c.endpoints,e.shortNodeName=y.device := by
  unfold Client.payload at h
  cases hl : c.layer <;> rw [hl] at h <;> obtain ⟨e,he,rfl⟩ := mem_map.mp h
  all_goals exact ⟨e,(mem_filter.mp he).1,rfl⟩

/-- The gate holds exactly when no removal and no edit takes anything from a blocked device. -/
theorem gate_holds_iff (s : Controller) (hnso : (s.nso.map NsoConnection.key).Nodup)
    (hnode : s.nodePending ""=none) (hname : s.pendingDiff ""=.none) :
    GateHolds s ↔ GateSuffices s := by
  have hempty : ¬Blocked s "" := by
    rw [Blocked,hnode]
    simp [hname]
  have hremoval (x : NsoConnection) : withheld s.diff.pendingDiff (.delete x)=false := by
    have := mt (blocked_iff s "").mp hempty
    simp [withheld,this]
  have hedit (c : Connection) : withheld s.diff.pendingDiff (.edit c)=false ↔
      ∀ e∈c.endpoints,¬Blocked s e.shortNodeName := by
    simp [withheld,blocked_iff]
  constructor
  · intro h
    refine ⟨?_,?_⟩
    · intro x hx y hy hb
      have hch : Change.delete x∈s.issued :=
        (mem_issued s _).mpr ⟨(mem_changes hnso _).mpr (.inr (.inr ⟨x,hx,rfl⟩)),hremoval x⟩
      exact h _ hch y.device ⟨y,hy,rfl⟩ ((blocked_iff s _).mpr hb)
    · intro c hc x hx hk hd hfree y hy haway hb
      have hch : Change.edit c∈s.issued := (mem_issued s _).mpr
        ⟨(mem_changes hnso _).mpr (.inr (.inl ⟨c,hc,x,hx,hk,hd,rfl⟩)),(hedit c).mpr hfree⟩
      have hgone : y∉(Client.payload s.localAsn c).endpoint := by
        intro hmem
        obtain ⟨e,he,hed⟩ := payload_device hmem
        exact haway e he hed
      exact h _ hch y.device ⟨x,hx,hk,y,rfl,.inl ⟨hy,hgone⟩⟩ ((blocked_iff s _).mpr hb)
  · intro h ch hch d htouch hpend
    have hb : Blocked s d := (blocked_iff s d).mp hpend
    obtain ⟨hmem,hpass⟩ := (mem_issued s ch).mp hch
    rcases (mem_changes hnso ch).mp hmem with ⟨c,-,-,-,rfl⟩ | ⟨c,hc,x,hx,hk,hd,rfl⟩ | ⟨x,hx,rfl⟩
    · obtain ⟨e,he,rfl⟩ := htouch
      have hclear : ∀ e∈c.endpoints,¬Blocked s e.shortNodeName := (hedit c).mp hpass
      exact hclear e (mem_filter.mp he).1 hb
    · have hclear := (hedit c).mp hpass
      obtain ⟨x',hx',hk',y,rfl,hy⟩ := htouch
      obtain rfl : x'=x := inj_on_of_nodup_map hnso hx' hx (hk'.trans hk.symm)
      by_cases hin : ∃ e∈c.endpoints,e.shortNodeName=y.device
      · obtain ⟨e,he,hed⟩ := hin
        exact hclear e he (hed ▸ hb)
      · rcases hy with ⟨hy,-⟩ | ⟨hy,-⟩
        · exact h.edits c hc x' hx hk hd hclear y hy (fun e he hed => hin ⟨e,he,hed⟩) hb
        · exact hin (payload_device hy)
    · obtain ⟨y,hy,rfl⟩ := htouch
      exact h.removals x hx y hy hb

/-- A service that is in no cache, on port ge0 of the router. -/
def stale : NsoConnection := ⟨.l2,9,[⟨91,"r1","ge0",100,0,100,none,none,[]⟩],none⟩

theorem router_gate_holds : GateHolds (router [vlan5] .none []) := by
  refine (gate_holds_iff _ (by decide) (by decide) rfl).mpr ⟨?_,?_⟩
  · intro x hx
    cases hx
  · intro c _ x hx
    cases hx

/-- A removal is sent to a router just put on hold. -/
theorem router_gate_fails : (router [] .none [stale]).diff.pendingDiff "r1"=.pending∧
    ¬GateHolds (router [] .none [stale]) := by
  have hpending : (router [] .none [stale]).diff.pendingDiff "r1"=.pending := by decide
  refine ⟨hpending,fun h => ?_⟩
  have hissued : Change.delete stale∈(router [] .none [stale]).issued := by decide
  exact h _ hissued "r1" ⟨_,mem_singleton_self _,rfl⟩ hpending

end OESS.NSO
