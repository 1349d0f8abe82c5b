import OESS.NSO.Diff

namespace OESS.NSO

open List KeyedTable

/-- A cached connection has an endpoint on a node that NSO controls. -/
def Served (s : Controller) (conns : List Connection) (c : Connection) : Prop :=
  c∈conns∧∃ n∈s.nodes,Cache.OnNode c n.nodeId

variable {s : Controller} {conns : List Connection}

theorem mem_visits (h : s.cache.Holds conns) (c : Connection) : c∈s.visits ↔ Served s conns c := by
  have hlayer : c.layer=.l2∨c.layer=.l3 := by cases c.layer <;> simp
  have hstored := fun layer node => h layer node c
  simp only [Controller.visits,mem_flatMap,mem_append,hstored]
  constructor
  · rintro ⟨n,hn,⟨hc,-,hon⟩ | ⟨hc,-,hon⟩⟩
    all_goals exact ⟨hc,n,hn,hon⟩
  · intro ⟨hc,n,hn,hon⟩
    exact ⟨n,hn,hlayer.imp (fun hl => ⟨hc,hl,hon⟩) (fun hl => ⟨hc,hl,hon⟩)⟩

/-- The same lists of peers, in any order. -/
def SameEndpoint (x y : NsoEndpoint) : Prop :=
  {x with peer := []}={y with peer := []}∧∀ p,p∈x.peer ↔ p∈y.peer

/-- Endpoints and peers are taken as sets keyed by ids. -/
structure SamePayload (a b : NsoConnection) : Prop where
  key : a.key=b.key
  workgroup : a.workgroup=b.workgroup
  sent : ∀ x∈a.endpoint,∃ y∈b.endpoint,SameEndpoint x y
  held : ∀ y∈b.endpoint,∃ x∈a.endpoint,SameEndpoint x y

theorem SamePayload.refl (a : NsoConnection) : SamePayload a a :=
  ⟨rfl,rfl,fun x hx => ⟨x,hx,rfl,fun _ => .rfl⟩,fun x hx => ⟨x,hx,rfl,fun _ => .rfl⟩⟩

/-- NSO is in line with the cached connections. -/
structure Converges (s : Controller) (conns : List Connection) : Prop where
  kept : ∀ c,Served s conns c → ∀ x,Change.delete x∈s.issued → x.key≠c.key
  held : ∀ c,Served s conns c → ∃ x∈s.diff.nso,SamePayload (Client.payload s.localAsn c) x
  only : ∀ x∈s.diff.nso,∃ c,Served s conns c∧x.key=c.key
  unique : (s.diff.nso.map NsoConnection.key).Nodup

/-- Ids are of one layer, and what looks the same is. -/
structure Comparable (s : Controller) (conns : List Connection) : Prop where
  ids : ∀ c d,Served s conns c → Served s conns d → c.layer≠d.layer → c.connId≠d.connId
  rest : ∀ c,Served s conns c → ∀ x∈s.nso,x.key=c.key → AgreesWith c x →
    SamePayload (Client.payload s.localAsn c) x

theorem issued_eq (hfree : ∀ d,s.diff.pendingDiff d≠.pending) : s.issued=s.sync.changes := by
  refine filter_eq_self.mpr fun ch _ => ?_
  have hno : ∀ d,s.settleNodes.pendingDiff d≠.pending := hfree
  cases ch <;> simp [withheld,hno]

section Round

variable {s : Controller} (hnso : (s.nso.map NsoConnection.key).Nodup)

include hnso

/-- A compared connection that NSO lacks or holds differently is sent, other services are kept. -/
theorem mem_diff_nso (hfree : ∀ d,s.diff.pendingDiff d≠.pending) (x : NsoConnection) :
    x∈s.diff.nso ↔
      (∃ c∈s.compared,x=Client.payload s.localAsn c∧
        ((c.key∉s.nso.map NsoConnection.key∧nsoDiff c none≠[])∨
          ∃ y∈s.nso,y.key=c.key∧nsoDiff c (some y)≠[]))∨
      (x∈s.nso∧∃ c∈s.compared,c.key=x.key∧nsoDiff c (some x)=[]) := by
  have hmem := mem_changes hnso
  have hnew : ∀ c,Change.create c∈s.sync.changes → c.key∉s.nso.map NsoConnection.key := by
    intro c hc
    rcases (hmem _).mp hc with ⟨d,-,hd,-,he⟩ | ⟨d,-,y,-,-,-,he⟩ | ⟨y,-,he⟩
    · rwa [Change.create.inj he]
    · cases he
    · cases he
  have hcalls : s.diff.nso=s.sync.changes.foldl (call s.localAsn) s.nso := by
    rw [Controller.diff]
    rw [issued_eq hfree]
  rw [hcalls,mem_calls s.localAsn (changes_keys_nodup hnso) hnew x]
  refine or_congr ?_ (and_congr_right fun hx => ?_)
  · constructor
    · rintro ⟨ch,hch,c,hc,rfl⟩
      rcases (hmem ch).mp hch with ⟨d,hd,hdk,hdn,rfl⟩ | ⟨d,hd,y,hy,hyk,hyn,rfl⟩ | ⟨y,-,rfl⟩
      · obtain rfl : d=c := by simpa using hc
        exact ⟨d,hd,rfl,.inl ⟨hdk,hdn⟩⟩
      · obtain rfl : d=c := by simpa using hc
        exact ⟨d,hd,rfl,.inr ⟨y,hy,hyk,hyn⟩⟩
      · simp at hc
    · rintro ⟨c,hc,rfl,⟨hk,hn⟩ | ⟨y,hy,hyk,hyn⟩⟩
      · exact ⟨.create c,(hmem _).mpr (.inl ⟨c,hc,hk,hn,rfl⟩),c,.inl rfl,rfl⟩
      · exact ⟨.edit c,(hmem _).mpr (.inr (.inl ⟨c,hc,y,hy,hyk,hyn,rfl⟩)),c,.inr rfl,rfl⟩
  · constructor
    · intro hfree
      by_cases hcov : x.key∈s.compared.map Connection.key
      · obtain ⟨c,hc,hk⟩ := mem_map.mp hcov
        refine ⟨c,hc,hk,?_⟩
        by_contra hn
        have hch : Change.edit c∈s.sync.changes :=
          (hmem _).mpr (.inr (.inl ⟨c,hc,x,hx,hk.symm,hn,rfl⟩))
        exact hfree (mem_map.mpr ⟨_,hch,hk⟩)
      · have hleft : x∈s.leftovers := mem_filter.mpr ⟨hx,decide_eq_true hcov⟩
        have hch : Change.delete x∈s.sync.changes := (hmem _).mpr (.inr (.inr ⟨x,hleft,rfl⟩))
        exact absurd (mem_map.mpr ⟨_,hch,rfl⟩) hfree
    · intro h hcov
      obtain ⟨c,hc,hk,hn⟩ := h
      obtain ⟨ch,hch,hchk⟩ := mem_map.mp hcov
      have hinj {d : Connection} (hd : d∈s.compared) (he : d.key=x.key) : d=c :=
        inj_on_of_nodup_map (compared_keys_nodup s) hd hc (he.trans hk.symm)
      rcases (hmem ch).mp hch with ⟨d,-,hdk,-,rfl⟩ | ⟨d,hd,y,hy,hyk,hyn,rfl⟩ | ⟨y,hy,rfl⟩
      · exact hdk (mem_map.mpr ⟨x,hx,hchk.symm⟩)
      · obtain rfl := hinj hd hchk
        rw [inj_on_of_nodup_map hnso hy hx (hyk.trans hk)] at hyn
        exact hyn hn
      · have hy' := (mem_filter.mp hy).2
        rw [decide_eq_true_eq] at hy'
        exact hy' (mem_map.mpr ⟨c,hc,hk.trans hchk.symm⟩)

end Round

theorem compared_served (hcache : s.cache.Holds conns) {c : Connection} (hc : c∈s.compared) :
    Served s conns c :=
  (mem_visits hcache c).mp ((firsts_spec Connection.connId s.visits).2.1 c hc)

theorem mem_compared (hcache : s.cache.Holds conns) (hkeys : (conns.map Connection.key).Nodup)
    (hids : ∀ c d,Served s conns c → Served s conns d → c.layer≠d.layer → c.connId≠d.connId)
    {c : Connection} (hc : Served s conns c) : c∈s.compared := by
  have hid := (firsts_spec Connection.connId s.visits).2.2 c ((mem_visits hcache c).mpr hc)
  obtain ⟨d,hd,he⟩ := mem_map.mp hid
  have hds : Served s conns d := compared_served hcache hd
  have hlayer : d.layer=c.layer := by
    by_contra hne
    exact hids d c hds hc hne he
  have hdc : d=c := inj_on_of_nodup_map hkeys hds.1 hc.1 (Prod.ext hlayer he)
  exact hdc ▸ hd

/-- With no device pending a round brings NSO in line exactly when the connections are
comparable. -/
theorem diff_converges_iff (s : Controller) (conns : List Connection)
    (hcache : s.cache.Holds conns) (hkeys : (conns.map Connection.key).Nodup)
    (hconns : ∀ c∈conns,c.Keyed∧c.active≠[]) (hnso : (s.nso.map NsoConnection.key).Nodup)
    (hservices : ∀ x∈s.nso,x.Keyed) (hfree : ∀ d,s.diff.pendingDiff d≠.pending) :
    Converges s conns ↔ Comparable s conns := by
  have hnsoMem := mem_diff_nso hnso hfree
  have hinj {x y : NsoConnection} (hx : x∈s.nso) (hy : y∈s.nso) (h : x.key=y.key) : x=y :=
    inj_on_of_nodup_map hnso hx hy h
  constructor
  · intro h
    have hcovered : ∀ c,Served s conns c → c.key∈s.compared.map Connection.key := by
      intro c hc
      obtain ⟨x,hx,hsame⟩ := h.held c hc
      have hxk : x.key=c.key := hsame.key.symm.trans (Client.payload_key _ _)
      rcases (hnsoMem x).mp hx with ⟨d,hd,rfl,-⟩ | ⟨-,d,hd,hdk,-⟩
      · rw [← hxk,Client.payload_key]
        exact mem_map_of_mem hd
      · rw [← hxk,← hdk]
        exact mem_map_of_mem hd
    have hids : ∀ c d,Served s conns c → Served s conns d → c.layer≠d.layer →
        c.connId≠d.connId := by
      intro c d hc hd hne he
      obtain ⟨c',hc',hck⟩ := mem_map.mp (hcovered c hc)
      obtain ⟨d',hd',hdk⟩ := mem_map.mp (hcovered d hd)
      have hsame : c'.connId=d'.connId :=
        (congrArg Prod.snd hck).trans (he.trans (congrArg Prod.snd hdk).symm)
      have hcd := inj_on_of_nodup_map
        (firsts_spec Connection.connId s.visits).1 hc' hd' hsame
      exact hne ((congrArg Prod.fst hck).symm.trans (hcd ▸ congrArg Prod.fst hdk))
    refine ⟨hids,fun c hc x hx hxk hagree => ?_⟩
    have hcmem := mem_compared hcache hkeys hids hc
    have hquiet : nsoDiff c (some x)=[] :=
      (nsoDiff_nil_iff (hconns c hc.1).1 (hservices x hx) (hconns c hc.1).2).mpr hagree
    obtain ⟨y,hy,hsame⟩ := h.held c hc
    have hyk : y.key=c.key := hsame.key.symm.trans (Client.payload_key _ _)
    rcases (hnsoMem y).mp hy with ⟨d,hd,rfl,hreq⟩ | ⟨hy,-⟩
    · have hdc : d=c := inj_on_of_nodup_map (compared_keys_nodup s) hd hcmem
        ((Client.payload_key _ _).symm.trans hyk)
      rw [hdc] at hreq
      rcases hreq with ⟨hno,-⟩ | ⟨z,hz,hzk,hzn⟩
      · exact absurd (mem_map.mpr ⟨x,hx,hxk⟩) hno
      · rw [hinj hz hx (hzk.trans hxk.symm)] at hzn
        exact absurd hquiet hzn
    · rwa [← hinj hy hx (hyk.trans hxk.symm)]
  · intro h
    have hcmem := fun c hc => mem_compared hcache hkeys h.ids (c := c) hc
    refine ⟨?_,?_,?_,calls_keys_nodup _ _ hnso⟩
    · intro c hc x hx hk
      rw [issued_eq hfree,mem_changes hnso] at hx
      rcases hx with ⟨d,-,-,-,he⟩ | ⟨d,-,y,-,-,-,he⟩ | ⟨y,hy,he⟩
      · cases he
      · cases he
      · have hy' := (mem_filter.mp hy).2
        rw [decide_eq_true_eq,← Change.delete.inj he,hk] at hy'
        exact hy' (mem_map_of_mem (hcmem c hc))
    · intro c hc
      have hact := (hconns c hc.1).2
      by_cases hk : c.key∈s.nso.map NsoConnection.key
      · obtain ⟨x,hx,hxk⟩ := mem_map.mp hk
        by_cases hquiet : nsoDiff c (some x)=[]
        · have hagree := (nsoDiff_nil_iff (hconns c hc.1).1 (hservices x hx) hact).mp hquiet
          exact ⟨x,(hnsoMem x).mpr (.inr ⟨hx,c,hcmem c hc,hxk.symm,hquiet⟩),
            h.rest c hc x hx hxk hagree⟩
        · exact ⟨_,(hnsoMem _).mpr (.inl ⟨c,hcmem c hc,rfl,.inr ⟨x,hx,hxk,hquiet⟩⟩),
            SamePayload.refl _⟩
      · exact ⟨_,(hnsoMem _).mpr (.inl ⟨c,hcmem c hc,rfl,
          .inl ⟨hk,nsoDiff_none (hconns c hc.1).1 hact⟩⟩),SamePayload.refl _⟩
    · intro x hx
      rcases (hnsoMem x).mp hx with ⟨c,hc,rfl,-⟩ | ⟨-,c,hc,hk,-⟩
      · exact ⟨c,compared_served hcache hc,Client.payload_key _ _⟩
      · exact ⟨c,compared_served hcache hc,hk.symm⟩

def vlan5 : Connection := ⟨.l2,5,64512,none,[⟨51,1,"r1","ge0",100,0,100,none,9000,.active,none,[]⟩]⟩

def vrf (id : Nat) : Connection :=
  ⟨.l3,id,64512,some "lab",[⟨61,1,"r1","ge1",200,0,200,none,9000,.active,none,[]⟩]⟩

def router (conns : List Connection) (memory : PendingDiff) (nso : List NsoConnection) : Controller where
  localAsn := 64512
  cache := Cache.updateCache conns
  nodes := [⟨1,"r1"⟩]
  pendingDiff := fun _ => memory
  nodePending := fun d => if d="r1" then some .none else none
  nso := nso

theorem router_keyed (id : Nat) : ∀ c∈[vlan5,vrf id],c.Keyed∧c.active≠[] := by
  intro c hc
  simp only [mem_cons,not_mem_nil,or_false] at hc
  rcases hc with rfl | rfl
  · exact ⟨⟨by decide,by decide⟩,by decide⟩
  · refine ⟨⟨by simp [vrf,Connection.active],?_⟩,by simp [vrf,Connection.active]⟩
    simp [vrf,Connection.active]

theorem router_converges : Converges (router [vlan5,vrf 6] .approved []) [vlan5,vrf 6] := by
  refine (diff_converges_iff _ _ (Cache.holds_updateCache _ (by decide)) (by decide)
    (router_keyed 6) (by decide) ?_ ?_).mpr ⟨?_,?_⟩
  · intro x hx
    cases hx
  · intro d hd
    have hb := (blocked_iff _ d).mp hd
    unfold Blocked at hb
    split at hb <;> simp [router] at hb
  · intro c d hc hd hne he
    have hc := hc.1
    have hd := hd.1
    simp only [mem_cons,not_mem_nil,or_false] at hc hd
    rcases hc with rfl | rfl <;> rcases hd with rfl | rfl <;> simp_all [vlan5,vrf]
  · intro c _ x hx
    cases hx

/-- Circuit 5 hides that VRF 5 is missing. -/
theorem router_not_converges : (∀ d,(router [vlan5,vrf 5] .none
      [Client.payload 64512 vlan5]).diff.pendingDiff d≠.pending)∧
    ¬Converges (router [vlan5,vrf 5] .none [Client.payload 64512 vlan5]) [vlan5,vrf 5] := by
  constructor
  · intro d
    have hlength : (router [vlan5,vrf 5] .none [Client.payload 64512 vlan5]).diffLength d=0 := by
      rfl
    intro hd
    have hb := (blocked_iff _ d).mp hd
    unfold Blocked at hb
    rw [hlength] at hb
    split at hb <;> simp [router] at hb
  · intro h
    have hserved : Served (router [vlan5,vrf 5] .none [Client.payload 64512 vlan5]) [vlan5,vrf 5]
        (vrf 5) := ⟨by decide,⟨1,"r1"⟩,by decide,by decide⟩
    obtain ⟨x,hx,hsame⟩ := h.held _ hserved
    have hnso : (router [vlan5,vrf 5] .none [Client.payload 64512 vlan5]).diff.nso=
        [Client.payload 64512 vlan5] := by decide
    rw [hnso,mem_singleton] at hx
    rw [hx] at hsame
    exact absurd hsame.key (by decide)

end OESS.NSO
