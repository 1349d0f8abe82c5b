import OESS.Vlans.NodeInsertion

namespace OESS.NodeInsertion

open Lookup Vlans Multigraphs
open PathObjects (liveLinks)
open List Replacement

def Topology.nodes (t : Topology) (link : Nat) : Option (Nat×Nat) :=
  (t.network.ends link).map fun e => (t.node e.1,t.node e.2)

def edges (s : Store) (path : Nat) : Set Nat := {link | link∈liveLinks s path}

/-- The path has the new links for the old one, with the VLANs of its kept ends. -/
structure Rerouted (t : Topology) (d : Db) (l : LinkRow) (x : Found) (s : Store) (path : Nat) :
    Prop where
  links : (liveLinks s path).Perm ((liveLinks d.store path).filter (fun link => link≠l.id)++
    [x.first.link.id,x.second.link.id])
  connects : ∀ u v,u≠x.node → v≠x.node →
    (Connected t.nodes (edges s path) u v ↔ Connected t.nodes (edges d.store path) u v)
  acyclic : Acyclic t.nodes (edges d.store path) → Acyclic t.nodes (edges s path)
  kept : ∀ b v,(∃ m∈d.store.members.rows,m.path=path∧m.link=l.id∧
      t.network.usedOn (x.side b).kept m=some v) ↔
    ∃ m∈s.members.rows,m.path=path∧m.link=(x.side b).link.id∧
      t.network.usedOn (x.side b).kept m=some v
  fresh : ∀ b v,∀ m∈s.members.rows,m.path=path → m.link=(x.side b).link.id →
    t.network.usedOn (x.side b).new m=some v →
    (∀ r∈d.store.members.rows,t.network.usedOn (x.side b).new r≠some v)∧
      ∀ r∈s.members.rows,t.network.usedOn (x.side b).new r=some v → r=m

/-- Live paths on the old link are rerouted, and nothing else changes. -/
structure Correct (t : Topology) (d : Db) (l : LinkRow) (x : Found) (s : Store) : Prop where
  rerouted : ∀ p∈users d l,Rerouted t d l x s p.id
  others : ∀ path,l.id∉liveLinks d.store path →
    (s.members.rows.filter (·.path=path))=d.store.members.rows.filter fun m => m.path=path
  base : s.base=d.store.base

/-- Live paths on the old link are of circuits that are found, use it once, and are no more than the
VLANs. If its Z end is listed first, their VLANs at both ends are the same. -/
structure Fits (t : Topology) (d : Db) (l : LinkRow) (x : Found) : Prop where
  found : ∀ p∈users d l,finds d l p.circuit=true
  once : ∀ p∈users d l,∀ m∈d.store.members.rows,∀ m'∈d.store.members.rows,
    m.link=l.id → m'.link=l.id → m.path=p.id → m'.path=p.id → m=m'
  room : (users d l).length≤(t.network.allowedVlans x.node).dedup.length
  order : t.zFirst l.id=true → ∀ p∈users d l,∀ m∈d.store.members.rows,
    m.link=l.id → m.path=p.id → m.aVlan=m.zVlan

variable {t : Topology} {d : Db} {l : LinkRow} {x : Found} {s : Store} {closed : List Nat}
  {done : List Replacement} {m : Membership} {p : Paths.Path}

theorem nodes_of_mem {r : LinkRow} (hr : r∈t.links) : t.nodes r.id=some (t.node r.a,t.node r.z) := by
  simp [Topology.nodes,network_ends hr]

section

variable (h : Inserted t d l x)
include h

theorem Inserted.ends_old : if t.zFirst l.id=true then
    (x.side true).kept=l.z∧(x.side false).kept=l.a
    else (x.side true).kept=l.a∧(x.side false).kept=l.z := by
  obtain ⟨-,-,hends,-⟩ := findNewPath_spec h.found
  unfold Topology.endpoints at hends
  split_ifs at hends ⊢
  all_goals
    rw [Prod.mk.injEq] at hends
    exact ⟨hends.1.symm,hends.2.symm⟩

theorem Inserted.joins_old :
    Joins t.nodes l.id (t.node (x.side true).kept) (t.node (x.side false).kept) := by
  have hnodes := nodes_of_mem h.link
  have hends := h.ends_old
  split_ifs at hends
  · right
    rw [hnodes,hends.1,hends.2]
  · left
    rw [hnodes,hends.1,hends.2]

theorem Inserted.joins_new (b : Bool) :
    Joins t.nodes (x.side b).link.id (t.node (x.side b).kept) x.node := by
  obtain ⟨hmem,-,hends⟩ := h.joined b
  have hnodes := nodes_of_mem hmem
  have hnew := h.node_new b
  rcases hends with ⟨ha,hz⟩ | ⟨ha,hz⟩
  · left
    rw [hnodes,ha,hz,hnew]
  · right
    rw [hnodes,ha,hz,hnew]

theorem Inserted.not_joins (hm : m∈d.store.members.rows) (u : Nat) :
    ¬Joins t.nodes m.link u x.node := by
  intro hjoins
  unfold Joins Topology.nodes at hjoins
  cases hends : t.network.ends m.link with
  | none => simp [hends] at hjoins
  | some e =>
    obtain ⟨r,hmem,hid,rfl⟩ := ends_row hends
    obtain ⟨ha,hz⟩ := h.unused m hm r hmem hid
    simp only [hends,Option.map_some,Option.some.injEq,Prod.mk.injEq] at hjoins
    rcases hjoins with ⟨-,hnode⟩ | ⟨hnode,-⟩
    · exact hz hnode
    · exact ha hnode

theorem Inserted.subdivision {path : Nat} (hl : l.id∈liveLinks d.store path) :
    Subdivision t.nodes (edges d.store path) l.id x.first.link.id x.second.link.id
      (t.node (x.side true).kept) (t.node (x.side false).kept) x.node := by
  refine ⟨hl,h.joins_old,h.joins_new true,(h.joins_new false).symm,h.apart true,h.apart false,?_⟩
  intro link hlink u
  obtain ⟨m,hm,-,rfl⟩ := mem_liveLinks.mp hlink
  exact h.not_joins hm u

end

theorem edges_divided {path : Nat}
    (hlinks : (liveLinks s path).Perm ((liveLinks d.store path).filter (fun link => link≠l.id)++
      [x.first.link.id,x.second.link.id])) :
    edges s path=divided (edges d.store path) l.id x.first.link.id x.second.link.id := by
  ext link
  have hmem := hlinks.mem_iff (a := link)
  simp only [mem_append,mem_filter,decide_eq_true_eq,mem_cons,not_mem_nil, or_false] at hmem
  exact hmem

/-- The VLAN at a kept end; the two change places as the ends are listed. -/
theorem usedOn_old (hx : Inserted t d l x) (hlink : m.link=l.id) (b : Bool) :
    t.network.usedOn (x.side b).kept m=some (keptVlan m (b ^^ t.zFirst l.id)) := by
  have hproper := t.proper l hx.link
  have hends := hx.ends_old
  rw [Network.usedOn,hlink,network_ends hx.link]
  cases hz : t.zFirst l.id with
  | true =>
    rw [if_pos hz] at hends
    cases b with
    | true => simp [hends.1,hproper,keptVlan]
    | false => simp [hends.2,keptVlan]
  | false =>
    rw [if_neg (by simp [hz])] at hends
    cases b with
    | true => simp [hends.1,keptVlan]
    | false => simp [hends.2,hproper,keptVlan]

theorem Fits.usedOn_kept (h : Fits t d l x) (hx : Inserted t d l x) (hp : p∈users d l)
    (hm : m∈d.store.members.rows) (hlink : m.link=l.id) (hpath : m.path=p.id) (b : Bool) :
    t.network.usedOn (x.side b).kept m=some (keptVlan m b) := by
  rw [usedOn_old hx hlink]
  cases hz : t.zFirst l.id with
  | false => rw [Bool.xor_false]
  | true =>
    have hsame := h.order hz p hp m hm hlink hpath
    cases b <;> simp [keptVlan,hsame]

theorem Replacement.usedOn_kept (hx : Inserted t d l x) (y : Replacement) (b : Bool) :
    t.network.usedOn (x.side b).kept (y.row x b)=some (keptVlan y.old b) :=
  (usedOn_row (hx.joined b) _ _ _).2

theorem mem_users : p∈users d l ↔ p∈d.store.base.paths.rows∧p.liveOnes≠[]∧
    l.id∈liveLinks d.store p.id := by
  simp [users]

theorem Fits.affected (h : Fits t d l x) (hp : p∈users d l) (hm : m∈d.store.members.rows)
    (hlink : m.link=l.id) (hpath : m.path=p.id) : Affected d l m :=
  affected_iff.mpr ⟨hm,hlink,p,hp,hpath.symm,h.found p hp⟩

theorem Fits.enough (h : Fits t d l x) : Enough t d l x := by
  refine ⟨?_,h.room⟩
  intro m m' hm hm' hpath
  obtain ⟨hmem,hlink,p,hp,hid,-⟩ := affected_iff.mp hm
  exact h.once p hp m hmem m' hm'.1 hlink hm'.2.1 hid.symm (hpath.symm.trans hid.symm)

section

variable (h : Progress t d l x s closed done)
include h

theorem Progress.filter_path (path : Nat) : (s.members.rows.filter (·.path=path))=
      (d.store.members.rows.filter fun m => m.path=path∧¬(m.link=l.id∧path∈closed))++
        (done.filter (·.old.path=path)).flatMap (Replacement.rows x) := by
  have hold : (d.store.members.rows.filter fun m => ¬(m.link=l.id∧m.path∈closed)).filter
      (·.path=path)=
      d.store.members.rows.filter fun m => m.path=path∧¬(m.link=l.id∧path∈closed) := by
    rw [filter_filter]
    apply filter_congr
    intro r _
    by_cases hpath : r.path=path
    all_goals simp [hpath]
  have hnew : (done.flatMap (Replacement.rows x)).filter (·.path=path)=
      (done.filter (·.old.path=path)).flatMap (Replacement.rows x) := by
    clear h hold
    induction done with
    | nil => rfl
    | cons y done ih =>
      rw [flatMap_cons,filter_append,ih]
      by_cases hpath : y.old.path=path
      all_goals simp [Replacement.rows,row_path,hpath]
  rw [h.rows,filter_append,hold,hnew]

theorem Progress.others {path : Nat} (hl : l.id∉liveLinks d.store path) :
    (s.members.rows.filter (·.path=path))=d.store.members.rows.filter fun m => m.path=path := by
  have hnone : (done.filter (·.old.path=path))=[] := by
    apply filter_eq_nil_iff.mpr
    intro y hy hpath
    obtain ⟨hmem,hlink,-⟩ := (h.affected y hy).1
    exact hl (mem_liveLinks.mpr ⟨y.old,hmem,by simpa using hpath,hlink⟩)
  rw [h.filter_path,hnone,flatMap_nil,append_nil]
  apply filter_congr
  intro r hr
  by_cases hpath : r.path=path
  · have hlink : r.link≠l.id := fun hlink => hl (mem_liveLinks.mpr ⟨r,hr,hpath,hlink⟩)
    simp [hlink]
  · simp [hpath]

theorem Progress.liveLinks_single {path : Nat} {y : Replacement} (hclosed : path∈closed)
    (hsingle : (done.filter (·.old.path=path))=[y]) :
    liveLinks s path=(liveLinks d.store path).filter (fun link => link≠l.id)++
      [x.first.link.id,x.second.link.id] := by
  unfold liveLinks
  rw [h.filter_path,hsingle,map_append]
  congr 1
  · rw [filter_map,filter_filter]
    congr 1
    simp [hclosed,Bool.and_comm]
  · simp [Replacement.rows,row_link,Found.side]

end

theorem Fits.rerouted (hfits : Fits t d l x) (hx : Inserted t d l x)
    (h : Progress t d l x s closed done) (hall : ∀ m,Affected d l m → m∈done.map Replacement.old)
    (hp : p∈users d l) : Rerouted t d l x s p.id := by
  -- the membership of the path on the old link, and what has replaced it
  obtain ⟨y,hy,hold,holdLink,hpath⟩ : ∃ y∈done,y.old∈d.store.members.rows∧y.old.link=l.id∧
      y.old.path=p.id := by
    obtain ⟨m,hm,hpath,hlink⟩ := mem_liveLinks.mp (mem_users.mp hp).2.2
    obtain ⟨y,hy,rfl⟩ := mem_map.mp (hall m (hfits.affected hp hm hlink hpath))
    exact ⟨y,hy,hm,hlink,hpath⟩
  have honly {z : Replacement} (hz : z∈done) (hzpath : z.old.path=p.id) : z=y :=
    inj_on_of_nodup_map (h.paths_nodup hfits.enough) hz hy (hzpath.trans hpath.symm)
  have hkept (b : Bool) : t.network.usedOn (x.side b).kept y.old=some (keptVlan y.old b) :=
    hfits.usedOn_kept hx hp hold holdLink hpath b
  have hlinks : liveLinks s p.id=(liveLinks d.store p.id).filter (fun link => link≠l.id)++
      [x.first.link.id,x.second.link.id] := by
    apply h.liveLinks_single (hpath ▸ (h.affected y hy).2)
    rw [← hpath]
    exact filter_key (h.paths_nodup hfits.enough) hy
  have hsub := hx.subdivision (mem_users.mp hp).2.2
  have hedges := edges_divided (Perm.of_eq hlinks)
  refine ⟨Perm.of_eq hlinks,?_,?_,?_,?_⟩
  · intro u v hu hv
    rw [hedges]
    exact hsub.connected_iff hu hv
  · intro hacyclic
    rw [hedges]
    exact hsub.acyclic hacyclic
  · intro b v
    constructor
    · intro ⟨m,hm,hmpath,hlink,hused⟩
      have hsame := hfits.once p hp m hm y.old hold hlink holdLink hmpath hpath
      subst hsame
      refine ⟨y.row x b,h.mem_rows.mpr (.inr ⟨y,hy,b,rfl⟩),?_,row_link y b,?_⟩
      · rw [row_path,hpath]
      · rw [y.usedOn_kept hx,← hkept b,hused]
    · intro ⟨m,hm,hmpath,hlink,hused⟩
      obtain ⟨z,hz,rfl⟩ := h.mem_side hx b hm hlink
      rw [row_path] at hmpath
      obtain rfl := honly hz hmpath
      exact ⟨z.old,hold,hpath,holdLink,by rw [hkept b,← hused,z.usedOn_kept hx]⟩
  · intro b v m hm hmpath hlink hused
    refine ⟨fun r hr => hx.usedOn_none b hr,?_⟩
    intro r hr hrused
    obtain ⟨z,hz,rfl,hzv⟩ := h.usedOn_new hx b hm hused
    obtain ⟨w,hw,rfl,hwv⟩ := h.usedOn_new hx b hr hrused
    rw [inj_on_of_nodup_map (h.fresh b) hw hz (hwv.trans hzv.symm)]

variable {path : Nat}

theorem Rerouted.first_unique (h : Rerouted t d l x s path) (hx : Inserted t d l x) {r r' : Membership}
    (hr : r∈s.members.rows) (hr' : r'∈s.members.rows) (hpath : r.path=path) (hpath' : r'.path=path)
    (hlink : r.link=(x.side true).link.id) (hlink' : r'.link=(x.side true).link.id) : r=r' := by
  have hcount : (liveLinks s path).count (x.side true).link.id=1 := by
    have hold : (x.side true).link.id∉(liveLinks d.store path).filter (fun link => link≠l.id) := by
      intro hmem
      obtain ⟨m,hm,-,hlink⟩ := mem_liveLinks.mp (mem_filter.mp hmem).1
      exact hx.not_on_side true hm hlink
    have hother : x.second.link.id≠x.first.link.id :=
      hx.links_ne (b := false) (c := true) (by simp)
    rw [h.links.count_eq,count_append,count_eq_zero_of_not_mem hold]
    simp [Found.side,hother]
  rw [liveLinks,count_eq_countP,countP_map,countP_eq_length_filter] at hcount
  obtain ⟨k,hk⟩ := length_eq_one_iff.mp hcount
  have hmem {r : Membership} (hr : r∈s.members.rows) (hpath : r.path=path)
      (hlink : r.link=(x.side true).link.id) : r=k := by
    rw [← mem_singleton,← hk]
    simp [hr,hpath,hlink]
  rw [hmem hr hpath hlink,hmem hr' hpath' hlink']

/-- A rerouted path has a replaced membership with the VLAN of its end. -/
theorem Rerouted.row (h : Rerouted t d l x s path) (hx : Inserted t d l x)
    (hs : Progress t d l x s closed done) (hm : m∈d.store.members.rows) (hlink : m.link=l.id)
    (hpath : m.path=path) :
    ∃ y∈done,y.old.path=path∧keptVlan y.old true=keptVlan m (true ^^ t.zFirst l.id) := by
  obtain ⟨r,hr,hrpath,hrlink,hused⟩ := (h.kept true _).mp ⟨m,hm,hpath,hlink,usedOn_old hx hlink true⟩
  obtain ⟨y,hy,rfl⟩ := hs.mem_side hx true hr hrlink
  rw [row_path] at hrpath
  rw [y.usedOn_kept hx] at hused
  exact ⟨y,hy,hrpath,Option.some.inj hused⟩

theorem Rerouted.once (h : Rerouted t d l x s path) (hx : Inserted t d l x)
    (hs : Progress t d l x s closed done) {m' : Membership} (hm : m∈d.store.members.rows)
    (hm' : m'∈d.store.members.rows) (hlink : m.link=l.id) (hlink' : m'.link=l.id)
    (hpath : m.path=path) (hpath' : m'.path=path) : m=m' := by
  obtain ⟨y,hy,hypath,hkept⟩ := h.row hx hs hm hlink hpath
  obtain ⟨z,hz,hzpath,hkept'⟩ := h.row hx hs hm' hlink' hpath'
  have hrow := h.first_unique hx (hs.mem_rows.mpr (.inr ⟨y,hy,true,rfl⟩))
    (hs.mem_rows.mpr (.inr ⟨z,hz,true,rfl⟩)) (by rw [row_path,hypath])
    (by rw [row_path,hzpath]) (y.row_link true) (z.row_link true)
  have hused := congrArg (t.network.usedOn (x.side true).kept) hrow
  rw [y.usedOn_kept hx,z.usedOn_kept hx,Option.some.injEq,hkept,hkept'] at hused
  exact keptVlan_injective _ hm hm' (hlink.trans hlink'.symm) hused

theorem Correct.fits (h : Correct t d l x s) (hx : Inserted t d l x)
    (hs : Progress t d l x s closed done) : Fits t d l x := by
  have honce (p : Paths.Path) (hp : p∈users d l) (m : Membership) (hm : m∈d.store.members.rows)
      (m' : Membership) (hm' : m'∈d.store.members.rows) (hlink : m.link=l.id) (hlink' : m'.link=l.id)
      (hpath : m.path=p.id) (hpath' : m'.path=p.id) : m=m' :=
    (h.rerouted p hp).once hx hs hm hm' hlink hlink' hpath hpath'
  have hrow (p : Paths.Path) (hp : p∈users d l) : ∃ y∈done,y.old.path=p.id := by
    obtain ⟨m,hm,hpath,hlink⟩ := mem_liveLinks.mp (mem_users.mp hp).2.2
    obtain ⟨y,hy,hypath,-⟩ := (h.rerouted p hp).row hx hs hm hlink hpath
    exact ⟨y,hy,hypath⟩
  refine ⟨?_,honce,?_,?_⟩
  · intro p hp
    obtain ⟨y,hy,hpath⟩ := hrow p hp
    obtain ⟨-,-,q,hq,-,hfinds⟩ := (hs.affected y hy).1
    rw [hpath,pathRow_of_mem (mem_users.mp hp).1] at hq
    cases hq
    exact hfinds
  · have hsub : (users d l).map Paths.Path.id⊆done.map fun y => y.old.path := by
      intro path hpath
      obtain ⟨p,hp,rfl⟩ := mem_map.mp hpath
      obtain ⟨y,hy,hypath⟩ := hrow p hp
      exact mem_map.mpr ⟨y,hy,hypath⟩
    have hids : ((users d l).map Paths.Path.id).Nodup :=
      (Sublist.map _ filter_sublist).nodup (paths_nodup d)
    have hallowed : (done.map (·.fresh true))⊆(t.network.allowedVlans x.node).dedup := by
      intro v hv
      obtain ⟨y,hy,rfl⟩ := mem_map.mp hv
      exact mem_dedup.mpr (hs.allowed y hy true)
    have hle := (subperm_of_subset hids hsub).length_le
    have hle' := (subperm_of_subset (hs.fresh true) hallowed).length_le
    simp only [length_map] at hle hle'
    omega
  · intro hz p hp m hm hlink hpath
    obtain ⟨y,hy,hypath,hkept⟩ := (h.rerouted p hp).row hx hs hm hlink hpath
    obtain ⟨hold,holdLink,-⟩ := (hs.affected y hy).1
    rwa [honce p hp y.old hold m hm holdLink hlink hypath hpath,hz] at hkept

/-- Node 3 was inserted into link 1 with links 2 and 3. -/
def city (zFirst : Bool) : Topology where
  links := [⟨1,10,20,false,false⟩,⟨2,10,31,true,false⟩,⟨3,32,20,true,false⟩]
  node := fun interface => interface/10
  vlanTagRange := fun _ => some [.tag 100,.tag 101]
  zFirst := fun _ => zFirst
  ids := by decide
  proper := by decide

/-- VLAN 100 at the A end of link 1, 101 at its Z end. -/
def onePath : Db where
  store := {
    base := {
      paths := ⟨[⟨0,5,.primary,.active,[⟨.active,true⟩]⟩],1,by decide,by simp,by simp⟩
      circuitState := fun _ => some .active
      memory := fun circuit => ⟨circuit,.openflow,[],[],[],.primary,0⟩}
    members := ⟨[⟨1,0,100,101⟩],by decide,by decide⟩
    tertiary := fun _ => none}
  type := fun _ => .openflow

def cityLink : LinkRow := ⟨1,10,20,false,false⟩

def overTwo : Side := ⟨⟨2,10,31,true,false⟩,10,31⟩

def overThree : Side := ⟨⟨3,32,20,true,false⟩,20,32⟩

theorem inserted_city (zFirst : Bool) : Inserted (city zFirst) onePath cityLink
    (if zFirst=true then ⟨3,overThree,overTwo⟩ else ⟨3,overTwo,overThree⟩) := by
  cases zFirst <;> exact ⟨by decide,rfl,by decide,by decide,by decide⟩

end OESS.NodeInsertion
