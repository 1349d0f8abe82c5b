import Mathlib.Data.List.Infix
import Mathlib.Data.List.Nodup
import OESS.Framework.Lookup
import OESS.Framework.Loops
import OESS.Framework.Runs
import OESS.Peers.Request

namespace OESS.Peers

open List Bool Except

def Vrf.addresses (vrf : Vrf) (port : String×String) : List String :=
  (vrf.onPort port).map Peer.localIp

/-- No two live peers on one port have one address. -/
def Distinct (vrf : Vrf) : Prop := ∀ port,(vrf.addresses port).Nodup

def InRange (text : String) : Prop := ∃ v∈[Version.ipv4,.ipv6],v.network.toList <+: text.toList
  deriving Decidable

theorem network_prefix_generated (v : Version) (n : Nat) :
    v.network.toList <+: (generated v n).toList := by
  rw [generated,String.append_assoc,String.toList_append]
  exact prefix_append _ _

theorem generated_inRange (v : Version) (n : Nat) : InRange (generated v n) :=
  ⟨v,by cases v <;> simp,network_prefix_generated v n⟩

theorem toString_injective {n n' : Nat} (h : toString n=toString n') : n=n' := by
  have hdigits : Nat.toDigits 10 n=Nat.toDigits 10 n' := String.ofList_injective h
  have hvalue := congrArg (fun ds => Nat.ofDigitChars 10 ds 0) hdigits
  simpa using hvalue

theorem network_head : Version.network .ipv4="1"++"72.31.254."∧
    Version.network .ipv6="f"++"d28:221e:28fa:61d3::" := ⟨by decide +kernel,by decide +kernel⟩

theorem generated_injective {v v' : Version} {n n' : Nat} (h : generated v n=generated v' n') :
    n=n' := by
  have hversion : v=v' := by
    have hhead : (generated v n).toList.head?=(generated v' n').toList.head? := by rw [h]
    simp only [generated] at hhead
    cases v <;> cases v'
    · rfl
    · rw [network_head.1,network_head.2] at hhead
      simp at hhead
    · rw [network_head.1,network_head.2] at hhead
      simp at hhead
    · rfl
  subst hversion
  unfold generated at h
  rw [String.append_left_inj,String.append_right_inj] at h
  exact toString_injective h

/-- A new peering of a request, with the endpoint it is for. -/
structure Ask where
  site : Site
  peering : Peering

namespace Ask

variable (a : Ask)

def port : String×String := a.site.port

def text : String := a.peering.text

def given : Bool := a.peering.given

def derived : Bool := !a.peering.given && a.site.azure.isSome

def automatic : Bool := !a.peering.given && a.site.azure.isNone && a.site.account.getD "" != ""

end Ask

def Vrf.loaded (vrf : Vrf) (id : Nat) : Option Site := vrf.sites.find? fun s => s.live && s.id==id

def Entry.asks (vrf : Vrf) : Entry → List Ask
  | .new site peerings => peerings.map fun p => ⟨site,p⟩
  | .existing id peerings =>
    match vrf.loaded id with
    | none => []
    | some site => (peerings.filter (·.existing.isNone)).map fun p => ⟨site,p⟩

def Request.asks (req : Request) (vrf : Vrf) : List Ask := req.entries.flatMap (Entry.asks vrf)

variable (net : Net) (vrf : Vrf)

/-- It is there before; edited peers keep their address. -/
def Entry.Keeps : Entry → Prop
  | .new _ _ => True
  | .existing id peerings => (vrf.loaded id).isSome=true∧
      ∀ p∈peerings,∀ id∈p.existing,∀ text∈p.localIp,
        (∃ q∈vrf.peers,q.id=id)∧∀ q∈vrf.peers,q.id=id → net.stored q.version text=q.localIp

instance (e : Entry) : Decidable (e.Keeps net vrf) := by
  cases e <;> unfold Entry.Keeps <;> infer_instance

/-- A given address is in stored form and not its port's; beside a generated one, none of the port's
looks generated; beside a derived one, there are none. -/
def Ask.Clear (a : Ask) : Prop :=
  (a.given=true → net.stored (net.versionOf a.peering a.text) a.text=a.text∧
    a.text∉vrf.addresses a.port)∧(a.automatic=true → ∀ text∈vrf.addresses a.port,¬InRange text)∧
  (a.derived=true → vrf.addresses a.port=[])
  deriving Decidable

/-- Neither is derived; beside generated none looks so. -/
def Ask.Apart (a b : Ask) : Prop := a.port=b.port → a.derived=false∧b.derived=false∧
    (a.automatic=true → b.given=true → ¬InRange b.text)∧
    (b.automatic=true → a.given=true → ¬InRange a.text)
  deriving Decidable

def Clear (req : Request) : Prop :=
  (∀ e∈req.entries,e.Keeps net vrf)∧(∀ a∈req.asks vrf,a.Clear net vrf)∧
    (req.asks vrf).Pairwise Ask.Apart
  deriving Decidable

structure Sound (net : Net) (vrf : Vrf) : Prop where
  ids : (vrf.sites.map Site.id).Nodup
  peerIds : (vrf.peers.map Peer.id).Nodup
  form : ∀ q∈vrf.peers,net.stored q.version q.localIp=q.localIp
  distinct : Distinct vrf

/-- An address on a port was there before or comes from a peering in `done`, and then the table
knows it unless derived; the table holds only given and generated ones. -/
structure Fits (net : Net) (start : Vrf) (done : List Ask) (r : Run net) : Prop where
  octet : 0<r.lastOctet
  sound : Sound net r.vrf
  sites : ∃ added,r.vrf.sites=start.sites++added
  kept : ∀ q∈start.peers,∃ q'∈r.vrf.peers,q'.id=q.id
  known : ∀ q∈r.vrf.peers,(∃ q₀∈start.peers,q₀.id=q.id∧q₀.version=q.version∧q₀.localIp=q.localIp)∨
    ∀ q₀∈start.peers,q₀.id≠q.id
  seen : ∀ port,∀ text∈r.vrf.addresses port,text∈start.addresses port∨
    ∃ d∈done,d.port=port∧(d.derived=false → (port,text)∈r.table)
  table : ∀ port text,(port,text)∈r.table → ∃ d∈done,d.port=port∧(d.derived=false →
    (d.given=true∧d.text=text)∨(d.automatic=true∧∃ v n,n<r.lastOctet∧text=generated v n))

section Peers

variable {net : Net} {start : Vrf} {done : List Ask} {r r' : Run net}

theorem stored_stored (v : Version) (text : String) :
    net.stored v (net.stored v text)=net.stored v text := by
  cases v with
  | ipv4 => rfl
  | ipv6 => exact net.short_short text

theorem stored_generated {v v' : Version} {n : Nat} (hn : 0<n)
    (hvalid : net.valid v (generated v' n)=true) : net.stored v (generated v' n)=generated v' n := by
  cases v with
  | ipv4 => rfl
  | ipv6 => exact net.short_generated v' n hn hvalid

theorem Fits.more (h : Fits net start done r) (a : Ask) : Fits net start (done++[a]) r := by
  refine ⟨h.octet,h.sound,h.sites,h.kept,h.known,?_,?_⟩
  · intro port text htext
    obtain hold|⟨d,hd,hrest⟩ := h.seen port text htext
    · exact .inl hold
    · exact .inr ⟨d,mem_append_left _ hd,hrest⟩
  · intro port text htext
    obtain ⟨d,hd,hrest⟩ := h.table port text htext
    exact ⟨d,mem_append_left _ hd,hrest⟩

variable {site : Site} {p : Peering} {vrf : Vrf} {isNew : Bool} {peerings : List Peering}

theorem createPeer_ok {text : String} (h : createPeer site p text r=.ok r') :
    net.valid (net.versionOf p text) text=true∧
      (∀ q∈r.vrf.peers,q.id≠p.id)∧r'={r with vrf := {r.vrf with peers := r.vrf.peers++
        [⟨p.id,site.id,net.versionOf p text,net.stored (net.versionOf p text) text,true⟩]}} := by
  unfold createPeer at h
  split_ifs at h with hvalid hid
  refine ⟨by simpa using hvalid,?_,(ok.inj h).symm⟩
  intro q hq he
  exact hid (any_eq_true.mpr ⟨q,hq,by simpa using he⟩)

def Stands (vrf : Vrf) (site : Site) : Prop :=
  ∃ s∈vrf.sites,s.live=true∧s.id=site.id∧s.port=site.port

theorem addresses_append (hids : (vrf.sites.map Site.id).Nodup) (hsite : Stands vrf site) (q : Peer)
    (hq : q.site=site.id) (hactive : q.active=true) (port : String×String) :
    Vrf.addresses {vrf with peers := vrf.peers++[q]} port=
      vrf.addresses port++if site.port=port then [q.localIp] else [] := by
  obtain ⟨s₀,hs₀,hlive,hid,hport⟩ := hsite
  have hon : (vrf.sites.any fun s => s.live && s.id==q.site && s.port==port)=
      decide (site.port=port) := by
    rw [Bool.eq_iff_iff,any_eq_true,decide_eq_true_eq]
    constructor
    · rintro ⟨s,hs,hmatch⟩
      simp only [and_eq_true,beq_iff_eq] at hmatch
      have hsame : s=s₀ := inj_on_of_nodup_map hids hs hs₀ (by rw [hmatch.1.2,hq,hid])
      rw [← hport,← hsame]
      exact hmatch.2
    · intro he
      exact ⟨s₀,hs₀,by simp [hlive,hid,hq,hport,he]⟩
  simp only [Vrf.addresses,Vrf.onPort]
  by_cases he : site.port=port <;> simp [hactive,hon,he]

theorem Sound.addPeer (h : Sound net vrf) (hsite : Stands vrf site) {q : Peer} (hq : q.site=site.id)
    (hactive : q.active=true) (hfresh : ∀ q'∈vrf.peers,q'.id≠q.id)
    (hform : net.stored q.version q.localIp=q.localIp) (hnew : q.localIp∉vrf.addresses site.port) :
    Sound net {vrf with peers := vrf.peers++[q]} := by
  refine ⟨h.ids,?_,Runs.forall_mem_snoc h.form hform,?_⟩
  · exact Lookup.nodup_map_snoc h.peerIds (by simpa using hfresh)
  · intro port
    rw [addresses_append h.ids hsite q hq hactive]
    split_ifs with hport
    · refine (h.distinct port).append (nodup_singleton _) ?_
      rw [disjoint_singleton]
      exact hport ▸ hnew
    · rw [append_nil]
      exact h.distinct port

theorem Fits.create (h : Fits net start done r) {a : Ask} {text note : String} {octet : Nat}
    {config : AzureConfig net} (hsite : Stands r.vrf a.site)
    (hfresh : ∀ q∈r.vrf.peers,q.id≠a.peering.id)
    (hnew : net.stored (net.versionOf a.peering text) text∉r.vrf.addresses a.port)
    (hoctet : r.lastOctet ≤ octet) (hnote : a.derived=false →
      net.stored (net.versionOf a.peering text) text=note∧((a.given=true∧a.text=note)∨
        (a.automatic=true∧∃ v n,n<octet∧note=generated v n))) :
    Fits net start (done++[a])
      ⟨{r.vrf with peers := r.vrf.peers++[⟨a.peering.id,a.site.id,net.versionOf a.peering text,
        net.stored (net.versionOf a.peering text) text,true⟩]},(a.port,note)::r.table,octet,config⟩ := by
  have hadd (port : String×String) := addresses_append h.sound.ids hsite
    ⟨a.peering.id,a.site.id,net.versionOf a.peering text,
      net.stored (net.versionOf a.peering text) text,true⟩ rfl rfl port
  have hsound := h.sound.addPeer hsite (q := ⟨a.peering.id,a.site.id,
    net.versionOf a.peering text,net.stored (net.versionOf a.peering text) text,true⟩) rfl rfl hfresh
    (stored_stored _ text) hnew
  refine ⟨h.octet.trans_le hoctet,hsound,h.sites,?_,?_,?_,?_⟩
  · intro q hq
    obtain ⟨q',hq',hid⟩ := h.kept q hq
    exact ⟨q',mem_append_left _ hq',hid⟩
  · intro q hq
    obtain hq|rfl := Runs.mem_snoc.mp hq
    · exact h.known q hq
    · right
      intro q₀ hq₀ he
      obtain ⟨q',hq',hid⟩ := h.kept q₀ hq₀
      exact hfresh q' hq' (hid.trans he)
  · intro port address haddress
    rw [hadd,mem_append] at haddress
    obtain hold|hthis := haddress
    · obtain hstart|⟨d,hd,hport,htable⟩ := h.seen port address hold
      · exact .inl hstart
      · exact .inr ⟨d,mem_append_left _ hd,hport,
          fun hderived => mem_cons_of_mem _ (htable hderived)⟩
    · split_ifs at hthis with hport
      · right
        refine ⟨a,mem_append_right _ (mem_singleton_self a),hport,?_⟩
        intro hderived
        obtain ⟨hstored,_⟩ := hnote hderived
        rw [mem_singleton.mp hthis,hstored]
        exact hport ▸ mem_cons_self
      · cases hthis
  · intro port address haddress
    obtain he|hold := mem_cons.mp haddress
    · obtain ⟨rfl,rfl⟩ := Prod.mk.inj he
      exact ⟨a,mem_append_right _ (mem_singleton_self a),rfl,fun hderived => (hnote hderived).2⟩
    · obtain ⟨d,hd,hport,hkind⟩ := h.table port address hold
      refine ⟨d,mem_append_left _ hd,hport,?_⟩
      intro hderived
      obtain hgiven|⟨hauto,v,n,hn,htext⟩ := hkind hderived
      · exact .inl hgiven
      · exact .inr ⟨hauto,v,n,lt_of_lt_of_le hn hoctet,htext⟩

theorem addPeering_ok (h : addPeering isNew site r p=.ok r') : (site.port,p.text)∉r.table∧
      ((p.given=true∧createPeer site p p.text {r with table := (site.port,p.text)::r.table}=.ok r')∨
      (p.given=false∧∃ primary address note config,site.azure=some primary∧createPeer site p address
          {r with table := (site.port,note)::r.table,config := config}=.ok r')∨(p.given=false∧r'=r)∨
      (p.given=false∧site.azure=none∧site.account.getD ""≠""∧
        createPeer site p (generated (generatedVersion isNew p) r.lastOctet) {r with
          table := (site.port,generated (generatedVersion isNew p) r.lastOctet)::r.table
          lastOctet := r.lastOctet+2}=.ok r')) := by
  unfold addPeering at h
  by_cases htable : (site.port,p.text)∈r.table
  · rw [if_pos htable] at h
    cases h
  rw [if_neg htable] at h
  refine ⟨htable,?_⟩
  cases hgiven : p.given with
  | true =>
    rw [hgiven] at h
    exact .inl ⟨rfl,h⟩
  | false =>
    rw [hgiven] at h
    cases hazure : site.azure with
    | some primary =>
      simp only [hazure] at h
      exact .inr (.inl ⟨rfl,primary,_,_,_,rfl,h⟩)
    | none =>
      simp only [hazure] at h
      by_cases haccount : site.account.getD ""=""
      · rw [if_pos haccount] at h
        exact .inr (.inr (.inl ⟨rfl,(ok.inj h).symm⟩))
      · rw [if_neg haccount] at h
        exact .inr (.inr (.inr ⟨rfl,rfl,haccount,h⟩))

theorem addPeering_fits {a : Ask} (h : Fits net start done r) (hsite : Stands r.vrf a.site)
    (hclear : a.Clear net start) (hapart : ∀ d∈done,d.Apart a)
    (hadd : addPeering isNew a.site r a.peering=.ok r') : Fits net start (done++[a]) r' := by
  obtain ⟨htable,⟨hgiven,hcreate⟩|⟨hgiven,primary,_,_,_,hazure,hcreate⟩|⟨_,rfl⟩|
    ⟨hgiven,hazure,haccount,hcreate⟩⟩ := addPeering_ok hadd
  · obtain ⟨_,hfresh,rfl⟩ := createPeer_ok hcreate
    obtain ⟨hform,hold⟩ := hclear.1 hgiven
    rw [Ask.text] at hform
    refine h.create hsite hfresh ?_ (le_refl _) (fun _ => ⟨hform,.inl ⟨hgiven,rfl⟩⟩)
    -- the table was asked for a given address, and it knows all but the old and the derived ones
    intro hmem
    rw [hform] at hmem
    obtain hstart|⟨d,hd,hport,hin⟩ := h.seen a.port a.peering.text hmem
    · exact hold hstart
    · exact htable (hin ((hapart d hd) hport).1)
  · have hderived : a.derived=true := by simp [Ask.derived,hgiven,hazure]
    obtain ⟨_,hfresh,rfl⟩ := createPeer_ok hcreate
    refine h.create hsite hfresh ?_ (le_refl _) (fun hnot => by simp [hderived] at hnot)
    -- a derived address is the first one on its port
    intro hmem
    obtain hstart|⟨d,hd,hport,_⟩ := h.seen a.port _ hmem
    · rw [hclear.2.2 hderived] at hstart
      cases hstart
    · have hnot := ((hapart d hd) hport).2.1
      rw [hderived] at hnot
      cases hnot
  · exact h.more a
  · have hauto : a.automatic=true := by simp [Ask.automatic,hgiven,hazure,haccount]
    obtain ⟨hvalid,hfresh,rfl⟩ := createPeer_ok hcreate
    have hform := stored_generated h.octet hvalid
    refine h.create hsite hfresh ?_ (Nat.le_add_right r.lastOctet 2)
      (fun _ => ⟨hform,.inr ⟨hauto,_,r.lastOctet,Nat.lt_add_of_pos_right (by decide),rfl⟩⟩)
    -- an older address is out of the range, and the counter has moved on since the last one
    intro hmem
    rw [hform] at hmem
    have hrange := generated_inRange (generatedVersion isNew a.peering) r.lastOctet
    obtain hstart|⟨d,hd,hport,hin⟩ := h.seen a.port _ hmem
    · exact hclear.2.1 hauto _ hstart hrange
    · have hd' := (hapart d hd) hport
      obtain ⟨d₁,hd₁,hport₁,hkind⟩ := h.table a.port _ (hin hd'.1)
      have hd₁' := (hapart d₁ hd₁) hport₁
      obtain ⟨hg,htext⟩|⟨_,v,n,hn,htext⟩ := hkind hd₁'.1
      · exact hd₁'.2.2.2 hauto hg (htext ▸ hrange)
      · have hsame := generated_injective htext
        omega

theorem addresses_map {f : Peer → Peer} (hsite : ∀ q∈vrf.peers,(f q).site=q.site)
    (hip : ∀ q∈vrf.peers,(f q).localIp=q.localIp)
    (hactive : ∀ q∈vrf.peers,(f q).active=true → q.active=true) (port : String×String) :
    (Vrf.addresses {vrf with peers := vrf.peers.map f} port).Sublist (vrf.addresses port) := by
  let on (q : Peer) : Bool :=
    q.active && vrf.sites.any fun s => s.live && s.id==q.site && s.port==port
  have hon : ∀ q∈vrf.peers,(on∘f) q=((on∘f) q && on q) := by
    intro q hq
    simp only [on,Function.comp_apply,hsite q hq]
    cases hf : (f q).active with
    | true => simp [hactive q hq hf]
    | false => rfl
  have hsub : (vrf.peers.filter (on∘f)).Sublist (vrf.peers.filter on) := by
    rw [filter_congr hon,← filter_filter]
    exact filter_sublist
  have hips : (vrf.peers.filter (on∘f)).map (Peer.localIp∘f)=
      (vrf.peers.filter (on∘f)).map Peer.localIp :=
    map_congr_left fun q hq => hip q (mem_filter.mp hq).1
  simp only [Vrf.addresses,Vrf.onPort,filter_map,map_map]
  exact hips ▸ hsub.map Peer.localIp

theorem Fits.map_peers (h : Fits net start done r) {f : Peer → Peer}
    (hf : ∀ q∈r.vrf.peers,(f q).id=q.id∧(f q).site=q.site∧(f q).version=q.version∧
      (f q).localIp=q.localIp∧((f q).active=true → q.active=true)) :
    Fits net start done {r with vrf := {r.vrf with peers := r.vrf.peers.map f}} := by
  have hsub (port : String×String) := addresses_map (fun q hq => (hf q hq).2.1)
    (fun q hq => (hf q hq).2.2.2.1) (fun q hq => (hf q hq).2.2.2.2) port
  have hids : (r.vrf.peers.map f).map Peer.id=r.vrf.peers.map Peer.id := by
    rw [map_map]
    exact map_congr_left fun q hq => (hf q hq).1
  refine ⟨h.octet,⟨h.sound.ids,hids ▸ h.sound.peerIds,?_,?_⟩,h.sites,?_,?_,?_,h.table⟩
  · intro q' hq'
    obtain ⟨q,hq,rfl⟩ := mem_map.mp hq'
    obtain ⟨_,_,hversion,hip,_⟩ := hf q hq
    rw [hversion,hip]
    exact h.sound.form q hq
  · intro port
    exact (hsub port).nodup (h.sound.distinct port)
  · intro q hq
    obtain ⟨q',hq',hid⟩ := h.kept q hq
    exact ⟨f q',mem_map_of_mem hq',(hf q' hq').1.trans hid⟩
  · intro q' hq'
    obtain ⟨q,hq,rfl⟩ := mem_map.mp hq'
    obtain ⟨hid,_,hversion,hip,_⟩ := hf q hq
    rw [hid,hversion,hip]
    exact h.known q hq
  · intro port text htext
    exact h.seen port text ((hsub port).subset htext)

theorem updatePeering_fits {id : Nat} (h : Fits net start done r)
    (hkeeps : ∀ text∈p.localIp,(∃ q∈start.peers,q.id=id)∧
      ∀ q∈start.peers,q.id=id → net.stored q.version text=q.localIp)
    (hupdate : updatePeering site r p id=.ok r') : Fits net start done r' := by
  unfold updatePeering at hupdate
  cases hfind : (r.vrf.sitePeers site).find? fun q => q.id==id with
  | none =>
    simp only [hfind] at hupdate
    cases hupdate
    exact h
  | some q =>
    simp only [hfind] at hupdate
    split_ifs at hupdate with hparses
    cases hupdate
    have hmem : q∈r.vrf.peers := (mem_filter.mp (mem_of_find?_eq_some hfind)).1
    have hid : q.id=id := by simpa using find?_some hfind
    refine h.map_peers ?_
    intro q' hq'
    split_ifs with hq'id
    · obtain rfl : q'=q := inj_on_of_nodup_map h.sound.peerIds hq' hmem (hq'id.trans hid.symm)
      refine ⟨rfl,rfl,rfl,?_,fun hactive => hactive⟩
      cases hip : p.localIp with
      | none => exact h.sound.form q' hq'
      | some text =>
        obtain ⟨⟨q₁,hq₁,hid₁⟩,hsame⟩ := hkeeps text hip
        obtain ⟨q₀,hq₀,hid₀,hversion,hlocal⟩|hnew := h.known q' hq'
        · rw [← hlocal,← hversion]
          exact hsame q₀ hq₀ (hid₀.trans hid)
        · exact absurd (hid₁.trans hid.symm) (hnew q₁ hq₁)
    · exact ⟨rfl,rfl,rfl,rfl,fun hactive => hactive⟩

theorem addresses_addSite (hfresh : ∀ p∈vrf.peers,p.site≠site.id) (port : String×String) :
    Vrf.addresses {vrf with sites := vrf.sites++[site]} port=vrf.addresses port := by
  simp only [Vrf.addresses]
  congr 1
  refine filter_congr ?_
  intro p hp
  have hne : (site.id==p.site)=false := by simpa using (hfresh p hp).symm
  simp [hne]

theorem Fits.addSite (h : Fits net start done r) (hid : ∀ s∈r.vrf.sites,s.id≠site.id)
    (hfresh : ∀ p∈r.vrf.peers,p.site≠site.id) :
    Fits net start done {r with vrf := {r.vrf with sites := r.vrf.sites++[site]}} := by
  have hsame (port : String×String) := addresses_addSite hfresh port
  obtain ⟨added,hadded⟩ := h.sites
  refine ⟨h.octet,⟨?_,h.sound.peerIds,h.sound.form,?_⟩,⟨added++[site],?_⟩,h.kept,h.known,?_,h.table⟩
  · exact Lookup.nodup_map_snoc h.sound.ids (by simpa using hid)
  · intro port
    rw [hsame]
    exact h.sound.distinct port
  · rw [hadded,append_assoc]
  · intro port text htext
    rw [hsame] at htext
    exact h.seen port text htext

theorem addPeering_sites (h : addPeering isNew site r p=.ok r') : r'.vrf.sites=r.vrf.sites := by
  obtain ⟨_,⟨_,hcreate⟩|⟨_,_,_,_,_,_,hcreate⟩|⟨_,rfl⟩|⟨_,_,_,hcreate⟩⟩ := addPeering_ok h
  · obtain ⟨_,_,rfl⟩ := createPeer_ok hcreate
    rfl
  · obtain ⟨_,_,rfl⟩ := createPeer_ok hcreate
    rfl
  · rfl
  · obtain ⟨_,_,rfl⟩ := createPeer_ok hcreate
    rfl

theorem editPeering_sites (h : editPeering site r p=.ok r') : r'.vrf.sites=r.vrf.sites := by
  unfold editPeering at h
  cases hid : p.existing with
  | none =>
    simp only [hid] at h
    exact addPeering_sites h
  | some id =>
    simp only [hid,updatePeering] at h
    split at h
    · cases h
      rfl
    · split_ifs at h
      cases h
      rfl

theorem addEndpoint_fits (h : Fits net start done r)
    (hclear : ∀ p∈peerings,Ask.Clear net start ⟨site,p⟩)
    (hapart : (done++peerings.map fun p => (⟨site,p⟩ : Ask)).Pairwise Ask.Apart)
    (hadd : addEndpoint site peerings r=.ok r') :
    Fits net start (done++peerings.map fun p => ⟨site,p⟩) r' := by
  unfold addEndpoint at hadd
  split_ifs at hadd with hused
  obtain ⟨hsites,hpeers⟩ := not_or.mp hused
  have hfits : Fits net start done
      {r with vrf := {r.vrf with sites := r.vrf.sites++[{site with live := true}]}} := by
    refine h.addSite ?_ ?_
    · intro s hs he
      exact hsites (any_eq_true.mpr ⟨s,hs,by simpa using he⟩)
    · intro p hp he
      exact hpeers (any_eq_true.mpr ⟨p,hp,by simpa using he⟩)
  have hrun := Loops.foldlM_progress
    (I := fun handled r' => Fits net start (done++handled.map fun p => ⟨site,p⟩) r'∧
      Stands r'.vrf site) ?_ ?_ hadd
  · exact hrun.1
  · intro handled p rest t t' hsplit ht hstep
    refine ⟨?_,?_⟩
    · rw [map_append,← append_assoc]
      refine addPeering_fits ht.1 ht.2 (hclear p (by simp [hsplit])) ?_ hstep
      intro d hd
      rw [hsplit,map_append,← append_assoc] at hapart
      exact (pairwise_append.mp hapart).2.2 d hd _ mem_cons_self
    · obtain ⟨s,hs,hrest⟩ := ht.2
      exact ⟨s,addPeering_sites hstep ▸ hs,hrest⟩
  · refine ⟨by simpa using hfits,{site with live := true},?_,rfl,rfl,rfl⟩
    exact mem_append_right _ (mem_singleton_self _)

/-- The new peerings of an entry for an endpoint that is there. -/
def newAsks (site : Site) (peerings : List Peering) : List Ask :=
  (peerings.filter (·.existing.isNone)).map fun p => ⟨site,p⟩

theorem editPeering_fits {handled : List Peering}
    (h : Fits net start (done++newAsks site handled) r) (hstands : Stands r.vrf site)
    (hkeeps : ∀ id∈p.existing,∀ text∈p.localIp,(∃ q∈start.peers,q.id=id)∧
      ∀ q∈start.peers,q.id=id → net.stored q.version text=q.localIp)
    (hclear : p.existing=none → Ask.Clear net start ⟨site,p⟩)
    (hapart : p.existing=none → ∀ d∈done++newAsks site handled,d.Apart ⟨site,p⟩)
    (hedit : editPeering site r p=.ok r') :
    Fits net start (done++newAsks site (handled++[p])) r' := by
  unfold editPeering at hedit
  split at hedit
  next hid =>
    have hasks : newAsks site (handled++[p])=newAsks site handled++[⟨site,p⟩] := by
      simp [newAsks,hid]
    rw [hasks,← append_assoc]
    exact addPeering_fits h hstands (hclear hid) (hapart hid) hedit
  next pid hid =>
    have hasks : newAsks site (handled++[p])=newAsks site handled := by simp [newAsks,hid]
    rw [hasks]
    exact updatePeering_fits h (hkeeps pid hid) hedit

theorem editEndpoint_fits {id : Nat} (h : Fits net start done r) (hsite : start.loaded id=some site)
    (hkeeps : Entry.Keeps net start (.existing id peerings))
    (hclear : ∀ a∈newAsks site peerings,a.Clear net start)
    (hapart : (done++newAsks site peerings).Pairwise Ask.Apart)
    (hedit : editEndpoint id peerings r=.ok r') :
    Fits net start (done++newAsks site peerings) r' := by
  unfold editEndpoint at hedit
  -- the endpoints that were there come first
  have hfind : (r.vrf.sites.find? fun s => s.live && s.id==id)=some site := by
    obtain ⟨added,hadded⟩ := h.sites
    rw [hadded,find?_append]
    rw [Vrf.loaded] at hsite
    rw [hsite]
    rfl
  have hstands : Stands r.vrf site := by
    have hmatch := find?_some hfind
    simp only [and_eq_true] at hmatch
    exact ⟨site,mem_of_find?_eq_some hfind,hmatch.1,rfl,rfl⟩
  simp only [hfind] at hedit
  cases hrun : peerings.foldlM (editPeering site) r with
  | error failure => simp [hrun] at hedit
  | ok t =>
    simp only [hrun,ok.injEq] at hedit
    have hloop := Loops.foldlM_progress
      (I := fun handled t => Fits net start (done++newAsks site handled) t∧Stands t.vrf site) ?_ ?_
      hrun
    · rw [← hedit]
      refine hloop.1.map_peers ?_
      intro q _
      split_ifs
      · exact ⟨rfl,rfl,rfl,rfl,fun hactive => by cases hactive⟩
      · exact ⟨rfl,rfl,rfl,rfl,fun hactive => hactive⟩
    · intro handled p rest t t' hsplit ht hstep
      have hstands' : Stands t'.vrf site := by
        obtain ⟨s,hs,hrest⟩ := ht.2
        exact ⟨s,editPeering_sites hstep ▸ hs,hrest⟩
      have hrest (hid : p.existing=none) : newAsks site peerings=
          newAsks site handled++⟨site,p⟩::newAsks site rest := by
        simp [newAsks,hsplit,hid]
      refine ⟨editPeering_fits ht.1 ht.2 (hkeeps.2 p (by simp [hsplit])) ?_ ?_ hstep,hstands'⟩
      · intro hid
        exact hclear _ (by simp [hrest hid])
      · intro hid d hd
        rw [hrest hid,← append_assoc] at hapart
        exact (pairwise_append.mp hapart).2.2 d hd _ mem_cons_self
    · exact ⟨by simpa [newAsks] using h,hstands⟩

theorem Sound.removeSites (h : Sound net vrf) (ids : List Nat) :
    Sound net (vrf.removeSites ids) := by
  refine ⟨h.ids.sublist (filter_sublist.map _),h.peerIds.sublist (filter_sublist.map _),
    fun q hq => h.form q (mem_filter.mp hq).1,?_⟩
  intro port
  refine Sublist.nodup ?_ (h.distinct port)
  refine Sublist.map _ ?_
  simp only [Vrf.onPort,Vrf.removeSites,filter_filter]
  refine monotone_filter_right _ ?_
  intro q hq
  simp only [and_eq_true,any_eq_true] at hq ⊢
  obtain ⟨⟨hactive,s,hs,hmatch⟩,_⟩ := hq
  exact ⟨hactive,s,(mem_filter.mp hs).1,hmatch⟩

end Peers

theorem entries_fit {net : Net} {vrf : Vrf} {req : Request} {r : Run net} (h : Sound net vrf)
    (hok : Clear net vrf req) (hrun : req.entries.foldlM entryStep
      (⟨vrf,[],2,(AzureConfig.start net).load vrf⟩ : Run net)=.ok r) :
    Fits net vrf (req.asks vrf) r := by
  obtain ⟨hkeeps,hclear,hapart⟩ := hok
  refine Loops.foldlM_progress
    (I := fun handled r => Fits net vrf (handled.flatMap (Entry.asks vrf)) r) ?_ ?_ hrun
  · intro handled e rest t t' hsplit ht hstep
    have hasks : req.asks vrf=(handled.flatMap (Entry.asks vrf)++e.asks vrf)++
        rest.flatMap (Entry.asks vrf) := by
      simp [Request.asks,hsplit]
    have hclear' (a : Ask) (ha : a∈e.asks vrf) : a.Clear net vrf := hclear a (by simp [hasks,ha])
    rw [hasks] at hapart
    have hapart' := (pairwise_append.mp hapart).1
    rw [flatMap_append,flatMap_singleton]
    cases e with
    | new site peerings =>
      exact addEndpoint_fits ht (fun p hp => hclear' ⟨site,p⟩ (mem_map_of_mem hp)) hapart' hstep
    | existing id peerings =>
      have hk := hkeeps (.existing id peerings) (by simp [hsplit])
      obtain ⟨site,hsite⟩ := Option.isSome_iff_exists.mp hk.1
      have hsame : Entry.asks vrf (.existing id peerings)=newAsks site peerings := by
        simp only [Entry.asks,hsite,newAsks]
      rw [hsame] at hclear' hapart' ⊢
      exact editEndpoint_fits ht hsite hk hclear' hapart' hstep
  · exact ⟨Nat.two_pos,h,⟨[],by simp⟩,fun q hq => ⟨q,hq,rfl⟩,fun q hq => .inl ⟨q,hq,rfl,rfl,rfl⟩,
      fun port text htext => .inl htext,fun port text htext => by cases htext⟩

theorem serve_sound {net : Net} (vrf : Vrf) (req : Request) (h : Sound net vrf)
    (hok : Clear net vrf req) : Sound net (serve net vrf req) := by
  unfold serve provisionVrf
  cases hrun : req.entries.foldlM entryStep
      (⟨vrf,[],2,(AzureConfig.start net).load vrf⟩ : Run net) with
  | error failure => exact h
  | ok r =>
    have hfits := entries_fit h hok hrun
    split_ifs
    · exact hfits.sound.removeSites _
    · exact h

/-- The addresses on a port stay distinct from a new VRF on, if the requests meet the condition. -/
theorem local_addresses_distinct (net : Net) (reqs : List Request)
    (hreqs : Runs.StepsOk (serve net) (Clear net) ⟨[],[]⟩ reqs) :
    Runs.Always (serve net) Distinct ⟨[],[]⟩ reqs := by
  have hempty : Sound net ⟨[],[]⟩ := ⟨nodup_nil,nodup_nil,fun q hq => absurd hq not_mem_nil,
      fun port => nodup_nil⟩
  have hsound : Runs.Always (serve net) (Sound net) ⟨[],[]⟩ reqs :=
    Runs.always_of_step serve_sound hempty hreqs
  exact hsound.mono fun vrf h => h.distinct

/-- Addresses are short and Azure's subnets numbers. -/
def plainNet : Net where
  Subnet := Nat
  valid v text := (v==.ipv4)==!text.toList.contains ':'
  parses _ := true
  short := id
  short_short _ := rfl
  short_generated _ _ _ _ := rfl
  subnetFromAddress _ := 248
  nextSubnet n := n+4
  ge m n := decide (n ≤ m)
  firstSubnet _ := 248
  firstAddress n := "192.168.100."++toString (n+1)++"/30"

/-- Google, Azure and no cloud. -/
def gcpSite : Site := ⟨1,("rtr","xe-1"),some "key",none,true⟩

def azureSite : Site := ⟨2,("rtr","xe-2"),some "service",some true,true⟩

def campusSite : Site := ⟨3,("rtr","xe-3"),none,none,true⟩

/-- Generated, derived and given ones, and one added. -/
def peeredVrf : List Request := [⟨[.new gcpSite [⟨none,1,some .ipv4,none⟩,⟨none,2,some .ipv6,none⟩],
      .new azureSite [⟨none,3,some .ipv4,none⟩],
      .new campusSite [⟨none,4,some .ipv4,some "10.0.0.0/31"⟩]],true⟩,
    ⟨[.existing 1 [⟨some 1,0,none,none⟩,⟨some 2,0,none,none⟩],.existing 2 [⟨some 3,0,none,none⟩],
      .existing 3 [⟨some 4,0,none,some "10.0.0.0/31"⟩,⟨none,5,some .ipv4,some "10.0.0.2/31"⟩]],true⟩]

theorem peeredVrf_distinct : Runs.StepsOk (serve plainNet) (Clear plainNet) ⟨[],[]⟩ peeredVrf∧
    Runs.Always (serve plainNet) Distinct ⟨[],[]⟩ peeredVrf := by
  have hok : Runs.StepsOk (serve plainNet) (Clear plainNet) ⟨[],[]⟩ peeredVrf :=
    ⟨by decide +kernel,by decide +kernel,trivial⟩
  exact ⟨hok,local_addresses_distinct plainNet _ hok⟩

/-- A second request starts the counter at 2 again and generates the same address. -/
theorem generated_address_repeated : ¬Runs.Always (serve plainNet) Distinct ⟨[],[]⟩
      [⟨[.new gcpSite [⟨none,1,some .ipv4,none⟩]],true⟩,
        ⟨[.existing 1 [⟨some 1,0,none,none⟩,⟨none,2,some .ipv4,none⟩]],true⟩] := by
  intro h
  have hlast := h.2.2 ("rtr","xe-1")
  revert hlast
  decide +kernel

end OESS.Peers
