import OESS.Cloud.Oracle
import OESS.Database.Ownership

namespace OESS.Cloud

open List

/-- A row of `vrf_ep_peer`; `active`: not decommissioned. -/
structure PeerRow where
  (id vrfEp : Nat)
  (active ipv4 : Bool)
  (localIp peerIp : AddressText)
  peerAsn : Option Nat
  md5Key : Option String
  operationalState : Option Bool
  bfd : Nat

/-- A valid peer as Oracle has it. -/
structure RemotePeer where
  ipv4 : Bool
  (localIp remoteIp : AddressText)
  remoteAsn : Nat
  md5Key : String

@[ext] structure PeerTable where
  rows : List PeerRow
  keyed : (rows.map PeerRow.id).Nodup

/-- `_short_ip`, for IPv6 addresses only. -/
def stored (ipv4 : Bool) (a : AddressText) : AddressText :=
  if ipv4 then a else {a with spelling := 0}

namespace RemotePeer

variable (r : RemotePeer) (row : PeerRow)

/-- What an update through the loaded object leaves. -/
def write : PeerRow :=
  {row with
    ipv4 := r.ipv4
    localIp := stored r.ipv4 r.localIp
    peerIp := stored r.ipv4 r.remoteIp
    peerAsn := some r.remoteAsn
    md5Key := some r.md5Key
    operationalState := some (row.operationalState==some true)}

/-- The status is given under a name that is not read. -/
def newRow (id vrfEp : Nat) : PeerRow where
  id := id
  vrfEp := vrfEp
  active := true
  ipv4 := r.ipv4
  localIp := stored r.ipv4 r.localIp
  peerIp := stored r.ipv4 r.remoteIp
  peerAsn := some r.remoteAsn
  md5Key := some r.md5Key
  operationalState := some false
  bfd := 0

/-- Writing the peer again changes nothing. -/
def Settled : Prop := r.write row=row

theorem settled_write : r.Settled (r.write row) := by simp [Settled,write]

theorem settled_newRow (id vrfEp : Nat) : r.Settled (r.newRow id vrfEp) := rfl

/-- The row holds the remote peer, with addresses compared as such. -/
def Matches : Prop :=
  row.ipv4=r.ipv4∧row.localIp.address=r.localIp.address∧row.peerIp.address=r.remoteIp.address∧
    row.peerAsn=some r.remoteAsn∧row.md5Key=some r.md5Key

theorem stored_address (ipv4 : Bool) (a : AddressText) : (stored ipv4 a).address=a.address := by
  cases ipv4 <;> rfl

theorem Settled.matches {r : RemotePeer} {row : PeerRow} (h : r.Settled row) : r.Matches row := by
  rw [← show r.write row=row from h]
  exact ⟨rfl,stored_address _ _,stored_address _ _,rfl,rfl⟩

end RemotePeer

namespace PeerTable

variable (t : PeerTable) (vrfEp id : Nat)

def update (f : PeerRow → PeerRow) (hf : ∀ row,(f row).id=row.id) : PeerTable where
  rows := t.rows.map fun row => if row.id=id then f row else row
  keyed := by
    rw [map_map]
    convert t.keyed using 2
    funext row
    rw [Function.comp_apply]
    split_ifs <;> simp [hf]

def create (r : RemotePeer) : PeerTable where
  rows := t.rows++[r.newRow (Database.nextId (t.rows.map PeerRow.id)) vrfEp]
  keyed := Lookup.nodup_map_snoc t.keyed (Database.not_mem_nextId _)

def decom : PeerTable := t.update id (fun row => {row with active := false}) fun _ => rfl

/-- The peers that are loaded for an endpoint. -/
def live : List PeerRow := t.rows.filter fun row => row.active && row.vrfEp==vrfEp

/-- The two loops, over the loaded peers and the remote ones. -/
def sync : List Nat → List RemotePeer → PeerTable → PeerTable
  | [],[],t => t
  | id::ids,r::rs,t => sync ids rs (t.update id r.write fun _ => rfl)
  | [],r::rs,t => sync [] rs (t.create vrfEp r)
  | id::ids,[],t => sync ids [] (t.decom id)

def updateLocalPeers (remote : List RemotePeer) : PeerTable :=
  sync vrfEp ((t.live vrfEp).map PeerRow.id) remote t

variable {t vrfEp} {done rest : List PeerRow} {row : PeerRow}

theorem live_split (h : t.live vrfEp=done++row::rest) :
    (∀ x∈done,x.id≠row.id)∧∀ x∈rest,x.id≠row.id := by
  have hnodup : ((t.live vrfEp).map PeerRow.id).Nodup := t.keyed.sublist (filter_sublist.map _)
  rw [h,map_append,map_cons,nodup_append,nodup_cons] at hnodup
  obtain ⟨_,⟨hrest,_⟩,hdone⟩ := hnodup
  refine ⟨fun x hx hid => ?_,fun x hx hid => ?_⟩
  · exact hdone _ (mem_map_of_mem hx) _ mem_cons_self hid
  · exact hrest (hid ▸ mem_map_of_mem hx)

theorem live_update (h : t.live vrfEp=done++row::rest) (r : RemotePeer) :
    (t.update row.id r.write fun _ => rfl).live vrfEp=done++r.write row::rest := by
  obtain ⟨hdone,hrest⟩ := live_split h
  have hlive : (t.update row.id r.write fun _ => rfl).live vrfEp=
      (t.live vrfEp).map fun x => if x.id=row.id then r.write x else x := by
    unfold live update
    rw [filter_map]
    congr 2
    funext x
    rw [Function.comp_apply]
    split_ifs <;> rfl
  have hsame {l : List PeerRow} (hl : ∀ x∈l,x.id≠row.id) :
      (l.map fun x => if x.id=row.id then r.write x else x)=l :=
    (map_congr_left fun x hx => if_neg (hl x hx)).trans (map_id' l)
  rw [hlive,h,map_append,map_cons,if_pos rfl,hsame hdone,hsame hrest]

theorem live_decom (h : t.live vrfEp=done++row::rest) : (t.decom row.id).live vrfEp=done++rest := by
  obtain ⟨hdone,hrest⟩ := live_split h
  have hlive : (t.decom row.id).live vrfEp=(t.live vrfEp).filter fun x => x.id≠row.id := by
    change (t.rows.map fun x => if x.id=row.id then {x with active := false} else x).filter _=_
    unfold live
    induction t.rows with
    | nil => rfl
    | cons x rows ih => grind
  have hsame {l : List PeerRow} (hl : ∀ x∈l,x.id≠row.id) : (l.filter (·.id≠row.id))=l :=
    filter_eq_self.mpr fun x hx => by simpa using hl x hx
  rw [hlive,h,filter_append,filter_cons_of_neg (by simp),hsame hdone,hsame hrest]

theorem live_create (r : RemotePeer) : (t.create vrfEp r).live vrfEp=
    t.live vrfEp++[r.newRow (Database.nextId (t.rows.map PeerRow.id)) vrfEp] := by
  simp [live,create,RemotePeer.newRow]

/-- The remote peers done are settled in the first live rows. -/
theorem sync_settled {rs rs' : List RemotePeer} (h : t.live vrfEp=done++rest)
    (hdone : Forall₂ RemotePeer.Settled rs' done) :
    Forall₂ RemotePeer.Settled (rs'++rs) ((sync vrfEp (rest.map PeerRow.id) rs t).live vrfEp) := by
  induction rs generalizing t rs' done rest with
  | nil =>
    induction rest generalizing t with
    | nil => simpa [sync,h] using hdone
    | cons row rest ih =>
      rw [map_cons,sync]
      exact ih (live_decom h)
  | cons r rs ih =>
    rw [append_cons]
    cases rest with
    | nil =>
      have hlive := @live_create t vrfEp r
      rw [h,append_nil,← append_nil (_++_)] at hlive
      rw [map_nil,sync]
      exact ih hlive (rel_append hdone (.cons (r.settled_newRow _ _) .nil))
    | cons row rest =>
      rw [map_cons,sync]
      exact ih ((live_update h r).trans (append_cons _ _ _)) (rel_append hdone (.cons (r.settled_write _) .nil))

theorem sync_of_settled {rs : List RemotePeer} {rows : List PeerRow} (hrows : ∀ row∈rows,row∈t.rows)
    (h : Forall₂ RemotePeer.Settled rs rows) : sync vrfEp (rows.map PeerRow.id) rs t=t := by
  induction h with
  | nil => rw [map_nil,sync]
  | @cons r row rs rows hr _ ih =>
    have hsame : (t.update row.id r.write fun _ => rfl)=t := by
      ext1
      refine (map_congr_left fun x hx => ?_).trans (map_id' t.rows)
      split_ifs with hid
      · rwa [inj_on_of_nodup_map t.keyed hx (hrows row mem_cons_self) hid]
      · rfl
    rw [map_cons,sync,hsame]
    exact ih fun x hx => hrows x (mem_cons_of_mem _ hx)

/-- After a call the live rows match the remote peers in order, and a second call changes
nothing. -/
theorem updateLocalPeers_matches (t : PeerTable) (vrfEp : Nat) (remote : List RemotePeer) :
    Forall₂ RemotePeer.Matches remote ((t.updateLocalPeers vrfEp remote).live vrfEp)∧
      (t.updateLocalPeers vrfEp remote).updateLocalPeers vrfEp remote=
        t.updateLocalPeers vrfEp remote := by
  have hstart : t.live vrfEp=[]++t.live vrfEp := rfl
  have hsettled : Forall₂ RemotePeer.Settled remote ((t.updateLocalPeers vrfEp remote).live vrfEp) :=
    sync_settled hstart .nil
  refine ⟨hsettled.imp fun _ _ => RemotePeer.Settled.matches,?_⟩
  exact sync_of_settled (fun _ => mem_of_mem_filter) hsettled

end PeerTable

end OESS.Cloud
