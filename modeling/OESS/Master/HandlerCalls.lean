import OESS.Framework.KeyedTable
import OESS.Master.Handlers

namespace OESS.MasterEvents

open Master (Circuit CircuitRow LinkStatus PathRow PathState PortEvent Tables
  getAffectedCircuitsByLinkId getCircuitsOnLink getLinkByDpidAndPort)
open OpenFlow (PathType)
open Transactions Transactions.Routine

variable {d : Site}

/-- The rows that a change of the circuit's path looks for. -/
structure Switchable (d : Site) (id : Nat) : Prop where
  active : ∃ p∈d.tables.paths,p.circuitId=id∧p.state=.active
  available : ∃ p∈d.tables.paths,p.circuitId=id∧p.state=.available
  instantiated : ∃ r∈d.tables.circuits,r.circuitId=id

theorem Switchable.congr {e : Site} {id : Nat} (h : Switchable d id)
    (hp : e.tables.paths=d.tables.paths) (hc : e.tables.circuits=d.tables.circuits) :
    Switchable e id := by
  obtain ⟨h1,h2,h3⟩ := h
  rw [← hp] at h1 h2
  rw [← hc] at h3
  exact ⟨h1,h2,h3⟩

/-- `old` and `new` have changed places. -/
def exchanged (d : Site) (old new : PathRow) : Site :=
  ((d.setPathState old.pathId .decom).setPathState old.pathId .available).setPathState new.pathId
    .active

theorem mem_exchanged (old new : PathRow) {p : PathRow} (hp : p∈d.tables.paths) :
    (if p.pathId=new.pathId then {p with state := .active}
      else if p.pathId=old.pathId then {p with state := .available} else p)∈
        (exchanged d old new).tables.paths := by
  simp only [exchanged,Site.setPathState,Tables.setPathState,List.map_map,List.mem_map]
  refine ⟨p,hp,?_⟩
  by_cases hn : p.pathId=new.pathId <;> by_cases ho : p.pathId=old.pathId <;> simp_all

theorem switchable_exchanged {old new : PathRow} {id k : Nat} {row : CircuitRow}
    (ho : old∈d.tables.paths) (hoc : old.circuitId=id) (hos : old.state=.active)
    (hn : new∈d.tables.paths) (hnc : new.circuitId=id) (hns : new.state=.available)
    (hrow : row.circuitId=id) (h : Switchable d k) :
    Switchable (((exchanged d old new).modify (fun t => {t with
        circuits := t.circuits.filter (·.circuitId≠id)}) fun _ => rfl).modify
      (fun t => {t with circuits := t.circuits++[row]}) fun _ => rfl) k := by
  have hinj := List.inj_on_of_nodup_map d.pathIds
  have hne : old.pathId≠new.pathId := by
    intro he
    rw [hinj ho hn he,hns] at hos
    cases hos
  have hother : ∀ p∈d.tables.paths,p.circuitId≠id → p∈(exchanged d old new).tables.paths := by
    intro p hp hc
    have hpn : p.pathId≠new.pathId := by
      intro he
      rw [hinj hp hn he] at hc
      exact hc hnc
    have hpo : p.pathId≠old.pathId := by
      intro he
      rw [hinj hp ho he] at hc
      exact hc hoc
    have hmem := mem_exchanged old new hp
    rwa [if_neg hpn,if_neg hpo] at hmem
  have hcircuits : (exchanged d old new).tables.circuits=d.tables.circuits := rfl
  by_cases hk : k=id
  · have hnew := mem_exchanged old new hn
    have hold := mem_exchanged old new ho
    rw [if_pos rfl] at hnew
    rw [if_neg hne,if_pos rfl] at hold
    refine ⟨⟨_,hnew,hnc.trans hk.symm,rfl⟩,⟨_,hold,hoc.trans hk.symm,rfl⟩,row,?_,hrow.trans hk.symm⟩
    simp [Site.modify]
  · obtain ⟨⟨p,hp,hpc,hps⟩,⟨q,hq,hqc,hqs⟩,⟨r,hr,hrc⟩⟩ := h
    refine ⟨⟨p,hother p hp (hpc ▸ hk),hpc,hps⟩,⟨q,hother q hq (hqc ▸ hk),hqc,hqs⟩,r,?_,hrc⟩
    have hrid : r.circuitId≠id := hrc ▸ hk
    simp [Site.modify,hcircuits,hr,hrid]

variable {s : Transactions.Session Site} {K : Transactions.Session Site → Prop}

variable {α β : Type} {Q : Option β → Transactions.Session Site → Prop} {a : α} {next : α → Handler
  (Option β)}

theorem after_orRollback_pure :
    After (orRollback (pure (some a)) next) Q K s ↔ After (next a) Q K s := by
  rw [orRollback,After.bind,After.pure]

theorem after_orRollback_write {next : Unit → Handler (Option β)} {f : Site → Site}
    (hs : s.Healthy) :
    After (orRollback (write f) next) Q K s ↔ After (next ()) Q K (s.put (f s.db)) := by
  rw [orRollback,After.bind,After.write hs]

theorem after_orRollback_statement {f : Site → Option (α×Site)} (hs : s.Healthy)
    (hf : f s.db=some (a,d)) (h : After (next a) Q K (s.put d)) :
    After (orRollback (statement f) next) Q K s := by
  rw [orRollback,After.bind]
  exact .statement hs hf h

theorem after_orRollback_none {x : Handler (Option α)} {t : Transactions.Session Site}
    (hx : x s=(.done none,t)) (hQ : Q none t.rollback) : After (orRollback x next) Q K s := by
  rwa [orRollback,After,bind_of_done hx]

theorem after_discard {Q : Unit → Transactions.Session Site → Prop} {f : Site → Site}
    (hs : s.Healthy) : After (discard (write f)) Q K s ↔ Q () (s.put (f s.db)) := by
  rw [discard,After.bind,After.write hs]
  rfl

variable {id l : Nat} {ports : List JoinPort}

theorem pathIn_some {t : Tables} {st : PathState} (h : ∃ p∈t.paths,p.circuitId=id∧p.state=st) :
    ∃ p∈t.paths,p.circuitId=id∧p.state=st∧t.pathIn id st=some p := by
  obtain ⟨p,hp,hc,hst⟩ := h
  have hsome : (t.pathIn id st).isSome=true := by
    rw [Tables.pathIn,List.find?_isSome]
    exact ⟨p,hp,by simp [hc,hst]⟩
  obtain ⟨q,hq⟩ := Option.isSome_iff_exists.mp hsome
  have hsat := List.find?_some hq
  simp only [decide_eq_true_eq] at hsat
  exact ⟨q,List.mem_of_find?_eq_some hq,hsat.1,hsat.2,hq⟩

theorem changePath_spec (c : Circuit) (hs : Busy s)
    (h : c.type=.openflow → c.hasBackupPath=true → Switchable s.db c.circuitId) :
    After (changePath c) (fun r t => Busy t∧(∀ c',r=some c' → c'=c.switched)∧
      ∀ id,Switchable s.db id → Switchable t.db id) K s := by
  unfold changePath
  split_ifs with ho hb
  · exact ⟨hs,by simp,fun _ hid => hid⟩
  · exact ⟨hs,by simp,fun _ hid => hid⟩
  · have hsw := h (not_not.mp ho) (by simpa using hb)
    obtain ⟨old,hold,hoc,hos,hfo⟩ := pathIn_some hsw.active
    obtain ⟨new,hnew,hnc,hns,hfn⟩ := pathIn_some hsw.available
    obtain ⟨row,hrow⟩ : ∃ row,(s.db.tables.circuits.find? (·.circuitId=c.circuitId))= some row := by
      rw [← Option.isSome_iff_exists,List.find?_isSome]
      obtain ⟨r,hr,hc⟩ := hsw.instantiated
      exact ⟨r,hr,by simp [hc]⟩
    have hrid : row.circuitId=c.circuitId := by simpa using List.find?_some hrow
    have hh := hs.1
    simp only [After.bind,After.select,after_orRollback_pure,after_orRollback_write,hh,
      Session.put_healthy,Session.put_db,hfo,hfn,Option.join_some]
    refine after_orRollback_statement (d := exchanged s.db old new) ?_ rfl ?_
    · exact hh
    have hfound : ((exchanged s.db old new).tables.circuits.find? fun r =>
        r.circuitId=c.circuitId)=some row := hrow
    simp only [After.bind,After.required,After.write,after_orRollback_pure,hh,
      Session.put_healthy,Session.put_db,hfound]
    refine ⟨hs,fun c' hc' => (Option.some.inj hc').symm,fun id hid => ?_⟩
    exact switchable_exchanged hold hoc hos hnew hnc hns hrid hid

theorem setPathState_twice (t : Tables) (id : Nat) (a b : PathState) :
    (t.setPathState id a).setPathState id b=t.setPathState id b := by
  simp only [Tables.setPathState,List.map_map]
  congr 1
  apply List.map_congr_left
  intro p _
  by_cases hp : p.pathId=id <;> simp [hp]

def handleOf (s : Transactions.Session Site) : Master.Session := ⟨s.db.tables,s.saved.map Site.tables⟩

theorem rollback_handleOf (s : Transactions.Session Site) :
    handleOf s.rollback=(handleOf s).rollback := by
  unfold handleOf Transactions.Session.rollback
  cases s.saved <;> rfl

/-- The handles agree on the tables, with the circuit rows in any order, and on the transaction. -/
def SameHandle (t : Transactions.Session Site) (h : Master.Session) : Prop :=
  ∃ circuits,circuits.Perm h.tables.circuits∧(handleOf t).tables={h.tables with circuits := circuits}∧
    (handleOf t).saved=h.saved

theorem sameHandle_of_eq {t : Transactions.Session Site} {h : Master.Session} (hth : handleOf t=h) :
    SameHandle t h := ⟨_,.refl _,by rw [hth],by rw [hth]⟩

/-- With every query answered, the model by statements and the plain model of `change_path` return
the same and leave the same tables and the same open transaction. -/
theorem changePath_agrees (c : Circuit) (hids : (s.db.tables.circuits.map CircuitRow.circuitId).Nodup)
    (hs : s.Healthy) :
    After (changePath c) (fun r t => r=(Master.changePath c (handleOf s)).2∧
      SameHandle t (Master.changePath c (handleOf s)).1) K s := by
  have hsame (t : Transactions.Session Site) := sameHandle_of_eq (rfl : handleOf t=handleOf t)
  unfold changePath Master.changePath
  split
  · exact ⟨rfl,hsame _⟩
  split
  · exact ⟨rfl,hsame _⟩
  have htables : (handleOf s).tables=s.db.tables := rfl
  simp only [After.bind,After.select,hs,Session.put_healthy,Session.put_db,htables,Option.join_some]
  cases s.db.tables.pathIn c.circuitId .active with
  | none => exact after_orRollback_none rfl ⟨rfl,sameHandle_of_eq (rollback_handleOf _)⟩
  | some old =>
    simp only [after_orRollback_pure,after_orRollback_write,hs,Session.put_healthy]
    cases s.db.tables.pathIn c.circuitId .available with
    | none =>
      refine after_orRollback_none (statement_refused _ rfl) ⟨rfl,sameHandle_of_eq ?_⟩
      rw [rollback_handleOf]
      simp only [handleOf,Session.put_db,Site.setPathState,setPathState_twice]
      rfl
    | some new =>
      refine after_orRollback_statement (d := exchanged s.db old new) hs rfl ?_
      have hexchanged : (exchanged s.db old new).tables=
          (s.db.tables.setPathState old.pathId .available).setPathState new.pathId .active := by
        simp only [exchanged,Site.setPathState,setPathState_twice]
      have hcircuits : (exchanged s.db old new).tables.circuits=s.db.tables.circuits := rfl
      simp only [After.bind,After.required,hs,Session.put_healthy,Session.put_db,hcircuits]
      rw [← List.isSome_find?]
      cases hrow : s.db.tables.circuits.find? fun r => r.circuitId=c.circuitId with
      | none =>
        refine after_orRollback_none rfl ⟨rfl,sameHandle_of_eq ?_⟩
        rw [rollback_handleOf]
        simp only [handleOf,Session.put_db,hexchanged]
        rfl
      | some row =>
        simp only [After.bind,After.write,after_orRollback_pure,hs,Session.put_healthy,After.pure]
        -- the circuit's row is taken out and put back behind the others
        have hid : row.circuitId=c.circuitId := by simpa using List.find?_some hrow
        have hperm := KeyedTable.put_perm CircuitRow.circuitId hids (List.mem_of_find?_eq_some hrow)
        rw [KeyedTable.put,KeyedTable.deleteKey,hid] at hperm
        refine ⟨rfl,_,hperm,?_,rfl⟩
        simp only [handleOf,Session.put_db,Site.modify,hexchanged]
        rfl

/-- If the object can change paths, the rows are there. -/
def Movable (m : Memory) (d : Site) (id : Nat) : Prop :=
  ∀ c,m.circuit id=some c → c.type=.openflow → c.hasBackupPath=true → Switchable d c.circuitId

def Moving (ids : List Nat) (m : Memory) (s : Transactions.Session Site) : Prop :=
  Busy s∧∀ id∈ids,Movable m s.db id

variable {m : Memory} {ids : List Nat}

theorem move_spec {c : Circuit} (hid : id∈ids) (hc : m.circuit id=some c) (h : Moving ids m s) :
    After (move m id c) (Moving ids) K s := by
  rw [move,After.bind]
  refine (changePath_spec c h.1 (h.2 id hid c hc)).mono fun r t ht => ?_
  obtain ⟨hbusy,hr,hkeep⟩ := ht
  cases r with
  | none => exact ⟨hbusy,fun k hk d hd ho hb => hkeep _ (h.2 k hk d hd ho hb)⟩
  | some c' =>
    refine ⟨hbusy,fun k hk d hd ho hb => hkeep _ ?_⟩
    obtain rfl := hr c' rfl
    by_cases hki : k=id
    · rw [hki] at hd
      simp only [Function.update_self,Option.some.injEq] at hd
      rw [← hd] at ho hb ⊢
      exact h.2 id hid c hc ho hb
    · simp only [Function.update_of_ne hki] at hd
      exact h.2 k hk d hd ho hb

theorem failOverCircuit_spec (hid : id∈ids) (h : Moving ids m s) :
    After (failOverCircuit m id) (Moving ids) K s := by
  unfold failOverCircuit
  cases hc : m.circuit id with
  | none => exact h
  | some c =>
    dsimp only
    split_ifs
    · exact move_spec hid hc h
    · exact h

theorem failOverCircuits_spec (hs : Rested s) (h : ∀ id∈ids,Movable m s.db id) :
    After (failOverCircuits m ids) (fun _ => Rested) K s := by
  rw [failOverCircuits,After.bind]
  apply After.beginOrDie hs
  intro hbusy
  rw [After.bind]
  have hloop : After (ids.foldlM failOverCircuit m) (Moving ids) K s.opened :=
    .foldlM (fun _ _ _ hi hm => failOverCircuit_spec hi hm) ⟨hbusy,h⟩
  refine hloop.mono fun m' t ht => ?_
  rw [After.bind]
  exact .commit ht.1 fun _ _ hu => hu

theorem schedulePathChange_spec (h : Moving ids m s) :
    After (schedulePathChange id) (fun _ => Moving ids m) K s := by
  rw [schedulePathChange,after_discard h.1.1]
  exact ⟨h.1,fun k hk c hc ho hb => (h.2 k hk c hc ho hb).congr rfl rfl⟩

theorem restoreCircuit_spec {row : Nat×PathType} (hid : row.1∈ids) (h : Moving ids m s) :
    After (restoreCircuit m row) (Moving ids) K s := by
  unfold restoreCircuit
  cases hc : m.circuit row.1 with
  | none => exact h
  | some c =>
    dsimp only
    split_ifs with hb hp
    · exact move_spec hid hc h
    · exact h
    · rw [After.bind]
      unfold onlyIf
      split_ifs
      · exact schedulePathChange_spec h
      · exact h
    · exact move_spec hid hc h
    · exact h
    · exact h

theorem restoreDownCircuits_spec {rows : List (Nat×PathType)} (hs : Rested s)
    (h : ∀ id∈rows.map Prod.fst,Movable m s.db id) :
    After (restoreDownCircuits m (some rows)) (fun _ => Rested) K s := by
  rw [restoreDownCircuits,After.bind]
  apply After.beginOrDie hs
  intro hbusy
  rw [After.bind]
  have hloop : After (rows.foldlM restoreCircuit m) (Moving (rows.map Prod.fst)) K s.opened :=
    .foldlM (fun _ _ _ hi hm => restoreCircuit_spec (List.mem_map_of_mem hi) hm) ⟨hbusy,h⟩
  refine hloop.mono fun m' t ht => ?_
  rw [After.bind]
  exact .commit ht.1 fun _ _ hu => hu

theorem cancelRestorations_spec (hs : Rested s) :
    After (cancelRestorations l) (fun _ => Rested) K s := by
  rw [cancelRestorations,After.bind,After.select hs.1,After.bind]
  apply After.beginOrDie hs.put
  intro hbusy
  rw [After.bind]
  refine (After.each (fun row t ht => ?_) _ hbusy).mono fun _ t ht => ?_
  · rw [After.bind,After.required ht.1]
    refine .each (fun id u hu => ?_) _ ht.put
    rw [after_discard hu.1]
    exact hu.put
  · rw [After.bind]
    exact .commit ht fun _ _ hu => hu

theorem updateLinkState_spec {st : LinkStatus} (hs : Rested s) :
    After (updateLinkState l st) (fun _ => Rested) K s := by
  rw [updateLinkState,after_discard hs.1]
  exact hs.put

theorem addOrUpdateInterface_spec {place : Nat×Nat} {a b : Bool} (hs : Busy s) :
    After (addOrUpdateInterface place a b)
      (fun _ t => Busy t∧t.db.tables.links=s.db.tables.links) K s := by
  rw [addOrUpdateInterface,after_discard hs.1]
  exact ⟨hs.put,rfl⟩

theorem updatePortStatus_spec {e : PortEvent} (hs : Rested s) :
    After (updatePortStatus e) (fun _ => Rested) K s := by
  unfold updatePortStatus
  split_ifs
  · exact hs
  rw [After.bind]
  apply After.beginOrDie hs
  intro hbusy
  rw [After.bind,After.select hbusy.1,After.bind]
  have hwrite : After (onlyIf ((some (s.opened.db.getNodeByDpid e.dpid)).join≠none)
      (addOrUpdateInterface e.place e.stateDown e.configDown)) (fun _ => Busy) K
      (s.opened.put s.opened.db) := by
    unfold onlyIf
    split_ifs
    · exact (addOrUpdateInterface_spec hbusy.put).mono fun _ t ht => ht.1
    · exact hbusy.put
  refine hwrite.mono fun _ t ht => ?_
  rw [After.bind]
  exact .commit ht fun _ _ hu => hu

def Ready (m : Memory) (d : Site) (l : Nat) : Prop :=
  ∀ id∈getAffectedCircuitsByLinkId d.tables l++(getCircuitsOnLink d.tables l).map Prod.fst,
    Movable m d id

theorem trunkModified_spec {up : Bool} (hs : Rested s)
    (h : m.linkMaintenance l=false → Ready m s.db l) :
    After (trunkModified m l up) (fun _ => Rested) K s := by
  unfold trunkModified
  cases up with
  | true =>
    rw [if_pos rfl,After.bind]
    have hrestored : After (if m.linkMaintenance l then pure m
        else do
          let rows ← select fun d => getCircuitsOnLink d.tables l
          restoreDownCircuits {m with linkStatus := Function.update m.linkStatus l .up} rows)
        (fun _ => Rested) K s := by
      split_ifs with hm
      · exact hs
      rw [After.bind,After.select hs.1]
      apply restoreDownCircuits_spec hs.put
      intro id hid c hc
      exact h (by simpa using hm) id (List.mem_append_right _ hid) c hc
    refine hrestored.mono fun m' t ht => ?_
    rw [After.bind]
    exact updateLinkState_spec ht
  | false =>
    rw [if_neg Bool.false_ne_true,After.bind,After.select hs.1,After.bind]
    have hmoved : After (if m.linkMaintenance l then pure m
        else do
          let m ← failOverCircuits {m with linkStatus := Function.update m.linkStatus l .down}
            (getAffectedCircuitsByLinkId s.db.tables l)
          cancelRestorations l
          pure m) (fun _ => Rested) K (s.put s.db) := by
      split_ifs with hm
      · exact hs.put
      rw [After.bind]
      refine (failOverCircuits_spec hs.put ?_).mono fun m' t ht => ?_
      · intro id hid c hc
        exact h (by simpa using hm) id (List.mem_append_left _ hid) c hc
      · rw [After.bind]
        exact cancelRestorations_spec ht
    refine hmoved.mono fun m' t ht => ?_
    rw [After.bind]
    exact updateLinkState_spec ht

theorem portStatus_spec {e : PortEvent} (hs : Rested s)
    (h : ∀ l,e.reason=.modify → getLinkByDpidAndPort s.db.tables e.place=some l →
      m.linkMaintenance l=false → Ready m s.db l) :
    After (portStatus m e) (fun _ => Tidy) Tidy s := by
  rw [portStatus,After.bind,After.select hs.1]
  split_ifs
  · exact hs.2
  cases hr : e.reason with
  | modify =>
    rw [After.bind,After.select hs.put.1,After.bind]
    refine After.mono (Q := fun _ => Rested) ?_ fun m' t ht => ?_
    · rw [Session.put_db]
      cases hl : getLinkByDpidAndPort s.db.tables e.place with
      | none => exact hs.put.put
      | some l => exact trunkModified_spec hs.put.put (h l hr hl)
    rw [After.bind]
    exact (updatePortStatus_spec ht).mono fun _ _ hu => hu.2
  | delete =>
    rw [After.bind,After.select hs.put.1,After.bind]
    unfold onlyIf
    split_ifs
    · exact (updatePortStatus_spec hs.put.put).mono fun _ _ hu => hu.2
    · exact hs.put.put.2
  | add =>
    rw [After.bind]
    exact (updatePortStatus_spec hs.put).mono fun _ _ hu => hu.2

theorem joinPorts_spec {dpid : Nat} (hs : Busy s)
    (h : ∀ p∈ports,getLinkByDpidAndPort s.db.tables (dpid,p.portNo)=none) :
    After (joinPorts m dpid ports) (fun _ => Rested) K s := by
  rw [joinPorts,After.bind]
  have hloop : After (ports.foldlM (joinPort dpid) m)
      (fun _ t => Busy t∧t.db.tables.links=s.db.tables.links) K s := by
    refine .foldlM (fun m p t hp ht => ?_) ⟨hs,rfl⟩
    unfold joinPort
    by_cases hskip : (p.portNoHash.any fun n => 2^12 < n)=true
    · rwa [if_pos hskip]
    rw [if_neg hskip,After.bind]
    refine (addOrUpdateInterface_spec ht.1).mono fun _ u hu => ?_
    have hlinks := hu.2.trans ht.2
    have hnone : getLinkByDpidAndPort u.db.tables (dpid,p.portNo)=none := by
      have hp' := h p hp
      unfold getLinkByDpidAndPort at hp' ⊢
      rwa [hlinks]
    rw [After.bind,After.required hu.1.1,hnone]
    exact ⟨hu.1.put,hlinks⟩
  refine hloop.mono fun m' t ht => ?_
  rw [After.bind]
  exact .commit ht.1 fun _ _ hu => hu

theorem datapathJoin_spec {dpid : Nat} (hs : Rested s) (hnew : s.db.getNodeByDpid dpid=none)
    (h : ∀ p∈ports,getLinkByDpidAndPort s.db.tables (dpid,p.portNo)=none) :
    After (datapathJoin m dpid ports) (fun _ => Rested) K s := by
  rw [datapathJoin,After.bind]
  apply After.beginOrDie hs
  intro hbusy
  have hnone : s.opened.db.getNodeByDpid dpid=none := hnew
  rw [After.bind,After.select hbusy.1,hnone]
  change After (addNode >>= _) _ _ _
  rw [After.bind]
  refine .statement hbusy.put.1 rfl ?_
  rw [After.bind,createNodeInstance,after_discard hbusy.put.put.1]
  exact joinPorts_spec hbusy.put.put.put h

theorem createLinkInstantiation_spec {a z : Nat×Nat} (hs : Busy s) :
    After (createLinkInstantiation id a z) (fun _ => Busy) K s := by
  rw [createLinkInstantiation,after_discard hs.1]
  exact hs.put

theorem newLink_spec {a z : Nat×Nat} (hs : Busy s) : After (newLink a z) (fun _ => Rested) K s := by
  rw [newLink,After.bind,After.required hs.1,After.bind]
  refine After.mono (Q := fun r t => Busy t∧∃ id,r=some id) ?_ fun r t ht => ?_
  · cases (s.db.named.find? (·.1=(a,z))).map Prod.snd with
    | none => exact .statement hs.put.1 rfl ⟨hs.put.put,_,rfl⟩
    | some id => exact ⟨hs.put,id,rfl⟩
  obtain ⟨hbusy,id,rfl⟩ := ht
  rw [After.bind]
  refine (createLinkInstantiation_spec hbusy).mono fun _ u hu => ?_
  rw [After.bind]
  exact .commit hu fun _ _ hv => hv

/-- The rollback for an unknown port ends nothing. -/
theorem linkAdded_spec {a z : Nat×Nat} (hs : Rested s) (hu : standing s.calls=.unused) :
    After (linkAdded a z) (fun _ => Tidy) K s := by
  rw [linkAdded,After.bind,After.required hs.1,After.bind,After.required hs.put.1,Session.put_db]
  by_cases hports : s.db.interfaces.contains a=true∧s.db.interfaces.contains z=true
  · rw [if_neg (not_not.mpr hports),After.bind,After.select hs.put.put.1]
    split_ifs
    · exact hs.2
    rw [After.bind,After.select hs.put.put.put.1,After.bind,After.select hs.put.put.put.put.1,
      After.bind]
    apply After.beginOrDie hs.put.put.put.put.put
    intro hbusy
    split
    · rw [After.bind,decomLinkInstantiation,after_discard hbusy.1,After.bind]
      refine (createLinkInstantiation_spec hbusy.put).mono fun _ u hu => ?_
      rw [After.bind]
      exact .commit hu fun _ _ hv => hv.2
    · exact (newLink_spec hbusy).mono fun _ _ hv => hv.2
  · rw [if_pos hports]
    refine ⟨rfl,.inl ?_⟩
    change standing (s.calls++[.rollback])=.unused
    rw [standing_snoc,hu]
    rfl

/-- No query fails, no switch leaves, one that joins is new, and when a trunk outside maintenance
changes, every circuit on it that can change paths has the rows for it. -/
def Calm (s : State) (i : Input) : Prop := (∀ n,i.faults n=false)∧
    match i.event with
    | .join dpid ports => s.session.db.getNodeByDpid dpid=none∧
      ∀ p∈ports,getLinkByDpidAndPort s.session.db.tables (dpid,p.portNo)=none
    | .leave _ => False
    | .portStatus e => ∀ l,e.reason=.modify →
      getLinkByDpidAndPort s.session.db.tables e.place=some l →
        s.memory.linkMaintenance l=false → Ready s.memory s.session.db l
    | .linkAdded _ _ | .linkRemoved _ _ => True

theorem handle_spec {e : Event} (hs : Rested s)
    (hu : standing s.calls=.unused) (faults : Nat → Bool) (alive : Bool)
    (h : Calm ⟨m,s,alive⟩ ⟨e,faults⟩) : After (handle m e) (fun _ => Tidy) Tidy s := by
  obtain ⟨-,h⟩ := h
  cases e with
  | join dpid ports => exact (datapathJoin_spec hs h.1 h.2).mono fun _ _ ht => ht.2
  | leave dpid => exact h.elim
  | portStatus e => exact portStatus_spec hs h
  | linkAdded a z =>
    rw [handle,After.bind]
    exact linkAdded_spec hs hu
  | linkRemoved a z => exact hs.2

theorem step_tidy {s : State} {i : Input} (hs : Tidy s.session) (h : Calm s i) :
    Tidy (step s i).session := by
  unfold step
  split_ifs
  · let t : Transactions.Session Site := {s.session with calls := [],asked := 0,faults := i.faults}
    have ht : Rested t := ⟨h.1,hs.1,.inl rfl⟩
    have hspec : After (handle s.memory i.event) (fun _ => Tidy) Tidy t :=
      handle_spec ht rfl i.faults s.alive h
    unfold After at hspec
    match handle s.memory i.event t,hspec with
    | (.done m,u),hspec => exact hspec
    | (.failed e,u),hspec => cases e
    | (.died,u),hspec => exact hspec
  · exact hs

/-- In every run of calm events each handler leaves its transactions closed. -/
theorem events_tidy {s : State} {is : List Input} (hs : Tidy s.session)
    (h : Runs.StepsOk step Calm s is) : Runs.Always step (fun s => Tidy s.session) s is :=
  Runs.always_of_step (fun _ _ ht hc => step_tidy ht hc) hs h

def State.start (m : Memory) (d : Site) : State := ⟨m,connect d fun _ => false,true⟩

/-- A circuit with a path on each of two trunks. -/
def twoTrunks : Site where
  tables :=
    { circuits := [⟨7,.openflow,.active⟩]
      paths := [⟨1,7,.primary,[10],.active⟩,⟨2,7,.backup,[11],.available⟩]
      links := [⟨10,(1,1),(2,1)⟩,⟨11,(1,2),(2,2)⟩]
      restorations := []
      linkState := fun _ => .up
      operationalState := fun _ => .up
      adminState := fun _ => .up }
  nodes := [⟨1,some 1,false,true⟩,⟨2,some 2,false,true⟩]
  interfaces := [(1,1),(2,1),(1,2),(2,2)]
  named := []
  pathIds := by decide

def allUp : Memory where
  linkStatus := fun _ => .up
  circuit := fun id => if id=7 then some ⟨7,.openflow,[10],[11],[],.primary,0⟩ else none
  linkMaintenance := fun _ => false

theorem twoTrunks_changes :
    After (changePath ⟨7,.openflow,[10],[11],[],.primary,0⟩) (fun r _ => r.isSome=true) (fun _ => False)
      (connect twoTrunks fun _ => false) :=
  (changePath_agrees _ (by decide) fun _ => rfl).mono fun _ _ h => h.1 ▸ rfl

theorem twoTrunks_tidy : Runs.Always step (fun s => Tidy s.session) (.start allUp twoTrunks)
    [⟨.portStatus ⟨1,1,.modify,false,true,false⟩,fun _ => false⟩,
      ⟨.join 3 [⟨1,none,false,false⟩],fun _ => false⟩,⟨.linkAdded (1,3) (3,1),fun _ => false⟩] := by
  apply events_tidy ⟨rfl,.inl rfl⟩
  refine ⟨⟨fun _ => rfl,?_⟩,⟨fun _ => rfl,?_,?_⟩,⟨fun _ => rfl,trivial⟩,trivial⟩
  · intro l _ hl _ id hid c hc _ _
    have hlink : getLinkByDpidAndPort twoTrunks.tables (1,1)=some 10 := by decide
    obtain rfl : 10=l := Option.some.inj (hlink.symm.trans hl)
    have hids : getAffectedCircuitsByLinkId twoTrunks.tables 10++
        (getCircuitsOnLink twoTrunks.tables 10).map Prod.fst=[7,7] := by decide
    have h7 : id=7 := by
      have hmem : id∈[7,7] := hids ▸ hid
      simpa using hmem
    subst h7
    obtain rfl := Option.some.inj hc
    exact ⟨by decide,by decide,by decide⟩
  all_goals decide +kernel

/-- A leave is committed twice. If the query of a join fails, a port that is down begins a
transaction inside its own. -/
theorem leave_ends_twice : ((step (.start allUp twoTrunks) ⟨.leave 1,fun _ => false⟩).session.calls=
        [.begin,.commit,.commit]∧
      ¬Tidy (step (.start allUp twoTrunks) ⟨.leave 1,fun _ => false⟩).session)∧
    (step (.start allUp twoTrunks) ⟨.join 1 [⟨1,none,true,false⟩],(·=0)⟩).session.calls=
      [.begin,.begin] := by
  have hcalls : (step (.start allUp twoTrunks) ⟨.leave 1,fun _ => false⟩).session.calls=
      [.begin,.commit,.commit] := by decide +kernel
  refine ⟨⟨hcalls,?_⟩,by decide +kernel⟩
  rintro ⟨-,h⟩
  exact absurd h (by decide)

end OESS.MasterEvents
