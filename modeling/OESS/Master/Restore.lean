import OESS.Master.Failover

namespace OESS.Master

open OpenFlow (PathType CircuitState)
open Function List

/-- A row for each OpenFlow circuit and path over the link. -/
def getCircuitsOnLink (t : Tables) (l : Nat) : List (Nat×PathType) :=
  t.paths.flatMap fun p => (p.links.filter (·=l)).flatMap fun _ =>
    (t.circuits.filter fun r => r.circuitId=p.circuitId∧r.type=.openflow∧
      r.state∈[CircuitState.active,.reserved,.provisioned,.scheduled]).map fun r =>
        (r.circuitId,p.pathType)

/-- A restore is scheduled if the circuit asks for it. -/
def Progress.scheduleRestore (p : Progress) (c : Circuit) : Progress :=
  if c.restoreToPrimary>0 then
    {p with state := {p.state with db := {p.state.db with
      tables := {p.state.db.tables with
        restorations := p.state.db.tables.restorations++[c.circuitId]}}}}
  else p

def Progress.changeRestored (p : Progress) (c : Circuit) (reason : String) : Progress :=
  match p.change c with
  | (p,false) => p
  | (p,true) => p.notify ⟨c.circuitId,.up,reason,true⟩

def restoreCircuit (p : Progress) (row : Nat×PathType) : Progress :=
  match p.state.circuit row.1 with
  | none => p
  | some c =>
    if c.hasBackupPath then
      if row.2=.backup then
        if c.pathStatus p.state.linkStatus .primary=.down then
          if (c.pathStatus p.state.linkStatus .backup).truthy∧c.activePath≠.backup then
            p.changeRestored c "the backup path has been restored"
          else if (c.pathStatus p.state.linkStatus .backup).truthy∧c.activePath=.backup then
            p.report ⟨row.1,.up,"the backup path has been restored",true⟩
          else p
        else p
      else
        if c.activePath=.primary then
          p.report ⟨row.1,.up,"the primary path has been restored",true⟩
        else if (c.pathStatus p.state.linkStatus .primary).truthy then
          if (c.pathStatus p.state.linkStatus .backup).truthy then p.scheduleRestore c
          else p.changeRestored c "the primary path has been restored"
        else p
    else p.report ⟨row.1,.up,"the primary path has been restored",true⟩

def restoreDownCircuits (m : State) (rows : List (Nat×PathType)) : Progress :=
  (rows.foldl restoreCircuit (.start m)).finish

/-- The first step when a trunk outside maintenance comes up. -/
def linkUp (m : State) (l : Nat) : Progress :=
  restoreDownCircuits {m with linkStatus := Function.update m.linkStatus l .up}
    (getCircuitsOnLink m.db.tables l)

/-- All circuits are active OpenFlow ones. -/
structure Serving (m : State) : Prop where
  consistent : Consistent m
  deployed : ∀ id c,m.circuit id=some c → c.type=.openflow∧m.db.tables.InState id .active

/-- A circuit held to be up has all links of its active path up. -/
def UpSound (m : State) : Prop :=
  ∀ id c,m.circuit id=some c → m.circuitStatus id=.up → ∀ k∈c.activeLinks,m.linkStatus k=.up

/-- Branches that mark the circuit up without a look at its links find them up, and those that look
at a path do not find it unknown. -/
structure Restorable (linkStatus : Nat → LinkStatus) (l : Nat) (c : Circuit) (s : CircuitStatus) :
    Prop where
  unchecked : l∈c.links → c.hasBackupPath=false∨c.activePath=.primary →
    s=.up∨c.pathStatus linkStatus c.activePath=.up
  backup : l∈c.backupLinks → c.pathStatus linkStatus .primary=.down →
    c.pathStatus linkStatus .backup≠.unknown
  primary : l∈c.links → c.activePath≠.primary → c.pathStatus linkStatus .backup=.down →
    c.pathStatus linkStatus .primary≠.unknown

structure Restoring (linkStatus : Nat → LinkStatus) (l : Nat) (rows : List (Nat×PathType))
    (p : Progress) : Prop where
  serving : Serving p.state
  sound : UpSound p.state
  links : p.state.linkStatus=linkStatus
  crossed : ∀ row∈rows,∀ c,p.state.circuit row.1=some c → row.2≠.tertiary∧l∈c.getPath row.2
  restorable : ∀ id c,p.state.circuit id=some c →
    Restorable linkStatus l c (p.state.circuitStatus id)
  told : ∀ n∈p.notifications,n.restored=true → p.state.circuitStatus n.circuitId=.up

section Restoring

variable {linkStatus : Nat → LinkStatus} {l : Nat} {rows : List (Nat×PathType)} {p q : Progress}

variable {id : Nat} {c : Circuit} {s : CircuitStatus}

theorem Serving.turned {m n : State} (h : Serving m) {c' : Circuit} (hc : m.circuit id=some c)
    (ht : Turned m n id c' s) (hty : c'.type=c.type) : Serving n := by
  refine ⟨ht.consistent,fun k d hd => ?_⟩
  rw [Tables.InState,ht.rows]
  rw [ht.circuit] at hd
  by_cases hk : k=id
  · rw [hk,update_self] at hd
    rw [← Option.some.inj hd,hk,hty]
    exact h.deployed id c hc
  · rw [update_of_ne hk] at hd
    exact h.deployed k d hd

theorem Restoring.turned (h : Restoring linkStatus l rows p) {c' : Circuit}
    (hc : p.state.circuit id=some c) (ht : Turned p.state q.state id c' .up) (hty : c'.type=c.type)
    (hpath : ∀ t,c'.getPath t=c.getPath t) (hup : c'.pathStatus linkStatus c'.activePath=.up)
    (hok : Restorable linkStatus l c' .up)
    (hn : ∀ n∈q.notifications,n∈p.notifications∨n.circuitId=id) :
    Restoring linkStatus l rows q := by
  refine ⟨h.serving.turned hc ht hty,?_,ht.linkStatus.trans h.links,?_,?_,?_⟩
  · intro k d hd hs
    rw [ht.linkStatus]
    rw [ht.circuit] at hd
    by_cases hk : k=id
    · rw [hk,update_self] at hd
      rw [h.links,← Option.some.inj hd]
      exact (getPathStatus_up _ _).mp hup
    · rw [update_of_ne hk] at hd
      rw [ht.status,update_of_ne hk] at hs
      exact h.sound k d hd hs
  · intro row hrow d hd
    rw [ht.circuit] at hd
    by_cases hk : row.1=id
    · rw [hk,update_self] at hd
      rw [← Option.some.inj hd,hpath]
      exact h.crossed row hrow c (hk ▸ hc)
    · rw [update_of_ne hk] at hd
      exact h.crossed row hrow d hd
  · intro k d hd
    rw [ht.circuit] at hd
    rw [ht.status]
    by_cases hk : k=id
    · rw [hk,update_self] at hd
      rwa [← Option.some.inj hd,hk,update_self]
    · rw [update_of_ne hk] at hd ⊢
      exact h.restorable k d hd
  · intro n hnq hr
    rw [ht.status]
    by_cases hk : n.circuitId=id
    · rw [hk,update_self]
    · rw [update_of_ne hk]
      exact h.told n ((hn n hnq).resolve_right hk) hr

theorem Restorable.raise (h : Restorable linkStatus l c s) : Restorable linkStatus l c .up :=
  ⟨fun _ _ => .inl rfl,h.backup,h.primary⟩

theorem Progress.report_notifications (p : Progress) (m : Notification) :
    ∀ n∈(p.report m).notifications,n∈p.notifications∨n.circuitId=m.circuitId := by
  intro n hn
  unfold Progress.report at hn
  split_ifs at hn with h
  · exact .inl hn
  · rcases mem_append.mp hn with hn | hn
    · exact .inl hn
    · exact .inr (by rw [mem_singleton.mp hn])

section

variable (h : Restoring linkStatus l rows p)
include h

theorem Restoring.report (hc : p.state.circuit id=some c)
    (hup : p.state.circuitStatus id=.up∨c.pathStatus linkStatus c.activePath=.up) (reason : String) :
    Restoring linkStatus l rows (p.report ⟨id,.up,reason,true⟩) := by
  have hpath : c.pathStatus linkStatus c.activePath=.up := by
    refine hup.elim (fun hs => ?_) (fun hs => hs)
    have := h.sound id c hc hs
    rw [h.links] at this
    exact (getPathStatus_up _ _).mpr this
  refine h.turned hc ?_ rfl (fun _ => rfl) hpath (h.restorable id c hc).raise (p.report_notifications _)
  rw [Progress.report_status]
  exact Turned.setStatus h.serving.consistent hc .up

theorem Restoring.changeRestored (hc : p.state.circuit id=some c) (hb : c.hasBackupPath=true)
    (hup : c.pathStatus linkStatus c.alternatePath=.up)
    (hok : Restorable linkStatus l c.switched .up) (reason : String) :
    Restoring linkStatus l rows (p.changeRestored c reason) := by
  have ho := (h.serving.deployed id c hc).1
  have hid := h.serving.consistent.ids id c hc
  rw [Progress.changeRestored,Progress.change_eq h.serving.consistent hc ho hb]
  refine h.turned hc ?_ c.switched_type c.switched_getPath ?_ hok ?_
  · have := Turned.switch h.serving.consistent hc ho hb .up
    rw [← hid] at this ⊢
    exact this
  · exact hup
  · intro n hn
    rcases mem_append.mp hn with hn | hn
    · exact .inl hn
    · exact .inr (by rw [mem_singleton.mp hn,hid])

theorem Restoring.scheduleRestore (c : Circuit) :
    Restoring linkStatus l rows (p.scheduleRestore c) := by
  unfold Progress.scheduleRestore
  split_ifs
  · obtain ⟨⟨hcon,hdep⟩,hsound,hls,hcr,hok,htold⟩ := h
    exact ⟨⟨hcon.congr rfl rfl rfl,hdep⟩,hsound,hls,hcr,hok,htold⟩
  · exact h

end

theorem Serving.activePath_ne {m : State} (h : Serving m) (hc : m.circuit id=some c) :
    c.activePath≠.tertiary := by
  have hs := h.consistent.synced id c hc
  obtain ⟨p,hp,hid,hty⟩ := hs.onPath
  rw [← hty]
  exact (hs.twoPaths (h.deployed id c hc).1 p hp hid).1

theorem restoreCircuit_restoring (h : Restoring linkStatus l rows p) {row : Nat×PathType}
    (hrow : row∈rows) : Restoring linkStatus l rows (restoreCircuit p row) := by
  unfold restoreCircuit
  cases hc : p.state.circuit row.1 with
  | none => exact h
  | some c =>
    have hok := h.restorable row.1 c hc
    have hact := h.serving.activePath_ne hc
    obtain ⟨hrow3,hcross⟩ := h.crossed row hrow c hc
    simp only [h.links]
    split_ifs with hb hrow2 hprim hback hback' hpri htp htb
    · -- on the primary path, which is down, and the backup path is back
      have hon : c.activePath=.primary := by cases he : c.activePath <;> simp_all
      have halt : c.alternatePath=.backup := by rw [Circuit.alternatePath,if_pos hon]
      rw [hrow2] at hcross
      have hup : c.pathStatus linkStatus .backup=.up :=
        ((truthy_iff _).mp hback.1).resolve_right (hok.backup hcross hprim)
      refine h.changeRestored hc hb (by rw [halt]; exact hup) ⟨fun _ _ => .inl rfl,?_,?_⟩ _
      · exact hok.backup
      · intro _ _ hdown
        exact absurd (hup.symm.trans hdown) LinkStatus.noConfusion
    · rw [hrow2] at hcross
      have hup : c.pathStatus linkStatus .backup=.up :=
        ((truthy_iff _).mp hback'.1).resolve_right (hok.backup hcross hprim)
      exact h.report hc (.inr (by rw [hback'.2]; exact hup)) _
    · exact h
    · exact h
    · have hlinks : l∈c.links := by cases he : row.2 <;> simp_all [Circuit.getPath]
      exact h.report hc (hok.unchecked hlinks (.inr hpri)) _
    · exact h.scheduleRestore c
    · have hlinks : l∈c.links := by cases he : row.2 <;> simp_all [Circuit.getPath]
      have hdown : c.pathStatus linkStatus .backup=.down := by
        cases he : c.pathStatus linkStatus .backup <;> simp_all [LinkStatus.truthy]
      have hup : c.pathStatus linkStatus .primary=.up :=
        ((truthy_iff _).mp htp).resolve_right (hok.primary hlinks hpri hdown)
      have halt : c.alternatePath=.primary := by rw [Circuit.alternatePath,if_neg hpri]
      refine h.changeRestored hc hb (by rw [halt]; exact hup) ⟨fun _ _ => .inl rfl,?_,?_⟩ _
      · exact hok.backup
      · intro _ hne
        exact absurd halt hne
    · exact h
    · have hb : c.hasBackupPath=false := by simpa using hb
      have hlinks : l∈c.links := by
        cases he : row.2 <;> simp_all [Circuit.getPath,Circuit.hasBackupPath]
      exact h.report hc (hok.unchecked hlinks (.inl hb)) _

theorem foldl_restoring (rows' : List (Nat×PathType)) (hsub : ∀ row∈rows',row∈rows)
    (h : Restoring linkStatus l rows p) :
    Restoring linkStatus l rows (rows'.foldl restoreCircuit p) := by
  induction rows' generalizing p with
  | nil => exact h
  | cons row rows' ih =>
    refine ih (fun r hr => hsub r (mem_cons_of_mem _ hr)) ?_
    exact restoreCircuit_restoring h (hsub row mem_cons_self)

end Restoring

theorem mem_getCircuitsOnLink {t : Tables} {l : Nat} {row : Nat×PathType}
    (h : row∈getCircuitsOnLink t l) : ∃ p∈t.paths,p.circuitId=row.1∧p.pathType=row.2∧l∈p.links := by
  simp only [getCircuitsOnLink,mem_flatMap,mem_map,mem_filter, decide_eq_true_eq] at h
  obtain ⟨p,hp,k,⟨hk,rfl⟩,r,⟨-,hr,-⟩,rfl⟩ := h
  exact ⟨p,hp,hr.symm,rfl,hk⟩

theorem UpSound.linkUp {m : State} (h : UpSound m) (l : Nat) :
    UpSound {m with linkStatus := update m.linkStatus l .up} := by
  intro id c hc hs k hk
  dsimp only
  by_cases hkl : k=l
  · rw [hkl,update_self]
  · rw [update_of_ne hkl]
    exact h id c hc hs k hk

/-- Circuits held to be up stay on links that are. -/
theorem linkUp_restoring {m : State} (h : Serving m) (hs : UpSound m) (l : Nat)
    (hok : ∀ id c,m.circuit id=some c →
      Restorable (update m.linkStatus l .up) l c (m.circuitStatus id)) :
    Restoring (update m.linkStatus l .up) l (getCircuitsOnLink m.db.tables l)
      (linkUp m l) := by
  have hstart : Restoring (update m.linkStatus l .up) l
      (getCircuitsOnLink m.db.tables l)
      (.start {m with linkStatus := update m.linkStatus l .up}) := by
    refine ⟨⟨h.consistent.congr rfl rfl rfl,h.deployed⟩,hs.linkUp l,rfl,?_,hok,?_⟩
    · intro row hrow c hc
      obtain ⟨p,hp,hid,hty,hl⟩ := mem_getCircuitsOnLink hrow
      have hsync := h.consistent.synced row.1 c hc
      have hid' : p.circuitId=c.circuitId := hid.trans (h.consistent.ids row.1 c hc).symm
      rw [← hty,← hsync.links p hp hid']
      exact ⟨(hsync.twoPaths (h.deployed row.1 c hc).1 p hp hid').1,hl⟩
    · intro n hn
      cases hn
  obtain ⟨⟨hcon,hdep⟩,hsound,hls,hcr,hok',htold⟩ := foldl_restoring _ (fun _ hr => hr) hstart
  exact ⟨⟨hcon.congr rfl rfl rfl,hdep⟩,hsound,hls,hcr,hok',htold⟩

end OESS.Master
