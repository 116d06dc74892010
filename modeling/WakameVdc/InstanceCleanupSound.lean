import WakameVdc.InstanceCleanup

/-!
# When the cleanup is harmless

The boot jobs never give the instance a local volume or another vif, so what
the cleanup will find is decided when the instance is evacuated.
-/

namespace WakameVdc

open Lib

namespace InstanceJob

open Scheduler (InstanceState VolumeState BootDev)

/-! ## What the boot jobs leave -/

/-- No volume is given to the instance, and its vifs stay its own. -/
structure Frame (db db' : Db) : Prop where
  id : db'.inst.id = db.inst.id
  volumes : ∀ w ∈ db'.volumesOf, ∃ v ∈ db.volumesOf, w.isLocal = v.isLocal
  vifs : db'.networkVifs = db.networkVifs

variable {db db' : Db}

theorem Frame.refl (db : Db) : Frame db db := ⟨rfl, fun w hw => ⟨w, hw, rfl⟩, rfl⟩

theorem Frame.trans {db'' : Db} (h : Frame db db') (h' : Frame db' db'') : Frame db db'' where
  id := h'.id.trans h.id
  volumes := fun w hw => by
    obtain ⟨v, hv, hwv⟩ := h'.volumes w hw
    obtain ⟨u, hu, hvu⟩ := h.volumes v hv
    exact ⟨u, hu, hwv.trans hvu⟩
  vifs := h'.vifs.trans h.vifs

theorem frame_of_inst {inst : InstanceRow} (h : inst.id = db.inst.id) : Frame db { db with inst } where
  id := h
  volumes := fun w hw => ⟨w, by simpa [Db.volumesOf, h] using hw, rfl⟩
  vifs := by simp [Db.networkVifs, h]

theorem frame_updateVolume (uuid : Nat) {f : VolumeRow → VolumeRow}
    (hf : ∀ v, (f v).isLocal = v.isLocal ∧ ((f v).instanceId = v.instanceId ∨ (f v).instanceId = none)) :
    Frame db (db.updateVolume uuid f) where
  id := rfl
  volumes := fun w hw => by
    simp only [Db.volumesOf, Db.updateVolume, List.mem_filter, List.mem_map] at hw
    obtain ⟨⟨v, hv, rfl⟩, hown⟩ := hw
    split at hown
    · rename_i hu
      refine ⟨v, List.mem_filter.mpr ⟨hv, ?_⟩, by rw [if_pos hu]; exact (hf v).1⟩
      rcases (hf v).2 with hi | hi
      · rwa [hi] at hown
      · rw [hi] at hown
        cases hown
    · rename_i hu
      exact ⟨v, List.mem_filter.mpr ⟨hv, hown⟩, by rw [if_neg hu]⟩
  vifs := rfl

theorem frame_setVolumeState (uuid : Nat) (state : VolumeState) :
    Frame db (db.setVolumeState uuid state) :=
  frame_updateVolume uuid fun _ => ⟨rfl, .inl rfl⟩

theorem frame_foldl {α : Type} {f : Db → α → Db} (hf : ∀ db a, Frame db (f db a)) (as : List α)
    (db : Db) : Frame db (as.foldl f db) := by
  induction as generalizing db with
  | nil => exact .refl db
  | cons a as ih => exact (hf db a).trans (ih (f db a))

theorem frame_setVolumeStates (uuids : List Nat) (state : VolumeState) :
    Frame db (db.setVolumeStates uuids state) :=
  frame_foldl (fun _ uuid => frame_setVolumeState uuid state) uuids db

theorem frame_dropVolumes (volumes : List VolumeRow) : Frame db (db.dropVolumes volumes) := by
  refine frame_foldl (fun db v => ?_) volumes db
  exact frame_updateVolume v.uuid fun _ => ⟨rfl, .inr rfl⟩

theorem frame_terminate (deletes : Nat → Bool) : Frame db (db.terminate deletes) := by
  refine frame_foldl (fun db w => ?_) _ db
  exact frame_setVolumeState w.1 w.2

theorem frame_setInstanceState (state : InstanceState) : Frame db (db.setInstanceState state) :=
  frame_of_inst rfl

theorem frame_finalizeInstance : Frame db db.finalizeInstance.1 := by
  have h : Frame db (db.setVolumeStates (db.undeleted.map VolumeRow.uuid) .deleting) :=
    frame_setVolumeStates _ _
  unfold Db.finalizeInstance
  dsimp only
  split
  · exact h
  · refine h.trans ⟨rfl, fun w hw => ⟨w, hw, rfl⟩, ?_⟩
    simp only [Db.networkVifs, List.filter_map, List.map_map]
    generalize (db.setVolumeStates _ _) = d
    induction d.vifs with
    | nil => rfl
    | cons v vs ih =>
      by_cases hv : v.instanceId = d.inst.id <;> simpa [hv] using ih

variable {s : Sys}

theorem frame_failedInstanceLaunchRollback : Frame s.db s.failedInstanceLaunchRollback.db :=
  (frame_terminate _).trans frame_finalizeInstance

theorem frame_failedCreateVolume (volumeId : Nat) : Frame s.db (s.failedCreateVolume volumeId).db :=
  (frame_setVolumeState volumeId .deleted).trans frame_finalizeInstance

theorem frame_createVolumeAndRunInstance (volumeId : Nat) :
    Frame s.db (s.createVolumeAndRunInstance volumeId).db := by
  unfold Sys.createVolumeAndRunInstance
  split
  · exact frame_failedCreateVolume volumeId
  · dsimp only
    split
    · exact frame_failedCreateVolume volumeId
    · have hc : Frame s.db (s.db.setVolumeState volumeId .creating) := frame_setVolumeState _ _
      split
      · exact hc.trans (frame_failedCreateVolume
          (s := { s with db := s.db.setVolumeState volumeId .creating }) volumeId)
      · have ha := hc.trans (frame_setVolumeState volumeId .available)
        split
        · exact ha.trans (frame_failedCreateVolume (s := { s with
            db := (s.db.setVolumeState volumeId .creating).setVolumeState volumeId .available })
            volumeId)
        · exact ha

theorem frame_localRunLocalStore : Frame s.db s.localRunLocalStore.db := by
  unfold Sys.localRunLocalStore
  split
  · exact ((frame_setVolumeStates _ _).trans frame_finalizeInstance).trans (frame_dropVolumes _)
  · exact (frame_setInstanceState _).trans (frame_setVolumeStates _ _)

theorem frame_waitVolumesAvailable : Frame s.db s.waitVolumesAvailable.db := by
  unfold Sys.waitVolumesAvailable
  split
  · split
    · exact .refl _
    · split <;> exact .refl _
  · split
    · exact frame_finalizeInstance
    · exact .refl _

theorem frame_runInstance : Frame s.db s.runInstance.db :=
  ((frame_setVolumeStates _ _).trans (frame_setInstanceState _)).trans (frame_setVolumeStates _ _)

theorem frame_runLocalStore : Frame s.db s.runLocalStore.db := by
  unfold Sys.runLocalStore
  split
  · exact frame_failedInstanceLaunchRollback
  · split
    · exact .refl _
    · exact frame_runInstance

theorem frame_runVolStore : Frame s.db s.runVolStore.db := by
  unfold Sys.runVolStore
  split
  · exact frame_failedInstanceLaunchRollback
  · split
    · exact .refl _
    · exact frame_runInstance

theorem frame_exec (j : Job) : Frame s.db (s.exec j).db := by
  cases j with
  | createVolumeAndRunInstance volumeId => exact frame_createVolumeAndRunInstance volumeId
  | localRunLocalStore => exact frame_localRunLocalStore
  | waitVolumesAvailable => exact frame_waitVolumesAvailable
  | runLocalStore => exact frame_runLocalStore
  | runVolStore => exact frame_runVolStore
  | deleteVolume volumeId => exact frame_setVolumeState volumeId .deleted
  | localDeleteVolume volumeId => exact frame_setVolumeState volumeId .deleted

theorem frame_step (j : Job) : Frame s.db (s.step j).db := by
  unfold Sys.step
  split
  · exact frame_exec (s := { s with queue := s.queue.erase j }) j
  · exact .refl _

/-! ## Harmless runs -/

variable {m m0 : Moved}

/-- Where a run stands whose cleanup has nothing to do. -/
structure Idle (m0 m : Moved) : Prop where
  db : Frame m0.sys.db m.sys.db
  registry : m.registry = m0.registry
  alarms : m.alarms = m0.alarms
  cleanup : m.cleanup = .submitted ∨ m.cleanup = .terminating [] ∨ m.cleanup = .finished

theorem Idle.quiet (h : Idle m0 m) (hq : Quiet m0) : Quiet m where
  volumes := fun w hw => by
    obtain ⟨v, hv, he⟩ := h.db.volumes w hw
    exact he.trans (hq.volumes v hv)
  loadBalancers := by
    rw [h.registry, h.db.vifs]
    exact hq.loadBalancers
  alarms := by
    rw [h.alarms, h.db.id]
    exact hq.alarms

theorem terminateInstance_of_no_local {deletes : Nat → Bool} {volumes : List VolumeRow}
    (h : ∀ v ∈ volumes, v.isLocal = false) : terminateInstance deletes volumes = [] := by
  rw [terminateInstance, List.flatMap_eq_nil_iff]
  intro v hv
  simp [deleteLocalVolume, h v hv]

theorem updateLoadBalancers_of_quiet (hq : Quiet m) {r : Registry}
    (hr : m.registry.updateLoadBalancers m.sys.db.networkVifs
      (m.registry.getLoadBalancers m.sys.db.networkVifs) = some r) : r = m.registry := by
  have hlbs := hq.loadBalancers
  cases hv : m.sys.db.networkVifs with
  | nil =>
    rw [hv] at hr
    simpa [Registry.getLoadBalancers, Registry.updateLoadBalancers, eq_comm] using hr
  | cons vif vifs =>
    rw [hv] at hr hlbs
    exact Registry.updateLoadBalancers_of_not_labelled (fun lb hlb => hlbs lb hlb vif rfl) hr

theorem deleteLogMonitorings_of_quiet (hq : Quiet m) :
    deleteLogMonitorings m.alarms m.sys.db.inst.id = m.alarms := by
  rw [deleteLogMonitorings]
  conv_rhs => rw [← List.map_id m.alarms]
  refine List.map_congr_left fun a ha => ?_
  split
  · rename_i h
    have hd := hq.alarms a ha h.1 h.2
    simp [← hd]
  · rfl

theorem eventHook_of_quiet (hq : Quiet m) : m.eventHook = m := by
  unfold Moved.eventHook
  dsimp only
  cases hr : m.registry.updateLoadBalancers m.sys.db.networkVifs
      (m.registry.getLoadBalancers m.sys.db.networkVifs) with
  | none => rfl
  | some r => simp only [updateLoadBalancers_of_quiet hq hr, deleteLogMonitorings_of_quiet hq]

theorem idle_step (deletes : Nat → Bool) (hq : Quiet m0) (h : Idle m0 m) (a : Act) :
    Idle m0 (m.step deletes a) ∧ Unchanged deletes m a := by
  cases a with
  | boot j =>
    exact ⟨⟨h.db.trans (frame_step j), h.registry, h.alarms, h.cleanup⟩, fun hb => absurd rfl (hb j)⟩
  | cleanup =>
    have hm := h.quiet hq
    simp only [Unchanged, Moved.step, Moved.cleanupStep]
    rcases h.cleanup with hc | hc | hc <;> simp only [hc]
    · split
      · exact ⟨⟨h.db, h.registry, h.alarms, .inr (.inr rfl)⟩, fun _ => by simp⟩
      · rw [terminateInstance_of_no_local hm.volumes]
        exact ⟨⟨h.db, h.registry, h.alarms, .inr (.inl rfl)⟩, fun _ => by simp⟩
    · exact ⟨⟨h.db, h.registry, h.alarms, .inr (.inr rfl)⟩, fun _ => by simp⟩
    · exact ⟨h, fun _ => by simp⟩
  | eventHook =>
    have hm : Quiet { m with events := m.events - 1 } := ⟨(h.quiet hq).1, (h.quiet hq).2, (h.quiet hq).3⟩
    simp only [Unchanged, Moved.step]
    split
    · exact ⟨h, fun _ => by simp⟩
    · rw [eventHook_of_quiet hm]
      exact ⟨⟨h.db, h.registry, h.alarms, h.cleanup⟩, fun _ => by simp⟩

/-- A cleanup with nothing to do is harmless in every order with the boot jobs. -/
theorem harmless_of_quiet (hc : m.cleanup = .submitted) (hq : Quiet m) : Harmless m := by
  intro deletes acts
  refine Each.of_invariant (P := fun _ _ => True) (Idle m) (fun s a hi _ => idle_step deletes hq hi a)
    each_true ⟨.refl _, rfl, rfl, .inl hc⟩

theorem terminateInstance_of_local {volumes : List VolumeRow} (deletes : Nat → Bool)
    (h : ∃ v ∈ volumes, v.isLocal = true) :
    ∃ v ∈ volumes, v.isLocal = true ∧
      ∃ ws, terminateInstance deletes volumes = (v.uuid, .deleting) :: ws := by
  induction volumes with
  | nil => simp at h
  | cons v vs ih =>
    cases hv : v.isLocal with
    | true => exact ⟨v, by simp, hv, by simp [terminateInstance, deleteLocalVolume, hv]⟩
    | false =>
      obtain ⟨u, hu, hul⟩ := h
      rcases List.mem_cons.mp hu with rfl | hu
      · simp [hv] at hul
      · obtain ⟨w, hw, hwl, ws, he⟩ := ih ⟨u, hu, hul⟩
        refine ⟨w, by simp [hw], hwl, ws, ?_⟩
        rw [← he]
        simp [terminateInstance, deleteLocalVolume, hv]

theorem Evacuated.not_terminated (h : Evacuated m) : m.sys.db.inst.state ≠ .terminated := by
  rcases h.state with hs | hs <;> simp [hs]

/-- The cleanup sets a local volume `deleting` before anything else is done. -/
theorem Harmless.volumes (hh : Harmless m) (h : Evacuated m) :
    ∀ v ∈ m.sys.db.volumesOf, v.isLocal = false := by
  by_contra hne
  have hex : ∃ v ∈ m.sys.db.volumesOf, v.isLocal = true := by simpa using hne
  obtain ⟨v, hv, hl, ws, he⟩ := terminateInstance_of_local (fun _ => true) hex
  have hstart : m.step (fun _ => true) .cleanup =
      { m with cleanup := .terminating ((v.uuid, .deleting) :: ws) } := by
    simp only [Moved.step, Moved.cleanupStep, h.cleanup, if_neg h.not_terminated, he]
  have hrun := (hh (fun _ => true) [.cleanup, .cleanup]).2.1
  rw [hstart] at hrun
  have hsys : { m.sys with db := m.sys.db.write (v.uuid, .deleting) } = m.sys := (hrun (by simp)).1
  have hvolumes : (m.sys.db.volumes.map fun w =>
      if w.uuid = v.uuid then w.withState .deleting else w) = m.sys.db.volumes.map id := by
    rw [List.map_id]
    exact congrArg (fun s : Sys => s.db.volumes) hsys
  have hsame := List.map_inj_left.mp hvolumes v (List.mem_of_mem_filter hv)
  rw [if_pos rfl] at hsame
  have hstate : VolumeState.deleting = v.state := congrArg VolumeRow.state hsame
  cases hd : v.deleted with
  | true => simp [h.deleted v hv hd] at hstate
  | false => simp [h.volumes v hv hd, hl] at hstate

/-- Without local volumes to delete, the event hook is the third step. -/
theorem Harmless.eventHook (hh : Harmless m) (h : Evacuated m) {r : Registry}
    (hr : m.registry.updateLoadBalancers m.sys.db.networkVifs
      (m.registry.getLoadBalancers m.sys.db.networkVifs) = some r) :
    r = m.registry ∧ deleteLogMonitorings m.alarms m.sys.db.inst.id = m.alarms := by
  have hnil : terminateInstance (fun _ => true) m.sys.db.volumesOf = [] :=
    terminateInstance_of_no_local (hh.volumes h)
  have hstart : m.step (fun _ => true) .cleanup = { m with cleanup := .terminating [] } := by
    simp only [Moved.step, Moved.cleanupStep, h.cleanup, if_neg h.not_terminated, hnil]
  have hend : Moved.step (fun _ => true) { m with cleanup := .terminating [] } .cleanup =
      { m with cleanup := .finished, events := 1 } := by
    simp only [Moved.step, Moved.cleanupStep, h.events]
  have hrun := (hh (fun _ => true) [.cleanup, .cleanup, .eventHook]).2.2.1
  rw [hstart, hend] at hrun
  have hhook : Moved.step (fun _ => true) { m with cleanup := .finished, events := 1 } .eventHook =
      { m with
        cleanup := .finished
        events := 0
        registry := r
        alarms := deleteLogMonitorings m.alarms m.sys.db.inst.id } := by
    simp only [Moved.step, Moved.eventHook, hr]
    simp
  have hsame := hrun (by simp)
  rw [hhook] at hsame
  exact ⟨hsame.2.1, hsame.2.2⟩

theorem Harmless.quiet (hh : Harmless m) (h : Evacuated m) (hl : m.registry.Leased) : Quiet m := by
  obtain ⟨r, hr⟩ : ∃ r, m.registry.updateLoadBalancers m.sys.db.networkVifs
      (m.registry.getLoadBalancers m.sys.db.networkVifs) = some r := hl.updateLoadBalancers
  obtain ⟨hsame, halarms⟩ := hh.eventHook h hr
  refine ⟨hh.volumes h, fun lb hlb vif hvif hlabel => ?_, fun a ha hlog hres => ?_⟩
  · cases hv : m.sys.db.networkVifs with
    | nil => simp [hv] at hvif
    | cons v vs =>
      rw [hv] at hr hlb hvif
      obtain rfl : v = vif := by simpa using hvif
      have hlt := Registry.length_updateLoadBalancers_lt hr ⟨lb, hlb, hlabel⟩
      rw [hsame] at hlt
      exact absurd hlt (lt_irrefl _)
  · rw [deleteLogMonitorings] at halarms
    conv_rhs at halarms => rw [← List.map_id m.alarms]
    have hd := congrArg Alarm.deleted (List.map_inj_left.mp halarms a ha)
    rw [if_pos ⟨hlog, hres⟩] at hd
    exact hd.symm

/-- What decides whether the cleanup of a moved instance is harmless: a quiet one
is, and one that is not quiet changes something where every target of a load
balancer has an address. -/
theorem harmless_iff (h : Evacuated m) :
    (Quiet m → Harmless m) ∧ (m.registry.Leased → Harmless m → Quiet m) :=
  ⟨harmless_of_quiet h.cleanup, fun hl hh => hh.quiet h hl⟩

/-- An instance that was moved with its only volume, which is shared. Its vif was a target of a
load balancer once; the load balancer that is there, and a log alarm, are of another instance. -/
def movedShared : Moved where
  sys := ⟨⟨⟨1, .pending, some 2, .san, 1, false⟩, [⟨1, false, .available, some 1, false, true⟩],
    [⟨1, 1, false⟩, ⟨2, 2, false⟩]⟩, [.runVolStore], [], 0⟩
  registry :=
    { targets := [⟨10, 1, true⟩, ⟨11, 2, false⟩]
      labels := [⟨11, 2, 20⟩]
      groups := [20]
      members := [(20, 30)]
      references := []
      globalVifs := [(11, 30)]
      leased := [2] }
  alarms := [⟨2, true, false⟩, ⟨1, false, false⟩, ⟨1, true, true⟩]
  cleanup := .submitted
  events := 0

theorem harmless_iff_movedShared : Evacuated movedShared ∧ Harmless movedShared := by
  have h : Evacuated movedShared :=
    { state := .inl rfl
      volumes := by decide
      deleted := by decide
      cleanup := rfl
      events := rfl }
  have hq : Quiet movedShared :=
    { volumes := by decide
      loadBalancers := by
        have hnone : movedShared.registry.getLoadBalancers movedShared.sys.db.networkVifs = [] := by decide
        intro lb hlb
        rw [hnone] at hlb
        cases hlb
      alarms := by decide }
  exact ⟨h, (harmless_iff h).1 hq⟩

def movedLocal : Moved :=
  ⟨⟨⟨⟨1, .pending, some 2, .localDev, 1, false⟩, [⟨1, true, .pending, some 1, false, true⟩],
    [⟨1, 1, false⟩]⟩, [.localRunLocalStore], [], 0⟩, ⟨[], [], [], [], [], [], []⟩, [], .submitted, 0⟩

theorem not_harmless : ¬ ∀ m, Evacuated m → Harmless m := by
  intro h
  have he : Evacuated movedLocal :=
    { state := .inl rfl
      volumes := by decide
      deleted := by decide
      cleanup := rfl
      events := rfl }
  have hrun := (h movedLocal he (fun _ => true) [.cleanup, .cleanup]).2.1 (by simp)
  exact absurd hrun.1 (by decide)

end InstanceJob

end WakameVdc
