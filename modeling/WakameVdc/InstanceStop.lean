import WakameVdc.InstanceJob

/-!
# Stopping an instance

The stop job is to leave the volumes and vnics with the instance, so that
`PUT /:id/start` can boot it again. It ends with the helper that a terminated
instance is updated with, which takes every volume from the instance.
-/

namespace WakameVdc

namespace InstanceJob

open Scheduler (InstanceState VolumeState BootDev)

namespace Db

variable {db : Db}

/-- The `stop` job; a job that raises at once writes nothing. -/
def stop (db : Db) (deletes : Nat → Bool) : Db :=
  if db.inst.state ≠ .running then db
  else
    let volumes := db.volumesOf
    let db := (terminateInstance deletes volumes).foldl write (db.setInstanceState .stopping)
    { db with inst := { db.inst with state := .stopped, hostNode := none } }.dropVolumes volumes

/-- `PUT /:id/start`, and then `schedule_start_instance` that finds `host`. -/
def start (db : Db) (host : Nat) : Option (Db × Job) :=
  if db.inst.state ≠ .stopped then none
  else
    let db := { db with inst := { db.inst with state := .pending, hostNode := some host } }
    match db.inst.bootDev with
    | .san => some (db, .runVolStore)
    | .localDev => some (db, .localRunLocalStore)
    | .unknown => none

/-! ## What the job writes -/

theorem foldl_write_volumes (ws : List Write) (db : Db) :
    ∃ f, Keeps f ∧ (ws.foldl write db).volumes = db.volumes.map f := by
  induction ws generalizing db with
  | nil => exact ⟨id, fun _ => ⟨rfl, rfl, rfl, rfl⟩, by simp⟩
  | cons w ws ih =>
    obtain ⟨f, hf, he⟩ := ih (db.write w)
    refine ⟨_, (keeps_withState (fun v => v.uuid = w.1) w.2).comp hf, ?_⟩
    rw [List.foldl_cons, he]
    simp [write, setVolumeState, updateVolume]

theorem foldl_write_inst (ws : List Write) (db : Db) : (ws.foldl write db).inst = db.inst := by
  induction ws generalizing db with
  | nil => rfl
  | cons w ws ih => exact ih (db.write w)

theorem foldl_write_vifs (ws : List Write) (db : Db) : (ws.foldl write db).vifs = db.vifs := by
  induction ws generalizing db with
  | nil => rfl
  | cons w ws ih => exact ih (db.write w)

theorem dropVolumes_eq (vs : List VolumeRow) (db : Db) :
    db.dropVolumes vs =
      { db with
        volumes := db.volumes.map fun v =>
          if v.uuid ∈ vs.map VolumeRow.uuid then { v.withState .deleted with instanceId := none }
          else v } := by
  induction vs generalizing db with
  | nil => simp [dropVolumes]
  | cons u us ih =>
    have h : db.dropVolumes (u :: us) = (db.updateVolume u.uuid fun v =>
        { v.withState .deleted with instanceId := none }).dropVolumes us := rfl
    rw [h, ih]
    simp only [updateVolume, List.map_map]
    congr 1
    refine List.map_congr_left fun v _ => ?_
    by_cases hu : v.uuid = u.uuid
    · by_cases hus : u.uuid ∈ us.map VolumeRow.uuid <;>
        simp only [Function.comp, hu, hus, List.map_cons, List.mem_cons, true_or, if_true,
          if_false, VolumeRow.withState, Bool.or_assoc, Bool.or_self]
    · simp [hu]

theorem stop_volumes (deletes : Nat → Bool) (h : db.inst.state = .running) :
    ∃ f, Keeps f ∧ (db.stop deletes).volumes = db.volumes.map fun v =>
      if v.uuid ∈ db.volumesOf.map VolumeRow.uuid then
        { (f v).withState .deleted with instanceId := none }
      else f v := by
  obtain ⟨f, hf, he⟩ :=
    foldl_write_volumes (terminateInstance deletes db.volumesOf) (db.setInstanceState .stopping)
  refine ⟨f, hf, ?_⟩
  rw [stop, if_neg (by simp [h]), dropVolumes_eq]
  simp only [he, List.map_map]
  exact List.map_congr_left fun v _ => by simp [(hf v).1]

theorem stop_inst (deletes : Nat → Bool) (h : db.inst.state = .running) :
    (db.stop deletes).inst = { db.inst with state := .stopped, hostNode := none } := by
  rw [stop, if_neg (by simp [h]), dropVolumes_eq]
  simp only [foldl_write_inst, setInstanceState]

theorem stop_vifsOf (deletes : Nat → Bool) (h : db.inst.state = .running) :
    (db.stop deletes).vifsOf = db.vifsOf := by
  unfold vifsOf
  rw [stop_inst deletes h, stop, if_neg (by simp [h]), dropVolumes_eq]
  simp only [foldl_write_vifs, setInstanceState]

theorem stop_volume (deletes : Nat → Bool) (h : db.inst.state = .running) {v w : VolumeRow}
    (hv : v ∈ db.volumesOf) (hw : w ∈ (db.stop deletes).volumes) (hu : w.uuid = v.uuid) :
    w.state = .deleted ∧ w.deleted = true ∧ w.instanceId = none := by
  obtain ⟨f, hf, he⟩ := stop_volumes deletes h
  rw [he] at hw
  obtain ⟨x, -, rfl⟩ := List.mem_map.mp hw
  have hx : x.uuid = v.uuid := by
    split at hu
    · rwa [← (hf x).1]
    · rwa [← (hf x).1]
  rw [if_pos (by rw [hx]; exact List.mem_map_of_mem hv)]
  simp [VolumeRow.withState]

theorem stop_volumesOf (deletes : Nat → Bool) (h : db.inst.state = .running) :
    (db.stop deletes).volumesOf = [] := by
  rw [volumesOf, List.filter_eq_nil_iff, stop_inst deletes h]
  intro w hw howner
  obtain ⟨f, hf, he⟩ := stop_volumes deletes h
  rw [he] at hw
  obtain ⟨x, hx, rfl⟩ := List.mem_map.mp hw
  by_cases hm : x.uuid ∈ db.volumesOf.map VolumeRow.uuid
  · simp [hm] at howner
  · rw [if_neg hm, (hf x).2.2.1] at howner
    exact hm (List.mem_map_of_mem (List.mem_filter.mpr ⟨hx, howner⟩))

/-- What a stopped instance needs to be started again. -/
structure Restartable (db db' : Db) : Prop where
  state : db'.inst.state = .stopped
  host : db'.inst.hostNode = none
  volumes : ∀ v ∈ db.volumesOf, ∃ w ∈ db'.volumesOf, w.uuid = v.uuid ∧ w.deleted = false ∧
    w.state ≠ .deleting ∧ w.state ≠ .deleted
  vifs : db'.vifsOf = db.vifsOf
  start : ∀ host, ∃ db'' job, db'.start host = some (db'', job) ∧ db''.inst.state = .pending ∧
    ∃ w ∈ db''.volumesOf, w.uuid = db''.inst.bootVolumeId

/-- The boot volume is no longer the instance's, whatever the driver calls do. -/
theorem not_restartable (deletes : Nat → Bool) (h : db.inst.state = .running) :
    ¬ Restartable db (db.stop deletes) := by
  intro hr
  obtain ⟨db'', job, hstart, -, w, hw, -⟩ := hr.start 0
  have hvolumes : db''.volumesOf = (db.stop deletes).volumesOf := by
    rw [start, if_neg (by simp [hr.state])] at hstart
    cases hb : (db.stop deletes).inst.bootDev <;> simp only [hb] at hstart <;> cases hstart
    · rfl
    · rfl
  rw [hvolumes, stop_volumesOf deletes h] at hw
  cases hw

def one : Db :=
  ⟨⟨1, .running, some 1, .san, 1, false⟩, [⟨1, false, .attached, some 1, false, true⟩],
    [⟨1, 1, false⟩]⟩

theorem not_restartable_one :
    one.inst.state = .running ∧ ¬ Restartable one (one.stop fun _ => true) :=
  ⟨rfl, not_restartable _ rfl⟩

theorem stop_loses_volumes :
    ¬ ∀ (deletes : Nat → Bool) (db : Db), db.inst.state = .running →
      Restartable db (db.stop deletes) := by
  intro h
  obtain ⟨w, hw, -⟩ := (h (fun _ => true) one rfl).volumes _ (List.mem_singleton.mpr rfl)
  exact absurd hw (by decide +revert)

end Db

end InstanceJob

end WakameVdc
