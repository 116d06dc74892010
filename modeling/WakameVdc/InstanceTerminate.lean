import WakameVdc.InstanceStop

/-!
# Terminating an instance

The terminate job of `rpc/hva_handler.rb`: `terminate_instance(true)` goes over
the volumes and swallows the errors of each, and `finalize_instance` then
deletes every volume that is still the instance's.
-/

namespace WakameVdc

namespace InstanceJob

open Scheduler (InstanceState VolumeState BootDev)

/-! ## Code that may raise -/

inductive DriverCall
  | terminateInstance
  | deleteVolume (uuid : Nat)
  | detachVolumeFromHost (uuid : Nat)
  deriving DecidableEq, Repr

inductive Effect
  | call (c : DriverCall)
  | write (w : Write)
  deriving DecidableEq, Repr

/-- What code of the handler did until it ended, or until it raised. -/
structure Ran where
  effects : List Effect
  raised : Bool
  deriving DecidableEq, Repr

namespace Ran

def done : Ran := ⟨[], false⟩

def raise : Ran := ⟨[], true⟩

def write (uuid : Nat) (state : VolumeState) : Ran := ⟨[.write (uuid, state)], false⟩

def andThen (r s : Ran) : Ran :=
  if r.raised then r else ⟨r.effects ++ s.effects, s.raised⟩

/-- `ignore_error`, and the modifier `rescue`. -/
def ignoreError (r : Ran) : Ran := { r with raised := false }

def writes (r : Ran) : List Write :=
  r.effects.filterMap fun
    | .write w => some w
    | .call _ => none

def calls (r : Ran) : List DriverCall :=
  r.effects.filterMap fun
    | .call c => some c
    | .write _ => none

variable {r s : Ran}

@[simp] theorem effects_ignoreError : r.ignoreError.effects = r.effects := rfl

@[simp] theorem writes_ignoreError : r.ignoreError.writes = r.writes := rfl

@[simp] theorem calls_ignoreError : r.ignoreError.calls = r.calls := rfl

theorem writes_andThen (h : r.raised = false) : (r.andThen s).writes = r.writes ++ s.writes := by
  simp [andThen, writes, h]

theorem calls_andThen (h : r.raised = false) : (r.andThen s).calls = r.calls ++ s.calls := by
  simp [andThen, calls, h]

end Ran

/-- Which calls of the driver end without an error. -/
structure Driver where
  terminates : Bool
  deletes : Nat → Bool
  detaches : Nat → Bool

namespace Driver

variable (d : Driver)

def invoke : DriverCall → Ran
  | .terminateInstance => ⟨[.call .terminateInstance], !d.terminates⟩
  | .deleteVolume uuid => ⟨[.call (.deleteVolume uuid)], !d.deletes uuid⟩
  | .detachVolumeFromHost uuid => ⟨[.call (.detachVolumeFromHost uuid)], !d.detaches uuid⟩

/-- `delete_local_volume` with the driver's part. -/
def deleteLocalVolume (v : VolumeRow) : Ran :=
  if !v.isLocal then .done
  else
    (Ran.write v.uuid .deleting).andThen
      ((d.invoke (.deleteVolume v.uuid)).andThen (.write v.uuid .deleted))

/-- The method takes no argument, and the call in `terminate_instance` has one:
Ruby raises an `ArgumentError` before its first line. -/
def updateVolumeStateToAvailable (_volid : Nat) : Ran := .raise

/-- The body of the loop in `terminate_instance`. -/
def terminateVolume (stateUpdate : Bool) (v : VolumeRow) : Ran :=
  if v.isLocal then d.deleteLocalVolume v
  else
    (d.invoke (.detachVolumeFromHost v.uuid)).ignoreError.andThen
      (if stateUpdate then (updateVolumeStateToAvailable v.uuid).ignoreError else .done)

def terminateVolumes (stateUpdate : Bool) : List VolumeRow → Ran
  | [] => .done
  | v :: vs => (d.terminateVolume stateUpdate v).ignoreError.andThen (terminateVolumes stateUpdate vs)

def terminateInstance (stateUpdate : Bool) (volumes : List VolumeRow) : Ran :=
  (d.invoke .terminateInstance).ignoreError.andThen (d.terminateVolumes stateUpdate volumes)

def callOf (v : VolumeRow) : DriverCall :=
  if v.isLocal then .deleteVolume v.uuid else .detachVolumeFromHost v.uuid

theorem writes_terminateVolume (stateUpdate : Bool) (v : VolumeRow) :
    (d.terminateVolume stateUpdate v).writes = InstanceJob.deleteLocalVolume d.deletes v := by
  unfold terminateVolume InstanceJob.deleteLocalVolume
  cases hl : v.isLocal with
  | false => cases stateUpdate <;> rfl
  | true =>
    simp only [deleteLocalVolume, hl, invoke]
    cases hd : d.deletes v.uuid <;> rfl

theorem calls_terminateVolume (stateUpdate : Bool) (v : VolumeRow) :
    (d.terminateVolume stateUpdate v).calls = [callOf v] := by
  unfold terminateVolume callOf
  cases hl : v.isLocal with
  | false => cases stateUpdate <;> rfl
  | true =>
    simp only [deleteLocalVolume, hl, invoke]
    cases hd : d.deletes v.uuid <;> rfl

theorem writes_terminateVolumes (stateUpdate : Bool) (volumes : List VolumeRow) :
    (d.terminateVolumes stateUpdate volumes).writes =
      InstanceJob.terminateInstance d.deletes volumes := by
  induction volumes with
  | nil => rfl
  | cons v vs ih =>
    rw [terminateVolumes, Ran.writes_andThen rfl, Ran.writes_ignoreError, writes_terminateVolume, ih]
    rfl

theorem calls_terminateVolumes (stateUpdate : Bool) (volumes : List VolumeRow) :
    (d.terminateVolumes stateUpdate volumes).calls = volumes.map callOf := by
  induction volumes with
  | nil => rfl
  | cons v vs ih =>
    rw [terminateVolumes, Ran.calls_andThen rfl, Ran.calls_ignoreError, calls_terminateVolume, ih]
    rfl

theorem writes_terminateInstance (stateUpdate : Bool) (volumes : List VolumeRow) :
    (d.terminateInstance stateUpdate volumes).writes =
      InstanceJob.terminateInstance d.deletes volumes := by
  rw [terminateInstance, Ran.writes_andThen rfl, writes_terminateVolumes]
  rfl

theorem calls_terminateInstance (stateUpdate : Bool) (volumes : List VolumeRow) :
    (d.terminateInstance stateUpdate volumes).calls =
      .terminateInstance :: volumes.map callOf := by
  rw [terminateInstance, Ran.calls_andThen rfl, calls_terminateVolumes]
  rfl

end Driver

/-! ## The job -/

/-- The state the job leaves, the driver calls it made and the jobs it submitted. -/
structure Terminate where
  db : Db
  calls : List DriverCall
  jobs : List Job
  deriving DecidableEq, Repr

namespace Db

/-- The `terminate` job. `destroys` says that the instance lets itself be
destroyed; it refuses while a backup of a volume is being made, and the rpc
`finalize_instance` is rolled back then. -/
def terminateJob (db : Db) (d : Driver) (force destroys : Bool) : Terminate :=
  if !force && db.inst.state ≠ .running && db.inst.state ≠ .halted then ⟨db, [], []⟩
  else
    let ran := d.terminateInstance true db.volumesOf
    let db := ran.writes.foldl write (db.setInstanceState .shuttingdown)
    if destroys then ⟨db.finalizeInstance.1, ran.calls, db.finalizeInstance.2⟩
    else ⟨db, ran.calls, []⟩

/-- What the job is to leave of each volume the instance had. -/
structure Terminated (db : Db) (t : Terminate) : Prop where
  shared : ∀ v ∈ db.volumesOf, v.deleted = false → v.isLocal = false →
    v.uuid ≠ db.inst.bootVolumeId → .deleteVolume v.uuid ∉ t.jobs ∧
      ∀ w ∈ t.db.volumes, w.uuid = v.uuid →
        w.instanceId = none ∧ w.state = .available ∧ w.deleted = false
  locals : ∀ v ∈ db.volumesOf, v.deleted = false → v.isLocal = true →
    ∀ w ∈ t.db.volumes, w.uuid = v.uuid → w.state = .deleted ∧ w.deleted = true
  reaches : ∀ v ∈ db.volumesOf, Driver.callOf v ∈ t.calls

/-! ## What becomes of a row -/

variable {db : Db} {d : Driver}

/-- The row `x` after the writes. -/
def written (ws : List Write) (x : VolumeRow) : VolumeRow :=
  ws.foldl (fun x w => if x.uuid = w.1 then x.withState w.2 else x) x

theorem foldl_write_written (ws : List Write) (db : Db) :
    (ws.foldl write db).volumes = db.volumes.map (written ws) := by
  induction ws generalizing db with
  | nil => exact (List.map_id' _).symm
  | cons w ws ih =>
    rw [List.foldl_cons, ih, write, setVolumeState, updateVolume, List.map_map]
    rfl

/-- The loop writes a row only through a local volume with the row's uuid, and
its last write is `deleted` where the driver can delete the volume. -/
theorem written_terminateInstance (deletes : Nat → Bool) (vs : List VolumeRow) (x : VolumeRow) :
    written (terminateInstance deletes vs) x =
      if ∃ v ∈ vs, v.isLocal = true ∧ v.uuid = x.uuid then
        x.withState (if deletes x.uuid then .deleted else .deleting)
      else x := by
  induction vs generalizing x with
  | nil => simp [terminateInstance, written]
  | cons v vs ih =>
    have happ : written (terminateInstance deletes (v :: vs)) x =
        written (terminateInstance deletes vs) (written (deleteLocalVolume deletes v) x) := by
      simp [terminateInstance, written, List.foldl_append]
    have hhead : written (deleteLocalVolume deletes v) x =
        if v.isLocal = true ∧ v.uuid = x.uuid then
          x.withState (if deletes x.uuid then .deleted else .deleting)
        else x := by
      unfold deleteLocalVolume
      by_cases hl : v.isLocal = true
      · by_cases hu : v.uuid = x.uuid
        · cases hd : deletes x.uuid <;> simp [hl, hu, hd, written, VolumeRow.withState]
        · have hu' : ¬ x.uuid = v.uuid := fun h => hu h.symm
          cases deletes v.uuid <;> simp [hl, hu, hu', written]
      · simp [hl, written]
    rw [happ, hhead, ih]
    by_cases hv : v.isLocal = true ∧ v.uuid = x.uuid
    · have hin : ∃ w ∈ v :: vs, w.isLocal = true ∧ w.uuid = x.uuid := ⟨v, List.mem_cons_self, hv⟩
      rw [if_pos hv, if_pos hin]
      cases hd : deletes x.uuid <;> simp [VolumeRow.withState, hd]
    · rw [if_neg hv]
      simp only [List.mem_cons, exists_eq_or_imp, hv, false_or]

theorem written_uuid (deletes : Nat → Bool) (vs : List VolumeRow) (x : VolumeRow) :
    (written (terminateInstance deletes vs) x).uuid = x.uuid ∧
      (written (terminateInstance deletes vs) x).instanceId = x.instanceId := by
  rw [written_terminateInstance]
  split
  · exact ⟨rfl, rfl⟩
  · exact ⟨rfl, rfl⟩

theorem finalizeInstance_volumes (db : Db) :
    db.finalizeInstance.1.volumes = db.volumes.map fun v =>
      if v.uuid ∈ db.undeleted.map VolumeRow.uuid then v.withState .deleting else v := by
  unfold finalizeInstance
  rw [setVolumeStates_eq]
  dsimp only
  split
  · rfl
  · rfl

theorem terminateJob_eq {force : Bool} (destroys : Bool)
    (h : db.inst.state = .running ∨ db.inst.state = .halted) :
    let ws := terminateInstance d.deletes db.volumesOf
    let after := ws.foldl write (db.setInstanceState .shuttingdown)
    db.terminateJob d force destroys =
      ⟨if destroys then after.finalizeInstance.1 else after,
        .terminateInstance :: db.volumesOf.map Driver.callOf,
        if destroys then after.finalizeInstance.2 else []⟩ := by
  have hc : (!force && db.inst.state ≠ .running && db.inst.state ≠ .halted) = false := by
    rcases h with h | h <;> simp [h]
  rw [terminateJob, hc]
  cases destroys <;>
    simp [Driver.writes_terminateInstance, Driver.calls_terminateInstance]

theorem terminateJob_row {force destroys : Bool}
    (h : db.inst.state = .running ∨ db.inst.state = .halted) {x : VolumeRow} (hx : x ∈ db.volumes) :
    ∃ w ∈ (db.terminateJob d force destroys).db.volumes, w.uuid = x.uuid ∧
      w.instanceId = x.instanceId ∧
      (w.state = (written (terminateInstance d.deletes db.volumesOf) x).state ∨
        w.state = .deleting) := by
  have hu := written_uuid d.deletes db.volumesOf
  have hvolumes : ((terminateInstance d.deletes db.volumesOf).foldl write
      (db.setInstanceState .shuttingdown)).volumes =
      db.volumes.map (written (terminateInstance d.deletes db.volumesOf)) :=
    foldl_write_written _ _
  rw [terminateJob_eq destroys h]
  cases destroys with
  | false =>
    refine ⟨written (terminateInstance d.deletes db.volumesOf) x, ?_, (hu x).1, (hu x).2, .inl rfl⟩
    simp only [Bool.false_eq_true, if_false, hvolumes]
    exact List.mem_map_of_mem hx
  | true =>
    simp only [if_true, finalizeInstance_volumes, hvolumes, List.map_map]
    refine ⟨_, List.mem_map_of_mem hx, ?_⟩
    simp only [Function.comp]
    split
    · exact ⟨(hu x).1, (hu x).2, .inr rfl⟩
    · exact ⟨(hu x).1, (hu x).2, .inl rfl⟩

/-- A local volume the driver deletes is deleted in every row of it, and the
delete operation of `finalize_instance` passes it over. -/
theorem terminateJob_deleted {force destroys : Bool}
    (h : db.inst.state = .running ∨ db.inst.state = .halted) {v w : VolumeRow}
    (hv : v ∈ db.volumesOf) (hl : v.isLocal = true) (hd : d.deletes v.uuid = true)
    (hw : w ∈ (db.terminateJob d force destroys).db.volumes) (hu : w.uuid = v.uuid) :
    w.state = .deleted ∧ w.deleted = true := by
  have hrow : ∀ x, x.uuid = v.uuid →
      written (terminateInstance d.deletes db.volumesOf) x = x.withState .deleted := by
    intro x hx
    rw [written_terminateInstance, if_pos ⟨v, hv, hl, hx.symm⟩, hx, hd, if_pos rfl]
  have huuid : ∀ x, (written (terminateInstance d.deletes db.volumesOf) x).uuid = x.uuid :=
    fun x => (written_uuid d.deletes db.volumesOf x).1
  have hvolumes : ((terminateInstance d.deletes db.volumesOf).foldl write
      (db.setInstanceState .shuttingdown)).volumes =
      db.volumes.map (written (terminateInstance d.deletes db.volumesOf)) :=
    foldl_write_written _ _
  have hnot : v.uuid ∉ (((terminateInstance d.deletes db.volumesOf).foldl write
      (db.setInstanceState .shuttingdown)).undeleted).map VolumeRow.uuid := by
    intro hm
    obtain ⟨y, hy, hyu⟩ := List.mem_map.mp hm
    obtain ⟨hy, halive⟩ := List.mem_filter.mp hy
    have hy := (List.mem_filter.mp hy).1
    rw [hvolumes] at hy
    obtain ⟨x, -, rfl⟩ := List.mem_map.mp hy
    rw [huuid] at hyu
    simp [hrow x hyu, VolumeRow.withState] at halive
  rw [terminateJob_eq destroys h] at hw
  cases destroys with
  | false =>
    simp only [Bool.false_eq_true, if_false, hvolumes] at hw
    obtain ⟨x, -, rfl⟩ := List.mem_map.mp hw
    rw [huuid] at hu
    simp [hrow x hu, VolumeRow.withState]
  | true =>
    simp only [if_true, finalizeInstance_volumes, hvolumes, List.map_map] at hw
    obtain ⟨x, -, rfl⟩ := List.mem_map.mp hw
    simp only [Function.comp, huuid] at hu ⊢
    have hx : x.uuid = v.uuid := by
      split at hu
      · exact (huuid x).symm.trans hu
      · exact (huuid x).symm.trans hu
    rw [if_neg (by rw [hx]; exact hnot)]
    simp [hrow x hx, VolumeRow.withState]

/-- Nothing else is left of the shared volumes: the job keeps what it is to keep
just where there is none of them but the boot volume. -/
theorem terminated_iff (force destroys : Bool)
    (h : db.inst.state = .running ∨ db.inst.state = .halted) :
    Terminated db (db.terminateJob d force destroys) ↔
      ∀ v ∈ db.volumesOf, v.deleted = false →
        if v.isLocal then d.deletes v.uuid = true else v.uuid = db.inst.bootVolumeId := by
  constructor
  · intro ht v hv halive
    obtain ⟨hmem, howner⟩ := List.mem_filter.mp hv
    obtain ⟨w, hw, hu, hinst, hstate⟩ := @terminateJob_row db d force destroys h v hmem
    cases hl : v.isLocal with
    | false =>
      rw [if_neg (by simp)]
      by_contra hboot
      have hfree := ((ht.shared v hv halive hl hboot).2 w hw hu).1
      rw [hinst, eq_of_beq howner] at hfree
      cases hfree
    | true =>
      rw [if_pos rfl]
      by_contra hd
      have hdeleted := (ht.locals v hv halive hl w hw hu).1
      rw [written_terminateInstance, if_pos ⟨v, hv, hl, rfl⟩, if_neg hd, hdeleted] at hstate
      rcases hstate with hstate | hstate
      · cases hstate
      · cases hstate
  · intro hc
    constructor
    · intro v hv halive hl hboot
      have := hc v hv halive
      rw [hl, if_neg (by simp)] at this
      exact absurd this hboot
    · intro v hv halive hl w hw hu
      have hd := hc v hv halive
      rw [hl, if_pos rfl] at hd
      exact terminateJob_deleted h hv hl hd hw hu
    · intro v hv
      rw [terminateJob_eq destroys h]
      exact List.mem_cons_of_mem _ (List.mem_map_of_mem hv)

/-- A running instance with a boot volume and a data volume on its host node. -/
def locals : Db :=
  ⟨⟨1, .running, some 1, .localDev, 1, false⟩,
    [⟨1, true, .attached, some 1, false, true⟩, ⟨2, true, .attached, some 1, false, true⟩],
    [⟨1, 1, false⟩]⟩

def driver : Driver := ⟨true, fun _ => true, fun _ => true⟩

theorem terminated_locals : Terminated locals (locals.terminateJob driver false true) :=
  (terminated_iff false true (.inl rfl)).mpr (by decide)

def shared : Db :=
  { locals with
    volumes := [⟨1, true, .attached, some 1, false, true⟩, ⟨2, false, .attached, some 1, false, true⟩] }

/-- The data volume stays with the terminated instance, and a job is to delete it. -/
theorem shared_is_destroyed :
    ¬ Terminated shared (shared.terminateJob driver false true) ∧
      (shared.terminateJob driver false true).jobs = [.deleteVolume 2] := by
  constructor
  · intro h
    have := (h.shared ⟨2, false, .attached, some 1, false, true⟩ (by decide) rfl rfl (by decide)).1
    exact absurd this (by decide)
  · decide

end Db

end InstanceJob

end WakameVdc
