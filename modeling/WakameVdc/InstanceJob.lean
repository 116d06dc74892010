import WakameVdc.Evacuate

/-!
# The jobs of an instance

The jobs of `rpc/hva_handler.rb`, `rpc/local_store_handler.rb` and
`rpc/sta_handler.rb` that boot an instance, stop it and clean up after it, with
the rpcs of `node_modules/hva_collector.rb` and `sta_collector.rb` they write
through. The database is the part of it that one instance has.
-/

namespace WakameVdc

open Lib

namespace InstanceJob

open Scheduler (InstanceState VolumeState BootDev)

/-- `sourceReady` says that the volume is made from no backup object or from one
that is available. -/
structure VolumeRow where
  uuid : Nat
  isLocal : Bool
  state : VolumeState
  instanceId : Option Nat
  deleted : Bool
  sourceReady : Bool
  deriving DecidableEq, Repr

structure VifRow where
  uuid : Nat
  instanceId : Nat
  deleted : Bool
  deriving DecidableEq, Repr

structure InstanceRow where
  id : Nat
  state : InstanceState
  hostNode : Option Nat
  bootDev : BootDev
  bootVolumeId : Nat
  terminated : Bool
  deriving DecidableEq, Repr

structure Db where
  inst : InstanceRow
  volumes : List VolumeRow
  vifs : List VifRow
  deriving DecidableEq, Repr

inductive Job
  | createVolumeAndRunInstance (volumeId : Nat)
  | localRunLocalStore
  | waitVolumesAvailable
  | runLocalStore
  | runVolStore
  | deleteVolume (volumeId : Nat)
  | localDeleteVolume (volumeId : Nat)
  deriving DecidableEq, Repr

/-! ## Rpcs -/

/-- A volume that gets the state `deleted` is destroyed. -/
def VolumeRow.withState (v : VolumeRow) (state : VolumeState) : VolumeRow :=
  { v with state, deleted := v.deleted || state == .deleted }

def VolumeRow.volumeType (v : VolumeRow) : String :=
  if v.isLocal then "Dcmgr::Models::LocalVolume" else "Dcmgr::Models::IscsiVolume"

namespace Db

/-- The `:volume` of `get_instance`. -/
def volumesOf (db : Db) : List VolumeRow :=
  db.volumes.filter fun v => v.instanceId == some db.inst.id

def vifsOf (db : Db) : List VifRow :=
  db.vifs.filter fun v => v.instanceId == db.inst.id && !v.deleted

def updateVolume (db : Db) (uuid : Nat) (f : VolumeRow → VolumeRow) : Db :=
  { db with volumes := db.volumes.map fun v => if v.uuid = uuid then f v else v }

/-- `update_volume` with a new state. -/
def setVolumeState (db : Db) (uuid : Nat) (state : VolumeState) : Db :=
  db.updateVolume uuid fun v => v.withState state

def setVolumeStates (db : Db) (uuids : List Nat) (state : VolumeState) : Db :=
  uuids.foldl (fun db uuid => db.setVolumeState uuid state) db

/-- `update_instance` with a new state that is not `terminated`. -/
def setInstanceState (db : Db) (state : InstanceState) : Db :=
  { db with inst := { db.inst with state } }

/-- The volumes `finalize_instance` sends a delete operation to. -/
def undeleted (db : Db) : List VolumeRow :=
  db.volumesOf.filter fun v => !v.deleted && v.state != .deleting && v.state != .deleted

/-- `finalize_instance`, with the jobs it submits. -/
def finalizeInstance (db : Db) : Db × List Job :=
  let jobs := db.undeleted.map fun v =>
    if v.isLocal then Job.localDeleteVolume v.uuid else .deleteVolume v.uuid
  let db := db.setVolumeStates (db.undeleted.map VolumeRow.uuid) .deleting
  if db.inst.state = .terminated then (db, jobs)
  else
    ({ db with
        inst := { db.inst with state := .terminated, terminated := true }
        vifs := db.vifs.map fun v => if v.instanceId = db.inst.id then { v with deleted := true } else v },
      jobs)

end Db

/-! ## Helpers of the handlers -/

/-- A write of `delete_local_volume`: the volume and its new state. -/
abbrev Write := Nat × VolumeState

/-- `delete_local_volume`; the driver may fail in between. -/
def deleteLocalVolume (deletes : Nat → Bool) (v : VolumeRow) : List Write :=
  if v.isLocal then
    (v.uuid, .deleting) :: if deletes v.uuid then [(v.uuid, .deleted)] else []
  else []

/-- What `terminate_instance` writes. With `state_update` set it also calls
`update_volume_state_to_available` with an argument that method does not take,
and the `ArgumentError` is rescued. -/
def terminateInstance (deletes : Nat → Bool) (volumes : List VolumeRow) : List Write :=
  volumes.flatMap (deleteLocalVolume deletes)

def Db.write (db : Db) (w : Write) : Db := db.setVolumeState w.1 w.2

def Db.terminate (db : Db) (deletes : Nat → Bool) : Db :=
  (terminateInstance deletes db.volumesOf).foldl Db.write db

/-- The loop over the volumes in `update_instance_state_to_terminated`. -/
def Db.dropVolumes (db : Db) (volumes : List VolumeRow) : Db :=
  volumes.foldl
    (fun db v => db.updateVolume v.uuid fun v => { v.withState .deleted with instanceId := none }) db

/-! ## Boot jobs -/

/-- `boots` has one entry for each call of `run_instance`: whether all volumes
were available. `failures` counts the failure blocks that were run. -/
structure Sys where
  db : Db
  queue : List Job
  boots : List Bool
  failures : Nat
  deriving DecidableEq, Repr

namespace Sys

def submit (s : Sys) (jobs : List Job) : Sys := { s with queue := s.queue ++ jobs }

/-- `failed_instance_launch_rollback`, as the failure block of a boot job. -/
def failedInstanceLaunchRollback (s : Sys) : Sys :=
  let (db, jobs) := (s.db.terminate fun _ => true).finalizeInstance
  { s with db, failures := s.failures + 1 }.submit jobs

/-- The failure block of `create_volume_and_run_instance`. -/
def failedCreateVolume (s : Sys) (volumeId : Nat) : Sys :=
  let (db, jobs) := (s.db.setVolumeState volumeId .deleted).finalizeInstance
  { s with db, failures := s.failures + 1 }.submit jobs

def createVolumeAndRunInstance (s : Sys) (volumeId : Nat) : Sys :=
  match s.db.volumes.find? fun v => v.uuid == volumeId with
  | none => s.failedCreateVolume volumeId
  | some v =>
    if v.state ≠ .pending then s.failedCreateVolume volumeId
    else
      let s := { s with db := s.db.setVolumeState volumeId .creating }
      if !v.sourceReady then s.failedCreateVolume volumeId
      else
        let s := { s with db := s.db.setVolumeState volumeId .available }
        if s.db.inst.hostNode.isNone then s.failedCreateVolume volumeId
        else s.submit [.waitVolumesAvailable]

/-- The failure block of `run_local_store` of the local store. -/
def failedLocalRunLocalStore (s : Sys) : Sys :=
  let volumes := s.db.volumesOf
  let db := s.db.setVolumeStates ((volumes.filter VolumeRow.isLocal).map VolumeRow.uuid) .available
  let (db, jobs) := db.finalizeInstance
  { s with db := db.dropVolumes volumes, failures := s.failures + 1 }.submit jobs

def localRunLocalStore (s : Sys) : Sys :=
  if s.db.inst.state ≠ .pending then s.failedLocalRunLocalStore
  else
    let volumes := s.db.volumesOf
    let db := s.db.setInstanceState .initializing
    { s with
      db := db.setVolumeStates ((volumes.filter VolumeRow.isLocal).map VolumeRow.uuid) .available
    }.submit [.runLocalStore]

def allAvailable (s : Sys) : Bool := s.db.volumesOf.all fun v => v.state == .available

/-- The type is compared with `Dcmgr::Model::LocalVolume`. -/
def waitVolumesAvailable (s : Sys) : Sys :=
  if s.allAvailable then
    match s.db.volumesOf.find? fun v => v.uuid == s.db.inst.bootVolumeId with
    | none => s
    | some v =>
      if v.volumeType = "Dcmgr::Model::LocalVolume" then s.submit [.runLocalStore]
      else s.submit [.runVolStore]
  else if s.db.inst.state = .terminated ∨ (s.db.volumesOf.any fun v => v.state == .deleted) then
    let (db, jobs) := s.db.finalizeInstance
    { s with db }.submit jobs
  else s

/-- From `run_instance` on: the instance runs and its volumes are attached. -/
def runInstance (s : Sys) : Sys :=
  let uuids := s.db.volumesOf.map VolumeRow.uuid
  let db := (s.db.setVolumeStates uuids .attaching).setInstanceState .running
  { s with db := db.setVolumeStates uuids .attached, boots := s.boots ++ [s.allAvailable] }

def runLocalStore (s : Sys) : Sys :=
  if s.db.inst.state ≠ .initializing then s.failedInstanceLaunchRollback
  else if !s.allAvailable then s
  else s.runInstance

/-- The other state the source accepts, `failingover`, is never written. -/
def runVolStore (s : Sys) : Sys :=
  if s.db.inst.state ≠ .pending then s.failedInstanceLaunchRollback
  else if !s.allAvailable then s
  else s.runInstance

def exec (s : Sys) : Job → Sys
  | .createVolumeAndRunInstance volumeId => s.createVolumeAndRunInstance volumeId
  | .localRunLocalStore => s.localRunLocalStore
  | .waitVolumesAvailable => s.waitVolumesAvailable
  | .runLocalStore => s.runLocalStore
  | .runVolStore => s.runVolStore
  | .deleteVolume volumeId | .localDeleteVolume volumeId =>
    { s with db := s.db.setVolumeState volumeId .deleted }

/-- A submitted job runs; the queue has no order. -/
def step (s : Sys) (j : Job) : Sys :=
  if j ∈ s.queue then { s with queue := s.queue.erase j }.exec j else s

end Sys

/-! ## What the writes do to the rows -/

/-- `f` only changes what a row says about its state. -/
def Keeps (f : VolumeRow → VolumeRow) : Prop :=
  ∀ v, (f v).uuid = v.uuid ∧ (f v).isLocal = v.isLocal ∧ (f v).instanceId = v.instanceId ∧
    (f v).sourceReady = v.sourceReady

theorem keeps_withState (p : VolumeRow → Prop) [DecidablePred p] (state : VolumeState) :
    Keeps fun v => if p v then v.withState state else v := by
  intro v
  by_cases h : p v
  · simp [h, VolumeRow.withState]
  · simp [h]

theorem Keeps.comp {f g : VolumeRow → VolumeRow} (hf : Keeps f) (hg : Keeps g) : Keeps (g ∘ f) :=
  fun v => ⟨(hg _).1.trans (hf v).1, (hg _).2.1.trans (hf v).2.1, (hg _).2.2.1.trans (hf v).2.2.1,
    (hg _).2.2.2.trans (hf v).2.2.2⟩

theorem Db.setVolumeStates_eq (uuids : List Nat) (state : VolumeState) (db : Db) :
    db.setVolumeStates uuids state =
      { db with volumes := db.volumes.map fun v => if v.uuid ∈ uuids then v.withState state else v } := by
  induction uuids generalizing db with
  | nil => simp [Db.setVolumeStates]
  | cons u us ih =>
    have h : db.setVolumeStates (u :: us) state = (db.setVolumeState u state).setVolumeStates us state := rfl
    rw [h, ih]
    simp only [Db.setVolumeState, Db.updateVolume, List.map_map]
    congr 1
    refine List.map_congr_left fun v _ => ?_
    by_cases hu : v.uuid = u
    · by_cases hus : u ∈ us <;> simp [hu, hus, VolumeRow.withState]
    · simp [hu]

end InstanceJob

end WakameVdc
