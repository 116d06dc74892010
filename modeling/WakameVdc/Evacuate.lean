import Mathlib
import WakameVdc.Lib.Run
import WakameVdc.Lib.Table

/-!
# Evacuating a host node

`Scheduler#evacuate_from` and `#apply_ha_scheduler` of
`node_modules/scheduler.rb`, with the disk space of `models/host_node.rb`. All
writes of a call share one transaction; jobs registered with `after_commit` are
submitted when it is committed.
-/

namespace WakameVdc

open Lib

namespace Scheduler

inductive InstanceState
  | initializing | scheduling | pending | starting | running | shuttingdown | terminated
  | halting | halted | stopping | stopped
  deriving DecidableEq, Repr

inductive VolumeState
  | registering | creating | available | attaching | attached | detaching | failed
  | deregistering | deleting | deleted | scheduling | pending
  deriving DecidableEq, Repr

inductive BootDev
  | san | localDev | unknown
  deriving DecidableEq, Repr

structure InstanceRow where
  id : Nat
  hostNodeId : Option Nat
  state : InstanceState
  haEnabled : Bool
  terminated : Bool
  bootDevType : BootDev
  deriving DecidableEq, Repr

/-- `localInstanceId` is the instance of the row in `local_volumes`. -/
structure VolumeRow where
  id : Nat
  instanceId : Option Nat
  isLocal : Bool
  localInstanceId : Option Nat
  size : Int
  state : VolumeState
  deleted : Bool
  hasStorageNode : Bool
  deriving DecidableEq, Repr

structure HostNodeRow where
  id : Nat
  schedulingEnabled : Bool
  online : Bool
  offeringDiskSpaceMb : Int
  deriving DecidableEq, Repr

instance : Row InstanceRow := ⟨InstanceRow.id⟩
instance : Row VolumeRow := ⟨VolumeRow.id⟩
instance : Row HostNodeRow := ⟨HostNodeRow.id⟩

structure Vdc where
  instances : Table InstanceRow
  volumes : Table VolumeRow
  hostNodes : Table HostNodeRow

inductive ScheduleError
  | hostNodeSchedulingError
  | other
  deriving DecidableEq, Repr

inductive EvacuateError
  | unknownHostNode (id : Nat)
  | schedulerError
  | validationFailed
  | noMethodError
  | unknownBootType
  deriving DecidableEq, Repr

inductive SchedulerJob
  | cleanup (instanceId : Nat)
  | runLocalStore (hostNodeId instanceId : Nat)
  | runVolStore (hostNodeId instanceId : Nat)
  | instanceScheduled (instanceId : Nat)
  deriving DecidableEq, Repr

/-- The HA scheduler of the instance's service type, and the validation of a
volume by its hypervisor's policy. -/
structure Env where
  haSchedule : Vdc → InstanceRow → Except ScheduleError HostNodeRow
  volumeValid : Vdc → VolumeRow → Bool

namespace Vdc

def setInstanceHost (vdc : Vdc) (i : Nat) (host : Nat) : Vdc :=
  { vdc with
    instances := vdc.instances.modify i (fun r => { r with hostNodeId := some host }) fun _ => rfl }

def setInstanceState (vdc : Vdc) (i : Nat) (state : InstanceState) : Vdc :=
  { vdc with instances := vdc.instances.modify i (fun r => { r with state := state }) fun _ => rfl }

def setVolumeState (vdc : Vdc) (v : Nat) (state : VolumeState) : Vdc :=
  { vdc with volumes := vdc.volumes.modify v (fun r => { r with state := state }) fun _ => rfl }

def setSchedulingEnabled (vdc : Vdc) (h : Nat) (enabled : Bool) : Vdc :=
  { vdc with
    hostNodes := vdc.hostNodes.modify h (fun r => { r with schedulingEnabled := enabled })
      fun _ => rfl }

def onlineNodes (vdc : Vdc) : List HostNodeRow :=
  vdc.hostNodes.rows.filter fun h => h.online && h.schedulingEnabled

/-- `instances_dataset.alives` of a host node. -/
def aliveInstances (vdc : Vdc) (h : Nat) : List InstanceRow :=
  vdc.instances.rows.filter fun i => i.hostNodeId == some h && !i.terminated

/-- `volumes_dataset.alives` of an instance. -/
def aliveVolumes (vdc : Vdc) (i : Nat) : List VolumeRow :=
  vdc.volumes.rows.filter fun v => v.instanceId == some i && !v.deleted

/-- `local_volumes_dataset.sum(:size)` -/
def localVolumeUsage (vdc : Vdc) (i : Nat) : Int :=
  ((vdc.volumes.rows.filter fun v => v.localInstanceId == some i).map VolumeRow.size).sum

def diskSpaceUsage (vdc : Vdc) (h : Nat) : Int :=
  ((vdc.aliveInstances h).map fun i => vdc.localVolumeUsage i.id).sum

def availableDiskSpace (vdc : Vdc) (host : HostNodeRow) : Int :=
  host.offeringDiskSpaceMb * 1024 * 1024 - vdc.diskSpaceUsage host.id

/-- `instance.host_node.status == 'online'` -/
def hostOnline (vdc : Vdc) (i : InstanceRow) : Bool :=
  (i.hostNodeId.bind vdc.hostNodes.find).any HostNodeRow.online

end Vdc

def VolumeRow.target (vol : VolumeRow) : VolumeState :=
  if vol.isLocal then .pending else .available

/-- The loop over the instance's volumes; false when it raised
`HostNodeSchedulingError`, with the volumes saved so far. -/
def migrateVolumes (env : Env) (host : HostNodeRow) : Vdc → List VolumeRow →
    Except EvacuateError (Vdc × Bool)
  | vdc, [] => .ok (vdc, true)
  | vdc, vol :: vols =>
    if vol.isLocal ∧ vdc.availableDiskSpace host < vol.size then .ok (vdc, false)
    else if vol.target ≠ vol.state ∧ env.volumeValid vdc { vol with state := vol.target } = false then
      .error .validationFailed
    else if vol.hasStorageNode then
      migrateVolumes env host (vdc.setVolumeState vol.id vol.target) vols
    else .error .noMethodError

structure Progress where
  vdc : Vdc
  jobs : List SchedulerJob
  scheduled : List Nat
  failed : List Nat
  skipped : List Nat

def bootJobs (host : HostNodeRow) (inst : InstanceRow) : Except EvacuateError (List SchedulerJob) :=
  match inst.bootDevType with
  | .localDev => .ok [.runLocalStore host.id inst.id]
  | .san => .ok [.runVolStore host.id inst.id]
  | .unknown => .error .unknownBootType

/-- False when it raised `HostNodeSchedulingError`. -/
def applyHaScheduler (env : Env) (vdc : Vdc) (jobs : List SchedulerJob) (inst : InstanceRow) :
    Except EvacuateError (Vdc × List SchedulerJob × Bool) :=
  match env.haSchedule vdc inst with
  | .error .hostNodeSchedulingError => .ok (vdc, jobs, false)
  | .error .other => .error .schedulerError
  | .ok host => do
    let vdc := vdc.setInstanceHost inst.id host.id
    let (vdc, done) ← migrateVolumes env host vdc (vdc.aliveVolumes inst.id)
    if done = false then return (vdc, jobs, false)
    if inst.state = .halted then
      return (vdc.setInstanceState inst.id .halted, jobs ++ [.instanceScheduled inst.id], true)
    else
      let boot ← bootJobs host inst
      return (vdc.setInstanceState inst.id .pending, jobs ++ boot ++ [.instanceScheduled inst.id],
        true)

def turn (env : Env) (p : Progress) (inst : InstanceRow) : Except EvacuateError Progress :=
  if inst.haEnabled = false then
    .ok { p with
      vdc := p.vdc.setInstanceState inst.id .halted
      skipped := p.skipped ++ [inst.id] }
  else do
    -- registered before the scheduling is tried
    let jobs := if p.vdc.hostOnline inst then p.jobs ++ [.cleanup inst.id] else p.jobs
    let (vdc, jobs, done) ← applyHaScheduler env p.vdc jobs inst
    if done then return { p with vdc := vdc, jobs := jobs, scheduled := p.scheduled ++ [inst.id] }
    else return { p with vdc := vdc, jobs := jobs, failed := p.failed ++ [inst.id] }

def begin (vdc : Vdc) (src : Nat) : Progress := ⟨vdc.setSchedulingEnabled src false, [], [], [], []⟩

def evacuateFrom (env : Env) (vdc : Vdc) (hostNodeId : Nat) (keepNodeOffline : Bool) :
    Except EvacuateError Progress :=
  match vdc.hostNodes.find hostNodeId with
  | none => .error (.unknownHostNode hostNodeId)
  | some src => do
    let p := begin vdc src.id
    let p ← (p.vdc.aliveInstances src.id).foldlM (turn env) p
    return if keepNodeOffline then p
      else { p with vdc := p.vdc.setSchedulingEnabled src.id true }

end Scheduler

end WakameVdc
