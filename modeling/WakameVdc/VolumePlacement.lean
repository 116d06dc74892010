import Mathlib.Data.List.Sort
import WakameVdc.Evacuate
import WakameVdc.Lib.Run
import WakameVdc.Lib.Table
import WakameVdc.Lib.Text

/-!
# Placing volumes

`POST /volumes`, `Scheduler#schedule_volume`, the volume loop of
`Scheduler#schedule_instance` and the storage node schedulers, with the disk usage of
`models/storage_node.rb` and `models/host_node.rb`.
-/

namespace WakameVdc

open Lib

namespace VolumePlacement

open Scheduler (VolumeState)

/-! ## Tables -/

structure StorageNodeRow where
  id : Nat
  offeringDiskSpaceMb : Nat
  deriving DecidableEq, Repr

structure HostNodeRow where
  id : Nat
  offeringDiskSpaceMb : Nat
  deriving DecidableEq, Repr

/-- `volume_type` with the row of `iscsi_volumes`, `nfs_volumes` or `local_volumes`
that has the key of the volume. The type of a local volume is set before it has its row,
the others get both at once. -/
inductive Device
  | unset
  | shared (storageNode : Nat)
  | local (instance' : Option Nat)
  deriving DecidableEq, Repr

instance : Row StorageNodeRow := ⟨StorageNodeRow.id⟩
instance : Row HostNodeRow := ⟨HostNodeRow.id⟩

structure VolumeRow where
  id : Nat
  size : Nat
  serviceType : Text
  instanceId : Option Nat
  device : Device
  state : VolumeState
  deleted : Bool
  deriving DecidableEq, Repr

structure InstanceRow where
  id : Nat
  serviceType : Text
  hostNode : Option Nat
  terminated : Bool
  deriving DecidableEq, Repr

instance : Row VolumeRow := ⟨VolumeRow.id⟩
instance : Row InstanceRow := ⟨InstanceRow.id⟩

structure Vdc where
  volumes : Table VolumeRow
  instances : Table InstanceRow

inductive PlacementError
  | undefinedRequiredParameter
  | invalidVolumeSize
  | unknownStorageNode
  | outOfDiskSpace
  | alreadyAssociated
  | storageNodeSchedulingError
  | hostNodeSchedulingError
  | insufficientLocalDiskSpace
  | uniqueConstraint
  | unknownVolumeType
  | noMethodError
  | unknownHostNode
  | unknownServiceType
  | unknownVolume
  | unknownInstance
  | invalidVolumeState
  | validationFailed
  | other
  deriving DecidableEq, Repr

/-- Ruby's `sort_by`, which may put nodes with equal keys in any order. -/
structure SortBy where
  sort : (StorageNodeRow → Int) → List StorageNodeRow → List StorageNodeRow
  perm : ∀ key nodes, (sort key nodes).Perm nodes
  sorted : ∀ key nodes, (sort key nodes).Pairwise fun a b => key a ≤ key b

instance : Inhabited SortBy where
  default :=
    { sort := fun key nodes => nodes.insertionSort (Order.Preimage key (· ≤ ·))
      perm := fun _ nodes => List.perm_insertionSort _ nodes
      sorted := fun key nodes => List.pairwise_insertionSort (Order.Preimage key (· ≤ ·)) nodes }

inductive StorageNodeScheduler
  | leastUsage | findFirst
  deriving DecidableEq, Repr

/-- The nodes and the configuration, which no placement changes. -/
structure Domain where
  storageNodes : Table StorageNodeRow
  hostNodes : Table HostNodeRow
  storageNode : Text → Option StorageNodeScheduler
  createVolumeMaxSize : Int
  createVolumeMinSize : Int
  sortBy : SortBy

/-! ## Disk usage -/

/-- The sum of the sizes of the volumes that meet `p`. -/
def Vdc.sumSize (vdc : Vdc) (p : VolumeRow → Bool) : Nat :=
  vdc.volumes.sum fun v => if p v then v.size else 0

def Vdc.diskUsage (vdc : Vdc) (storageNode : Nat) : Nat :=
  vdc.sumSize fun v => !v.deleted && v.device == .shared storageNode

def Vdc.freeDiskSpace (vdc : Vdc) (node : StorageNodeRow) : Int :=
  (node.offeringDiskSpaceMb * 1024 ^ 2 : Nat) - (vdc.diskUsage node.id : Int)

/-- `instance.local_volumes_dataset.sum(:size)`; volumes marked as deleted are among
them. -/
def Vdc.localVolumesSize (vdc : Vdc) (instance' : Nat) : Nat :=
  vdc.sumSize fun v => v.device == .local (some instance')

def Vdc.diskSpaceUsage (vdc : Vdc) (host : Nat) : Nat :=
  vdc.instances.sum fun i =>
    if !i.terminated && i.hostNode == some host then vdc.localVolumesSize i.id else 0

def Vdc.availableDiskSpace (vdc : Vdc) (host : HostNodeRow) : Int :=
  (host.offeringDiskSpaceMb * 1024 * 1024 : Nat) - (vdc.diskSpaceUsage host.id : Int)

namespace Domain

variable (d : Domain)

/-- `instance.host_node` -/
def hostNodeOf (i : InstanceRow) : Option HostNodeRow := i.hostNode.bind d.hostNodes.find

def onlineNodes (online : Nat → Bool) : List StorageNodeRow :=
  d.storageNodes.rows.filter fun n => online n.id

def checkDomainCapacity (online : Nat → Bool) (vdc : Vdc) (size : Int) : Bool :=
  size ≤ (((d.onlineNodes online).map StorageNodeRow.offeringDiskSpaceMb).sum * 1024 ^ 2 : Nat)
    - (vdc.sumSize fun v => !v.deleted : Int)

end Domain

/-! ## Placing one volume -/

def Vdc.setDevice (vdc : Vdc) (id : Nat) (device : Device) : Vdc :=
  { vdc with volumes := vdc.volumes.modify id (fun v => { v with device := device }) fun _ => rfl }

def Vdc.setVolumeState (vdc : Vdc) (id : Nat) (state : VolumeState) : Vdc :=
  { vdc with volumes := vdc.volumes.modify id (fun v => { v with state := state }) fun _ => rfl }

/-- `IscsiStorageNode#associate_volume` and `NfsStorageNode#associate_volume` -/
def associateVolume (vdc : Vdc) (node : StorageNodeRow) (vol : VolumeRow) :
    Except PlacementError Vdc :=
  if vol.device = .unset then .ok (vdc.setDevice vol.id (.shared node.id))
  else .error .alreadyAssociated

namespace StorageNodeScheduler

variable (d : Domain) (online : Nat → Bool) (vdc : Vdc) (vol : VolumeRow)

def leastUsageNode : Except PlacementError StorageNodeRow :=
  match (d.sortBy.sort vdc.freeDiskSpace
      ((d.onlineNodes online).filter fun s => vol.size ≤ vdc.freeDiskSpace s)).reverse with
  | [] => .error .storageNodeSchedulingError
  | node :: _ => .ok node

/-- `FindFirst` keeps the `schedule` it inherits, which starts with `volume.snapshot_id`, a
column `0002_v1203.rb` dropped: `schedule_node` is never reached. -/
def schedule : StorageNodeScheduler → Except PlacementError Vdc
  | leastUsage =>
    match leastUsageNode d online vdc vol with
    | .error e => .error e
    | .ok node => associateVolume vdc node vol
  | findFirst => .error .noMethodError

end StorageNodeScheduler

/-! ## Requests and jobs -/

inductive RequestedSize
  | backupObject (size : Nat)
  | volumeSize (mb : Int)
  | missing
  deriving DecidableEq, Repr

/-- `accepted` is whether the quota, the service type and the validation of the other
columns let the volume pass. -/
structure VolumeRequest where
  size : RequestedSize
  storageNodeId : Option Nat
  serviceType : Text
  accepted : Bool
  deriving DecidableEq, Repr

def volumeSize (d : Domain) : RequestedSize → Except PlacementError Int
  | .backupObject size => .ok size
  | .volumeSize mb =>
    if mb > d.createVolumeMaxSize ∨ mb < d.createVolumeMinSize then .error .invalidVolumeSize
    else .ok (mb * (1024 * 1024))
  | .missing => .error .undefinedRequiredParameter

def createVolume (vdc : Vdc) (r : VolumeRequest) (size : Int) (state : VolumeState) :
    Except PlacementError (Vdc × VolumeRow) :=
  if !r.accepted || size < 0 then .error .validationFailed
  else
    let vol : VolumeRow :=
      ⟨vdc.volumes.next, size.toNat, r.serviceType, none, .unset, state, false⟩
    .ok ({ vdc with volumes := vdc.volumes.create (fun id => { vol with id := id }) fun _ => rfl },
      vol)

/-- `POST /volumes` -/
def postVolume (d : Domain) (online : Nat → Bool) (r : VolumeRequest) (vdc : Vdc) :
    Except PlacementError Vdc :=
  match volumeSize d r.size with
  | .error e => .error e
  | .ok size =>
    match r.storageNodeId with
    | none =>
      if !d.checkDomainCapacity online vdc size then .error .outOfDiskSpace
      else
        match createVolume vdc r size .scheduling with
        | .error e => .error e
        | .ok (vdc, _) => .ok vdc
    | some id =>
      match d.storageNodes.find id with
      | none => .error .unknownStorageNode
      | some sp =>
        match createVolume vdc r size .pending with
        | .error e => .error e
        | .ok (vdc, vol) => associateVolume vdc sp vol

/-- A volume of `POST /instances`. -/
structure NewVolume where
  size : Nat
  serviceType : Text
  isLocal : Bool
  deriving DecidableEq, Repr

def addVolume (instance' : Nat) (vdc : Vdc) (v : NewVolume) : Vdc :=
  let device := if v.isLocal then .local none else .unset
  { vdc with
    volumes := vdc.volumes.create
      (fun id => ⟨id, v.size, v.serviceType, some instance', device, .scheduling, false⟩)
      fun _ => rfl }

/-- The rows `POST /instances` makes, with the host node it may name. -/
def postInstance (d : Domain) (serviceType : Text) (host : Option Nat) (volumes : List NewVolume)
    (vdc : Vdc) : Except PlacementError Vdc :=
  if host.any fun h => (d.hostNodes.find h).isNone then .error .unknownHostNode
  else
    let created := vdc.instances.create (fun id => ⟨id, serviceType, host, false⟩) fun _ => rfl
    .ok (volumes.foldl (addVolume vdc.instances.next) { vdc with instances := created })

/-- `Scheduler#schedule_volume`; `accepted` is whether the volume can be saved. -/
def scheduleVolume (d : Domain) (online : Nat → Bool) (id : Nat) (accepted : Bool) (vdc : Vdc) :
    Except PlacementError Vdc :=
  match vdc.volumes.find id with
  | none => .error .unknownVolume
  | some vol =>
    match d.storageNode vol.serviceType with
    | none => .error .unknownServiceType
    | some s =>
      match s.schedule d online vdc vol with
      | .error e => .error e
      | .ok vdc =>
        if !accepted then .error .validationFailed else .ok (vdc.setVolumeState id .pending)

/-- The device of one volume in the loop of `Scheduler#schedule_instance`. -/
def createDevice (d : Domain) (online : Nat → Bool) (i : InstanceRow) (s : StorageNodeScheduler)
    (vdc : Vdc) (vol : VolumeRow) : Except PlacementError Vdc :=
  match vol.device with
  | .local row =>
    match d.hostNodeOf i with
    | none => .error .noMethodError
    | some host =>
      if vdc.availableDiskSpace host < vol.size then .error .insufficientLocalDiskSpace
      else if row.isSome then .error .uniqueConstraint
      else .ok (vdc.setDevice vol.id (.local (some i.id)))
  | .unset => s.schedule d online vdc vol
  | .shared _ => .error .unknownVolumeType

def scheduleVolumeDevice (d : Domain) (online : Nat → Bool) (i : InstanceRow)
    (s : StorageNodeScheduler) (vdc : Vdc) (vol : VolumeRow) : Except PlacementError Vdc :=
  match createDevice d online i s vdc vol with
  | .error e => .error e
  | .ok vdc => .ok (vdc.setVolumeState vol.id .pending)

def Vdc.schedulingVolumes (vdc : Vdc) (instance' : Nat) : List VolumeRow :=
  vdc.volumes.rows.filter fun v => v.instanceId == some instance' && v.state == .scheduling

/-- What the other schedulers answer: the host node, if one is found, and whether
everything else of the job goes through. -/
structure Attempt where
  hostNode : Option Nat
  accepted : Bool
  deriving DecidableEq, Repr

def hostNodeScheduled (d : Domain) (i : InstanceRow) (a : Attempt) :
    Except PlacementError InstanceRow :=
  if (d.hostNodeOf i).isSome then .ok i
  else if a.hostNode.isNone then .error .hostNodeSchedulingError
  else .ok { i with hostNode := a.hostNode }

def scheduleInstance (d : Domain) (online : Nat → Bool) (id : Nat) (a : Attempt) (vdc : Vdc) :
    Except PlacementError Vdc :=
  match vdc.instances.find id with
  | none => .error .unknownInstance
  | some i =>
    match d.storageNode i.serviceType with
    | none => .error .unknownServiceType
    | some s =>
      match hostNodeScheduled d i a with
      | .error e => .error e
      | .ok i =>
        match (vdc.schedulingVolumes id).foldlM (scheduleVolumeDevice d online i s)
            { vdc with instances := vdc.instances.save i } with
        | .error e => .error e
        | .ok vdc => if !a.accepted then .error .other else .ok vdc

/-- `Volume#destroy` -/
def Vdc.destroyVolume (vdc : Vdc) (id : Nat) : Vdc :=
  { vdc with
    volumes := vdc.volumes.modify id (fun v => { v with state := .deleted, deleted := true })
      fun _ => rfl }

/-- `DELETE /volumes/:id` -/
def deleteVolume (id : Nat) (vdc : Vdc) : Except PlacementError Vdc :=
  match vdc.volumes.find id with
  | none => .error .unknownVolume
  | some vol =>
    if vol.state ≠ .available then .error .invalidVolumeState
    else .ok (vdc.setVolumeState id .deleting)

/-- `update_volume` of the sta-collector. -/
def updateVolume (id : Nat) (state : VolumeState) (vdc : Vdc) : Except PlacementError Vdc :=
  match vdc.volumes.find id with
  | none => .error .unknownVolume
  | some _ =>
    .ok (if state = .deleted then (vdc.setVolumeState id state).destroyVolume id
      else vdc.setVolumeState id state)

/-- The hook of `schedule_instance` after a rollback: the instance is destroyed, and what
volumes it still has. -/
def afterRollback (id : Nat) (vdc : Vdc) : Vdc :=
  match vdc.instances.find id with
  | none => vdc
  | some i =>
    { instances := vdc.instances.save { i with terminated := true }
      volumes := vdc.volumes.update (fun v =>
        if v.instanceId = some id then
          if v.state = .attached then { v with instanceId := none }
          else if v.deleted then v
          else { v with state := .deleted, deleted := true }
        else v) fun v => by split_ifs <;> rfl }

/-! ## Runs -/

/-- `online` are the storage nodes whose agents run at the time. `cleanedUp` is whether
the instance can be destroyed. -/
inductive Op
  | postVolume (online : Nat → Bool) (r : VolumeRequest)
  | postInstance (serviceType : Text) (host : Option Nat) (volumes : List NewVolume)
  | scheduleVolume (online : Nat → Bool) (id : Nat) (accepted : Bool)
  | scheduleInstance (online : Nat → Bool) (id : Nat) (a : Attempt) (cleanedUp : Bool)
  | deleteVolume (id : Nat)
  | updateVolume (id : Nat) (state : VolumeState)

namespace Op

def run (d : Domain) (vdc : Vdc) : Op → Except PlacementError Vdc
  | postVolume online r => VolumePlacement.postVolume d online r vdc
  | postInstance serviceType host volumes =>
    VolumePlacement.postInstance d serviceType host volumes vdc
  | scheduleVolume online id accepted => VolumePlacement.scheduleVolume d online id accepted vdc
  | scheduleInstance online id a _ => VolumePlacement.scheduleInstance d online id a vdc
  | deleteVolume id => VolumePlacement.deleteVolume id vdc
  | updateVolume id state => VolumePlacement.updateVolume id state vdc

def cleanUp (vdc : Vdc) : Op → Vdc
  | scheduleVolume _ id _ => vdc.destroyVolume id
  | scheduleInstance _ id _ true => afterRollback id vdc
  | _ => vdc

def step (d : Domain) (vdc : Vdc) (op : Op) : Vdc :=
  match op.run d vdc with
  | .ok vdc => vdc
  | .error _ => op.cleanUp vdc

end Op

/-! ## Capacity -/

/-- The alive volumes of a storage node take no more than it offers. -/
def StorageFits (d : Domain) (vdc : Vdc) : Prop :=
  ∀ node ∈ d.storageNodes.rows, vdc.diskUsage node.id ≤ node.offeringDiskSpaceMb * 1024 ^ 2

/-- The local volumes of the alive instances of a host node take no more than it offers. -/
def LocalsFit (d : Domain) (vdc : Vdc) : Prop :=
  ∀ host ∈ d.hostNodes.rows,
    vdc.diskSpaceUsage host.id ≤ host.offeringDiskSpaceMb * 1024 * 1024

instance (d : Domain) (vdc : Vdc) : Decidable (StorageFits d vdc) :=
  inferInstanceAs (Decidable (∀ node ∈ d.storageNodes.rows, _))

instance (d : Domain) (vdc : Vdc) : Decidable (LocalsFit d vdc) :=
  inferInstanceAs (Decidable (∀ host ∈ d.hostNodes.rows, _))

structure InStep (d : Domain) (vdc : Vdc) : Prop where
  storageNodes : StorageFits d vdc
  hostNodes : LocalsFit d vdc

/-- The local volumes that have a row belong to instances with a host node. -/
def Vdc.Located (d : Domain) (vdc : Vdc) : Prop :=
  ∀ v ∈ vdc.volumes.rows, ∀ id, v.device = .local (some id) →
    ∃ i ∈ vdc.instances.rows, i.id = id ∧ (d.hostNodeOf i).isSome

/-- The step leads to a state in which everything fits, and if it raises, no volume is
placed by it. -/
structure Kept (d : Domain) (vdc : Vdc) (op : Op) : Prop where
  inStep : InStep d (op.step d vdc)
  refused : ∀ e, op.run d vdc = .error e →
    ∀ id, ((op.step d vdc).volumes.find id).map VolumeRow.device =
      (vdc.volumes.find id).map VolumeRow.device

/-! ## Placements without a check -/

/-- `POST /volumes` names a storage node that has no room for the volume. -/
def Op.Overfills (d : Domain) (vdc : Vdc) : Op → Prop
  | postVolume _ r => r.accepted ∧ ∃ id node size, r.storageNodeId = some id ∧
      d.storageNodes.find id = some node ∧ volumeSize d r.size = .ok size ∧ 0 ≤ size ∧
      vdc.freeDiskSpace node < size
  | _ => False

end VolumePlacement

end WakameVdc
