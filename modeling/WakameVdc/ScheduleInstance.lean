import WakameVdc.Evacuate
import WakameVdc.IpLeaseDestroy
import WakameVdc.Lib.Text

/-!
# Scheduling an instance

`Scheduler#schedule_instance` of `node_modules/scheduler.rb`. The job runs in one
transaction. When it raises, everything it wrote is rolled back, and the hook it
registered first destroys the instance, with what `Instance#destroy` and
`NetworkVif#destroy` take along, in a transaction of its own.
-/

namespace WakameVdc

open Lib

namespace ScheduleInstance

open Scheduler (InstanceState VolumeState BootDev)

/-! ## Tables -/

inductive BackupState
  | creating | pending | available | deleted | purged
  deriving DecidableEq, Repr

/-- `ALLOW_INSTANCE_DESTROY_STATES` -/
def BackupState.allowsInstanceDestroy : BackupState → Bool
  | available | deleted | purged => true
  | creating | pending => false

/-- A volume that goes to a storage node has no type before it is placed. -/
inductive VolumeType
  | local | unset | other
  deriving DecidableEq, Repr

structure InstanceRow where
  id : Nat
  accountId : Nat
  hostname : Text
  serviceType : Text
  state : InstanceState
  hostNode : Option Nat
  bootDevType : BootDev
  terminated : Bool
  deriving DecidableEq, Repr

/-- `derivedBackupObjects` has the states of the backup objects made from the
volume. -/
structure VolumeRow where
  id : Nat
  instanceId : Option Nat
  volumeType : VolumeType
  state : VolumeState
  size : Int
  derivedBackupObjects : List BackupState
  deleted : Bool
  deriving DecidableEq, Repr

instance : Row InstanceRow := ⟨InstanceRow.id⟩
instance : Row VolumeRow := ⟨VolumeRow.id⟩

/-- Members pair vifs with security groups, references referencers with
referencees. -/
structure Groups where
  groups : List Nat
  members : List (Nat × Nat)
  references : List (Nat × Nat)
  deriving DecidableEq, Repr

/-- `instanceId` and `macAddr` are columns of `network_vifs`; the rows are those
of the lease tables. `mac_leases` has a unique index on its address. -/
structure Db where
  leases : Lease.Db
  instanceId : Nat → Option Nat
  macAddr : Nat → Nat
  macLeases : Finset Nat
  hostnameLeases : List (Nat × Text)
  securityGroups : Groups
  instances : Table InstanceRow
  volumes : Table VolumeRow
  localVolumes : List Nat

inductive SchedulerError
  | unknownInstance
  | unknownServiceType
  | hookFailed
  | noExistingObject
  | lease (e : Lease.LeaseError)
  | insufficientLocalDiskSpace (volume : Nat)
  | unknownVolumeType
  | uniqueConstraint
  | unknownBootType
  /-- Whatever a scheduler raises. -/
  | scheduling
  deriving DecidableEq, Repr

/-! ## Destroying -/

namespace Groups

/-- `vif.security_groups` -/
def groupsOf (s : Groups) (vif : Nat) : List Nat :=
  ((s.members.filter fun m => m.1 == vif).map Prod.snd).filter fun g => s.groups.contains g

/-- `SecurityGroup#destroy` -/
def destroyGroup (s : Groups) (group : Nat) : Except SchedulerError Groups :=
  if s.members.any fun m => m.2 == group then .error .hookFailed
  else if s.references.any fun r => r.2 == group then .error .hookFailed
  else if !s.groups.contains group then .error .noExistingObject
  else
    .ok { s with
      groups := s.groups.filter fun g => g != group
      references := s.references.filter fun r => r.1 != group }

def removeAllSecurityGroups (s : Groups) (vif : Nat) : Groups :=
  { s with members := s.members.filter fun m => m.1 != vif }

/-- What `NetworkVif#before_destroy` does; a load balancer's groups go with it. -/
def leave (isLoadBalancer : Bool) (s : Groups) (vif : Nat) : Except SchedulerError Groups :=
  if isLoadBalancer then
    (s.groupsOf vif).foldlM destroyGroup (s.removeAllSecurityGroups vif)
  else .ok (s.removeAllSecurityGroups vif)

end Groups

/-- `LoadBalancer::SERVICE_TYPE` -/
def loadBalancerServiceType : Text := "lb".toList

namespace Db

def volumesOf (db : Db) (instance' : Nat) : List VolumeRow :=
  db.volumes.rows.filter fun v => v.instanceId == some instance'

/-- `instance.network_vif`; the vifs marked as deleted stay among them. -/
def networkVif (db : Db) (instance' : Nat) : List Nat :=
  (db.leases.vifs.rows.filter fun v => db.instanceId v.id == some instance').map Lease.VifRow.id

def isLoadBalancer (db : Db) (instance' : Nat) : Bool :=
  match db.instances.find instance' with
  | none => false
  | some i => i.serviceType == loadBalancerServiceType

/-- `NetworkVif#destroy`. The groups are left between the leases and the routes
of the vif, which do not touch them. -/
def destroyVif (db : Db) (vif : Nat) : Except SchedulerError Db := do
  let groups ← Groups.leave ((db.instanceId vif).any db.isLoadBalancer) db.securityGroups vif
  match db.leases.destroyVif vif with
  | .error e => .error (.lease e)
  | .ok leases =>
    .ok { db with
      leases := leases
      macLeases := db.macLeases.erase (db.macAddr vif)
      securityGroups := groups }

def backupInProgress (db : Db) (instance' : Nat) : Bool :=
  (db.volumesOf instance').any fun v =>
    v.derivedBackupObjects.any fun s => !s.allowsInstanceDestroy

/-- `volumes_dataset.attached.each { |v| v.detach_from_instance }` -/
def detachAttached (db : Db) (instance' : Nat) : Db :=
  { db with
    volumes := db.volumes.update (fun v =>
      if v.instanceId = some instance' ∧ v.state = .attached then { v with instanceId := none }
      else v) fun v => by split <;> rfl }

def terminateRow (db : Db) (instance' : Nat) : Db :=
  { db with
    instances := db.instances.modify instance'
      (fun i => { i with state := .terminated, terminated := true }) fun _ => rfl }

def dropHostname (db : Db) (i : InstanceRow) : Db :=
  { db with hostnameLeases := db.hostnameLeases.filter fun l => l != (i.accountId, i.hostname) }

/-- `Instance#destroy`, without `force_destroy`. -/
def destroyInstance (db : Db) (i : InstanceRow) : Except SchedulerError Db :=
  if db.backupInProgress i.id then .error .hookFailed
  else do
    let db ← (db.networkVif i.id).foldlM destroyVif (db.dropHostname i)
    return (db.detachAttached i.id).terminateRow i.id

/-- `instance.volumes_dataset.alives.all.each(&:destroy)` -/
def destroyVolumes (db : Db) (instance' : Nat) : Db :=
  { db with
    volumes := db.volumes.update (fun v =>
      if v.instanceId = some instance' ∧ v.deleted = false then
        { v with state := .deleted, deleted := true }
      else v) fun v => by split <;> rfl }

/-- The hook `after_rollback`, registered once the instance is found. -/
def afterRollback (db : Db) (instance' : Nat) : Except SchedulerError Db :=
  match db.instances.find instance' with
  | none => .ok db
  | some i => do
    let db ← db.destroyInstance i
    return db.destroyVolumes instance'

end Db

/-! ## The job -/

inductive Submission
  | scheduleVifs (instance' : Nat)
  | createVolumeAndRunInstance (volume instance' : Nat)
  | runLocalStore (instance' : Nat)
  | instanceScheduled (instance' : Nat)
  deriving DecidableEq, Repr

/-- The schedulers of a service type are classes named in the configuration. -/
structure ServiceType where
  hostNode : Nat → Db → Except SchedulerError Db
  network : Nat → Db → Except SchedulerError Db
  storageNode : Nat → Db → Except SchedulerError Db

/-- `setupVifMonitors` creates the monitors of the `vifs` parameter. -/
structure Env where
  serviceTypes : Text → Option ServiceType
  setupVifMonitors : Nat → Db → Except SchedulerError Db
  availableDiskSpace : Db → Nat → Int
  openvnet : Bool

/-- The transaction, with what is to be submitted when it commits. -/
structure Tx where
  db : Db
  afterCommit : List Submission

abbrev TxM := Proc SchedulerError Tx

def write (f : Db → Except SchedulerError Db) : TxM Unit := do
  let tx ← get
  match f tx.db with
  | .ok db => set { tx with db := db }
  | .error e => throw e

def afterCommit (s : Submission) : TxM Unit :=
  modify fun tx => { tx with afterCommit := tx.afterCommit ++ [s] }

def loadInstance (id : Nat) : TxM InstanceRow := do
  let tx ← get
  match tx.db.instances.find id with
  | none => throw .unknownInstance
  | some i => pure i

def setInstanceState (id : Nat) (state : InstanceState) : TxM Unit :=
  write fun db => .ok { db with
    instances := db.instances.modify id (fun i => { i with state := state }) fun _ => rfl }

/-- The volume device of a volume in the loop over the scheduling volumes. -/
def placeVolume (env : Env) (service : ServiceType) (i : InstanceRow) (vol : VolumeRow) :
    TxM Unit :=
  write fun db =>
    match vol.volumeType with
    | .local =>
      match i.hostNode with
      | none => .error .scheduling
      | some hostNode =>
        if env.availableDiskSpace db hostNode < vol.size then
          .error (.insufficientLocalDiskSpace vol.id)
        else if db.localVolumes.contains vol.id then .error .uniqueConstraint
        else .ok { db with localVolumes := db.localVolumes ++ [vol.id] }
    | .unset => service.storageNode vol.id db
    | .other => .error .unknownVolumeType

def scheduleVolumeDevice (env : Env) (service : ServiceType) (id : Nat) (vol : VolumeRow) :
    TxM Unit := do
  let i ← loadInstance id
  placeVolume env service i vol
  write fun db => .ok { db with
    volumes := db.volumes.modify vol.id (fun v => { v with state := .pending }) fun _ => rfl }

def volumesInState (id : Nat) (state : VolumeState) : TxM (List VolumeRow) := do
  let tx ← get
  pure ((tx.db.volumesOf id).filter fun v => v.state == state)

def submitVolume (id : Nat) (vol : VolumeRow) : TxM Unit :=
  Proc.when (vol.volumeType != .local) (afterCommit (.createVolumeAndRunInstance vol.id id))

def submitBoot (i : InstanceRow) : TxM Unit :=
  match i.bootDevType with
  | .localDev => afterCommit (.runLocalStore i.id)
  | .san => pure ()
  | .unknown => throw .unknownBootType

def scheduleWith (env : Env) (service : ServiceType) (i : InstanceRow) : TxM Unit := do
  Proc.when i.hostNode.isNone (write (service.hostNode i.id))
  let tx ← get
  Proc.when (tx.db.networkVif i.id).isEmpty (write (service.network i.id))
  write (env.setupVifMonitors i.id)
  Proc.when env.openvnet (afterCommit (.scheduleVifs i.id))
  setInstanceState i.id .pending
  let scheduling ← volumesInState i.id .scheduling
  scheduling.forM (scheduleVolumeDevice env service i.id)
  let pending ← volumesInState i.id .pending
  pending.forM (submitVolume i.id)
  submitBoot i
  afterCommit (.instanceScheduled i.id)

def body (env : Env) (id : Nat) : TxM Unit := do
  let i ← loadInstance id
  match env.serviceTypes i.serviceType with
  | none => throw .unknownServiceType
  | some service => scheduleWith env service i

/-- The `rescue` destroys the instance inside the transaction, and raises again. -/
def rescue (id : Nat) (e : SchedulerError) : TxM Unit := do
  write fun db =>
    match db.instances.find id with
    | none => .ok db
    | some i => db.destroyInstance i
  throw e

def scheduleInstance (env : Env) (id : Nat) : TxM Unit := tryCatch (body env id) (rescue id)

structure Outcome where
  db : Db
  submitted : List Submission

/-- The job in its transaction. A hook that raises leaves what was rolled back. -/
def perform (env : Env) (id : Nat) (db : Db) : Outcome :=
  match Proc.exec (scheduleInstance env id) ⟨db, []⟩ with
  | (.ok _, tx) => ⟨tx.db, tx.afterCommit⟩
  | (.error _, _) =>
    match db.afterRollback id with
    | .ok db => ⟨db, []⟩
    | .error _ => ⟨db, []⟩

/-- The scheduling raises. -/
def Raises (env : Env) (id : Nat) (db : Db) : Prop :=
  ∃ e, (Proc.exec (scheduleInstance env id) ⟨db, []⟩).1 = .error e

end ScheduleInstance

end WakameVdc
