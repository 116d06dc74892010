import Mathlib
import WakameVdc.Taggable

/-!
# Quota evaluation

The conditions `quota` of `sinatra/quota_evaluation.rb` puts before an endpoint, with the
quota types of `endpoints/12.03/quota_definitions.rb` and the amounts the endpoints
request. A value is what the JSON of the quota document or of the parameters holds. The
floats of Ruby are a parameter, and so is how the database compares `service_type`.
-/

namespace WakameVdc

open Lib

namespace Quota

/-! ## Values -/

inductive Value (W : Type)
  | null
  | bool (b : Bool)
  | int (n : Int)
  | float (w : W)
  | text (t : Text)
  | array (vs : List (Value W))
  | object (fields : List (Text × Value W))

/-- `truncate` is `Float#to_i`, which infinity does not have. -/
structure RubyFloat (W : Type) where
  ofText : Text → W
  ofInt : Int → W
  truncate : W → Option Int

inductive QuotaError
  | exceedQuotaLimit (text : Text)
  | localJumpError
  | noMethodError
  | typeError
  | floatDomainError
  | databaseError
  | invalidParameter (text : Text)
  | unknownUuidResource (uuid : Text)
  deriving DecidableEq, Repr

namespace Value

variable {W : Type}

def toI (ruby : RubyFloat W) : Value W → Except QuotaError Int
  | .null => .ok 0
  | .int n => .ok n
  | .float w =>
    match ruby.truncate w with
    | some n => .ok n
    | none => .error .floatDomainError
  | .text t => .ok (Text.toI t)
  | .bool _ | .array _ | .object _ => .error .noMethodError

def toF (ruby : RubyFloat W) : Value W → Except QuotaError W
  | .null => .ok (ruby.ofInt 0)
  | .int n => .ok (ruby.ofInt n)
  | .float w => .ok w
  | .text t => .ok (ruby.ofText t)
  | .bool _ | .array _ | .object _ => .error .noMethodError

/-- Everything but `nil` and `false` is true. -/
def truthy : Value W → Bool
  | .null | .bool false => false
  | _ => true

/-- `value == t` for a text. -/
def isText (t : Text) : Value W → Bool
  | .text u => u == t
  | _ => false

end Value

/-! ## Resources -/

structure Resource where
  accountId : Text
  serviceType : Text
  deriving DecidableEq, Repr

structure SshKeyPairRow extends Resource where
  deleted : Bool
  deriving DecidableEq, Repr

/-- `terminated` stands for a `terminated_at` that is set. -/
structure InstanceRow (W : Type) extends Resource where
  id : Nat
  uuid : Text
  bootVolumeId : Text
  quotaWeight : W
  terminated : Bool

structure ImageRow extends Resource where
  createdAt : Int
  deleted : Bool
  deriving DecidableEq, Repr

/-- `attached` stands for the state of that name. -/
structure VolumeRow extends Resource where
  uuid : Text
  instanceId : Option Nat
  attached : Bool
  size : Int
  deleted : Bool
  deriving DecidableEq, Repr

structure BackupObjectRow extends Resource where
  uuid : Text
  size : Int
  deleted : Bool
  deriving DecidableEq, Repr

/-- The table has no service type. -/
structure LoadBalancerRow where
  accountId : Text
  deleted : Bool
  deriving DecidableEq, Repr

structure Db (W : Type) where
  securityGroups : List Resource
  sshKeyPairs : List SshKeyPairRow
  instances : List (InstanceRow W)
  images : List ImageRow
  volumes : List VolumeRow
  backupObjects : List BackupObjectRow
  loadBalancers : List LoadBalancerRow
  networks : List Resource
  /-- `Time.now.utc` in seconds. -/
  now : Int
  /-- The service types the database finds for a value; nothing if the query fails. -/
  matching : Value W → Option (Text → Bool)
  /-- The weights by which the database compares uuids. -/
  collate : Text → List Nat

/-! ## Quota types -/

inductive CountKey
  | securityGroup | sshKeyPair | instances | backupOperationsPerHour | volume | image | backupObject
  | loadBalancer | network
  deriving DecidableEq, Repr

inductive QuotaKey
  | count (key : CountKey)
  | instanceQuotaWeight
  | volumeSizeMb
  | backupObjectSizeMb
  deriving DecidableEq, Repr

def QuotaKey.name : QuotaKey → Text
  | .count .securityGroup => "security_group.count".toList
  | .count .sshKeyPair => "ssh_key_pair.count".toList
  | .count .instances => "instance.count".toList
  | .count .backupOperationsPerHour => "instance.backup_operations_per_hour".toList
  | .count .volume => "volume.count".toList
  | .count .image => "image.count".toList
  | .count .backupObject => "backup_object.count".toList
  | .count .loadBalancer => "load_balancer.count".toList
  | .count .network => "network.count".toList
  | .instanceQuotaWeight => "instance.quota_weight".toList
  | .volumeSizeMb => "volume.size_mb".toList
  | .backupObjectSizeMb => "backup_object.size_mb".toList

inductive Endpoint
  | postSecurityGroups | postSshKeyPairs | postInstances | putInstanceBackup
  | putInstanceVolumeBackup | postBackupObjects | postLoadBalancers | postVolumes | putVolumeBackup
  deriving DecidableEq, Repr

def Endpoint.quotas : Endpoint → List QuotaKey
  | .postSecurityGroups => [.count .securityGroup]
  | .postSshKeyPairs => [.count .sshKeyPair]
  | .postInstances => [.instanceQuotaWeight, .count .instances]
  | .putInstanceBackup =>
    [.count .backupObject, .count .image, .count .backupOperationsPerHour, .backupObjectSizeMb]
  | .putInstanceVolumeBackup =>
    [.count .backupObject, .count .backupOperationsPerHour, .backupObjectSizeMb]
  | .postBackupObjects => [.backupObjectSizeMb, .count .backupObject]
  | .postLoadBalancers => [.count .loadBalancer]
  | .postVolumes => [.volumeSizeMb, .count .volume]
  | .putVolumeBackup => [.backupObjectSizeMb, .count .backupObject]

/-- A parameter that is not given is `null`. -/
structure Params (W : Type) where
  serviceType : Value W
  id : Value W
  all : Value W
  quotaWeight : Value W
  size : Value W
  backupObjectId : Value W
  volumeSize : Value W

/-- `account` and `quota` are there if their headers are. -/
structure Request (W : Type) where
  endpoint : Endpoint
  method : Text
  pathInfo : Text
  account : Option Text
  quota : Option (Value W)
  params : Params W

namespace Request

variable {W : Type}

def quotaRequest (r : Request W) : Value W :=
  match r.quota, r.account with
  | some quota, some _ => quota
  | _, _ => .object []

/-- `@quota_request[key]` if it is a hash that has the key. -/
def limit (r : Request W) (key : QuotaKey) : Option (Value W) :=
  match r.quotaRequest with
  | .object fields => fields.lookup key.name
  | _ => none

/-- `ds.filter(:account_id=>@account.canonical_uuid) if @account` -/
def ofAccount (r : Request W) (accountId : Text) : Bool := r.account.all fun a => accountId == a

def commonDsFilter (r : Request W) (db : Db W) : Except QuotaError (Resource → Bool) :=
  if r.params.serviceType.truthy then
    match db.matching r.params.serviceType with
    | none => .error .databaseError
    | some p => .ok fun x => r.ofAccount x.accountId && p x.serviceType
  else .ok fun x => r.ofAccount x.accountId

def findByUuid {ρ : Type} (db : Db W) (r : Request W) (rows : List ρ) (resource : ρ → Resource) (uuid : ρ → Text)
    (uuidPrefix : Text) (id : Value W) : Except QuotaError ρ :=
  match id with
  | .text id =>
    if !Taggable.validUuidSyntax uuidPrefix id then
      .error (.invalidParameter ("Invalid UUID Syntax: ".toList ++ id))
    else
      match (Taggable.trimUuid uuidPrefix id).bind fun u =>
        rows.find? fun x => db.collate (uuid x) == db.collate u with
      | none => .error (.unknownUuidResource id)
      | some x =>
        if !r.ofAccount (resource x).accountId then .error (.unknownUuidResource id)
        else if r.params.serviceType.truthy && !r.params.serviceType.isText (resource x).serviceType then
          .error (.unknownUuidResource id)
        else .ok x
  | _ => .error (.invalidParameter "Invalid UUID Syntax: ".toList)

end Request

/-! ## What is fetched -/

section
variable {W : Type}

def Db.number (db : Db W) (p : Resource → Bool) : CountKey → Nat
  | .securityGroup => db.securityGroups.countP p
  | .sshKeyPair => db.sshKeyPairs.countP fun x => !x.deleted && p x.toResource
  | .instances => db.instances.countP fun x => !x.terminated && p x.toResource
  | .backupOperationsPerHour => db.images.countP fun x =>
    !x.deleted && p x.toResource && (db.now - 60 * 60 ≤ x.createdAt && x.createdAt ≤ db.now)
  | .volume => db.volumes.countP fun x => !x.deleted && p x.toResource
  | .image => db.images.countP fun x => !x.deleted && p x.toResource
  | .backupObject => db.backupObjects.countP fun x => !x.deleted && p x.toResource
  | .loadBalancer => db.loadBalancers.countP fun x => !x.deleted && p ⟨x.accountId, []⟩
  | .network => db.networks.countP p

/-- `M::Volume.alives` with the filter, `sum(:size) || 0` -/
def Db.volumeBytes (db : Db W) (p : Resource → Bool) : Int :=
  ((db.volumes.filter fun x => !x.deleted && p x.toResource).map VolumeRow.size).sum

def Db.backupObjectBytes (db : Db W) (p : Resource → Bool) : Int :=
  ((db.backupObjects.filter fun x => !x.deleted && p x.toResource).map BackupObjectRow.size).sum

/-- `sum(:quota_weight) || 0.0` -/
def Db.weight [Add W] (ruby : RubyFloat W) (db : Db W) (p : Resource → Bool) : W :=
  ((db.instances.filter fun x => !x.terminated && p x.toResource).map InstanceRow.quotaWeight).foldl
    (· + ·) (ruby.ofInt 0)

/-- `volumes_dataset.attached` -/
def Db.attachedVolumes (db : Db W) (i : InstanceRow W) : List VolumeRow :=
  db.volumes.filter fun v => v.instanceId == some i.id && v.attached

def mega : Int := 1024 * 1024

/-! ## What is requested -/

namespace Request

variable (ruby : RubyFloat W) (db : Db W) (r : Request W)

def findVolume : Except QuotaError VolumeRow :=
  r.findByUuid db db.volumes VolumeRow.toResource VolumeRow.uuid "vol".toList r.params.id

/-- The `request_amount` of the size keys: a block that comes to its `return` has no
method left to return from. -/
def sizeAmount : Except QuotaError (Option Int) :=
  match r.endpoint with
  | .postBackupObjects => do
    let size ← r.params.size.toI ruby
    return some (size / mega)
  | .postVolumes =>
    if r.params.backupObjectId.truthy then do
      let _ ← r.findByUuid db db.backupObjects BackupObjectRow.toResource BackupObjectRow.uuid
        "bo".toList r.params.backupObjectId
      throw .localJumpError
    else if r.params.volumeSize.truthy then .error .localJumpError
    else .ok none
  | .putInstanceBackup => do
    let i ← r.findByUuid db db.instances InstanceRow.toResource InstanceRow.uuid "i".toList r.params.id
    -- the sum of no rows is `nil`
    if (db.attachedVolumes i).isEmpty then throw .noMethodError
    throw .localJumpError
  | .putInstanceVolumeBackup | .putVolumeBackup => do
    let _ ← r.findVolume db
    throw .localJumpError
  | _ => .ok (some 0)

/-! ## Conditions -/

/-- The load balancers are filtered by their account only. -/
def countFilter (key : CountKey) : Except QuotaError (Resource → Bool) :=
  if key = .loadBalancer then .ok fun x => r.ofAccount x.accountId else r.commonDsFilter db

/-- `quota_value.to_i <= fetch_value` -/
def countExceeds (key : CountKey) (quotaValue : Value W) : Except QuotaError Bool := do
  let p ← r.countFilter db key
  let limit ← quotaValue.toI ruby
  return decide (limit ≤ (db.number p key : Int))

/-- `quota_value.to_i < (fetch_value + req_value)` -/
def sizeExceeds (fetch : (Resource → Bool) → ℚ) (quotaValue : Value W) : Except QuotaError Bool := do
  let p ← r.commonDsFilter db
  let amount ← r.sizeAmount ruby db
  let limit ← quotaValue.toI ruby
  match amount with
  | none => throw .typeError
  | some amount => return decide ((limit : ℚ) < fetch p + amount)

variable [Add W] [LT W] [DecidableLT W]

/-- `quota_value.to_f < (fetch_value + req_value)` -/
def weightExceeds (quotaValue : Value W) : Except QuotaError Bool := do
  let p ← r.commonDsFilter db
  let amount ← r.params.quotaWeight.toF ruby
  let limit ← quotaValue.toF ruby
  return decide (limit < db.weight ruby p + amount)

/-- The evaluation of a key. The sums are decimals; the size of the backup objects is
truncated. -/
def exceeds (key : QuotaKey) (quotaValue : Value W) : Except QuotaError Bool :=
  match key with
  | .count key => r.countExceeds ruby db key quotaValue
  | .instanceQuotaWeight => r.weightExceeds ruby db quotaValue
  | .volumeSizeMb => r.sizeExceeds ruby db (fun p => (db.volumeBytes p : ℚ) / mega) quotaValue
  | .backupObjectSizeMb =>
    r.sizeExceeds ruby db (fun p => ((db.backupObjectBytes p).tdiv mega : Int)) quotaValue

def exceedText (key : QuotaKey) : Text :=
  "Exceeds quota limitation: ".toList ++ r.method ++ ' ' :: (r.pathInfo ++ ' ' :: key.name)

/-- The condition `quota` sets. -/
def condition (key : QuotaKey) : Except QuotaError Unit :=
  match r.limit key with
  | none => .ok ()
  | some quotaValue => do
    if ← r.exceeds ruby db key quotaValue then throw (.exceedQuotaLimit (r.exceedText key))

def conditions : Except QuotaError Unit := r.endpoint.quotas.forM (r.condition ruby db)

end Request

end

end Quota

end WakameVdc
