import Mathlib.Data.List.MinMax
import WakameVdc.Lib.Run
import WakameVdc.Lib.Table
import WakameVdc.Lib.Text

/-!
# Device indexes

`Instance#add_nic`, the hooks of `models/network_vif.rb` that choose and check the
device index of a vif, and the network schedulers that create the vifs of an
instance from the `vifs` parameter of its request.
-/

namespace WakameVdc

open Lib

namespace VifIndex

/-! ## Vifs -/

structure VifRow where
  id : Nat
  instanceId : Option Nat
  deviceIndex : Int
  networkId : Option Nat
  natNetworkId : Option Nat
  deleted : Bool
  deriving DecidableEq, Repr

instance : Row VifRow := ⟨VifRow.id⟩

abbrev Vifs := Table VifRow

inductive VifError
  | badVifsParameter
  | invalidValue
  | noMethodError
  | noMacAddr
  | duplicateIndex
  | unknownSecurityGroup
  | invalidUuid
  | unknownNetwork
  | noNetworkGroup
  | noNetworkLeft
  | outOfIpRange
  | noIpLease
  | unknownVif
  | alreadyAttached
  | notAttached
  deriving DecidableEq, Repr

def maxIndex : Int := 2147483647

/-- What the column `device_index`, an `int(11)`, keeps of a number: the nearest it has. -/
def stored (n : Int) : Int := max (-maxIndex - 1) (min n maxIndex)

/-- `class.alives.filter(:instance_id => instance_id).select(:device_index)` -/
def deviceIndexes (vifs : Vifs) (instanceId : Nat) : List Int :=
  (vifs.rows.filter fun v => !v.deleted && v.instanceId == some instanceId).map VifRow.deviceIndex

/-- The index `before_validation` gives a vif that has none. -/
def nextIndex (vifs : Vifs) (instanceId : Nat) : Int :=
  match (deviceIndexes vifs instanceId).max? with
  | none => 0
  | some maxIdx => maxIdx + 1

/-- The duplicates `validate` finds are among the stored rows. -/
def valid (vifs : Vifs) (vif : VifRow) : Bool :=
  vif.deleted || vif.instanceId.all fun i => (deviceIndexes vifs i).Nodup

/-- `save` of a vif that has a row. -/
def saveVif (vifs : Vifs) (vif : VifRow) : Except VifError Vifs :=
  if valid vifs vif then .ok (vifs.save vif) else .error .duplicateIndex

/-- The saves of `attach_to_network`. -/
def attachToNetwork (vifs : Vifs) (vif : VifRow) (network : Nat) : Except VifError Vifs :=
  match if vif.networkId.isSome then saveVif vifs { vif with networkId := none } else .ok vifs with
  | .error e => .error e
  | .ok vifs => saveVif vifs { vif with networkId := some network }

def detachFromNetwork (vifs : Vifs) (vif : VifRow) : Except VifError Vifs :=
  saveVif vifs { vif with networkId := none }

/-- `destroy`; a vif that is marked as deleted is saved without any check. -/
def destroyVif (vifs : Vifs) (vif : VifRow) : Except VifError Vifs :=
  saveVif vifs { vif with deleted := true }

/-! ## Requests -/

/-- The value of `index` in an entry; `other` stands for what is no number, text or
missing value. -/
inductive Index
  | null
  | no
  | int (n : Int)
  | text (t : Text)
  | other
  deriving DecidableEq, Repr

structure Template where
  index : Index
  network : Option Text
  natNetwork : Option Text
  deriving DecidableEq, Repr

inductive IpAnswer
  | leased | outOfIpRange | refused
  deriving DecidableEq, Repr

/-- What the rest of the database answers when a vif is created for an entry:
whether there is an address for it, whether its security groups are known, and what
leasing an address gives. -/
structure Attempt where
  macAddr : Bool
  securityGroups : Bool
  ipLease : IpAnswer
  deriving DecidableEq, Repr

/-- An entry of the parameter, with the networks and the allocated addresses of
its network group, and the answers for each vif created for it. -/
structure Entry where
  template : Template
  candidates : List (Text × Nat)
  attempt : Nat → Attempt

/-- `vifs` has no entries that are not templates: `POST /instances` refuses those.
`fallback` has the answers for the vif made when the parameter is missing. -/
structure Request where
  vifs : Option (List Entry)
  fallback : List (Text × Nat) × (Nat → Attempt)

inductive Lookup
  | invalid | unknown | found (id : Nat)
  deriving DecidableEq, Repr

/-- `integer` is how a text is cast to an integer column. -/
structure Conf where
  network : Text → Lookup
  networkGroup : Text → Bool
  networkGroupId : Option Text
  integer : Text → Option Int

/-- `param['index'] ? param['index'].to_i : index` -/
def Index.toI (index : Int) : Index → Except VifError Int
  | null | no => .ok index
  | int n => .ok n
  | text t => .ok (Text.toI t)
  | other => .error .noMethodError

/-- `nic.device_index = index` -/
def Index.typecast (conf : Conf) : Index → Except VifError (Option Int)
  | null => .ok none
  | int n => .ok (some n)
  | text [] => .ok none
  | text t =>
    match conf.integer t with
    | none => .error .invalidValue
    | some n => .ok (some n)
  | no | other => .error .invalidValue

/-! ## Schedulers -/

/-- `Instance#add_nic`; the new vif is read back when it is stored. -/
def addNic (vifs : Vifs) (instanceId : Nat) (index : Option Int) (answer : Attempt) :
    Except VifError (Vifs × VifRow) :=
  let vif : VifRow :=
    ⟨vifs.next, some instanceId, stored (index.getD (nextIndex vifs instanceId)), none, none, false⟩
  if !answer.macAddr then .error .noMacAddr
  else if !valid vifs vif then .error .duplicateIndex
  else if !answer.securityGroups then .error .unknownSecurityGroup
  else .ok (vifs.create (fun id => { vif with id := id }) fun _ => rfl, vif)

abbrev Connect := Conf → Entry → Vifs → VifRow → Except VifError Vifs

/-- `attach_to_network` with the lease of an address. -/
def attachAndLease (e : Entry) (vifs : Vifs) (vif : VifRow) (network : Nat) :
    Except VifError Vifs :=
  match attachToNetwork vifs vif network with
  | .error e => .error e
  | .ok vifs =>
    match (e.attempt 0).ipLease with
    | .leased => .ok vifs
    | .outOfIpRange => .error .outOfIpRange
    | .refused => .error .noIpLease

/-- `vnic.nat_network = Models::Network[param['nat_network'].to_s] unless
param['nat_network'].nil?` -/
def setNatNetwork (conf : Conf) (e : Entry) (vif : VifRow) : Except VifError VifRow :=
  match e.template.natNetwork.map conf.network with
  | none => .ok vif
  | some .invalid => .error .invalidUuid
  | some .unknown => .ok { vif with natNetworkId := none }
  | some (.found id) => .ok { vif with natNetworkId := some id }

/-- `VifsRequestParam` and `SpecifyNetwork`; `attach` is what they do in the end. -/
def connectNamed (attach : Entry → Vifs → VifRow → Nat → Except VifError Vifs) : Connect :=
  fun conf e vifs vif =>
    match e.template.network with
    | none | some [] => .ok vifs
    | some name =>
      match conf.network name with
      | .invalid => .error .invalidUuid
      | .unknown => .error .unknownNetwork
      | .found network =>
        match setNatNetwork conf e vif with
        | .error e => .error e
        | .ok vif => attach e vifs vif network

def VifsRequestParam.connect : Connect := connectNamed attachAndLease

def SpecifyNetwork.connect : Connect :=
  connectNamed fun _ vifs vif network => saveVif vifs { vif with networkId := some network }

def VifParamTemplate.connect : Connect := fun conf e vifs vif =>
  match e.template.network with
  | none | some [] => .ok vifs
  | some name =>
    match conf.network name with
    | .invalid => .error .invalidUuid
    | .unknown => .ok vifs
    | .found network => attachAndLease e vifs vif network

def createVifs (connect : Connect) (conf : Conf) (instanceId : Nat) :
    Int → List Entry → Vifs → Except VifError Vifs
  | _, [], vifs => .ok vifs
  | index, e :: entries, vifs =>
    match e.template.index.toI index with
    | .error e => .error e
    | .ok given =>
      match addNic vifs instanceId (some given) (e.attempt 0) with
      | .error e => .error e
      | .ok (vifs, vif) =>
        match connect conf e vifs vif with
        | .error e => .error e
        | .ok vifs => createVifs connect conf instanceId (max index given + 1) entries vifs

namespace NetworkGroup

/-- `networks.min_by {|uuid, ip_nums| ip_nums}` -/
def leastAllocation (candidates : List (Text × Nat)) : Option (Text × Nat) :=
  candidates.argmin Prod.snd

/-- A network without addresses left is dropped from the candidates, and the entry
is tried again: the vif created for it stays. -/
def tryNetworks (conf : Conf) (instanceId : Nat) (index : Option Int) (attempt : Nat → Attempt) :
    Nat → Nat → List (Text × Nat) → Vifs → Except VifError Vifs
  | 0, _, _, _ => .error .noNetworkLeft
  | fuel + 1, tried, candidates, vifs =>
    match leastAllocation candidates with
    | none => .error .noNetworkLeft
    | some selected =>
      match addNic vifs instanceId index (attempt tried) with
      | .error e => .error e
      | .ok (vifs, vif) =>
        match conf.network selected.1 with
        | .found network =>
          match attachToNetwork vifs vif network with
          | .error e => .error e
          | .ok vifs =>
            match (attempt tried).ipLease with
            | .leased => .ok vifs
            | .refused => .error .noIpLease
            | .outOfIpRange =>
              tryNetworks conf instanceId index attempt fuel (tried + 1)
                (candidates.erase selected) vifs
        | _ => .error .unknownNetwork

def createVif (conf : Conf) (instanceId : Nat) (e : Entry) (vifs : Vifs) : Except VifError Vifs :=
  match e.template.network.or conf.networkGroupId with
  | none => .error .noNetworkGroup
  | some tag =>
    if !conf.networkGroup tag then .error .noNetworkGroup
    else
      match e.template.index.typecast conf with
      | .error e => .error e
      | .ok index =>
        tryNetworks conf instanceId index e.attempt e.candidates.length 0 e.candidates vifs

def createVifs (conf : Conf) (instanceId : Nat) : List Entry → Vifs → Except VifError Vifs
  | [], vifs => .ok vifs
  | e :: entries, vifs =>
    match createVif conf instanceId e vifs with
    | .error e => .error e
    | .ok vifs => createVifs conf instanceId entries vifs

end NetworkGroup

inductive Scheduler
  | vifsRequestParam | specifyNetwork | vifParamTemplate | networkGroup
  deriving DecidableEq, Repr

def Scheduler.schedule (conf : Conf) (instanceId : Nat) (request : Request) (vifs : Vifs) :
    Scheduler → Except VifError Vifs
  | vifsRequestParam =>
    match request.vifs with
    | none => .error .badVifsParameter
    | some entries => createVifs VifsRequestParam.connect conf instanceId 0 entries vifs
  | specifyNetwork =>
    match request.vifs with
    | none => .error .badVifsParameter
    | some entries => createVifs SpecifyNetwork.connect conf instanceId 0 entries vifs
  | vifParamTemplate =>
    match request.vifs with
    | none => .ok vifs
    | some entries => createVifs VifParamTemplate.connect conf instanceId 0 entries vifs
  | networkGroup =>
    NetworkGroup.createVifs conf instanceId
      (request.vifs.getD [⟨⟨.text "0".toList, none, none⟩, request.fallback.1, request.fallback.2⟩])
      vifs

/-! ## Runs -/

inductive VifOp
  | schedule (scheduler : Scheduler) (instanceId : Nat) (request : Request)
  | attach (vif network : Nat)
  | detach (vif : Nat)
  | destroy (vif : Nat)

namespace VifOp

def onVif (vifs : Vifs) (vif : Nat) (f : VifRow → Except VifError Vifs) : Except VifError Vifs :=
  match vifs.find vif with
  | none => .error .unknownVif
  | some v => f v

def run (conf : Conf) (vifs : Vifs) : VifOp → Except VifError Vifs
  | schedule scheduler instanceId request => scheduler.schedule conf instanceId request vifs
  | attach vif network => onVif vifs vif fun v =>
    if v.networkId.isSome then .error .alreadyAttached else attachToNetwork vifs v network
  | detach vif => onVif vifs vif fun v =>
    if v.networkId.isNone then .error .notAttached else detachFromNetwork vifs v
  | destroy vif => onVif vifs vif fun v => destroyVif vifs v

/-- A call that raises is rolled back. -/
def step (conf : Conf) (vifs : Vifs) (op : VifOp) : Vifs :=
  match op.run conf vifs with
  | .ok vifs => vifs
  | .error _ => vifs

end VifOp

/-- No two vifs of an instance that are alive have the same index. -/
def InStep (vifs : Vifs) : Prop := ∀ instanceId, (deviceIndexes vifs instanceId).Nodup

/-! ## A clash nobody finds -/

def assigned : Int → List Entry → List Int
  | _, [] => []
  | index, e :: entries =>
    let given := (e.template.index.toI index).toOption.getD index
    stored given :: assigned (max index given + 1) entries

namespace Scheduler

def savesAgain (conf : Conf) (e : Entry) : Scheduler → Bool
  | vifsRequestParam | specifyNetwork => e.template.network.any fun name => name ≠ []
  | vifParamTemplate => e.template.network.any fun name =>
      name ≠ [] && match conf.network name with
        | .found _ => true
        | _ => false
  | networkGroup => true

def refusesNetwork (conf : Conf) (e : Entry) (s : Scheduler) : Bool :=
  e.template.network.any fun name =>
    name ≠ [] && match conf.network name with
      | .invalid => true
      | .unknown => s != vifParamTemplate
      | .found _ =>
        s != vifParamTemplate && e.template.natNetwork.any (fun t => conf.network t == .invalid) ||
          s != specifyNetwork && (e.attempt 0).ipLease != .leased

def refuses (conf : Conf) (e : Entry) (s : Scheduler) : Bool :=
  e.template.index == .other || !(e.attempt 0).macAddr || !(e.attempt 0).securityGroups ||
    s.refusesNetwork conf e

end Scheduler

/-- Only the last entry repeats an index, and its vif is not saved again. -/
structure Clash (conf : Conf) (s : Scheduler) (instanceId : Nat) (entries : List Entry)
    (vifs : Vifs) : Prop where
  accepted : ∀ e ∈ entries, s.refuses conf e = false
  savedOnce : ∀ e, entries.getLast? = some e → s.savesAgain conf e = false
  before : (deviceIndexes vifs instanceId ++ (assigned 0 entries).dropLast).Nodup
  repeated : ¬ (deviceIndexes vifs instanceId ++ assigned 0 entries).Nodup

def VifOp.Clashes (conf : Conf) (vifs : Vifs) : VifOp → Prop
  | schedule s instanceId request =>
    s ≠ .networkGroup ∧ ∃ entries, request.vifs = some entries ∧ Clash conf s instanceId entries vifs
  | _ => False

end VifIndex

end WakameVdc
