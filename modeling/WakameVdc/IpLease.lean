import Mathlib
import WakameVdc.Lib.Proc
import WakameVdc.Lib.Run
import WakameVdc.Lib.Table

/-!
# IP leases of network interfaces

`models/network_vif_ip_lease.rb` with the operations that write its rows: the
schedulers of `scheduler/ip_address`, the reserved leases of `models/network.rb`,
and the attaching, detaching and destroying of `models/network_vif.rb`. Each row
of `network_vif_ip_leases` goes with a row of `ip_leases`; the former are marked
as deleted, the latter really are.
-/

namespace WakameVdc

open Lib

namespace Lease

/-! ## Tables -/

inductive IpAssignment
  | asc | desc | unsupported
  deriving DecidableEq, Repr

/-- An address is its `u32`; the server columns hold the addresses they write. -/
structure NetworkRow where
  id : Nat
  ipv4Network : Nat
  prefixLen : Nat
  ipv4Gw : Option Nat
  dnsServer : Option Nat
  dhcpServer : Option Nat
  metadataServer : Option Nat
  ipAssignment : IpAssignment
  dcNetworkId : Nat
  deriving DecidableEq, Repr

structure DhcpRangeRow where
  id : Nat
  networkId : Nat
  rangeBegin : Nat
  rangeEnd : Nat
  deriving DecidableEq, Repr

structure IpLeaseRow where
  id : Nat
  networkId : Nat
  ipv4 : Nat
  deriving DecidableEq, Repr

inductive AllocType
  | auto | reserved | manual
  deriving DecidableEq, Repr

/-- `deleted` stands for a `deleted_at` that is set. -/
structure VifLeaseRow where
  id : Nat
  networkId : Nat
  networkVifId : Option Nat
  ipv4 : Nat
  allocType : AllocType
  ipHandleId : Option Nat
  deleted : Bool
  deriving DecidableEq, Repr

/-- An entry of the `vifs` parameter of an instance; an address that is no valid
IPv4 address is `none`. -/
structure VifTemplate where
  index : Int
  ipv4Addr : Option Nat
  natIpv4Addr : Option (Option Nat)
  deriving DecidableEq, Repr

/-- `requestVifs` is the `vifs` parameter of the instance, if there is one. -/
structure VifRow where
  id : Nat
  networkId : Option Nat
  natNetworkId : Option Nat
  deviceIndex : Int
  requestVifs : Option (List VifTemplate)
  deleted : Bool
  deriving DecidableEq, Repr

structure IpHandleRow where
  id : Nat
  ipPoolId : Nat
  deleted : Bool
  deriving DecidableEq, Repr

structure RouteRow where
  id : Nat
  innerLeaseId : Option Nat
  outerLeaseId : Option Nat
  releaseInnerVif : Bool
  releaseOuterVif : Bool
  deleted : Bool
  deriving DecidableEq, Repr

instance : Row NetworkRow := ⟨NetworkRow.id⟩
instance : Row DhcpRangeRow := ⟨DhcpRangeRow.id⟩
instance : Row IpLeaseRow := ⟨IpLeaseRow.id⟩
instance : Row VifLeaseRow := ⟨VifLeaseRow.id⟩
instance : Row VifRow := ⟨VifRow.id⟩
instance : Row IpHandleRow := ⟨IpHandleRow.id⟩
instance : Row RouteRow := ⟨RouteRow.id⟩

structure Db where
  networks : Table NetworkRow
  dhcpRanges : Table DhcpRangeRow
  ipLeases : Table IpLeaseRow
  vifLeases : Table VifLeaseRow
  vifs : Table VifRow
  ipHandles : Table IpHandleRow
  routes : Table RouteRow
  /-- Pairs of a pool and a DC network. -/
  ipPoolDcNetworks : List (Nat × Nat)

inductive ValidationError
  | outOfRange (ipv4 : Nat)
  | alreadyExists (ipv4 : Nat)
  | wrongDcNetwork
  | invalidSyntax (ipv4 : Nat)
  | invalidVif
  deriving DecidableEq, Repr

inductive LeaseError
  | validationFailed (errors : List ValidationError)
  | argumentError
  | noMethodError
  | unsupportedAssignment
  | fromAfterEnd (fromIpaddr endRange : Nat)
  | toBeforeStart (toIpaddr startRange : Nat)
  | outOfIpRange (ipv4Network prefixLen : Nat)
  | noEntryForIndex (index : Int)
  | noNetworkAssigned
  | invalidIpv4Address
  | notInSegment (ipv4 ipv4Network prefixLen : Nat)
  | notInDhcpRanges (ipv4 : Nat)
  | alreadyLeased (ipv4 : Nat)
  deriving DecidableEq, Repr

structure Boundary where
  ipv4 : Nat
  prev : Option Nat
  follow : Option Nat
  deriving DecidableEq, Repr

inductive IpScheduler
  | incremental | specifyIP
  deriving DecidableEq, Repr

/-- What is not fixed: the order a query without `ORDER BY` answers in, the
scheduler of a vif's service type, and the validation of a vif's other columns. -/
structure Env where
  scan : List Boundary → List Boundary
  ipAddress : VifRow → IpScheduler
  vifValid : Db → VifRow → Bool

abbrev LeaseM := Proc LeaseError Db

/-! ## Networks -/

namespace NetworkRow

def size (n : NetworkRow) : Nat := 2 ^ (32 - n.prefixLen)

def network (n : NetworkRow) : Nat := n.ipv4Network / n.size * n.size

def broadcast (n : NetworkRow) : Nat := n.network + n.size - 1

/-- `Network#include?` -/
def includes (n : NetworkRow) (ipaddr : Nat) : Bool :=
  ipaddr / n.size == n.ipv4Network / n.size

def reservedIps (n : NetworkRow) : List Nat :=
  [n.network, n.broadcast] ++ n.ipv4Gw.toList ++ n.dnsServer.toList ++ n.dhcpServer.toList ++
    n.metadataServer.toList

def isReservedIp (n : NetworkRow) (ip : Nat) : Bool := n.reservedIps.contains ip

end NetworkRow

namespace Db

def dhcpRangesOf (db : Db) (network : Nat) : List DhcpRangeRow :=
  db.dhcpRanges.rows.filter fun r => r.networkId == network

def existsInDhcpRange (db : Db) (network ipaddr : Nat) : Bool :=
  (db.dhcpRangesOf network).any fun r => r.rangeBegin ≤ ipaddr && ipaddr ≤ r.rangeEnd

def isLeased (db : Db) (network ipv4 : Nat) : Bool :=
  db.ipLeases.rows.any fun l => l.networkId == network && l.ipv4 == ipv4

/-! ## Rows of `network_vif_ip_leases` -/

/-- `NetworkVifIpLease#validate` of a new row. -/
def validateLease (db : Db) (networkId ipv4 : Nat) (ipHandleId : Option Nat) :
    List ValidationError :=
  match db.networks.find networkId with
  | none => [.invalidSyntax ipv4]
  | some network =>
    (if network.includes ipv4 then [] else [.outOfRange ipv4]) ++
      (if db.isLeased networkId ipv4 then [.alreadyExists ipv4] else []) ++
      match ipHandleId.bind db.ipHandles.find with
      | none => []
      | some handle =>
        if (handle.ipPoolId, network.dcNetworkId) ∈ db.ipPoolDcNetworks then []
        else [.wrongDcNetwork]

def insertLease (db : Db) (networkId ipv4 : Nat) (networkVifId : Option Nat)
    (allocType : AllocType) (ipHandleId : Option Nat) : Db :=
  { db with
    ipLeases := db.ipLeases.create (fun id => ⟨id, networkId, ipv4⟩) fun _ => rfl
    vifLeases := db.vifLeases.create
      (fun id => ⟨id, networkId, networkVifId, ipv4, allocType, ipHandleId, false⟩) fun _ => rfl }

/-- `NetworkVifIpLease#destroy`: the hook strikes the address from `ip_leases`
whatever the row's own `deleted_at`. -/
def destroyLease (db : Db) (lease : VifLeaseRow) : Db :=
  { db with
    ipLeases := db.ipLeases.delete fun l => l.networkId == lease.networkId && l.ipv4 == lease.ipv4
    vifLeases := db.vifLeases.modify lease.id (fun r => { r with deleted := true }) fun _ => rfl }

def destroyLeases (db : Db) (leases : List VifLeaseRow) : Db := leases.foldl destroyLease db

/-- `NetworkVifIpLease#validate` of a stored row; one marked as deleted passes. -/
def revalidateLease (db : Db) (lease : VifLeaseRow) : List ValidationError :=
  if lease.deleted then []
  else
    match db.networks.find lease.networkId with
    | none => [.invalidSyntax lease.ipv4]
    | some network => if network.includes lease.ipv4 then [] else [.outOfRange lease.ipv4]

def detachVif (db : Db) (lease : VifLeaseRow) : Except LeaseError Db :=
  if (lease.networkVifId.bind db.vifs.find).isNone then .error .noMethodError
  else
    match db.revalidateLease lease with
    | [] =>
      .ok { db with
        vifLeases :=
          db.vifLeases.modify lease.id (fun r => { r with networkVifId := none }) fun _ => rfl }
    | errors => .error (.validationFailed errors)

end Db

/-- `NetworkVifIpLease.create` -/
def createLease (networkId ipv4 : Nat) (networkVifId : Option Nat) (allocType : AllocType)
    (ipHandleId : Option Nat) : LeaseM Unit := do
  let db ← get
  match db.validateLease networkId ipv4 ipHandleId with
  | [] => modify fun db => db.insertLease networkId ipv4 networkVifId allocType ipHandleId
  | errors => throw (.validationFailed errors)

/-- `add_reserved` of a network's leases. -/
def addReserved (networkId ipv4 : Nat) : LeaseM Unit :=
  createLease networkId ipv4 none .reserved none

/-- `delete_reserved`; the rows already marked as deleted are among them. -/
def Db.reservedLeases (db : Db) (networkId ipv4 : Nat) : List VifLeaseRow :=
  db.vifLeases.rows.filter fun r =>
    r.networkId == networkId && r.allocType == .reserved && r.ipv4 == ipv4

def deleteReserved (networkId ipv4 : Nat) : LeaseM Unit :=
  modify fun db => db.destroyLeases (db.reservedLeases networkId ipv4)

/-! ## The schedulers -/

inductive Order
  | asc | desc
  deriving DecidableEq, Repr

/-- `IpLease.leased_ip_bound_lease`: the leases at either end of a block of
consecutive ones. -/
def Db.leasedIpBoundLease (db : Db) (networkId lo hi : Nat) : List Boundary :=
  let leased := (db.ipLeases.rows.filter fun l =>
    l.networkId == networkId && lo ≤ l.ipv4 && l.ipv4 ≤ hi).map IpLeaseRow.ipv4
  (leased.map fun a => ⟨a, leased.find? fun b => b + 1 == a, leased.find? fun b => b == a + 1⟩).filter
    fun b => b.prev.isNone || b.follow.isNone

/-- The search goes up if `first ≤ last`, and down otherwise. -/
def getAssignmentIp (boundaries : List Boundary) (first last : Nat) : Option Nat :=
  let up : Bool := first ≤ last
  let prev := fun b : Boundary => if up then b.prev else b.follow
  let follow := fun b : Boundary => if up then b.follow else b.prev
  match boundaries with
  | [] => some first
  | b :: bs =>
    if (prev b).isNone && b.ipv4 != first then some first
    else
      let startRange :=
        if (follow b).isNone then if b.ipv4 != last then some b.ipv4 else none
        else
          match bs with
          | [c] => if (follow c).isNone && c.ipv4 != last then some c.ipv4 else none
          | _ => none
      startRange.map fun a => if up then a + 1 else a - 1

def availableIp (env : Env) (db : Db) (networkId lo hi : Nat) : Order → Option Nat
  | .asc => getAssignmentIp ((env.scan (db.leasedIpBoundLease networkId lo hi)).take 2) lo hi
  | .desc =>
    getAssignmentIp (((db.leasedIpBoundLease networkId lo hi).insertionSort
      fun b c => c.ipv4 ≤ b.ipv4).take 2) hi lo

/-- The `begin ... end while is_loop` of `get_lease_address`. A reserved address
found free gets a lease of its own, so the loop ends after as many turns as the
network has reserved addresses (`searchRange_fuel`). -/
def searchRange (env : Env) (network : NetworkRow) (order : Order) :
    Nat → Nat → Nat → LeaseM (Option Nat)
  | 0, _, _ => throw (.validationFailed [])
  | fuel + 1, f, t => do
    let db ← get
    match availableIp env db network.id f t order with
    | none => pure none
    | some ip =>
      if network.isReservedIp ip then do
        addReserved network.id ip
        match order with
        | .asc => searchRange env network order fuel ip t
        | .desc => searchRange env network order fuel f ip
      else pure (some ip)

def searchRanges (env : Env) (network : NetworkRow) (order : Order) (src dst : Nat) :
    List DhcpRangeRow → LeaseM (Option Nat)
  | [] => pure none
  | i :: is =>
    if src > i.rangeEnd then throw (.fromAfterEnd src i.rangeEnd)
    else if dst < i.rangeBegin then throw (.toBeforeStart dst i.rangeBegin)
    else do
      let f := if src > i.rangeBegin then src else i.rangeBegin
      let t := if dst < i.rangeEnd then dst else i.rangeEnd
      let ip ← searchRange env network order (network.reservedIps.length + 1) f t
      match ip with
      | some ip => pure (some ip)
      | none => searchRanges env network order src dst is

def getLeaseAddress (env : Env) (network : NetworkRow) (fromIpaddr toIpaddr : Option Nat)
    (order : Order) : LeaseM (Option Nat) := do
  let db ← get
  let src := fromIpaddr.getD 0
  let dst := toIpaddr.getD 0xFFFFFFFF
  let ranges := (db.dhcpRangesOf network.id).filter fun r =>
    src ≤ r.rangeEnd && r.rangeBegin ≤ dst
  searchRanges env network order src dst (match order with
    | .asc => ranges.insertionSort fun a b => a.rangeBegin ≤ b.rangeBegin
    | .desc => ranges.insertionSort fun a b => b.rangeEnd ≤ a.rangeEnd)

def Db.latestIp (db : Db) (networkId : Nat) : Option Nat :=
  ((db.vifLeases.rows.filter fun r =>
    r.networkId == networkId && !r.deleted && r.allocType == .auto).getLast?).map VifLeaseRow.ipv4

structure ScheduleOptions where
  networkVif : Option Nat
  network : Option Nat
  ipPool : Option Nat
  deriving DecidableEq, Repr

theorem pk_ipHandle (ipPoolId id : Nat) : Row.pk (⟨id, ipPoolId, false⟩ : IpHandleRow) = id := rfl

def createIpHandle (ipPoolId : Nat) : LeaseM Nat := do
  let db ← get
  modify fun db => { db with
    ipHandles := db.ipHandles.create (fun id => ⟨id, ipPoolId, false⟩) fun id => pk_ipHandle ipPoolId id }
  pure db.ipHandles.next

namespace Incremental

def leaseAddress (env : Env) (network : NetworkRow) (ipaddr : Option Nat) :
    LeaseM (Option Nat) :=
  match network.ipAssignment with
  | .asc => do
    let ip ← getLeaseAddress env network ipaddr none .asc
    match ip with
    | some ip => pure (some ip)
    | none => getLeaseAddress env network none ipaddr .asc
  | .desc => do
    let ip ← getLeaseAddress env network none ipaddr .desc
    match ip with
    | some ip => pure (some ip)
    | none => getLeaseAddress env network ipaddr none .desc
  | .unsupported => throw .unsupportedAssignment

def assign (options : ScheduleOptions) (network : NetworkRow) (ip : Nat) : LeaseM Unit :=
  match options.ipPool with
  | none => createLease network.id ip options.networkVif .auto none
  | some ipPool => do
    let ipHandle ← createIpHandle ipPool
    createLease network.id ip options.networkVif .auto (some ipHandle)

def schedule (env : Env) (options : ScheduleOptions) : LeaseM Unit := do
  let db ← get
  match options.network.bind db.networks.find with
  | none => throw .argumentError
  | some network =>
    if options.ipPool.isNone && options.networkVif.isNone then throw .argumentError
    else do
      let leaseaddr ← leaseAddress env network (db.latestIp network.id)
      match leaseaddr with
      | none => throw (.outOfIpRange network.ipv4Network network.prefixLen)
      | some ip => assign options network ip

end Incremental

namespace SpecifyIP

def performChecks (db : Db) (nw : NetworkRow) (ip : Option Nat) : Except LeaseError Nat :=
  match ip with
  | none => .error .invalidIpv4Address
  | some leaseaddr =>
    if !nw.includes leaseaddr then .error (.notInSegment leaseaddr nw.ipv4Network nw.prefixLen)
    else if !db.existsInDhcpRange nw.id leaseaddr then .error (.notInDhcpRanges leaseaddr)
    else if db.ipLeases.rows.any fun l => l.ipv4 == leaseaddr then
      .error (.alreadyLeased leaseaddr)
    else .ok leaseaddr

/-- `perform_checks` and `assign_ip` -/
def checkAndAssign (vif : VifRow) (nw : NetworkRow) (ip : Option Nat) : LeaseM Unit := do
  let db ← get
  match performChecks db nw ip with
  | .error e => throw e
  | .ok leaseaddr => createLease nw.id leaseaddr (some vif.id) .auto none

def schedule (vif : VifRow) : LeaseM Unit := do
  let db ← get
  match vif.requestVifs with
  | none => throw .noMethodError
  | some vifs =>
    match vifs.find? fun temp => temp.index == vif.deviceIndex with
    | none => throw (.noEntryForIndex vif.deviceIndex)
    | some template =>
      match vif.networkId.bind db.networks.find with
      | none => throw .noNetworkAssigned
      | some network => do
        checkAndAssign vif network template.ipv4Addr
        match template.natIpv4Addr, vif.natNetworkId.bind db.networks.find with
        | some nat, some natNetwork => checkAndAssign vif natNetwork nat
        | _, _ => pure ()

end SpecifyIP

/-- `IpLease.lease`; the network it is given is not used. -/
def lease (env : Env) (vif : VifRow) : LeaseM Unit :=
  match env.ipAddress vif with
  | .incremental => Incremental.schedule env ⟨some vif.id, vif.networkId, none⟩
  | .specifyIP => SpecifyIP.schedule vif

/-! ## Network interfaces -/

/-- `vif.ip_dataset`: the rows marked as deleted stay among them. -/
def Db.ipDataset (db : Db) (vif : Nat) : List VifLeaseRow :=
  db.vifLeases.rows.filter fun r => r.networkVifId == some vif

/-- `direct_ip_lease` and `nat_ip_lease` -/
def Db.aliveLeases (db : Db) (vif : Nat) (networkId : Option Nat) : List VifLeaseRow :=
  (db.ipDataset vif).filter fun r => some r.networkId == networkId && !r.deleted

def releaseIpLease (vif : Nat) : LeaseM Unit :=
  modify fun db => db.destroyLeases (db.ipDataset vif)

def leaseIfEmpty (env : Env) (vif : VifRow) (networkId : Option Nat) : LeaseM Unit := do
  let db ← get
  if (networkId.bind db.networks.find).isSome && (db.aliveLeases vif.id networkId).isEmpty then
    lease env vif
  else pure ()

def leaseIpLease (env : Env) (vif : VifRow) : LeaseM Unit := do
  leaseIfEmpty env vif vif.networkId
  leaseIfEmpty env vif vif.natNetworkId

/-- `self.network = network; self.save_changes`; an unchanged row is not saved. -/
def saveNetwork (env : Env) (vif : VifRow) (network : Option Nat) : LeaseM Unit := do
  let db ← get
  if vif.networkId = network then pure ()
  else if vif.deleted || env.vifValid db { vif with networkId := network } then
    modify fun db => { db with
      vifs := db.vifs.modify vif.id (fun r => { r with networkId := network }) fun _ => rfl }
  else throw (.validationFailed [.invalidVif])

def detachFromNetwork (env : Env) (vif : VifRow) : LeaseM Unit := do
  saveNetwork env vif none
  releaseIpLease vif.id

def attachToNetwork (env : Env) (vif : VifRow) (network : Nat) : LeaseM Unit := do
  let db ← get
  if (vif.networkId.bind db.networks.find).isSome then do
    detachFromNetwork env vif
    saveNetwork env { vif with networkId := none } (some network)
    leaseIpLease env { vif with networkId := some network }
  else do
    saveNetwork env vif (some network)
    leaseIpLease env { vif with networkId := some network }

def Db.hasAliveHandle (db : Db) (lease : VifLeaseRow) : Bool :=
  match lease.ipHandleId.bind db.ipHandles.find with
  | none => false
  | some handle => !handle.deleted

def Db.removeIpLease (db : Db) (vif : Nat) (lease : VifLeaseRow) : Except LeaseError Db :=
  if lease.networkVifId ≠ some vif then .ok db
  else if db.hasAliveHandle lease then db.detachVif lease
  else .ok (db.destroyLease lease)

/-- One turn of the hook of a route: its lease is removed from the vif that has
it, if the route is to release it. -/
def Db.releaseRouteLease (db : Db) (leaseId : Option Nat) (release : Bool) : Except LeaseError Db :=
  match leaseId.bind db.vifLeases.find with
  | none => .ok db
  | some lease =>
    match lease.networkVifId.bind db.vifs.find with
    | none => .ok db
    | some vif => if release then db.removeIpLease vif.id lease else .ok db

def Db.destroyRoute (db : Db) (route : RouteRow) : Except LeaseError Db := do
  let db ← db.releaseRouteLease route.innerLeaseId route.releaseInnerVif
  let db ← db.releaseRouteLease route.outerLeaseId route.releaseOuterVif
  return { db with
    routes := db.routes.modify route.id (fun r => { r with deleted := true }) fun _ => rfl }

/-- `vif.network_routes`, joined with all leases of the vif. -/
def Db.networkRoutes (db : Db) (vif : Nat) : List RouteRow :=
  (db.routes.rows.filter fun r => !r.deleted).flatMap fun r =>
    ((db.ipDataset vif).filter fun l =>
      some l.id == r.outerLeaseId || some l.id == r.innerLeaseId).map fun _ => r

def Db.destroyVif (db : Db) (vif : Nat) : Except LeaseError Db := do
  let db := db.destroyLeases (db.ipDataset vif)
  let db ← (db.networkRoutes vif).foldlM Db.destroyRoute db
  return { db with vifs := db.vifs.modify vif (fun r => { r with deleted := true }) fun _ => rfl }

def atomically (f : Db → Except LeaseError Db) : LeaseM Unit := do
  let db ← get
  match f db with
  | .ok db => set db
  | .error e => throw e

/-! ## Runs -/

inductive LeaseOp
  | scheduleVif (vif : Nat)
  | schedule (options : ScheduleOptions)
  | specifyIP (vif : Nat)
  | addReserved (network ipv4 : Nat)
  | deleteReserved (network ipv4 : Nat)
  | attachToNetwork (vif network : Nat)
  | detachFromNetwork (vif : Nat)
  | removeIpLease (vif lease : Nat)
  | destroyVif (vif : Nat)
  deriving DecidableEq, Repr

def withVif (vif : Nat) (f : VifRow → LeaseM Unit) : LeaseM Unit := do
  let db ← get
  match db.vifs.find vif with
  | none => pure ()
  | some vif => f vif

namespace LeaseOp

def run (env : Env) : LeaseOp → LeaseM Unit
  | scheduleVif vif => withVif vif fun vif =>
    Incremental.schedule env ⟨some vif.id, vif.networkId, none⟩
  | schedule options => Incremental.schedule env options
  | specifyIP vif => withVif vif SpecifyIP.schedule
  | addReserved network ipv4 => Lease.addReserved network ipv4
  | deleteReserved network ipv4 => Lease.deleteReserved network ipv4
  | attachToNetwork vif network => withVif vif fun vif => Lease.attachToNetwork env vif network
  | detachFromNetwork vif => withVif vif (Lease.detachFromNetwork env)
  | removeIpLease vif lease => atomically fun db =>
    match db.vifs.find vif, db.vifLeases.find lease with
    | some vif, some lease => db.removeIpLease vif.id lease
    | _, _ => .ok db
  | destroyVif vif => atomically fun db =>
    match db.vifs.find vif with
    | none => .ok db
    | some vif => db.destroyVif vif.id

/-- A call that raises leaves what it had written. -/
def step (env : Env) (db : Db) (op : LeaseOp) : Db := Proc.final (op.run env) db

end LeaseOp

end Lease

end WakameVdc
