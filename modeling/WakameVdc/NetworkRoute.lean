import WakameVdc.IpHandle

/-!
# Network routes

`NetworkRoute.create` of `models/network_route.rb`. The leases of the two sides are
looked up, or attached to their vifs, around the insert and in its transaction;
the validation runs before and after, and what the second one finds is not looked
at.
-/

namespace WakameVdc

open Lib

namespace Lease

/-- `vifFirst` is `:find_ipv4 => :vif_first`. -/
structure SideOptions where
  network : Option Nat
  networkVif : Option Nat
  findService : Option Nat
  vifFirst : Bool
  deriving DecidableEq, Repr

/-- The attributes and the `:create_options` of a new route. -/
structure RouteRequest where
  innerLeaseId : Option Nat
  outerLeaseId : Option Nat
  createOptions : Option (Option SideOptions × Option SideOptions)
  deriving DecidableEq, Repr

inductive RouteInvalid
  | vifMismatch | noNetworkService | sameVif | sameNetwork
  deriving DecidableEq, Repr

inductive RouteError
  | validationFailed (errors : List RouteInvalid)
  | noMethodError
  | missingNetworkVif
  | noIpv4Address
  | leaseWithoutVif
  | couldNotAddLease
  | uniqueConstraint
  | lease (e : LeaseError)
  deriving DecidableEq, Repr

abbrev RouteM := Proc RouteError Db

abbrev Services := List (Nat × Nat)

namespace Db

def getNetworkServices (db : Db) (services : Services) (network service : Nat)
    (networkVif : Option Nat) : List VifRow :=
  db.vifs.rows.filter fun v =>
    !v.deleted && v.networkId == some network && services.contains (v.id, service) &&
      networkVif.all fun id => v.id == id

def networkVif (db : Db) (lease : VifLeaseRow) : Option VifRow :=
  lease.networkVifId.bind db.vifs.find

def leaseVif (db : Db) (leaseId : Option Nat) : Option VifRow :=
  (leaseId.bind db.vifLeases.find).bind db.networkVif

def leaseNetwork (db : Db) (leaseId : Option Nat) : Option NetworkRow :=
  (leaseId.bind db.vifLeases.find).bind fun l => db.networks.find l.networkId

/-! ## Validation -/

def validateSide (db : Db) (services : Services) (leaseId : Option Nat) (options : SideOptions) :
    Except RouteError (List RouteInvalid) :=
  let mismatch := match options.networkVif, db.leaseVif leaseId with
    | some vif, some currentVif => if currentVif.id = vif then [] else [.vifMismatch]
    | _, _ => []
  match options.findService, options.network with
  | none, _ => .ok mismatch
  | some _, none => .error .noMethodError
  | some service, some network =>
    .ok (mismatch ++ if (db.getNetworkServices services network service options.networkVif).isEmpty
      then [.noNetworkService] else [])

def validateEnds (db : Db) (inner outer : Option Nat) : List RouteInvalid :=
  (match db.leaseVif inner, db.leaseVif outer with
    | some v, some w => if v.id = w.id then [RouteInvalid.sameVif] else []
    | _, _ => []) ++
  match db.leaseNetwork inner, db.leaseNetwork outer with
  | some n, some m => if n.id = m.id then [RouteInvalid.sameNetwork] else []
  | _, _ => []

def validateRoute (db : Db) (services : Services) (request : RouteRequest) :
    Except RouteError (List RouteInvalid) :=
  let ends := db.validateEnds request.innerLeaseId request.outerLeaseId
  match request.createOptions with
  | none => .ok ends
  | some (some inner, some outer) =>
    match db.validateSide services request.innerLeaseId inner,
      db.validateSide services request.outerLeaseId outer with
    | .ok es, .ok es' => .ok (es ++ es' ++ ends)
    | .error e, _ => .error e
    | _, .error e => .error e
  | some _ => .error .noMethodError

/-! ## Creating -/

/-- The vif of a side, after `:find_service`. -/
def sideVif (db : Db) (services : Services) (options : SideOptions) : Option VifRow :=
  match options.findService with
  | none => options.networkVif.bind db.vifs.find
  | some service => options.network.bind fun network =>
    (db.getNetworkServices services network service options.networkVif).head?

/-- `add_ip_lease` does not answer nil. -/
def acceptsIpLease (db : Db) (vif : VifRow) (lease : VifLeaseRow) : Bool :=
  (db.networkVif lease).isNone &&
    db.networks.find lease.networkId == vif.networkId.bind db.networks.find

end Db

/-- The lease of a side, and whether the route releases it. -/
structure Placed where
  leaseId : Option Nat
  release : Bool
  deriving DecidableEq, Repr

/-- One turn of the loop of `around_create`. -/
def placeSide (services : Services) (leaseId : Option Nat) (options : SideOptions) :
    RouteM Placed := do
  let db ← get
  let vif := db.sideVif services options
  if options.vifFirst then
    match vif with
    | none => throw .missingNetworkVif
    | some vif =>
      match (db.ipDataset vif.id).head? with
      | none => throw .noIpv4Address
      | some lease => pure ⟨some lease.id, false⟩
  else
    match leaseId.bind db.vifLeases.find with
    | none => pure ⟨leaseId, false⟩
    | some lease =>
      if (db.networkVif lease).isSome then pure ⟨leaseId, false⟩
      else
        match vif with
        | none => throw .leaseWithoutVif
        | some vif =>
          if !db.acceptsIpLease vif lease then throw .couldNotAddLease
          else
            match db.addIpLease vif lease true with
            | .error e => throw (.lease e)
            | .ok db => do
              set db
              pure ⟨leaseId, true⟩

/-- The insert; the leases of the routes that are not deleted have a unique index. -/
def insertRoute (inner outer : Placed) : RouteM RouteRow := do
  let db ← get
  if db.routes.rows.any fun r =>
      !r.deleted && r.innerLeaseId == inner.leaseId && r.outerLeaseId == outer.leaseId then
    throw .uniqueConstraint
  else do
    let mk := fun id =>
      (⟨id, inner.leaseId, outer.leaseId, inner.release, outer.release, false⟩ : RouteRow)
    set { db with routes := db.routes.create mk fun _ => rfl }
    pure (mk db.routes.next)

/-- `Sequel.transaction`: what is raised in it takes back what was written. -/
def transaction {α : Type} (x : RouteM α) : RouteM α := do
  let db ← get
  match Proc.exec x db with
  | (.ok a, t) => do
    set t
    pure a
  | (.error e, _) => throw e

def aroundCreate (services : Services) (request : RouteRequest) : RouteM RouteRow :=
  match request.createOptions with
  | some (some inner, some outer) => do
    let i ← placeSide services request.innerLeaseId inner
    let o ← placeSide services request.outerLeaseId outer
    insertRoute i o
  | _ => insertRoute ⟨request.innerLeaseId, false⟩ ⟨request.outerLeaseId, false⟩

/-- `NetworkRoute.create` -/
def createRoute (services : Services) (request : RouteRequest) : RouteM RouteRow := do
  let db ← get
  match db.validateRoute services request with
  | .error e => throw e
  | .ok [] => transaction (aroundCreate services request)
  | .ok errors => throw (.validationFailed errors)

/-! ## What a route is to be -/

structure Db.StandsAt (db : Db) (leaseId : Option Nat) (l : VifLeaseRow) (v : VifRow) : Prop where
  lease : leaseId.bind db.vifLeases.find = some l
  alive : l.deleted = false
  vif : db.networkVif l = some v

def VifRow.Apart (v w : VifRow) : Prop :=
  v.id ≠ w.id ∧ ∃ n m, v.networkId = some n ∧ w.networkId = some m ∧ n ≠ m

def Db.Connects (db : Db) (route : RouteRow) : Prop :=
  ∃ l v k w, db.StandsAt route.innerLeaseId l v ∧ db.StandsAt route.outerLeaseId k w ∧ v.Apart w

/-- The lease came to another vif between `db` and `t`. -/
def AttachedBy (db t : Db) (lease : Nat) : Prop :=
  (db.vifLeases.find lease).map VifLeaseRow.networkVifId ≠
    (t.vifLeases.find lease).map VifLeaseRow.networkVifId

/-- Destroying the route takes back what was attached between `db` and `t`, and
later at least nothing else. -/
structure TakenBack (db t : Db) (route : RouteRow) : Prop where
  destroyed : ∃ u, t.destroyRoute route = .ok u ∧ ∀ l ∈ t.vifLeases.rows,
    (AttachedBy db t l.id → u.vifLeases.find l.id = some { l with networkVifId := none } ∨
      u.vifLeases.find l.id = some { l with deleted := true }) ∧
    (¬ AttachedBy db t l.id → u.vifLeases.find l.id = some l)
  later : ∀ s u : Db, s.destroyRoute route = .ok u →
    ∀ k, ¬ AttachedBy db t k → u.vifLeases.find k = s.vifLeases.find k

structure RoutePromised (services : Services) (db : Db) (request : RouteRequest) : Prop where
  connects : ∀ route t, Proc.exec (createRoute services request) db = (.ok route, t) →
    t.Connects route
  unchanged : ∀ e t, Proc.exec (createRoute services request) db = (.error e, t) →
    t.vifLeases = db.vifLeases ∧ t.ipLeases = db.ipLeases
  takenBack : ∀ route t, Proc.exec (createRoute services request) db = (.ok route, t) →
    TakenBack db t route

end Lease

end WakameVdc
