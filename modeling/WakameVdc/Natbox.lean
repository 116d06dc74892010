import WakameVdc.Lib.FlowTable
import WakameVdc.Lib.Run
import WakameVdc.Lib.Text
import WakameVdc.NetworkRouteSound

/-!
# The NAT box

`node_modules/service_natbox.rb` keeps two flows for each network route of its inner
DC network, found by the outer and by the inner address. It asks
`node_modules/natbox_collector.rb` for the routes, when it starts for all that are
alive, and later for the one an event names.
-/

namespace WakameVdc

open Lib

namespace Natbox

/-! ## Flows -/

/-- Every flow of the box matches `ip`. -/
structure NatMatch where
  nwDst : Option Nat
  nwSrc : Option Nat
  deriving DecidableEq, Repr

/-- A field matches what the other one does, or the other one is left open. -/
def narrows (a b : Option Nat) : Prop := b = none ∨ a = b

instance (a b : Option Nat) : Decidable (narrows a b) := inferInstanceAs (Decidable (_ ∨ _))

instance : LE NatMatch := ⟨fun p q => narrows p.nwDst q.nwDst ∧ narrows p.nwSrc q.nwSrc⟩

instance : DecidableLE NatMatch := fun _ _ => inferInstanceAs (Decidable (_ ∧ _))

theorem narrows_trans {a b c : Option Nat} (h : narrows a b) (h' : narrows b c) : narrows a c := by
  rcases h' with h' | rfl
  · exact .inl h'
  · exact h

theorem narrows_antisymm {a b : Option Nat} (h : narrows a b) (h' : narrows b a) : a = b := by
  rcases h with rfl | h
  · rcases h' with h' | h'
    · exact h'
    · exact h'.symm
  · exact h

instance : PartialOrder NatMatch where
  le_refl _ := ⟨.inr rfl, .inr rfl⟩
  le_trans _ _ _ h h' := ⟨narrows_trans h.1 h'.1, narrows_trans h.2 h'.2⟩
  le_antisymm := by
    rintro ⟨a, b⟩ ⟨c, d⟩ h h'
    have hdst : a = c := narrows_antisymm h.1 h'.1
    have hsrc : b = d := narrows_antisymm h.2 h'.2
    rw [hdst, hsrc]

inductive NatAction
  | modNwDst (ipv4 : Nat)
  | modNwSrc (ipv4 : Nat)
  | normal
  deriving DecidableEq, Repr

abbrev NatFlow := Entry Nat NatMatch (List NatAction)

/-! ## The collector -/

structure RouteHash where
  id : Nat
  outerIpv4 : Nat
  innerIpv4 : Nat
  deriving DecidableEq, Repr

inductive NatError
  | unknownNetworkRouteId
  | noMethodError
  deriving DecidableEq, Repr

/-- What the box and the API find around them. `scan` is the order a query answers in. -/
structure Env where
  innerDcNetworkName : Text
  ovsFlowTable : Nat
  ovsFlowPriority : Nat
  services : Lease.Services
  externalIp : Nat
  dcNetworkName : Nat → Option Text
  scan : List Lease.RouteRow → List Lease.RouteRow
  scan_perm : ∀ rows, (scan rows).Perm rows

section
variable (env : Env)

/-- `network_route.inner_network.dc_network.name`, with `none` for the call on nil. -/
def innerDcNetwork (db : Lease.Db) (route : Lease.RouteRow) : Option Text :=
  (db.leaseNetwork route.innerLeaseId).bind fun network => env.dcNetworkName network.dcNetworkId

def networkRouteToHash (db : Lease.Db) (route : Lease.RouteRow) : Except NatError RouteHash :=
  match route.outerLeaseId.bind db.vifLeases.find, route.innerLeaseId.bind db.vifLeases.find with
  | some outer, some inner => .ok ⟨route.id, outer.ipv4, inner.ipv4⟩
  | _, _ => .error .noMethodError

def getNetworkRoute (db : Lease.Db) (id : Nat) (dcNetworkName : Text) :
    Except NatError (Option RouteHash) :=
  match db.routes.find id with
  | none => .error .unknownNetworkRouteId
  | some route =>
    match innerDcNetwork env db route with
    | none => .error .noMethodError
    | some name =>
      if name = dcNetworkName then (networkRouteToHash db route).map some else .ok none

def getAliveNetworkRoutes (db : Lease.Db) (dcNetworkName : Text) :
    Except NatError (List RouteHash) :=
  (env.scan (db.routes.rows.filter fun r =>
    !r.deleted && innerDcNetwork env db r == some dcNetworkName)).mapM (networkRouteToHash db)

/-! ## The service -/

abbrev NatM := Proc NatError (List NatFlow)

def addFlowsFromList (flows : List NatFlow) : NatM Unit :=
  modify fun table => FlowTable.addAll table flows

def delFlowsFromList (flows : List NatFlow) : NatM Unit :=
  modify fun table => FlowTable.del table flows

def createFlow (nwMatch : NatMatch) (actions : List NatAction) : NatFlow :=
  ⟨env.ovsFlowTable, env.ovsFlowPriority, nwMatch, actions⟩

def inbound (outerIpv4 innerIpv4 : Nat) : NatFlow :=
  createFlow env ⟨some outerIpv4, none⟩ [.modNwDst innerIpv4, .normal]

def outbound (outerIpv4 innerIpv4 : Nat) : NatFlow :=
  createFlow env ⟨none, some innerIpv4⟩ [.modNwSrc outerIpv4, .normal]

def addNat (outerIpv4 innerIpv4 : Nat) : NatM Unit :=
  addFlowsFromList [inbound env outerIpv4 innerIpv4, outbound env outerIpv4 innerIpv4]

def removeNat (outerIpv4 innerIpv4 : Nat) : NatM Unit :=
  delFlowsFromList
    [createFlow env ⟨some outerIpv4, none⟩ [], createFlow env ⟨none, some innerIpv4⟩ []]

def removeAllNat : NatM Unit := delFlowsFromList [createFlow env ⟨none, none⟩ []]

def withRoute (db : Lease.Db) (f : RouteHash → NatM Unit) (id : Nat) : NatM Unit :=
  match getNetworkRoute env db id env.innerDcNetworkName with
  | .error e => throw e
  | .ok none => pure ()
  | .ok (some route) => f route

def networkRouteCreated (db : Lease.Db) (body : List Nat) : NatM Unit :=
  body.forM (withRoute env db fun route => addNat env route.outerIpv4 route.innerIpv4)

def networkRouteDeleted (db : Lease.Db) (body : List Nat) : NatM Unit :=
  body.forM (withRoute env db fun route => removeNat env route.outerIpv4 route.innerIpv4)

def restore (db : Lease.Db) : NatM Unit := do
  removeAllNat env
  match getAliveNetworkRoutes env db env.innerDcNetworkName with
  | .error e => throw e
  | .ok routes => routes.forM fun route => addNat env route.outerIpv4 route.innerIpv4

/-! ## Routes that come and go -/

/-- `POST /network_vifs/:vif_id/external_ip`, up to the call of `NetworkRoute.create`. -/
def postExternalIp (db : Lease.Db) (vifId ipHandleId : Nat) : Option Lease.RouteRequest := do
  let innerVif ← db.vifs.find vifId
  let innerNw ← innerVif.networkId.bind db.networks.find
  let handle ← db.ipHandles.find ipHandleId
  let lease ← db.ipLease handle.id
  let outer : Lease.SideOptions :=
    ⟨(db.networks.find lease.networkId).map Lease.NetworkRow.id,
      (db.networkVif lease).map Lease.VifRow.id, some env.externalIp, false⟩
  let inner : Lease.SideOptions := ⟨some innerNw.id, some innerVif.id, none, true⟩
  return ⟨none, some lease.id, some (some inner, some outer)⟩

/-- `vnet/network_route/created` and `vnet/network_route/deleted` with the id in the body. -/
inductive Event
  | created (id : Nat)
  | deleted (id : Nat)
  deriving DecidableEq, Repr

/-- The database, the flow table, and the events that are not handled yet. -/
structure State where
  db : Lease.Db
  table : List NatFlow
  events : List Event

inductive Op
  | createRoute (vif ipHandle : Nat)
  | destroyRoute (id : Nat)
  | handle
  | restore
  deriving DecidableEq, Repr

def handleEvent (db : Lease.Db) (table : List NatFlow) : Event → List NatFlow
  | .created id => Proc.final (networkRouteCreated env db [id]) table
  | .deleted id => Proc.final (networkRouteDeleted env db [id]) table

namespace State

def restored (s : State) : State := { s with table := Proc.final (restore env s.db) s.table }

/-- What changes the database and does not raise publishes an event. -/
def step (s : State) : Op → State
  | .createRoute vif ipHandle =>
    match postExternalIp env s.db vif ipHandle with
    | none => s
    | some request =>
      match Proc.exec (Lease.createRoute env.services request) s.db with
      | (.ok route, db) => { s with db, events := s.events ++ [.created route.id] }
      | (.error _, db) => { s with db }
  | .destroyRoute id =>
    match s.db.routes.find id with
    | none => s
    | some route =>
      if route.deleted then s
      else
        match s.db.destroyRoute route with
        | .ok db => { s with db, events := s.events ++ [.deleted id] }
        | .error _ => s
  | .handle =>
    match s.events with
    | [] => s
    | event :: events => { s with table := handleEvent env s.db s.table event, events }
  | .restore => s.restored env

end State

/-! ## What the table is to hold -/

/-- The route is one of the box, between the two addresses. -/
structure Between (db : Lease.Db) (r : Lease.RouteRow) (outerIpv4 innerIpv4 : Nat) : Prop where
  dcNetwork : innerDcNetwork env db r = some env.innerDcNetworkName
  outer : (r.outerLeaseId.bind db.vifLeases.find).map Lease.VifLeaseRow.ipv4 = some outerIpv4
  inner : (r.innerLeaseId.bind db.vifLeases.find).map Lease.VifLeaseRow.ipv4 = some innerIpv4

def Routed (db : Lease.Db) (outerIpv4 innerIpv4 : Nat) : Prop :=
  ∃ r ∈ db.routes.rows, r.deleted = false ∧ Between env db r outerIpv4 innerIpv4

/-- The flows of the alive routes, one for each address, and no others. -/
structure Exact (s : State) : Prop where
  inbound : ∀ outer inner, Routed env s.db outer inner →
    ∃ inner', Routed env s.db outer inner' ∧ inbound env outer inner' ∈ s.table
  outbound : ∀ outer inner, Routed env s.db outer inner →
    ∃ outer', Routed env s.db outer' inner ∧ outbound env outer' inner ∈ s.table
  nothingElse : ∀ f ∈ s.table, f.table = env.ovsFlowTable → ∃ outer inner,
    Routed env s.db outer inner ∧
      (f = Natbox.inbound env outer inner ∨ f = Natbox.outbound env outer inner)

/-- An event that is still to come adds the flows of a route between the addresses. -/
def Awaited (db : Lease.Db) (events : List Event) (outerIpv4 innerIpv4 : Nat) : Prop :=
  ∃ r ∈ db.routes.rows, Event.created r.id ∈ events ∧ Between env db r outerIpv4 innerIpv4

/-- If the next event is the deletion of a route, then each of its two addresses is
without alive routes, or one of the routes with it is still to be added. -/
def Spares (s : State) (op : Op) : Prop :=
  op = .handle → ∀ r ∈ s.db.routes.rows, ∀ events, s.events = .deleted r.id :: events →
    ∀ outer inner, Between env s.db r outer inner →
      ((∃ inner', Routed env s.db outer inner') → ∃ inner', Awaited env s.db events outer inner') ∧
      ((∃ outer', Routed env s.db outer' inner) → ∃ outer', Awaited env s.db events outer' inner)

/-- Every route has the two leases it was created with. -/
def Placed (db : Lease.Db) : Prop :=
  ∀ r ∈ db.routes.rows, (r.outerLeaseId.bind db.vifLeases.find).isSome = true ∧
    (r.innerLeaseId.bind db.vifLeases.find).isSome = true

end

end Natbox

end WakameVdc
