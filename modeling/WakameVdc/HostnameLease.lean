import WakameVdc.Evacuate
import WakameVdc.Lib.Text

/-!
# Hostname leases

The hooks of `models/instance.rb` that keep `hostname_leases` for the hostnames
of the instances, and the calls that save or destroy an instance: `POST
/instances`, `DELETE /instances/:id`, `HvaCollector#update_instance`, the hook of
a failed scheduling and the `force-delete` command.
-/

namespace WakameVdc

open Lib

namespace Hostname

open Scheduler (InstanceState)

/-! ## Tables -/

/-- The default of the state is `init`, which is none of its states. -/
structure InstanceRow where
  id : Nat
  accountId : Nat
  uuid : Text
  hostname : Text
  state : Option InstanceState
  terminatedAt : Bool
  deriving DecidableEq, Repr

instance : Row InstanceRow := ⟨InstanceRow.id⟩

/-- The table of the leases has a unique index on its two columns. -/
structure Vdc where
  hostnameLeases : Finset (Nat × Text)
  instances : Table InstanceRow

inductive Invalid
  | hostnameSyntax | duplicatedHostname
  deriving DecidableEq, Repr

inductive HostnameError
  | unknownInstance
  | invalidInstanceState
  | duplicateHostname
  | duplicateUuid
  | validationFailed (errors : List Invalid)
  | noExistingObject
  | noMethodError
  | databaseError
  | hookFailed
  | refused
  deriving DecidableEq, Repr

/-- What the other tables decide: whether a new instance can have what it asks
for, whether backups of its volumes are in progress, whether its state is ready for
a destroy, and whether something it takes along refuses to go. -/
structure Env where
  entry : Vdc → Nat → Bool
  backupInProgress : Vdc → Nat → Bool
  readyDestroy : Vdc → Nat → Bool
  refuses : Vdc → Nat → Bool

/-! ## The model object -/

/-- An object of the class `Instance`; a new one has no id. `changed` says that
the hostname is among its changed columns. -/
structure Instance where
  id : Option Nat
  accountId : Nat
  uuid : Text
  hostname : Option Text
  state : Option InstanceState
  terminatedAt : Bool
  changed : Bool
  updateHostname : Bool
  deriving DecidableEq, Repr

def downcase (t : Text) : Text := t.map Char.toLower

/-- `/\A[0-9a-z][0-9a-z\-]{0,31}\Z/`; the end may stand before a newline. -/
def validSyntax (hostname : Text) : Bool :=
  let alnum := fun c : Char => c.isDigit || ('a' ≤ c && c ≤ 'z')
  match if hostname.getLast? = some '\n' then hostname.dropLast else hostname with
  | [] => false
  | c :: t => alnum c && t.length ≤ 31 && t.all fun c => alnum c || c = '-'

def Vdc.hostnameUniqueness (vdc : Vdc) (accountId : Nat) (hostname : Option Text) : Bool :=
  match hostname with
  | none => true
  | some hostname => (accountId, hostname) ∉ vdc.hostnameLeases

/-- The columns are `varchar(32)` and not null. -/
def Vdc.createLease (vdc : Vdc) (accountId : Nat) (hostname : Option Text) :
    Except HostnameError Vdc :=
  match hostname with
  | none => .error .databaseError
  | some hostname =>
    if hostname.length > 32 ∨ (accountId, hostname) ∈ vdc.hostnameLeases then .error .databaseError
    else .ok { vdc with hostnameLeases := insert (accountId, hostname) vdc.hostnameLeases }

/-- `orig_name.hostname = hostname`, saved. -/
def Vdc.renameLease (vdc : Vdc) (accountId : Nat) (orig : Text) (hostname : Option Text) :
    Except HostnameError Vdc :=
  if (accountId, orig) ∈ vdc.hostnameLeases then
    ({ vdc with hostnameLeases := vdc.hostnameLeases.erase (accountId, orig) } : Vdc).createLease
      accountId hostname
  else .error .noMethodError

namespace Instance

def load (row : InstanceRow) : Instance :=
  ⟨some row.id, row.accountId, row.uuid, some row.hostname, row.state, row.terminatedAt, false, false⟩

/-- `self[:hostname] = hostname` -/
def setHostname (self : Instance) (hostname : Option Text) : Instance :=
  if self.id.isNone ∨ hostname ≠ self.hostname then
    { self with hostname := hostname, changed := true }
  else self

def beforeValidation (self : Instance) : Instance :=
  let self := if self.hostname.isNone then self.setHostname (some self.uuid) else self
  self.setHostname (self.hostname.map downcase)

def refresh (self : Instance) (vdc : Vdc) : Except HostnameError InstanceRow :=
  match self.id.bind vdc.instances.find with
  | none => .error .noExistingObject
  | some row => .ok row

def validateUnique (self : Instance) (vdc : Vdc) : Except HostnameError (List Invalid) :=
  let test := if vdc.hostnameUniqueness self.accountId self.hostname then [] else [.duplicatedHostname]
  if self.id.isNone then .ok test
  else
    match self.refresh vdc with
    | .error e => .error e
    | .ok orig => .ok (if some orig.hostname ≠ self.hostname then test else [])

def validate (self : Instance) (vdc : Vdc) : Except HostnameError (List Invalid × Instance) :=
  if self.terminatedAt then .ok ([], self)
  else
    let errors := if self.hostname.any validSyntax then [] else [Invalid.hostnameSyntax]
    if !self.changed then .ok (errors, self)
    else
      match self.validateUnique vdc with
      | .error e => .error e
      | .ok duplicated => .ok (errors ++ duplicated, { self with updateHostname := true })

def beforeSave (self : Instance) (vdc : Vdc) : Except HostnameError (Vdc × Instance) :=
  if !self.updateHostname then .ok (vdc, self)
  else
    let leased := if self.id.isNone then vdc.createLease self.accountId self.hostname
      else
        match self.refresh vdc with
        | .error e => .error e
        | .ok orig =>
          if some orig.hostname ≠ self.hostname then
            vdc.renameLease self.accountId orig.hostname self.hostname
          else .ok vdc
    match leased with
    | .error e => .error e
    | .ok vdc => .ok (vdc, { self with updateHostname := false })

def write (self : Instance) (vdc : Vdc) : Except HostnameError (Vdc × Instance) :=
  match self.hostname, self.id with
  | none, _ => .error .databaseError
  | some hostname, none =>
    if vdc.instances.rows.any fun i => i.uuid == self.uuid then .error .duplicateUuid
    else .ok ({ vdc with
        instances := vdc.instances.create
          (fun id => ⟨id, self.accountId, self.uuid, hostname, self.state, self.terminatedAt⟩)
          fun _ => rfl },
      { self with id := some vdc.instances.next, changed := false })
  | some hostname, some id =>
    .ok ({ vdc with
        instances := vdc.instances.save
          ⟨id, self.accountId, self.uuid, hostname, self.state, self.terminatedAt⟩ },
      { self with changed := false })

def save (self : Instance) (vdc : Vdc) : Except HostnameError (Vdc × Instance) :=
  match self.beforeValidation.validate vdc with
  | .error e => .error e
  | .ok ([], self) =>
    match self.beforeSave vdc with
    | .error e => .error e
    | .ok (vdc, self) => self.write vdc
  | .ok (errors, _) => .error (.validationFailed errors)

/-- `before_destroy`, and what is done in place of a delete: saving an object that
did not change writes what is there. -/
def destroy (self : Instance) (env : Env) (vdc : Vdc) (force : Bool) : Except HostnameError Vdc :=
  if !force && self.id.any (env.backupInProgress vdc) then .error .hookFailed
  else if self.id.any (env.refuses vdc) then .error .refused
  else
    let leases := vdc.hostnameLeases.filter fun l =>
      ¬ (l.1 = self.accountId ∧ some l.2 = self.hostname)
    match { self with terminatedAt := true, state := some .terminated }.save
        { vdc with hostnameLeases := leases } with
    | .error e => .error e
    | .ok (vdc, _) => .ok vdc

end Instance

/-! ## Calls -/

/-- The columns an agent reports, of those the calls look at. -/
structure Data where
  state : Option InstanceState
  hostname : Option (Option Text)
  deriving DecidableEq, Repr

namespace Vdc

/-- `Instance.entry_new` in `POST /instances`, and the last save of the request. -/
def createInstance (env : Env) (vdc : Vdc) (accountId : Nat) (uuid : Text)
    (hostname : Option Text) : Except HostnameError Vdc :=
  if hostname.any fun h => !vdc.hostnameUniqueness accountId (some h) then .error .duplicateHostname
  else if !env.entry vdc accountId then .error .refused
  else
    let new : Instance := ⟨none, accountId, uuid, none, none, false, false, false⟩
    let new := if hostname.isSome then new.setHostname hostname else new
    match new.save vdc with
    | .error e => .error e
    | .ok (vdc, self) =>
      match { self with state := some .scheduling }.save vdc with
      | .error e => .error e
      | .ok (vdc, _) => .ok vdc

/-- `finalize_instance` can be called several times from the agents. -/
def finalizeInstance (env : Env) (vdc : Vdc) (row : InstanceRow) : Except HostnameError Vdc :=
  if row.state = some .terminated then .ok vdc
  else { Instance.load row with terminatedAt := true }.destroy env vdc false

def updateInstance (env : Env) (vdc : Vdc) (id : Nat) (data : Data) : Except HostnameError Vdc :=
  match vdc.instances.find id with
  | none => .error .unknownInstance
  | some row =>
    if data.state = some .terminated then vdc.finalizeInstance env row
    else
      let self := Instance.load row
      let self := if data.state.isSome then { self with state := data.state } else self
      let self := match data.hostname with
        | none => self
        | some hostname => self.setHostname hostname
      match self.save vdc with
      | .error e => .error e
      | .ok (vdc, _) => .ok vdc

/-- `DELETE /instances/:id`; a host node is asked where the instance is not
stopped. -/
def deleteInstance (env : Env) (vdc : Vdc) (id : Nat) : Except HostnameError Vdc :=
  match vdc.instances.find id with
  | none => .error .unknownInstance
  | some row =>
    if !env.readyDestroy vdc id then .error .invalidInstanceState
    else if row.state = some .stopped then (Instance.load row).destroy env vdc false
    else if row.state = some .terminated ∨ row.state = some .scheduling then
      .error .invalidInstanceState
    else .ok vdc

/-- `instance.refresh.destroy` after a rollback, and `force-delete`. -/
def destroyInstance (env : Env) (vdc : Vdc) (id : Nat) (force : Bool) : Except HostnameError Vdc :=
  match vdc.instances.find id with
  | none => .error .unknownInstance
  | some row => (Instance.load row).destroy env vdc force

end Vdc

/-! ## Runs -/

inductive InstanceOp
  | create (accountId : Nat) (uuid : Text) (hostname : Option Text)
  | update (id : Nat) (data : Data)
  | delete (id : Nat)
  | scheduleFailed (id : Nat)
  | forceDelete (id : Nat)
  deriving DecidableEq, Repr

namespace InstanceOp

def run (env : Env) (vdc : Vdc) : InstanceOp → Except HostnameError Vdc
  | create accountId uuid hostname => vdc.createInstance env accountId uuid hostname
  | update id data => vdc.updateInstance env id data
  | delete id => vdc.deleteInstance env id
  | scheduleFailed id => vdc.destroyInstance env id false
  | forceDelete id => vdc.destroyInstance env id true

/-- A call that raises is rolled back. -/
def step (env : Env) (vdc : Vdc) (op : InstanceOp) : Vdc :=
  match op.run env vdc with
  | .ok vdc => vdc
  | .error _ => vdc

/-- The call takes the row through `destroy`. -/
def Destroys (env : Env) (vdc : Vdc) (op : InstanceOp) (row : InstanceRow) : Prop :=
  env.refuses vdc row.id = false ∧
    match op with
    | create _ _ _ => False
    | update id data => row.id = id ∧ data.state = some .terminated ∧ row.state ≠ some .terminated ∧
        env.backupInProgress vdc id = false
    | delete id => row.id = id ∧ env.readyDestroy vdc id = true ∧ row.state = some .stopped ∧
        env.backupInProgress vdc id = false
    | scheduleFailed id => row.id = id ∧ env.backupInProgress vdc id = false
    | forceDelete id => row.id = id

end InstanceOp

/-! ## Who holds which name -/

namespace InstanceRow

def pair (row : InstanceRow) : Nat × Text := (row.accountId, row.hostname)

/-- What the row holds: nothing once it is terminated. -/
def held (row : InstanceRow) : List (Nat × Text) := if row.terminatedAt then [] else [row.pair]

end InstanceRow

namespace Vdc

def holders (vdc : Vdc) : List (Nat × Text) := vdc.instances.rows.flatMap InstanceRow.held

/-- The leases are the accounts and hostnames of the instances that are not
terminated, which differ from each other and are in lower case. -/
structure InStep (vdc : Vdc) : Prop where
  leased : ∀ p, p ∈ vdc.hostnameLeases ↔ p ∈ vdc.holders
  distinct : vdc.holders.Nodup
  lower : ∀ row ∈ vdc.instances.rows, downcase row.hostname = row.hostname

/-- The call destroys no terminated instance whose hostname another instance of
its account has by now. -/
def Spares (env : Env) (vdc : Vdc) (op : InstanceOp) : Prop :=
  ∀ row ∈ vdc.instances.rows, op.Destroys env vdc row → row.terminatedAt = true →
    row.pair ∉ vdc.holders

end Vdc

end Hostname

end WakameVdc
