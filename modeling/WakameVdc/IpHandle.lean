import WakameVdc.IpLeaseRun

/-!
# IP handles

A handle of `models/ip_handle.rb` owns the lease of an address, at a vif or at
none. `NetworkVif#remove_ip_lease` gives a lease back to its handle; the other
ways to end the leases of a vif destroy all of them.
-/

namespace WakameVdc

open Lib

namespace Lease

/-! ## Operations -/

def Db.attachVif (db : Db) (lease : VifLeaseRow) (vif : Nat) : Except LeaseError Db :=
  match db.revalidateLease lease with
  | [] =>
    .ok { db with
      vifLeases :=
        db.vifLeases.modify lease.id (fun r => { r with networkVifId := some vif }) fun _ => rfl }
  | errors => .error (.validationFailed errors)

/-- `vif.add_ip_lease`; with `:attach_network` a vif without a network is given
the one it has. -/
def Db.addIpLease (db : Db) (vif : VifRow) (lease : VifLeaseRow) (allowMultiple : Bool) :
    Except LeaseError Db :=
  if !allowMultiple && !(db.aliveLeases vif.id vif.networkId).isEmpty then .ok db
  else if (lease.networkVifId.bind db.vifs.find).isSome then .ok db
  else if db.networks.find lease.networkId ≠ vif.networkId.bind db.networks.find then .ok db
  else db.attachVif lease vif.id

def Db.ipLease (db : Db) (handle : Nat) : Option VifLeaseRow :=
  db.vifLeases.first fun r => r.ipHandleId == some handle

/-- The lease of a handle, if it stands at no vif: the handle can be destroyed,
and takes the lease along. -/
def Db.unattachedLease (db : Db) (handle : Nat) : Option VifLeaseRow :=
  (db.ipLease handle).filter fun lease => (lease.networkVifId.bind db.vifs.find).isNone

theorem pk_deletedHandle (h : IpHandleRow) :
    Row.pk ({ h with deleted := true } : IpHandleRow) = Row.pk h := rfl

/-- `PUT /ip_pools/:id/release` with `IpHandle#destroy`; a handle without a lease
does not pass its validation. -/
def Db.releaseHandle (db : Db) (ipPool handle : Nat) : Except LeaseError Db :=
  match db.ipHandles.find handle with
  | none => .error .argumentError
  | some h =>
    if h.deleted || h.ipPoolId != ipPool then .error .argumentError
    else
      match db.unattachedLease handle with
      | none => .error .argumentError
      | some lease => .ok { db.destroyLease lease with
          ipHandles := db.ipHandles.modify handle (fun h => { h with deleted := true })
            pk_deletedHandle }

/-- `PUT /instances/:id/stop`: the instance's vifs give up their addresses. -/
def stopInstance (nic : List Nat) : LeaseM Unit := nic.forM releaseIpLease

/-- `schedule_start_instance` -/
def startInstance (env : Env) (nic : List Nat) : LeaseM Unit :=
  nic.forM fun vif => withVif vif (leaseIpLease env)

inductive HandleOp
  | lease (op : LeaseOp)
  | addIpLease (vif ipLease : Nat) (allowMultiple : Bool)
  | releaseHandle (ipPool handle : Nat)
  | stopInstance (nic : List Nat)
  | startInstance (nic : List Nat)
  deriving DecidableEq, Repr

namespace HandleOp

/-- A handle is created by a `schedule` with a pool. -/
def run (env : Env) : HandleOp → LeaseM Unit
  | lease op => op.run env
  | addIpLease vif ipLease allowMultiple => atomically fun db =>
    match db.vifs.find vif, db.vifLeases.find ipLease with
    | some vif, some ipLease => db.addIpLease vif ipLease allowMultiple
    | _, _ => .ok db
  | releaseHandle ipPool handle => atomically fun db => db.releaseHandle ipPool handle
  | stopInstance nic => Lease.stopInstance nic
  | startInstance nic => Lease.startInstance env nic

/-- A request that raises is rolled back. -/
def step (env : Env) (db : Db) (op : HandleOp) : Db :=
  match Proc.exec (op.run env) db with
  | (.ok _, db') => db'
  | (.error _, _) => db

/-- The rows a request destroys, if it does not raise. -/
def released (env : Env) (db : Db) : HandleOp → List VifLeaseRow
  | lease op => op.released env db
  | releaseHandle _ handle => (db.unattachedLease handle).toList
  | stopInstance nic => nic.flatMap db.ipDataset
  | addIpLease _ _ _ | startInstance _ => []

def deletes : HandleOp → Option Nat
  | releaseHandle _ handle => some handle
  | _ => none

end HandleOp

/-! ## Handles and their leases -/

/-- The lease is alive, its address in `ip_leases`, and its handle is `handle`. -/
def Db.HasLease (db : Db) (handle : Nat) (lease : VifLeaseRow) : Prop :=
  lease.ipHandleId = some handle ∧ lease.deleted = false ∧
    db.isLeased lease.networkId lease.ipv4 = true

def Db.HandlesLeased (db : Db) : Prop :=
  ∀ h ∈ db.ipHandles.rows, h.deleted = false → ∃ r ∈ db.vifLeases.rows, db.HasLease h.id r

/-- No row the request destroys has the address of a handle that stays. -/
def HandleOp.SparesHandles (env : Env) (db : Db) (op : HandleOp) : Prop :=
  ∀ r ∈ op.released env db, ∀ s ∈ db.vifLeases.rows, s.deleted = false →
    db.hasAliveHandle s = true → s.ipHandleId ≠ op.deletes → s.key ≠ r.key

section
variable {env : Env} {db t : Db} {S : Nat × Nat → Prop}

theorem Db.HandlesLeased.keep (h : db.HandlesLeased) (hw : Writes S False db t) {x : IpHandleRow}
    (hx : x ∈ db.ipHandles.rows) (hd : x.deleted = false)
    (hS : ∀ r ∈ db.vifLeases.rows, db.HasLease x.id r → ¬ S r.key) :
    ∃ r ∈ t.vifLeases.rows, t.HasLease x.id r := by
  obtain ⟨r, hr, hown, hrd, hl⟩ := h x hx hd
  obtain ⟨r', hr', hlater, hd', hl'⟩ := hw.kept (db.vifLeases.find_of_mem hr) hrd hl
    (hS r hr ⟨hown, hrd, hl⟩)
  refine ⟨r', t.vifLeases.mem_of_find hr', hlater.ipHandleId.trans hown, hd', ?_⟩
  have hk : r'.networkId = r.networkId ∧ r'.ipv4 = r.ipv4 := by
    simpa [VifLeaseRow.key] using hlater.key
  rw [hk.1, hk.2]
  exact hl'

theorem hasAliveHandle_of {x : IpHandleRow} {r : VifLeaseRow} (hx : x ∈ db.ipHandles.rows)
    (hd : x.deleted = false) (hr : r.ipHandleId = some x.id) : db.hasAliveHandle r = true := by
  have hfind : db.ipHandles.find x.id = some x := db.ipHandles.find_of_mem hx
  unfold Db.hasAliveHandle
  rw [hr, Option.bind_some, hfind]
  simp [hd]

theorem handlesLeased_of_writes {op : HandleOp} (h : db.HandlesLeased)
    (hfit : op.SparesHandles env db) (hdel : op.deletes = none)
    (hw : Writes (fun k => ∃ r ∈ op.released env db, r.key = k) False db t) : t.HandlesLeased := by
  intro x hx hd
  rw [hw.ipHandles] at hx
  apply h.keep hw hx hd
  intro r hr hown hS
  obtain ⟨s, hs, hk⟩ := hS
  apply hfit s hs r hr hown.2.1 (hasAliveHandle_of hx hd hown.1) _ hk.symm
  rw [hdel, hown.1]
  exact Option.some_ne_none _

/-! ### One request -/

theorem final_of_ok {x : LeaseM Unit} (h : Proc.exec x db = (.ok (), t)) :
    Proc.final x db = t := by
  unfold Proc.final
  rw [h]

theorem atomically_ok {f : Db → Except LeaseError Db}
    (h : Proc.exec (atomically f) db = (.ok (), t)) : f db = .ok t := by
  unfold atomically at h
  obtain ⟨a, u, hget, h⟩ := Proc.exec_bind_ok h
  rw [Proc.exec_get] at hget
  cases hget
  cases hf : f db with
  | error e =>
    rw [hf] at h
    cases h
  | ok db' =>
    rw [hf] at h
    cases h
    rfl

/-- A schedule with a pool that answers: the search, a new handle, and its lease. -/
theorem schedule_ok {options : ScheduleOptions} {ipPool : Nat} (hpool : options.ipPool = some ipPool)
    (h : Proc.exec (Incremental.schedule env options) db = (.ok (), t)) :
    ∃ d n a, Writes S False db d ∧ t = Db.insertLease { d with
        ipHandles := d.ipHandles.create (fun id => ⟨id, ipPool, false⟩) fun _ => rfl }
      n a options.networkVif .auto (some d.ipHandles.next) := by
  unfold Incremental.schedule at h
  obtain ⟨a, u, hget, h⟩ := Proc.exec_bind_ok h
  rw [Proc.exec_get] at hget
  cases hget
  split at h
  · cases h
  · rename_i network _
    split at h
    · cases h
    · obtain ⟨ip, d, haddr, h⟩ := Proc.exec_bind_ok h
      have hd : Writes S False db d := by
        have hkept := (answers_leaseAddress (creates_writes S False db).reserved env network
          (db.latestIp network.id)).keeps.at_final db .refl
        unfold Proc.final at hkept
        rw [haddr] at hkept
        exact hkept
      cases ip with
      | none => cases h
      | some ip =>
        unfold Incremental.assign at h
        rw [hpool] at h
        obtain ⟨handle, d', hcreate, h⟩ := Proc.exec_bind_ok h
        cases hcreate
        rw [exec_createLease] at h
        split at h
        · cases h
          exact ⟨d, network.id, ip, hd, rfl⟩
        · cases h

theorem handlesLeased_schedule {options : ScheduleOptions} {ipPool : Nat} (h : db.HandlesLeased)
    (hpool : options.ipPool = some ipPool)
    (hrun : Proc.exec (Incremental.schedule env options) db = (.ok (), t)) : t.HandlesLeased := by
  obtain ⟨d, n, a, hw, rfl⟩ := schedule_ok (S := fun _ => False) hpool hrun
  intro x hx hd
  rw [show (Db.insertLease _ _ _ _ _ _).ipHandles.rows = (d.ipHandles.create _ _).rows from rfl,
    Table.mem_create] at hx
  rcases hx with hx | hx
  · rw [hw.ipHandles] at hx
    obtain ⟨r, hr, hown, hrd, hl⟩ := h.keep hw hx hd fun _ _ _ hno => hno
    refine ⟨r, (Table.mem_create _).mpr (Or.inl hr), hown, hrd, ?_⟩
    rw [isLeased_insertLease]
    show (d.isLeased r.networkId r.ipv4 || _) = true
    rw [hl]
    rfl
  · refine ⟨_, (Table.mem_create _).mpr (Or.inr rfl), ?_, rfl, ?_⟩
    · rw [hx]
    · rw [isLeased_insertLease]
      simp

theorem writes_stopInstance {nic : List Nat} (hw : Writes S False db t)
    (hS : ∀ v ∈ nic, ∀ r ∈ t.ipDataset v, S r.key) :
    Writes S False db (Proc.final (stopInstance nic) t) := by
  induction nic generalizing t with
  | nil => exact hw
  | cons v nic ih =>
    show Writes S False db (Proc.final (stopInstance nic) (t.destroyLeases (t.ipDataset v)))
    have hstep : ∀ r ∈ t.ipDataset v, ∃ s, t.vifLeases.find r.id = some s ∧ s.key = r.key :=
      fun r hr => ⟨r, t.vifLeases.find_of_mem (List.mem_of_mem_filter hr), rfl⟩
    apply ih (hw.destroyLeases hstep (hS v List.mem_cons_self))
    intro u hu r hr
    obtain ⟨x, hx, hk⟩ := mem_ipDataset_destroyLeases hr
    rw [hk]
    exact hS u (List.mem_cons_of_mem _ hu) x hx

theorem writes_addIpLease {vif : VifRow} {lease : VifLeaseRow} {allowMultiple : Bool}
    (h : db.addIpLease vif lease allowMultiple = .ok t) : Writes S False db t := by
  unfold Db.addIpLease at h
  split at h
  · cases h
    exact .refl
  · split at h
    · cases h
      exact .refl
    · split at h
      · cases h
        exact .refl
      · unfold Db.attachVif at h
        split at h
        · cases h
          exact Writes.refl.moveLease
        · cases h

theorem handlesLeased_release {ipPool handle : Nat} (h : db.HandlesLeased)
    (hfit : (HandleOp.releaseHandle ipPool handle).SparesHandles env db)
    (hrun : db.releaseHandle ipPool handle = .ok t) : t.HandlesLeased := by
  unfold Db.releaseHandle at hrun
  split at hrun
  · cases hrun
  · split at hrun
    · cases hrun
    · split at hrun
      · cases hrun
      · rename_i lease hlease
        cases hrun
        have hmem : lease ∈ db.vifLeases.rows := by
          have hfirst := (Option.filter_eq_some_iff.mp hlease).1
          exact (db.vifLeases.first_spec hfirst).1
        have hw : Writes (fun k => lease.key = k) False db (db.destroyLease lease) :=
          .destroyLease .refl (db.vifLeases.find_of_mem hmem) rfl rfl
        intro x hx hd
        obtain ⟨y, hy, hyx⟩ := List.mem_map.mp hx
        by_cases hid : Row.pk y = handle
        · rw [if_pos hid] at hyx
          rw [← hyx] at hd
          cases hd
        · rw [if_neg hid] at hyx
          subst hyx
          apply h.keep hw hy hd
          intro r hr hown hk
          apply hfit lease _ r hr hown.2.1 (hasAliveHandle_of hy hd hown.1) _ hk.symm
          · show lease ∈ (db.unattachedLease handle).toList
            rw [hlease]
            exact List.mem_singleton_self lease
          · rw [hown.1]
            intro he
            exact hid (Option.some.inj he)

/-- A request that destroys no address of a handle leaves every handle with one. -/
theorem handlesLeased_step (op : HandleOp) (h : db.HandlesLeased)
    (hfit : op.SparesHandles env db) : (op.step env db).HandlesLeased := by
  unfold HandleOp.step
  cases hrun : Proc.exec (op.run env) db with
  | mk res t =>
    cases res with
    | error e => exact h
    | ok u =>
      cases u
      show t.HandlesLeased
      have hfinal := final_of_ok hrun
      cases op with
      | lease op =>
        by_cases hpool : ∃ options ipPool, op = .schedule options ∧ options.ipPool = some ipPool
        · obtain ⟨options, ipPool, rfl, hpool⟩ := hpool
          exact handlesLeased_schedule h hpool hrun
        · apply handlesLeased_of_writes h hfit rfl
          rw [← hfinal]
          apply (step_writes env db op).mono fun _ hk => hk
          intro hno
          obtain ⟨options, hop, hsome⟩ := hno
          obtain ⟨ipPool, hp⟩ := Option.isSome_iff_exists.mp hsome
          exact hpool ⟨options, ipPool, hop, hp⟩
      | addIpLease vif lease allowMultiple =>
        apply handlesLeased_of_writes h hfit rfl
        have hok := atomically_ok hrun
        split at hok
        · exact writes_addIpLease hok
        · cases hok
          exact .refl
      | releaseHandle ipPool handle => exact handlesLeased_release h hfit (atomically_ok hrun)
      | stopInstance nic =>
        apply handlesLeased_of_writes h hfit rfl
        rw [← hfinal]
        apply writes_stopInstance .refl
        intro v hv r hr
        exact ⟨r, List.mem_flatMap.mpr ⟨v, hv, hr⟩, rfl⟩
      | startInstance nic =>
        apply handlesLeased_of_writes h hfit rfl
        rw [← hfinal]
        apply Proc.Keeps.at_final _ _ .refl
        show Proc.Keeps _ (Lease.startInstance env nic)
        apply Proc.keeps_forM
        intro v _
        apply Proc.Keeps.bind Proc.keeps_get
        intro d
        cases d.vifs.find v with
        | none => exact Proc.keeps_pure _
        | some vif => exact keeps_leaseIpLease (creates_writes _ _ _) env vif

end

/-- Along every run in which no request destroys a row with the address of a
handle that stays, every alive handle has an alive lease and its address. -/
theorem handles_leased {env : Env} {db : Db} {ops : List HandleOp} (h : db.HandlesLeased)
    (hfit : Each (fun db op => op.step env db) (fun db op => op.SparesHandles env db) db ops) :
    Each (fun db op => op.step env db) (fun db op => (op.step env db).HandlesLeased) db ops := by
  apply hfit.of_invariant Db.HandlesLeased _ h
  intro db op hdb hspare
  have hnext := handlesLeased_step op hdb hspare
  exact ⟨hnext, hnext⟩

/-! ## A vif that takes the lease of a handle along -/

def pooledVifs : Db := { threeVifs with ipPoolDcNetworks := [(1, 1)] }

def acquire : HandleOp := .lease (.schedule ⟨none, some 1, some 1⟩)

instance (env : Env) (db : Db) (op : HandleOp) : Decidable (op.SparesHandles env db) :=
  inferInstanceAs (Decidable (∀ r ∈ op.released env db, ∀ s ∈ db.vifLeases.rows, s.deleted = false →
    db.hasAliveHandle s = true → s.ipHandleId ≠ op.deletes → s.key ≠ r.key))

theorem pooledVifs_handles : pooledVifs.HandlesLeased := by
  intro h hh
  cases hh

theorem handles_leased_removed :
    Each (fun db op => op.step incrementalEnv db)
      (fun db op => (op.step incrementalEnv db).HandlesLeased) pooledVifs
      [acquire, .lease (.attachToNetwork 1 1), .addIpLease 1 1 true, .lease (.removeIpLease 1 1),
        .stopInstance [1], .startInstance [1], .releaseHandle 1 1] := by
  apply handles_leased pooledVifs_handles
  exact ⟨by decide, by decide, by decide, by decide, by decide, by decide, by decide, trivial⟩

/-- The lease of a handle stands at a vif whose instance is stopped: the handle
is still there, its lease is not. -/
theorem stopped_with_handle :
    pooledVifs.HandlesLeased ∧
      ¬ ([acquire, .lease (.attachToNetwork 1 1), .addIpLease 1 1 true, .stopInstance [1]].foldl
        (fun db op => op.step incrementalEnv db) pooledVifs).HandlesLeased := by
  refine ⟨pooledVifs_handles, ?_⟩
  intro h
  obtain ⟨r, hr, _, hd, _⟩ := h ⟨1, 1, false⟩ (by decide) rfl
  have hnone : ∀ r ∈ ([acquire, .lease (.attachToNetwork 1 1), .addIpLease 1 1 true,
      .stopInstance [1]].foldl (fun db op => op.step incrementalEnv db) pooledVifs).vifLeases.rows,
      r.deleted = true := by decide
  rw [hnone r hr] at hd
  cases hd

end Lease

end WakameVdc
