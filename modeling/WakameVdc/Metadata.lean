import WakameVdc.IpLease

/-!
# The metadata service

`endpoints/metadata.rb`: an instance is told who it is by the address its
request comes from. Both services look for an alive lease of that address, on
whatever network, and answer for the instance of the lease's interface.
-/

namespace WakameVdc

open Lib

namespace Metadata

structure InstanceRow where
  id : Nat
  uuid : String
  cpuCores : Nat
  memorySize : Nat
  state : String
  userData : String
  deriving DecidableEq, Repr

instance : Row InstanceRow := ⟨InstanceRow.id⟩

/-- `instanceId` is the column of that name of `network_vifs`; `volumes` says how many volumes an
instance has. -/
structure Db where
  leases : Lease.Db
  instances : Table InstanceRow
  instanceId : Nat → Option Nat
  volumes : Nat → Nat

inductive MetadataError
  | unknownSourceIp (ipv4 : Nat)
  | noMethodError
  deriving DecidableEq, Repr

/-- The order a query without `ORDER BY` answers in. -/
abbrev Scan := List Lease.VifLeaseRow → List Lease.VifLeaseRow

def Reorders (scan : Scan) : Prop := ∀ ls, (scan ls).Perm ls

/-- The document of `Provider_20110519`, with a `nil` for each volume. -/
structure Document where
  instanceId : String
  cpuCores : Nat
  memorySize : Nat
  state : String
  userData : String
  network : List (List (Nat × Nat))
  volume : List Unit
  deriving DecidableEq, Repr

namespace Db

def leasesOf (db : Db) (ipv4 : Nat) : List Lease.VifLeaseRow :=
  db.leases.vifLeases.rows.filter fun l => l.ipv4 == ipv4 && !l.deleted

def networkVif (db : Db) (ip : Lease.VifLeaseRow) : Option Lease.VifRow :=
  ip.networkVifId.bind db.leases.vifs.find

def instanceOf (db : Db) (vif : Lease.VifRow) : Option InstanceRow :=
  (db.instanceId vif.id).bind db.instances.find

def getInstanceFromIp (scan : Scan) (db : Db) (srcIp : Nat) :
    Except MetadataError (Option InstanceRow) :=
  match (scan (db.leasesOf srcIp)).head?.bind db.networkVif with
  | none => .error (.unknownSourceIp srcIp)
  | some vif => .ok (db.instanceOf vif)

/-- `Ec2Metadata#instance` -/
def instanceAt (scan : Scan) (db : Db) (srcIp : Nat) : Except MetadataError InstanceRow := do
  match ← db.getInstanceFromIp scan srcIp with
  | none => throw .noMethodError
  | some inst => return inst

/-- `nic.ip.map`; the leases marked as deleted are among them. -/
def networkOf (db : Db) (nic : Lease.VifRow) : Except MetadataError (List (Nat × Nat)) :=
  (db.leases.vifLeases.rows.filter fun ip => ip.networkVifId == some nic.id).mapM fun ip =>
    match db.leases.networks.find ip.networkId with
    | none => .error .noMethodError
    | some network => .ok (ip.ipv4, network.id)

def nics (db : Db) (inst : InstanceRow) : List Lease.VifRow :=
  db.leases.vifs.rows.filter fun nic => db.instanceId nic.id == some inst.id

def documentWith (db : Db) (inst : InstanceRow) (network : List (List (Nat × Nat))) : Document where
  instanceId := inst.uuid
  cpuCores := inst.cpuCores
  memorySize := inst.memorySize
  state := inst.state
  userData := inst.userData
  network := network
  volume := List.replicate (db.volumes inst.id) ()

def documentOf (db : Db) (inst : InstanceRow) : Except MetadataError Document := do
  let network ← (db.nics inst).mapM db.networkOf
  return db.documentWith inst network

/-- `Provider_20101101`, which asks the list `nic.ip` for its `ipv4`. -/
def documentOf20101101 (db : Db) (inst : InstanceRow) : Except MetadataError Document := do
  let network ← (db.nics inst).mapM fun _ => throw .noMethodError
  return db.documentWith inst network

def document (scan : Scan) (db : Db) (srcIp : Nat) : Except MetadataError Document := do
  match ← db.getInstanceFromIp scan srcIp with
  | none => throw .noMethodError
  | some inst => db.documentOf inst

/-! ## Whose address it is -/

def leasedTo (db : Db) (ip : Lease.VifLeaseRow) : Option InstanceRow :=
  (db.networkVif ip).bind db.instanceOf

/-- An interface of the instance has the address on its own network. -/
def Owns (db : Db) (inst : InstanceRow) (ipv4 : Nat) : Prop :=
  ∃ l ∈ db.leasesOf ipv4, ∃ vif, db.networkVif l = some vif ∧ vif.networkId = some l.networkId ∧
    db.instanceOf vif = some inst

def UniqueInNetwork (db : Db) : Prop :=
  ∀ l ∈ db.leases.vifLeases.rows, ∀ k ∈ db.leases.vifLeases.rows, l.deleted = false →
    k.deleted = false → l.networkId = k.networkId → l.ipv4 = k.ipv4 → l = k

variable {db : Db} {inst : InstanceRow} {scan : Scan} {srcIp : Nat}

theorem instanceAt_of_head {l : Lease.VifLeaseRow} (hs : (scan (db.leasesOf srcIp)).head? = some l)
    (hl : db.leasedTo l = some inst) : db.instanceAt scan srcIp = .ok inst := by
  obtain ⟨vif, hv, hi⟩ := Option.bind_eq_some_iff.mp hl
  have hg : db.getInstanceFromIp scan srcIp = .ok (some inst) := by
    simp [getInstanceFromIp, hs, hv, hi]
  rw [instanceAt, hg]
  rfl

theorem leasedTo_of_instanceAt {l : Lease.VifLeaseRow}
    (hs : (scan (db.leasesOf srcIp)).head? = some l) (h : db.instanceAt scan srcIp = .ok inst) :
    db.leasedTo l = some inst := by
  obtain ⟨got, hg, hi⟩ := bind_ok h
  unfold getInstanceFromIp at hg
  cases hv : db.networkVif l with
  | none => simp [hs, hv] at hg
  | some vif =>
    simp only [hs, Option.bind_some, hv, Except.ok.injEq] at hg
    subst hg
    rw [leasedTo, hv, Option.bind_some]
    cases ho : db.instanceOf vif with
    | none => rw [ho] at hi; cases hi
    | some other =>
      rw [ho] at hi
      cases hi
      rfl

theorem document_of_instanceAt (h : db.instanceAt scan srcIp = .ok inst) :
    db.document scan srcIp = db.documentOf inst := by
  obtain ⟨got, hg, hi⟩ := bind_ok h
  rw [document, hg]
  cases got with
  | none => cases hi
  | some other => cases hi; rfl

/-- The oldest document is there for no instance that has an interface. -/
theorem documentOf20101101_of_owns {ipv4 : Nat} (h : db.Owns inst ipv4) :
    db.documentOf20101101 inst = .error .noMethodError := by
  obtain ⟨l, -, vif, hvif, -, hinst⟩ := h
  obtain ⟨id, hid, hfind⟩ := Option.bind_eq_some_iff.mp hinst
  obtain ⟨vifId, -, hv⟩ := Option.bind_eq_some_iff.mp hvif
  have hmem : vif ∈ db.nics inst := by
    refine List.mem_filter.mpr ⟨db.leases.vifs.mem_of_find hv, ?_⟩
    have hpk : inst.id = id := db.instances.pk_of_find hfind
    rw [hid, hpk]
    exact beq_self_eq_true _
  unfold documentOf20101101
  cases hn : db.nics inst with
  | nil =>
    rw [hn] at hmem
    cases hmem
  | cons nic rest => rfl

def toFront (l : Lease.VifLeaseRow) : Scan := fun ls => if l ∈ ls then l :: ls.erase l else ls

theorem reorders_toFront (l : Lease.VifLeaseRow) : Reorders (toFront l) := by
  intro ls
  unfold toFront
  split
  · exact (List.perm_cons_erase ‹_›).symm
  · exact .refl _

end Db

/-! ## Two networks with one address plan -/

def network (id : Nat) : Lease.NetworkRow where
  id := id
  ipv4Network := 0x0a000000
  prefixLen := 24
  ipv4Gw := none
  dnsServer := none
  dhcpServer := none
  metadataServer := none
  ipAssignment := .asc
  dcNetworkId := id

def vif (id : Nat) : Lease.VifRow where
  id := id
  networkId := some id
  natNetworkId := none
  deviceIndex := 0
  requestVifs := none
  deleted := false

def lease (id ipv4 : Nat) : Lease.VifLeaseRow where
  id := id
  networkId := id
  networkVifId := some id
  ipv4 := ipv4
  allocType := .auto
  ipHandleId := none
  deleted := false

def inst (id : Nat) (uuid : String) : InstanceRow where
  id := id
  uuid := uuid
  cpuCores := 1
  memorySize := 256
  state := "running"
  userData := uuid

def twoNetworks (a b : Nat) : Db where
  leases :=
    { networks := ⟨[network 1, network 2], 3, by decide, by decide⟩
      dhcpRanges := .empty
      ipLeases := .empty
      vifLeases := ⟨[lease 1 a, lease 2 b], 3, by simp [lease, Row.pk], by simp [lease, Row.pk]⟩
      vifs := ⟨[vif 1, vif 2], 3, by decide, by decide⟩
      ipHandles := .empty
      routes := .empty
      ipPoolDcNetworks := [] }
  instances := ⟨[inst 1 "first", inst 2 "second"], 3, by decide, by decide⟩
  instanceId := some
  volumes _ := 0

/-- The service tells the owner of an address who it is, in whatever order the
rows come, just when every alive lease of the address is the owner's. -/
theorem metadata_of_owner {db : Db} {inst : InstanceRow} {srcIp : Nat}
    (own : db.Owns inst srcIp) :
    (∀ scan, Reorders scan → db.instanceAt scan srcIp = .ok inst ∧
      db.document scan srcIp = db.documentOf inst) ↔
    ∀ l ∈ db.leasesOf srcIp, db.leasedTo l = some inst := by
  constructor
  · intro h l hl
    refine Db.leasedTo_of_instanceAt ?_ (h _ (Db.reorders_toFront l)).1
    simp [Db.toFront, hl]
  · intro h scan hs
    obtain ⟨l, hl, -⟩ := own
    have hne : scan (db.leasesOf srcIp) ≠ [] := by
      intro h0
      have hp := hs (db.leasesOf srcIp)
      rw [h0] at hp
      rw [← hp.nil_eq] at hl
      cases hl
    obtain ⟨k, ks, hk⟩ := List.exists_cons_of_ne_nil hne
    have hmem : k ∈ db.leasesOf srcIp := (hs _).mem_iff.mp (by simp [hk])
    have ha : db.instanceAt scan srcIp = .ok inst := Db.instanceAt_of_head (by rw [hk]; rfl) (h k hmem)
    exact ⟨ha, Db.document_of_instanceAt ha⟩

theorem metadata_of_owner_apart :
    (twoNetworks 0x0a000001 0x0a000002).instanceAt id 0x0a000002 = .ok (inst 2 "second") ∧
      (twoNetworks 0x0a000001 0x0a000002).document id 0x0a000002 =
        (twoNetworks 0x0a000001 0x0a000002).documentOf (inst 2 "second") :=
  (metadata_of_owner
    ⟨lease 2 0x0a000002, by decide, vif 2, by decide, rfl, by decide⟩).mpr (by decide) id fun _ => .refl _

/-- Both networks lease 10.0.0.1, and the second instance is told it is the
first. -/
theorem metadata_of_other_network :
    ¬ ∀ (db : Db) (inst : InstanceRow) (srcIp : Nat), db.UniqueInNetwork → db.Owns inst srcIp →
      ∀ scan, Reorders scan → db.instanceAt scan srcIp = .ok inst := by
  intro h
  have := h (twoNetworks 0x0a000001 0x0a000001) (inst 2 "second") 0x0a000001
    (by unfold Db.UniqueInNetwork; decide +kernel)
    ⟨lease 2 0x0a000001, by decide, vif 2, by decide, rfl, by decide⟩ id fun _ => .refl _
  revert this
  decide +kernel

end Metadata

end WakameVdc
