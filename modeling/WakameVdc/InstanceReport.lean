import WakameVdc.Lib.Hash
import WakameVdc.Lib.Text
import WakameVdc.NetworkRouteSound

/-!
# The addresses of an instance

`Instance#to_hash` of `models/instance.rb`, which reaches the leases of the vifs on
several ways, and the items `metadata/aws.rb` makes of it.
-/

namespace WakameVdc

open Lib

namespace Report

/-- `instanceId` and `macAddr` are columns of `network_vifs`; the scans are the orders
queries answer in. -/
structure Env where
  instanceId : Nat → Option Nat
  macAddr : Nat → Text
  scanVifs : List Lease.VifRow → List Lease.VifRow
  scanVifs_perm : ∀ vs, (scanVifs vs).Perm vs
  scanLeases : List Lease.VifLeaseRow → List Lease.VifLeaseRow
  scanLeases_perm : ∀ ls, (scanLeases ls).Perm ls

structure Ipv4Entry where
  network : Option Lease.NetworkRow
  address : Nat
  natNetwork : Option Lease.NetworkRow
  natAddress : Option Nat
  deriving DecidableEq, Repr

/-- The entry of a vif; `address` and `natIpLease` come from `NetworkVif#to_hash`. -/
structure VifEntry where
  vifId : Nat
  macAddr : Text
  address : Option Nat
  natIpLease : Option Nat
  ipv4 : Option Ipv4Entry
  deriving DecidableEq, Repr

structure InstanceHash where
  ips : List Nat
  natIps : List Nat
  vif : List VifEntry
  deriving DecidableEq, Repr

section
variable (env : Env) (db : Lease.Db)

/-! ## `to_hash` -/

def instanceNic (inst : Nat) : List Lease.VifRow :=
  env.scanVifs (db.vifs.rows.filter fun v => env.instanceId v.id == some inst)

/-- The association `ip`: the leases marked as deleted are among them. -/
def ip (n : Lease.VifRow) : List Lease.VifLeaseRow := env.scanLeases (db.ipDataset n.id)

def directIpLease (n : Lease.VifRow) : List Lease.VifLeaseRow :=
  env.scanLeases (db.aliveLeases n.id n.networkId)

def natIpLease (n : Lease.VifRow) : List Lease.VifLeaseRow :=
  env.scanLeases (db.aliveLeases n.id n.natNetworkId)

/-- A lease of the association has the vif as its `network_vif`. -/
def isNatted (networkVif : Lease.VifRow) (lease : Lease.VifLeaseRow) : Bool :=
  networkVif.networkId != some lease.networkId

/-- `find`, also among the leases marked as deleted. -/
def natOutsideLease (networkVif : Lease.VifRow) : Option Lease.VifLeaseRow :=
  networkVif.natNetworkId.bind fun natNetworkId =>
    (env.scanLeases ((db.ipDataset networkVif.id).filter fun l =>
      l.networkId == natNetworkId)).head?

/-- What a vif adds to `:ips`. -/
def ips (n : Lease.VifRow) : List Nat :=
  (ip env db n).filterMap fun i => if isNatted n i then none else some i.ipv4

/-- What a vif adds to `:nat_ips`. -/
def natIps (n : Lease.VifRow) : List Nat :=
  (ip env db n).filterMap fun i => if isNatted n i then some i.ipv4 else none

def vifEntry (vif : Lease.VifRow) : VifEntry where
  vifId := vif.id
  macAddr := env.macAddr vif.id
  address := (directIpLease env db vif).head?.map Lease.VifLeaseRow.ipv4
  natIpLease := (natIpLease env db vif).head?.map Lease.VifLeaseRow.ipv4
  ipv4 := (directIpLease env db vif).head?.map fun directLease =>
    { network := vif.networkId.bind db.networks.find
      address := directLease.ipv4
      natNetwork := vif.natNetworkId.bind db.networks.find
      natAddress := (natOutsideLease env db vif).map Lease.VifLeaseRow.ipv4 }

def toHash (inst : Nat) : InstanceHash where
  ips := (instanceNic env db inst).flatMap (ips env db)
  natIps := (instanceNic env db inst).flatMap (natIps env db)
  vif := (instanceNic env db inst).map (vifEntry env db)

/-! ## The metadata -/

inductive ItemKey
  | localIpv4
  | publicIpv4
  | localIpv4s (mac : Text)
  | publicIpv4s (mac : Text)
  deriving DecidableEq, Repr

abbrev Items := Hash ItemKey (Option Nat)

def mergeVnic (items : Items) (vnic : VifEntry) : Items :=
  match vnic.ipv4 with
  | none => items
  | some ipv4 =>
    if ipv4.network.isNone then items
    else AList.insert (.publicIpv4s vnic.macAddr) ipv4.natAddress
      (AList.insert (.localIpv4s vnic.macAddr) (some ipv4.address) items)

def getItems (inst : InstanceHash) : Items :=
  inst.vif.foldl mergeVnic (AList.insert .publicIpv4 inst.natIps.head?
    (AList.insert .localIpv4 inst.ips.head? ∅))

/-! ## What is to be reported -/

def AliveAt (vif ipv4 : Nat) : Prop :=
  ∃ l ∈ db.ipDataset vif, l.deleted = false ∧ l.ipv4 = ipv4

def IsNic (inst vif : Nat) : Prop :=
  ∃ v ∈ db.vifs.rows, v.id = vif ∧ env.instanceId vif = some inst

/-- An item about one interface is about a vif with its MAC address. -/
def ItemKey.About (env : Env) (key : ItemKey) (vif : Nat) : Prop :=
  match key with
  | .localIpv4 | .publicIpv4 => True
  | .localIpv4s mac | .publicIpv4s mac => env.macAddr vif = mac

/-- Every address is the one of an alive lease at its vif, and every alive lease is
reported. -/
structure Reports (inst : Nat) : Prop where
  ips : ∀ n ∈ instanceNic env db inst, ∀ a ∈ ips env db n ++ natIps env db n, AliveAt db n.id a
  address : ∀ e ∈ (toHash env db inst).vif, ∀ a, e.address = some a ∨ e.natIpLease = some a →
    AliveAt db e.vifId a
  ipv4 : ∀ e ∈ (toHash env db inst).vif, ∀ i, e.ipv4 = some i →
    AliveAt db e.vifId i.address ∧ ∀ a, i.natAddress = some a → AliveAt db e.vifId a
  items : ∀ key a, (getItems (toHash env db inst)).lookup key = some (some a) →
    ∃ n ∈ instanceNic env db inst, key.About env n.id ∧ AliveAt db n.id a
  complete : ∀ n ∈ instanceNic env db inst, ∀ l ∈ db.ipDataset n.id, l.deleted = false →
    l.ipv4 ∈ (toHash env db inst).ips ∨ l.ipv4 ∈ (toHash env db inst).natIps
  completeVif : ∀ n ∈ instanceNic env db inst, (∃ l ∈ db.ipDataset n.id, l.deleted = false ∧
    n.networkId = some l.networkId) → ∃ i, (vifEntry env db n).ipv4 = some i ∧
      ((∃ l ∈ db.ipDataset n.id, l.deleted = false ∧ n.natNetworkId = some l.networkId) →
        i.natAddress.isSome = true)

/-- Whatever lease is at a vif of the instance, an alive one there has its address. -/
def NoneStale (inst : Nat) : Prop :=
  ∀ vif, IsNic env db inst vif → ∀ l ∈ db.ipDataset vif, AliveAt db vif l.ipv4

end

/-! ## Histories -/

/-- Calls on a lease, and what a scheduler or `attach_to_network` writes to a vif. -/
inductive Op
  | create (networkId ipv4 : Nat) (networkVif : Option Nat) (allocType : Lease.AllocType)
    (ipHandle : Option Nat)
  | destroy (lease : Nat)
  | attachVif (lease vif : Nat)
  | detachVif (lease : Nat)
  | saveVif (vif : Nat) (network natNetwork : Option Nat)
  deriving DecidableEq, Repr

/-- A call that raises writes nothing. -/
def step (db : Lease.Db) : Op → Lease.Db
  | .create networkId ipv4 networkVif allocType ipHandle =>
    if db.validateLease networkId ipv4 ipHandle = [] then
      db.insertLease networkId ipv4 networkVif allocType ipHandle
    else db
  | .destroy lease =>
    match db.vifLeases.find lease with
    | none => db
    | some lease => db.destroyLease lease
  | .attachVif lease vif =>
    match db.vifLeases.find lease, db.vifs.find vif with
    | some lease, some vif =>
      if (db.networkVif lease).isSome then db else (db.attachVif lease vif.id).toOption.getD db
    | _, _ => db
  | .detachVif lease =>
    match db.vifLeases.find lease with
    | none => db
    | some lease => (db.detachVif lease).toOption.getD db
  | .saveVif vif network natNetwork => { db with
      vifs := db.vifs.modify vif
        (fun v => { v with networkId := network, natNetworkId := natNetwork }) fun _ => rfl }

/-- Another alive lease at the vif has the address of the lease. -/
def Twin (db : Lease.Db) (vif : Nat) (lease : Lease.VifLeaseRow) : Prop :=
  ∃ l ∈ db.ipDataset vif, l.deleted = false ∧ l.ipv4 = lease.ipv4 ∧ l.id ≠ lease.id

/-- The call leaves no lease marked as deleted at a vif of the instance, unless an alive
one there has its address. -/
def Spares (env : Env) (inst : Nat) (db : Lease.Db) : Op → Prop
  | .create _ _ _ _ _ | .saveVif _ _ _ => True
  | .destroy lease => ∀ r, db.vifLeases.find lease = some r →
    ∀ vif, IsNic env db inst vif → r.networkVifId = some vif → Twin db vif r
  | .attachVif lease vif => ∀ r, db.vifLeases.find lease = some r → r.deleted = true →
    db.networkVif r = none → IsNic env db inst vif → AliveAt db vif r.ipv4
  | .detachVif lease => ∀ r, db.vifLeases.find lease = some r → r.deleted = false →
    db.revalidateLease r = [] → ∀ vif, IsNic env db inst vif → r.networkVifId = some vif →
    (∃ l ∈ db.ipDataset vif, l.deleted = true ∧ l.ipv4 = r.ipv4) → Twin db vif r

/-! ## The report of a state -/

section
variable {env : Env} {db : Lease.Db} {inst : Nat} {n : Lease.VifRow} {l : Lease.VifLeaseRow}

theorem mem_instanceNic : n ∈ instanceNic env db inst ↔
    n ∈ db.vifs.rows ∧ env.instanceId n.id = some inst := by
  unfold instanceNic
  rw [(env.scanVifs_perm _).mem_iff]
  simp

theorem isNic_of_mem (h : n ∈ instanceNic env db inst) : IsNic env db inst n.id :=
  ⟨n, (mem_instanceNic.mp h).1, rfl, (mem_instanceNic.mp h).2⟩

theorem mem_ip : l ∈ ip env db n ↔ l ∈ db.ipDataset n.id := (env.scanLeases_perm _).mem_iff

variable (env) in
theorem mem_ips_iff {a : Nat} :
    a ∈ ips env db n ++ natIps env db n ↔ ∃ l ∈ db.ipDataset n.id, l.ipv4 = a := by
  simp only [ips, natIps, List.mem_append, List.mem_filterMap, mem_ip]
  constructor
  · rintro (⟨l, hl, h⟩ | ⟨l, hl, h⟩)
    · split at h
      · cases h
      · exact ⟨l, hl, Option.some.inj h⟩
    · split at h
      · exact ⟨l, hl, Option.some.inj h⟩
      · cases h
  · rintro ⟨l, hl, rfl⟩
    cases hnatted : isNatted n l with
    | false => exact .inl ⟨l, hl, by rw [hnatted]; rfl⟩
    | true => exact .inr ⟨l, hl, by rw [hnatted]; rfl⟩

theorem aliveAt_of_aliveLeases {network : Option Nat}
    (h : l ∈ env.scanLeases (db.aliveLeases n.id network)) : AliveAt db n.id l.ipv4 := by
  rw [(env.scanLeases_perm _).mem_iff] at h
  obtain ⟨hl, hcond⟩ := List.mem_filter.mp h
  rw [Bool.and_eq_true, Bool.not_eq_true'] at hcond
  exact ⟨l, hl, hcond.2, rfl⟩

theorem aliveAt_of_head {network : Option Nat} {a : Nat}
    (h : (env.scanLeases (db.aliveLeases n.id network)).head?.map Lease.VifLeaseRow.ipv4 = some a) :
    AliveAt db n.id a := by
  obtain ⟨l, hl, rfl⟩ := Option.map_eq_some_iff.mp h
  exact aliveAt_of_aliveLeases (List.mem_of_mem_head? hl)

theorem mem_natOutsideLease (h : natOutsideLease env db n = some l) : l ∈ db.ipDataset n.id := by
  obtain ⟨network, -, hl⟩ := Option.bind_eq_some_iff.mp h
  have hmem := List.mem_of_mem_head? hl
  rw [(env.scanLeases_perm _).mem_iff] at hmem
  exact List.mem_of_mem_filter hmem

theorem items_from {h : InstanceHash} {key : ItemKey} {a : Nat}
    (hitem : (getItems h).lookup key = some (some a)) :
    (key = .localIpv4 ∧ a ∈ h.ips) ∨ (key = .publicIpv4 ∧ a ∈ h.natIps) ∨
      ∃ e ∈ h.vif, ∃ i, e.ipv4 = some i ∧ ((key = .localIpv4s e.macAddr ∧ i.address = a) ∨
        key = .publicIpv4s e.macAddr ∧ i.natAddress = some a) := by
  have hmerge : ∀ (vif : List VifEntry) (items : Items),
      (vif.foldl mergeVnic items).lookup key = some (some a) →
      items.lookup key = some (some a) ∨ ∃ e ∈ vif, ∃ i, e.ipv4 = some i ∧
        ((key = .localIpv4s e.macAddr ∧ i.address = a) ∨
          key = .publicIpv4s e.macAddr ∧ i.natAddress = some a) := by
    intro vif
    induction vif with
    | nil => exact fun items h => .inl h
    | cons e vif ih =>
      intro items hitem
      rcases ih _ hitem with hitem | ⟨e', he', hfrom⟩
      · unfold mergeVnic at hitem
        split at hitem
        · exact .inl hitem
        · rename_i i hi
          split at hitem
          · exact .inl hitem
          · rw [Hash.lookup_insert, Hash.lookup_insert] at hitem
            split at hitem
            · exact .inr ⟨e, List.mem_cons_self, i, hi, .inr ⟨‹_›, Option.some.inj hitem⟩⟩
            · split at hitem
              · have ha := Option.some.inj (Option.some.inj hitem)
                exact .inr ⟨e, List.mem_cons_self, i, hi, .inl ⟨‹_›, ha⟩⟩
              · exact .inl hitem
      · exact .inr ⟨e', List.mem_cons_of_mem _ he', hfrom⟩
  rcases hmerge _ _ hitem with hitem | hfrom
  · rw [Hash.lookup_insert, Hash.lookup_insert] at hitem
    split at hitem
    · exact .inr (.inl ⟨‹_›, List.mem_of_mem_head? (Option.some.inj hitem)⟩)
    · split at hitem
      · exact .inl ⟨‹_›, List.mem_of_mem_head? (Option.some.inj hitem)⟩
      · cases hitem
  · exact .inr (.inr hfrom)

theorem aliveAt_entry (h : NoneStale env db inst) (hn : n ∈ instanceNic env db inst) {i : Ipv4Entry}
    (hi : (vifEntry env db n).ipv4 = some i) :
    AliveAt db n.id i.address ∧ ∀ a, i.natAddress = some a → AliveAt db n.id a := by
  obtain ⟨l, hl, rfl⟩ := Option.map_eq_some_iff.mp hi
  refine ⟨aliveAt_of_aliveLeases (List.mem_of_mem_head? hl), ?_⟩
  intro a ha
  obtain ⟨k, hk, rfl⟩ := Option.map_eq_some_iff.mp ha
  exact h n.id (isNic_of_mem hn) k (mem_natOutsideLease hk)

/-- The report is right exactly if no lease that is marked as deleted stands at a vif of
the instance, but for those whose address an alive lease there has. -/
theorem reports_iff : Reports env db inst ↔ NoneStale env db inst := by
  constructor
  · rintro h vif ⟨v, hv, rfl, hinst⟩ l hl
    exact h.ips v (mem_instanceNic.mpr ⟨hv, hinst⟩) l.ipv4 ((mem_ips_iff env).mpr ⟨l, hl, rfl⟩)
  · intro h
    have hips : ∀ n ∈ instanceNic env db inst, ∀ a ∈ ips env db n ++ natIps env db n,
        AliveAt db n.id a := by
      intro n hn a ha
      obtain ⟨l, hl, rfl⟩ := (mem_ips_iff env).mp ha
      exact h n.id (isNic_of_mem hn) l hl
    refine ⟨hips, ?_, ?_, ?_, ?_, ?_⟩
    · intro e he a ha
      obtain ⟨n, hn, rfl⟩ := List.mem_map.mp he
      rcases ha with ha | ha
      · exact aliveAt_of_head ha
      · exact aliveAt_of_head ha
    · intro e he i hi
      obtain ⟨n, hn, rfl⟩ := List.mem_map.mp he
      exact aliveAt_entry h hn hi
    · intro key a hitem
      rcases items_from hitem with ⟨rfl, ha⟩ | ⟨rfl, ha⟩ | ⟨e, he, i, hi, hkey⟩
      · obtain ⟨n, hn, ha⟩ := List.mem_flatMap.mp ha
        exact ⟨n, hn, trivial, hips n hn a (List.mem_append_left _ ha)⟩
      · obtain ⟨n, hn, ha⟩ := List.mem_flatMap.mp ha
        exact ⟨n, hn, trivial, hips n hn a (List.mem_append_right _ ha)⟩
      · obtain ⟨n, hn, rfl⟩ := List.mem_map.mp he
        obtain ⟨haddress, hnat⟩ := aliveAt_entry h hn hi
        rcases hkey with ⟨rfl, rfl⟩ | ⟨rfl, ha⟩
        · exact ⟨n, hn, rfl, haddress⟩
        · exact ⟨n, hn, rfl, hnat a ha⟩
    · intro n hn l hl _
      rcases List.mem_append.mp ((mem_ips_iff env).mpr ⟨l, hl, rfl⟩) with ha | ha
      · exact .inl (List.mem_flatMap.mpr ⟨n, hn, ha⟩)
      · exact .inr (List.mem_flatMap.mpr ⟨n, hn, ha⟩)
    · rintro n hn ⟨l, hl, halive, hnetwork⟩
      have hmem : l ∈ directIpLease env db n := by
        refine (env.scanLeases_perm _).mem_iff.mpr (List.mem_filter.mpr ⟨hl, ?_⟩)
        simp [hnetwork, halive]
      obtain ⟨k, hk⟩ := Option.isSome_iff_exists.mp (List.isSome_head?.mpr (List.ne_nil_of_mem hmem))
      refine ⟨_, Option.map_eq_some_iff.mpr ⟨k, hk, rfl⟩, ?_⟩
      rintro ⟨l', hl', -, hnat⟩
      show ((natOutsideLease env db n).map _).isSome = true
      unfold natOutsideLease
      rw [hnat, Option.bind_some, Option.isSome_map]
      apply List.isSome_head?.mpr
      apply List.ne_nil_of_mem (a := l')
      refine (env.scanLeases_perm _).mem_iff.mpr (List.mem_filter.mpr ⟨hl', ?_⟩)
      exact beq_self_eq_true _

/-! ## One call -/

variable {t : Lease.Db} {r : Lease.VifLeaseRow} {vif : Nat}

theorem isNic_congr (h : t.vifs = db.vifs) : IsNic env t inst vif ↔ IsNic env db inst vif := by
  unfold IsNic
  rw [h]

theorem mem_ipDataset : l ∈ db.ipDataset vif ↔ l ∈ db.vifLeases.rows ∧ l.networkVifId = some vif := by
  simp [Lease.Db.ipDataset]

theorem mem_ipDataset_modify {f : Lease.VifLeaseRow → Lease.VifLeaseRow}
    (hf : ∀ l, Row.pk (f l) = Row.pk l) (hrows : t.vifLeases = db.vifLeases.modify r.id f hf)
    (hr : db.vifLeases.find r.id = some r) :
    l ∈ t.ipDataset vif ↔ (l ∈ db.ipDataset vif ∧ l.id ≠ r.id) ∨
      l = f r ∧ (f r).networkVifId = some vif := by
  have hmem : l ∈ t.vifLeases.rows ↔ (l ∈ db.vifLeases.rows ∧ l.id ≠ r.id) ∨ l = f r := by
    rw [hrows]
    constructor
    · intro hl
      obtain ⟨x, hx, rfl⟩ := List.mem_map.mp hl
      by_cases hid : Row.pk x = r.id
      · rw [if_pos hid]
        rw [db.vifLeases.eq_of_pk hx (db.vifLeases.mem_of_find hr) hid]
        exact .inr rfl
      · rw [if_neg hid]
        exact .inl ⟨hx, hid⟩
    · rintro (⟨hl, hid⟩ | rfl)
      · exact List.mem_map.mpr ⟨l, hl, if_neg hid⟩
      · exact List.mem_map.mpr ⟨r, db.vifLeases.mem_of_find hr, if_pos rfl⟩
  rw [mem_ipDataset, mem_ipDataset, hmem]
  constructor
  · rintro ⟨⟨hl, hid⟩ | rfl, hvif⟩
    · exact .inl ⟨⟨hl, hvif⟩, hid⟩
    · exact .inr ⟨rfl, hvif⟩
  · rintro (⟨⟨hl, hvif⟩, hid⟩ | ⟨rfl, hvif⟩)
    · exact ⟨.inl ⟨hl, hid⟩, hvif⟩
    · exact ⟨.inr rfl, hvif⟩

theorem noneStale_create (h : NoneStale env db inst) (networkId ipv4 : Nat)
    (networkVif : Option Nat) (allocType : Lease.AllocType) (ipHandle : Option Nat) :
    NoneStale env (db.insertLease networkId ipv4 networkVif allocType ipHandle) inst := by
  intro vif hvif l hl
  have hrows : ∀ k, k ∈ (db.insertLease networkId ipv4 networkVif allocType ipHandle).vifLeases.rows ↔
      k ∈ db.vifLeases.rows ∨
        k = ⟨db.vifLeases.next, networkId, networkVif, ipv4, allocType, ipHandle, false⟩ :=
    fun k => Table.mem_create _
  obtain ⟨hl, hat⟩ := mem_ipDataset.mp hl
  rcases (hrows l).mp hl with hold | rfl
  · obtain ⟨k, hk, halive, hipv4⟩ := h vif hvif l (mem_ipDataset.mpr ⟨hold, hat⟩)
    obtain ⟨hk, hkat⟩ := mem_ipDataset.mp hk
    exact ⟨k, mem_ipDataset.mpr ⟨(hrows k).mpr (.inl hk), hkat⟩, halive, hipv4⟩
  · exact ⟨_, mem_ipDataset.mpr ⟨hl, hat⟩, rfl, rfl⟩

theorem noneStale_destroy (h : NoneStale env db inst) (hr : db.vifLeases.find r.id = some r) :
    NoneStale env (db.destroyLease r) inst ↔
      ∀ vif, IsNic env db inst vif → r.networkVifId = some vif → Twin db vif r := by
  have hmem : ∀ {l vif}, l ∈ (db.destroyLease r).ipDataset vif ↔
      (l ∈ db.ipDataset vif ∧ l.id ≠ r.id) ∨
        l = { r with deleted := true } ∧ r.networkVifId = some vif :=
    mem_ipDataset_modify (f := fun l => { l with deleted := true }) (fun _ => rfl) rfl hr
  constructor
  · intro hn vif hvif hat
    obtain ⟨k, hk, halive, hipv4⟩ := hn vif hvif _ (hmem.mpr (.inr ⟨rfl, hat⟩))
    rcases hmem.mp hk with ⟨hk, hid⟩ | ⟨rfl, -⟩
    · exact ⟨k, hk, halive, hipv4, hid⟩
    · cases halive
  · intro htwin vif hvif l hl
    have hkept : Twin db vif r → AliveAt (db.destroyLease r) vif r.ipv4 := by
      rintro ⟨k, hk, halive, hipv4, hid⟩
      exact ⟨k, hmem.mpr (.inl ⟨hk, hid⟩), halive, hipv4⟩
    rcases hmem.mp hl with ⟨hl, -⟩ | ⟨rfl, hat⟩
    · obtain ⟨k, hk, halive, hipv4⟩ := h vif hvif l hl
      by_cases hid : k.id = r.id
      · have hkr : k = r := db.vifLeases.eq_of_pk (mem_ipDataset.mp hk).1
          (db.vifLeases.mem_of_find hr) hid
        subst hkr
        rw [← hipv4]
        exact hkept (htwin vif hvif (mem_ipDataset.mp hk).2)
      · exact ⟨k, hmem.mpr (.inl ⟨hk, hid⟩), halive, hipv4⟩
    · exact hkept (htwin vif hvif hat)

theorem noneStale_detach (h : NoneStale env db inst) (hr : db.vifLeases.find r.id = some r)
    (hvifs : t.vifs = db.vifs) (hrows : t.vifLeases =
      db.vifLeases.modify r.id (fun l => { l with networkVifId := none }) fun _ => rfl) :
    NoneStale env t inst ↔ (r.deleted = false → ∀ vif, IsNic env db inst vif →
      r.networkVifId = some vif → (∃ l ∈ db.ipDataset vif, l.deleted = true ∧ l.ipv4 = r.ipv4) →
        Twin db vif r) := by
  have hmem : ∀ {l vif}, l ∈ t.ipDataset vif ↔ l ∈ db.ipDataset vif ∧ l.id ≠ r.id := by
    intro l vif
    rw [mem_ipDataset_modify _ hrows hr]
    simp
  constructor
  · rintro hn halive vif hvif hat ⟨d, hd, hdead, hipv4⟩
    have hne : d.id ≠ r.id := by
      intro hid
      have hdr : d = r := db.vifLeases.eq_of_pk (mem_ipDataset.mp hd).1
        (db.vifLeases.mem_of_find hr) hid
      rw [hdr, halive] at hdead
      cases hdead
    obtain ⟨k, hk, hkalive, hkipv4⟩ := hn vif ((isNic_congr hvifs).mpr hvif) d (hmem.mpr ⟨hd, hne⟩)
    obtain ⟨hk, hid⟩ := hmem.mp hk
    exact ⟨k, hk, hkalive, hkipv4.trans hipv4, hid⟩
  · intro htwin vif hvif l hl
    have hvif := (isNic_congr hvifs).mp hvif
    have hkept : ∀ k ∈ db.ipDataset vif, k.deleted = false → k.ipv4 = l.ipv4 → k.id ≠ r.id →
        AliveAt t vif l.ipv4 :=
      fun k hk halive hipv4 hid => ⟨k, hmem.mpr ⟨hk, hid⟩, halive, hipv4⟩
    obtain ⟨hl, hlid⟩ := hmem.mp hl
    cases hlive : l.deleted with
    | false => exact hkept l hl hlive rfl hlid
    | true =>
      obtain ⟨k, hk, halive, hipv4⟩ := h vif hvif l hl
      by_cases hid : k.id = r.id
      · have hkr : k = r := db.vifLeases.eq_of_pk (mem_ipDataset.mp hk).1
          (db.vifLeases.mem_of_find hr) hid
        subst hkr
        obtain ⟨k', hk', halive', hipv4', hid'⟩ :=
          htwin halive vif hvif (mem_ipDataset.mp hk).2 ⟨l, hl, hlive, hipv4.symm⟩
        exact hkept k' hk' halive' (hipv4'.trans hipv4) hid'
      · exact hkept k hk halive hipv4 hid

theorem noneStale_attach (vif : Nat) (h : NoneStale env db inst) (hr : db.vifLeases.find r.id = some r)
    (hfree : db.networkVif r = none) (hvifs : t.vifs = db.vifs) (hrows : t.vifLeases =
      db.vifLeases.modify r.id (fun l => { l with networkVifId := some vif }) fun _ => rfl) :
    NoneStale env t inst ↔ (r.deleted = true → IsNic env db inst vif → AliveAt db vif r.ipv4) := by
  have hmem : ∀ {l vif'}, l ∈ t.ipDataset vif' ↔ (l ∈ db.ipDataset vif' ∧ l.id ≠ r.id) ∨
      l = { r with networkVifId := some vif } ∧ some vif = some vif' :=
    mem_ipDataset_modify _ hrows hr
  -- the row was at no vif of the instance
  have hne : ∀ {k vif'}, IsNic env db inst vif' → k ∈ db.ipDataset vif' → k.id ≠ r.id := by
    rintro k vif' ⟨v, hv, rfl, -⟩ hk hid
    have hkr : k = r := db.vifLeases.eq_of_pk (mem_ipDataset.mp hk).1
      (db.vifLeases.mem_of_find hr) hid
    subst hkr
    have hfind : db.vifs.find v.id = some v := db.vifs.find_of_mem hv
    rw [Lease.Db.networkVif, (mem_ipDataset.mp hk).2, Option.bind_some, hfind] at hfree
    cases hfree
  constructor
  · intro hn hdead hvif
    obtain ⟨k, hk, halive, hipv4⟩ := hn vif ((isNic_congr hvifs).mpr hvif) _
      (hmem.mpr (.inr ⟨rfl, rfl⟩))
    rcases hmem.mp hk with ⟨hk, -⟩ | ⟨rfl, -⟩
    · exact ⟨k, hk, halive, hipv4⟩
    · cases hdead.symm.trans halive
  · intro hcond vif' hvif l hl
    have hvif := (isNic_congr hvifs).mp hvif
    have hkept : ∀ a, AliveAt db vif' a → AliveAt t vif' a := by
      rintro a ⟨k, hk, halive, hipv4⟩
      exact ⟨k, hmem.mpr (.inl ⟨hk, hne hvif hk⟩), halive, hipv4⟩
    rcases hmem.mp hl with ⟨hl, -⟩ | ⟨rfl, hat⟩
    · exact hkept _ (h vif' hvif l hl)
    · cases hat
      cases hdead : r.deleted with
      | false => exact ⟨_, hl, hdead, rfl⟩
      | true => exact hkept _ (hcond hdead hvif)

theorem isNic_saveVif {v : Nat} {network natNetwork : Option Nat}
    (h : IsNic env (step db (.saveVif v network natNetwork)) inst vif) : IsNic env db inst vif := by
  obtain ⟨w, hw, rfl, hinst⟩ := h
  obtain ⟨x, hx, rfl⟩ := List.mem_map.mp hw
  refine ⟨x, hx, ?_, hinst⟩
  dsimp only
  split
  · rfl
  · rfl

theorem detachVif_ok (h : db.detachVif r = .ok t) :
    db.revalidateLease r = [] ∧ (r.networkVifId.bind db.vifs.find).isSome = true ∧
      t = { db with
        vifLeases := db.vifLeases.modify r.id (fun l => { l with networkVifId := none }) fun _ => rfl } := by
  unfold Lease.Db.detachVif at h
  split at h
  · cases h
  · rename_i hvif
    split at h
    · rename_i hvalid
      cases h
      exact ⟨hvalid, by simpa [Option.isSome_iff_ne_none] using hvif, rfl⟩
    · cases h

theorem noneStale_step (op : Op) (h : NoneStale env db inst) :
    NoneStale env (step db op) inst ↔ Spares env inst db op := by
  cases op with
  | create networkId ipv4 networkVif allocType ipHandle =>
    refine iff_of_true ?_ trivial
    unfold step
    dsimp only
    split
    · exact noneStale_create h networkId ipv4 networkVif allocType ipHandle
    · exact h
  | saveVif v network natNetwork =>
    refine iff_of_true ?_ trivial
    intro vif hvif l hl
    exact h vif (isNic_saveVif hvif) l hl
  | destroy lease =>
    unfold step Spares
    dsimp only
    cases hfind : db.vifLeases.find lease with
    | none => exact iff_of_true h (by rintro r ⟨⟩)
    | some r =>
      have hid : r.id = lease := db.vifLeases.pk_of_find hfind
      subst hid
      simp only [Option.some.injEq, forall_eq']
      exact noneStale_destroy h hfind
  | attachVif lease vif =>
    unfold step Spares
    dsimp only
    cases hfind : db.vifLeases.find lease with
    | none => exact iff_of_true h (by rintro r ⟨⟩)
    | some r =>
      have hid : r.id = lease := db.vifLeases.pk_of_find hfind
      subst hid
      simp only [Option.some.injEq, forall_eq']
      cases hv : db.vifs.find vif with
      | none =>
        refine iff_of_true h ?_
        rintro - - ⟨v, hmem, rfl, -⟩
        have hsome := db.vifs.find_of_mem hmem
        rw [show Row.pk v = v.id from rfl, hv] at hsome
        cases hsome
      | some v =>
        have hvid : v.id = vif := db.vifs.pk_of_find hv
        subst hvid
        dsimp only
        cases hfree : db.networkVif r with
        | some w => exact iff_of_true h fun _ hno => nomatch hno
        | none =>
          rw [if_neg (by simp)]
          unfold Lease.Db.attachVif
          cases hvalid : db.revalidateLease r with
          | nil =>
            refine Iff.trans (noneStale_attach v.id h hfind hfree ?_ ?_) ?_
            · rfl
            · rfl
            · exact ⟨fun hc hdead _ => hc hdead, fun hc hdead => hc hdead rfl⟩
          | cons e es =>
            refine iff_of_true h ?_
            intro hdead
            unfold Lease.Db.revalidateLease at hvalid
            rw [if_pos hdead] at hvalid
            cases hvalid
  | detachVif lease =>
    unfold step Spares
    dsimp only
    cases hfind : db.vifLeases.find lease with
    | none => exact iff_of_true h (by rintro r ⟨⟩)
    | some r =>
      have hid : r.id = lease := db.vifLeases.pk_of_find hfind
      subst hid
      simp only [Option.some.injEq, forall_eq']
      cases hdetach : db.detachVif r with
      | ok t =>
        obtain ⟨hvalid, -, rfl⟩ := detachVif_ok hdetach
        refine Iff.trans (noneStale_detach h hfind ?_ ?_) ?_
        · rfl
        · rfl
        · exact ⟨fun hc halive _ => hc halive, fun hc halive => hc halive hvalid⟩
      | error e =>
        refine iff_of_true h ?_
        rintro - hvalid vif ⟨v, hmem, rfl, -⟩ hat -
        have hsome : db.vifs.find v.id = some v := db.vifs.find_of_mem hmem
        unfold Lease.Db.detachVif at hdetach
        rw [hat, Option.bind_some, hsome, if_neg (by simp), hvalid] at hdetach
        cases hdetach

/-! ## The calls on a vif -/

/-- Looking the lease up again makes no difference to what its destruction writes. -/
theorem step_destroy {s : Lease.VifLeaseRow} (hs : db.vifLeases.find r.id = some s)
    (hkey : s.key = r.key) : step db (.destroy r.id) = db.destroyLease r := by
  have hid : s.id = r.id := db.vifLeases.pk_of_find hs
  obtain ⟨hnetwork, hipv4⟩ := Prod.mk.inj hkey
  unfold step
  dsimp only
  rw [hs]
  dsimp only
  unfold Lease.Db.destroyLease
  rw [hid, hnetwork, hipv4]

theorem destroyLeases_run (ls : List Lease.VifLeaseRow)
    (hls : ∀ l ∈ ls, ∃ s, db.vifLeases.find l.id = some s ∧ s.key = l.key) :
    db.destroyLeases ls = (ls.map fun l => Op.destroy l.id).foldl step db := by
  induction ls generalizing db with
  | nil => rfl
  | cons l ls ih =>
    obtain ⟨s, hs, hkey⟩ := hls l List.mem_cons_self
    rw [List.map_cons, List.foldl_cons, step_destroy hs hkey]
    apply ih
    intro x hx
    obtain ⟨y, hy, hykey⟩ := hls x (List.mem_cons_of_mem _ hx)
    have hw : Lease.Writes (fun _ => True) False db (db.destroyLease l) :=
      .destroyLease .refl hs hkey trivial
    obtain ⟨y', hy', hlater⟩ := hw.later hy
    exact ⟨y', hy', hlater.key.trans hykey⟩

theorem releaseIpLease_run (db : Lease.Db) (vif : Nat) :
    Proc.final (Lease.releaseIpLease vif) db =
      ((db.ipDataset vif).map fun l => Op.destroy l.id).foldl step db := by
  apply destroyLeases_run
  intro l hl
  exact ⟨l, db.vifLeases.find_of_mem (mem_ipDataset.mp hl).1, rfl⟩

theorem addIpLease_run {v : Lease.VifRow} {allowMultiple : Bool}
    (hr : db.vifLeases.find r.id = some r) (hv : db.vifs.find v.id = some v)
    (h : db.addIpLease v r allowMultiple = .ok t) :
    t = db ∨ t = step db (.attachVif r.id v.id) := by
  unfold Lease.Db.addIpLease at h
  split at h
  · cases h
    exact .inl rfl
  split at h
  · cases h
    exact .inl rfl
  rename_i hfree
  split at h
  · cases h
    exact .inl rfl
  right
  unfold step
  dsimp only
  rw [hr, hv]
  dsimp only
  rw [show (db.networkVif r).isSome = (r.networkVifId.bind db.vifs.find).isSome from rfl,
    if_neg hfree, h]
  rfl

theorem removeIpLease_run {v : Nat} (hr : db.vifLeases.find r.id = some r)
    (h : db.removeIpLease v r = .ok t) :
    t = db ∨ t = step db (.detachVif r.id) ∨ t = step db (.destroy r.id) := by
  unfold Lease.Db.removeIpLease at h
  split at h
  · cases h
    exact .inl rfl
  split at h
  · right
    left
    unfold step
    dsimp only
    rw [hr]
    dsimp only
    rw [h]
    rfl
  · cases h
    exact .inr (.inr (step_destroy hr rfl).symm)

end

/-- Along every history the report stays right exactly as long as no call leaves a lease
that is marked as deleted at a vif of the instance without an alive one of its address. -/
theorem reports_along_iff (env : Env) (inst : Nat) (db : Lease.Db) (h : NoneStale env db inst)
    (ops : List Op) :
    Each step (fun db op => Reports env (step db op) inst) db ops ↔
      Each step (Spares env inst) db ops := by
  apply each_congr_of (fun db => NoneStale env db inst) _ _ h
  · intro db op _ hreports
    exact reports_iff.mp hreports
  · intro db op hdb
    rw [reports_iff]
    exact noneStale_step op hdb

/-! ## An address that was released -/

def oneVif : Lease.Db where
  networks := Lease.addNetwork .empty 0x0a000000
  dhcpRanges := .empty
  ipLeases := Lease.addIpLease .empty 1 0x0a00000a
  vifLeases := Lease.addVifLease .empty 1 (some 1) 0x0a00000a none false
  vifs := Lease.addVif .empty 1
  ipHandles := .empty
  routes := .empty
  ipPoolDcNetworks := []

def onlyInstance : Env where
  instanceId _ := some 1
  macAddr _ := "525400000001".toList
  scanVifs vs := vs
  scanVifs_perm _ := .refl _
  scanLeases ls := ls
  scanLeases_perm _ := .refl _

theorem noneStale_oneVif : NoneStale onlyInstance oneVif 1 := by
  intro vif _ l hl
  have halive : ∀ l ∈ oneVif.vifLeases.rows, l.deleted = false := by decide
  exact ⟨l, hl, halive l (mem_ipDataset.mp hl).1, rfl⟩

/-- The vif gets a second address, and the first one is detached. -/
theorem reports_along_detached :
    Each step (fun db op => Reports onlyInstance (step db op) 1) oneVif
      [.create 1 0x0a00000b (some 1) .auto none, .detachVif 1] := by
  rw [reports_along_iff onlyInstance 1 oneVif noneStale_oneVif]
  refine ⟨trivial, ?_, trivial⟩
  rintro r - - - vif - - ⟨l, hl, hdead, -⟩
  have halive : ∀ l ∈ (step oneVif (.create 1 0x0a00000b (some 1) .auto none)).vifLeases.rows,
      l.deleted = false := by decide
  cases (halive l (mem_ipDataset.mp hl).1).symm.trans hdead

/-- The only address of the vif is released, and still among the addresses of the
instance and in its metadata. -/
theorem released_address_reported :
    ¬ ∀ (env : Env) (inst : Nat) (db : Lease.Db), NoneStale env db inst → ∀ ops : List Op,
      Each step (fun db op => Reports env (step db op) inst) db ops := by
  intro h
  have hreports := (h onlyInstance 1 oneVif noneStale_oneVif [.destroy 1]).1
  obtain ⟨n, -, -, l, hl, halive, -⟩ := hreports.items .localIpv4 0x0a00000a (by decide)
  have hdead : ∀ l ∈ (step oneVif (.destroy 1)).vifLeases.rows, l.deleted = true := by decide
  cases (hdead l (mem_ipDataset.mp hl).1).symm.trans halive

end Report

end WakameVdc
