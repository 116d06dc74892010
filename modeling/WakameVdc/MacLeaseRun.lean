import WakameVdc.Lib.Run
import WakameVdc.MacLeaseSound

/-!
# MAC leases over a run

Every vif and every vnet of a host node holds the address it leased. A destroyed
vif keeps its row, with its address, its instance and its network, so it can be
destroyed again: its lease may by then belong to another vif.
-/

namespace WakameVdc

open Lib

namespace Mac

/-! ## Tables -/

structure VifRow where
  id : Nat
  instanceId : Option Nat
  networkId : Option Nat
  macAddr : Text
  deleted : Bool
  deriving DecidableEq, Repr

structure VnetRow where
  id : Nat
  broadcastAddr : Text
  deriving DecidableEq, Repr

instance : Row VifRow := ⟨VifRow.id⟩
instance : Row VnetRow := ⟨VnetRow.id⟩

/-- The address that a service vif has in its network. -/
structure ServiceLease where
  networkId : Nat
  ipv4 : Nat
  networkVifId : Nat
  deriving DecidableEq, Repr

structure Vdc where
  mac : Db
  vifs : Table VifRow
  vnets : Table VnetRow
  serviceLeases : List ServiceLease

/-- What is not fixed: the validation of a vif's other columns, whether an address
can be reserved, and whether something the vifs take along refuses to go. -/
structure Env where
  conf : Conf
  vifValid : Vdc → VifRow → Bool
  reserves : Vdc → Nat → Nat → Bool
  refuses : Vdc → List Nat → Bool

/-! ## Creating -/

/-- A new vif of an instance, as `Instance#add_nic` makes it, in the network it is
given next. -/
structure NewVif where
  scheduler : MacScheduler
  template : MacVif
  instanceId : Nat
  networkId : Option Nat
  deriving DecidableEq, Repr

namespace Vdc

def insertVif (env : Env) (vdc : Vdc) (instanceId networkId : Option Nat) (macAddr : Text) :
    Except MacError Vdc :=
  if env.vifValid vdc ⟨vdc.vifs.next, instanceId, networkId, macAddr, false⟩ then
    .ok { vdc with
      vifs := vdc.vifs.create (fun id => ⟨id, instanceId, networkId, macAddr, false⟩) fun _ => rfl }
  else .error (.validationFailed [])

def createVif (env : Env) (draws : List Nat) (new : NewVif) (vdc : Vdc) : Except MacError Vdc :=
  match Proc.exec (new.scheduler.schedule env.conf new.template >>= NetworkVif.save)
      { vdc.mac with draws := draws } with
  | (.error e, _) => .error e
  | (.ok vif, mac) =>
    insertVif env { vdc with mac := mac } (some new.instanceId) new.networkId vif.macAddr

/-- `MacLease.lease` of the configured vendor, and `pretty_mac_addr('')` of the
lease, saved with the validation vifs and vnets share. -/
def leaseVendorMac (conf : Conf) : MacM Text := do
  MacLease.lease conf conf.macAddressVendorId
  let db ← get
  match db.leases.rows.getLast? with
  | none => throw .noMethodError
  | some m => do
    let vif ← NetworkVif.save ⟨0, [], none, (Text.toS16 m.macAddr).leftpad 12 '0'⟩
    pure vif.macAddr

def addServiceVif (env : Env) (draws : List Nat) (network : Nat) (ipv4 : Option Nat) (vdc : Vdc) :
    Except MacError Vdc :=
  if ipv4.any fun ip => vdc.serviceLeases.any fun l => l.networkId == network && l.ipv4 == ip then .ok vdc
  else
    match Proc.exec (leaseVendorMac env.conf) { vdc.mac with draws := draws } with
    | (.error e, _) => .error e
    | (.ok macAddr, mac) =>
      let vif := vdc.vifs.next
      match insertVif env { vdc with mac := mac } none (some network) macAddr, ipv4 with
      | .error e, _ => .error e
      | .ok vdc, none => .ok vdc
      | .ok vdc, some ip =>
        if env.reserves vdc network ip then
          .ok { vdc with serviceLeases := vdc.serviceLeases ++ [⟨network, ip, vif⟩] }
        else .error (.validationFailed [])

def addVnet (env : Env) (draws : List Nat) (vdc : Vdc) : Except MacError Vdc :=
  match Proc.exec (leaseVendorMac env.conf) { vdc.mac with draws := draws } with
  | (.error e, _) => .error e
  | (.ok macAddr, mac) =>
    .ok { vdc with
      mac := mac
      vnets := vdc.vnets.create (fun id => ⟨id, macAddr⟩) fun _ => rfl }

/-! ## Destroying -/

/-- `NetworkVif#destroy` -/
def destroyVif (vdc : Vdc) (v : VifRow) : Vdc :=
  { vdc with
    mac := NetworkVif.beforeDestroy vdc.mac ⟨0, [], none, v.macAddr⟩
    vifs := vdc.vifs.modify v.id (fun v => { v with deleted := true }) fun _ => rfl
    serviceLeases := vdc.serviceLeases.filter fun l => l.networkVifId != v.id }

/-- `nw.network_vif`; the vifs marked as deleted stay among them. -/
def networkVif (vdc : Vdc) (network : Nat) : List VifRow :=
  vdc.vifs.rows.filter fun v => v.networkId == some network

/-- `instance.instance_nic`; the same holds for it. -/
def instanceNic (vdc : Vdc) (instance' : Nat) : List VifRow :=
  vdc.vifs.rows.filter fun v => v.instanceId == some instance'

def destroyVifs (env : Env) (vdc : Vdc) (vs : List VifRow) : Except MacError Vdc :=
  if env.refuses vdc (vs.map VifRow.id) then .error .runtimeError else .ok (vs.foldl destroyVif vdc)

/-- `DELETE /networks/:id/vifs/:vif_id` -/
def deleteVif (env : Env) (vdc : Vdc) (network vif : Nat) : Except MacError Vdc :=
  match (vdc.networkVif network).find? fun v => v.id == vif with
  | none => .error .nameError
  | some v => vdc.destroyVifs env [v]

def destroyInstance (env : Env) (vdc : Vdc) (instance' : Nat) : Except MacError Vdc :=
  vdc.destroyVifs env (vdc.instanceNic instance')

end Vdc

/-! ## Runs -/

/-- `draws` are the numbers `rand` draws during the call. -/
inductive MacOp
  | createVif (draws : List Nat) (new : NewVif)
  | addServiceVif (draws : List Nat) (network : Nat) (ipv4 : Option Nat)
  | addVnet (draws : List Nat)
  | deleteVif (network vif : Nat)
  | destroyInstance (instance' : Nat)
  deriving DecidableEq, Repr

namespace MacOp

def run (env : Env) (vdc : Vdc) : MacOp → Except MacError Vdc
  | createVif draws new => vdc.createVif env draws new
  | addServiceVif draws network ipv4 => vdc.addServiceVif env draws network ipv4
  | addVnet draws => vdc.addVnet env draws
  | deleteVif network vif => vdc.deleteVif env network vif
  | destroyInstance instance' => vdc.destroyInstance env instance'

/-- A call that raises is rolled back. -/
def step (env : Env) (vdc : Vdc) (op : MacOp) : Vdc :=
  match op.run env vdc with
  | .ok vdc => vdc
  | .error _ => vdc

def targets (env : Env) (vdc : Vdc) (op : MacOp) : List VifRow :=
  let vs := match op with
    | deleteVif network vif => ((vdc.networkVif network).find? fun v => v.id == vif).toList
    | destroyInstance instance' => vdc.instanceNic instance'
    | _ => []
  if env.refuses vdc (vs.map VifRow.id) then [] else vs

end MacOp

/-! ## Who holds which address -/

/-- The address of a row is read with `hex`. -/
def VifRow.mac (v : VifRow) : Int := v.macAddr.hex

namespace Vdc

/-- The addresses of the vnets, and of the vifs that are alive and not among `vs`. -/
def holdersBut (vdc : Vdc) (vs : List VifRow) : List Int :=
  (vdc.vifs.rows.filter fun v => !v.deleted && !vs.contains v).map VifRow.mac ++
    vdc.vnets.rows.map fun v => v.broadcastAddr.hex

def holders (vdc : Vdc) : List Int := vdc.holdersBut []

/-- An address is leased exactly if one vif or vnet holds it. -/
structure InStep (vdc : Vdc) : Prop where
  leased : ∀ m, vdc.mac.isLeased m = true ↔ m ∈ vdc.holders
  distinct : vdc.holders.Nodup

/-- The call destroys no vif for the second time whose address another vif or
vnet, which stays, holds by now. -/
def Spares (env : Env) (vdc : Vdc) (op : MacOp) : Prop :=
  ∀ v ∈ op.targets env vdc, v.deleted = true → v.mac ∉ vdc.holdersBut (op.targets env vdc)

end Vdc

/-! ## What is leased -/

/-- One more address is leased in `u`: the one `macAddr` reads as. -/
structure Gained (db u : Db) (macAddr : Text) : Prop where
  free : db.isLeased macAddr.hex = false
  leased : ∀ m, u.isLeased m = true ↔ db.isLeased m = true ∨ m = macAddr.hex

section
variable {db u : Db} {conf : Conf} {vif vif' : MacVif}

theorem isLeased_append {row : MacLeaseRow} (h : u.leases.rows = db.leases.rows ++ [row]) (m : Int) :
    u.isLeased m = true ↔ db.isLeased m = true ∨ m = row.macAddr := by
  unfold Db.isLeased
  rw [h, List.any_append, Bool.or_eq_true, List.any_cons, List.any_nil, Bool.or_false,
    beq_iff_eq, eq_comm (b := m)]

/-- The index on the addresses keeps a new one apart from those of before. -/
theorem gained_of_append {row : MacLeaseRow} {macAddr : Text}
    (h : u.leases.rows = db.leases.rows ++ [row]) (hmac : macAddr.hex = row.macAddr) :
    Gained db u macAddr where
  free := by
    rw [hmac]
    by_contra hno
    rw [Bool.not_eq_false] at hno
    obtain ⟨l, hl, he⟩ := List.any_eq_true.mp hno
    have he : l.macAddr = row.macAddr := by simpa using he
    have hunique := u.unique
    rw [h, List.map_append, List.nodup_append] at hunique
    exact hunique.2.2 l.macAddr (List.mem_map_of_mem hl) row.macAddr
      (List.mem_map_of_mem (List.mem_singleton_self row)) he
  leased := by
    intro m
    rw [isLeased_append h, hmac]

theorem normalizeMacAddr_digits (k a : Nat) : NetworkVif.normalizeMacAddr (Text.hexPad k a) =
    if k > 12 then .error .runtimeError else .ok (Text.hexPad k a) := by
  have hlower : (Text.hexPad k a).map Char.toLower = Text.hexPad k a := by
    apply (List.map_congr_left ?_).trans (List.map_id _)
    intro c hc
    obtain ⟨d, hd, rfl⟩ := Text.mem_hexPad hc
    have hall : ∀ d < 16, (Nat.digitChar d).toLower = Nat.digitChar d := by decide
    exact hall d hd
  have hkeep : (Text.hexPad k a).filter Text.isLowerHex = Text.hexPad k a :=
    List.filter_eq_self.mpr (List.all_eq_true.mp (all_lowerHex_hexPad k a))
  unfold NetworkVif.normalizeMacAddr
  rw [hlower, hkeep]
  dsimp only
  rw [Text.length_hexPad]

/-- A vif that is saved has twelve digits once everything else is left out. -/
theorem save_ok (h : Proc.exec (NetworkVif.save vif) db = (.ok vif', u)) :
    u = db ∧ NetworkVif.normalizeMacAddr vif.macAddr = .ok vif'.macAddr ∧
      vif'.macAddr.length = 12 := by
  unfold NetworkVif.save at h
  rw [Proc.exec_bind, Proc.exec_get] at h
  dsimp only at h
  cases hn : NetworkVif.normalizeMacAddr vif.macAddr with
  | error e =>
    rw [hn] at h
    cases h
  | ok macAddr =>
    rw [hn] at h
    dsimp only at h
    cases hv : NetworkVif.validate db macAddr with
    | cons e es =>
      rw [hv] at h
      cases h
    | nil =>
      rw [hv] at h
      cases h
      refine ⟨rfl, rfl, ?_⟩
      unfold NetworkVif.validate at hv
      by_contra hno
      rw [if_neg (fun hc => hno hc.1)] at hv
      cases hv

theorem length_normalizeMacAddr {str macAddr : Text}
    (h : NetworkVif.normalizeMacAddr str = .ok macAddr) : macAddr.length ≤ str.length := by
  unfold NetworkVif.normalizeMacAddr at h
  dsimp only at h
  split at h
  · cases h
  · cases h
    exact (List.length_filter_le _ _).trans (List.length_map _).le

theorem gained_of_schedule {s : MacScheduler}
    (h : Proc.exec (s.schedule conf vif >>= NetworkVif.save) db = (.ok vif', u)) :
    Gained db u vif'.macAddr := by
  obtain ⟨vif1, t, hsched, hsave⟩ := Proc.exec_bind_ok h
  obtain ⟨rfl, hnorm, hlen⟩ := save_ok hsave
  have hassign := hsched
  rw [schedule_eq] at hassign
  obtain ⟨a, t, hpick, hassign⟩ := Proc.exec_bind_ok hassign
  by_cases hlo : 0x100000000000 ≤ a
  · obtain ⟨vif2, u2, hsched2, hl⟩ := (schedule_leases_iff hpick).mpr hlo
    rw [hsched] at hsched2
    cases hsched2
    obtain ⟨row, hrow, hrows⟩ := hl.lease
    have hpickable := (answers_pick s).answer db rfl a t hpick
    rw [hl.macAddr, normalizeMacAddr_hexPad] at hnorm
    have hmac : vif'.macAddr = Text.hexPad 12 a := (Except.ok.inj hnorm).symm
    apply gained_of_append hrows
    rw [hmac, Text.hex_hexPad hpickable.lt, hrow]
  · obtain ⟨_, _, _, hvif⟩ := Proc.exec_bind_ok hassign
    cases hvif
    have hshort : (Text.toS16 a).length ≤ 11 := (Text.length_toS16_le (by decide)).mpr (by omega)
    have hle : vif'.macAddr.length ≤ (Text.toS16 a).length := length_normalizeMacAddr hnorm
    omega

theorem createLease_ok {m : Int} (h : Proc.exec (createLease m) db = (.ok (), u)) :
    ∃ row : MacLeaseRow, u.leases.rows = db.leases.rows ++ [row] := by
  unfold createLease at h
  rw [Proc.exec_bind, Proc.exec_get] at h
  dsimp only at h
  split at h
  · cases h
  · split at h
    · cases h
      exact ⟨⟨db.leases.next, m.toNat⟩, rfl⟩
    · cases h

theorem lease_ok {macAddr : Text} (h : Proc.exec (MacLease.lease conf macAddr) db = (.ok (), u)) :
    ∃ row : MacLeaseRow, u.leases.rows = db.leases.rows ++ [row] := by
  unfold MacLease.lease at h
  split at h
  · exact createLease_ok h
  · split at h
    · rw [Proc.exec_bind, Proc.exec_get] at h
      dsimp only at h
      cases hd : drawDevice conf db macAddr db.draws with
      | none =>
        rw [hd] at h
        cases h
      | some p =>
        rw [hd] at h
        obtain ⟨_, t, ht, h⟩ := Proc.exec_bind_ok h
        cases ht
        obtain ⟨row, hrow⟩ := createLease_ok h
        exact ⟨row, hrow⟩
    · cases h

theorem lt_of_normalized {m : Nat} {macAddr : Text}
    (h : NetworkVif.normalizeMacAddr ((Text.toS16 m).leftpad 12 '0') = .ok macAddr) :
    m < 16 ^ 12 ∧ macAddr = Text.hexPad 12 m := by
  by_cases hlt : m < 16 ^ 12
  · rw [Text.leftpad_toS16 hlt, normalizeMacAddr_hexPad] at h
    exact ⟨hlt, (Except.ok.inj h).symm⟩
  · have hm : m ≠ 0 := by
      rintro rfl
      exact hlt (by decide)
    have hlo : 16 ^ Nat.log 16 m ≤ m := Nat.pow_log_le_self 16 hm
    have hhi : m < 16 ^ (Nat.log 16 m + 1) := Nat.lt_pow_succ_log_self (by decide) m
    have hlog : 12 ≤ Nat.log 16 m := Nat.le_log_of_pow_le (by decide) (Nat.le_of_not_lt hlt)
    have hdigits : Text.toS16 m = Text.hexPad (Nat.log 16 m + 1) m := Text.toS16_eq_hexPad hlo hhi
    have hpad : (Text.toS16 m).leftpad 12 '0' = Text.hexPad (Nat.log 16 m + 1) m := by
      rw [hdigits, List.leftpad, Text.length_hexPad, Nat.sub_eq_zero_of_le (by omega)]
      rfl
    rw [hpad, normalizeMacAddr_digits, if_pos (by omega)] at h
    cases h

theorem gained_of_leaseVendorMac {macAddr : Text}
    (h : Proc.exec (Vdc.leaseVendorMac conf) db = (.ok macAddr, u)) : Gained db u macAddr := by
  unfold Vdc.leaseVendorMac at h
  obtain ⟨_, t, hlease, h⟩ := Proc.exec_bind_ok h
  obtain ⟨row, hrows⟩ := lease_ok hlease
  rw [Proc.exec_bind, Proc.exec_get] at h
  dsimp only at h
  rw [hrows, List.getLast?_append, List.getLast?_singleton, Option.some_or] at h
  dsimp only at h
  obtain ⟨vif, t', hsave, h⟩ := Proc.exec_bind_ok h
  cases h
  obtain ⟨rfl, hnorm, -⟩ := save_ok hsave
  obtain ⟨hlt, hmac⟩ := lt_of_normalized hnorm
  apply gained_of_append hrows
  rw [hmac, Text.hex_hexPad hlt]

theorem isLeased_beforeDestroy (db : Db) (vif : MacVif) (m : Int) :
    (NetworkVif.beforeDestroy db vif).isLeased m = true ↔
      db.isLeased m = true ∧ m ≠ vif.macAddr.hex := by
  unfold NetworkVif.beforeDestroy
  cases hf : db.leases.first fun l => (l.macAddr : Int) == vif.macAddr.hex with
  | none =>
    refine ⟨fun h => ⟨h, ?_⟩, fun h => h.1⟩
    rintro rfl
    obtain ⟨l, hmem, he⟩ := List.any_eq_true.mp h
    rw [db.leases.first_none hf l hmem] at he
    cases he
  | some row =>
    obtain ⟨hrow, he, -⟩ := db.leases.first_spec hf
    have he : (row.macAddr : Int) = vif.macAddr.hex := by simpa using he
    unfold Db.isLeased
    rw [List.any_eq_true, List.any_eq_true]
    constructor
    · rintro ⟨l, hl, hm⟩
      obtain ⟨hl, hne⟩ := db.leases.mem_delete.mp hl
      refine ⟨⟨l, hl, hm⟩, ?_⟩
      rintro rfl
      have hla : l.macAddr = row.macAddr := by
        have : (l.macAddr : Int) = vif.macAddr.hex := by simpa using hm
        omega
      rw [List.inj_on_of_nodup_map db.unique hl hrow hla] at hne
      simp at hne
    · rintro ⟨⟨l, hl, hm⟩, hne⟩
      refine ⟨l, db.leases.mem_delete.mpr ⟨hl, ?_⟩, hm⟩
      rw [beq_eq_false_iff_ne]
      intro hid
      rw [db.leases.eq_of_pk hl hrow hid, he] at hm
      have hm : vif.macAddr.hex = m := by simpa using hm
      exact hne hm.symm

end

/-! ## One call -/

section
variable {env : Env} {vdc vdc' : Vdc} {macAddr : Text}

theorem Vdc.InStep.gain (h : vdc.InStep) (hg : Gained vdc.mac vdc'.mac macAddr)
    (hp : vdc'.holders.Perm (macAddr.hex :: vdc.holders)) : vdc'.InStep := by
  constructor
  · intro m
    rw [hg.leased, hp.mem_iff, h.leased, List.mem_cons, or_comm]
  · rw [hp.nodup_iff, List.nodup_cons]
    refine ⟨fun hmem => ?_, h.distinct⟩
    have hleased := (h.leased _).mpr hmem
    rw [hg.free] at hleased
    cases hleased

theorem insertVif_ok {instanceId networkId : Option Nat}
    (h : Vdc.insertVif env vdc instanceId networkId macAddr = .ok vdc') :
    vdc'.mac = vdc.mac ∧ vdc'.holders.Perm (macAddr.hex :: vdc.holders) := by
  unfold Vdc.insertVif at h
  split at h
  · cases h
    refine ⟨rfl, ?_⟩
    unfold Vdc.holders Vdc.holdersBut Table.create
    rw [List.filter_append, List.map_append, List.append_assoc]
    exact List.perm_middle
  · cases h

theorem inStep_createVif {draws : List Nat} {new : NewVif} (hs : vdc.InStep)
    (h : vdc.createVif env draws new = .ok vdc') : vdc'.InStep := by
  unfold Vdc.createVif at h
  cases hx : Proc.exec (new.scheduler.schedule env.conf new.template >>= NetworkVif.save)
      { vdc.mac with draws := draws } with
  | mk r mac =>
    rw [hx] at h
    cases r with
    | error e => cases h
    | ok vif =>
      have hg := gained_of_schedule hx
      obtain ⟨hmac, hp⟩ := insertVif_ok h
      refine hs.gain ?_ hp
      rw [hmac]
      exact ⟨hg.free, hg.leased⟩

theorem inStep_addServiceVif {draws : List Nat} {network : Nat} {ipv4 : Option Nat}
    (hs : vdc.InStep) (h : vdc.addServiceVif env draws network ipv4 = .ok vdc') :
    vdc'.InStep := by
  unfold Vdc.addServiceVif at h
  split at h
  · cases h
    exact hs
  · cases hx : Proc.exec (Vdc.leaseVendorMac env.conf) { vdc.mac with draws := draws } with
    | mk r mac =>
      rw [hx] at h
      cases r with
      | error e => cases h
      | ok macAddr =>
        have hg := gained_of_leaseVendorMac hx
        dsimp only at h
        cases hi : Vdc.insertVif env { vdc with mac := mac } none (some network) macAddr with
        | error e =>
          rw [hi] at h
          cases h
        | ok inserted =>
          rw [hi] at h
          obtain ⟨hmac, hp⟩ := insertVif_ok hi
          have hinserted : inserted.InStep := by
            refine hs.gain ?_ hp
            rw [hmac]
            exact ⟨hg.free, hg.leased⟩
          cases ipv4 with
          | none =>
            cases h
            exact hinserted
          | some ip =>
            dsimp only at h
            split at h
            · cases h
              exact ⟨hinserted.leased, hinserted.distinct⟩
            · cases h

theorem inStep_addVnet {draws : List Nat} (hs : vdc.InStep)
    (h : vdc.addVnet env draws = .ok vdc') : vdc'.InStep := by
  unfold Vdc.addVnet at h
  cases hx : Proc.exec (Vdc.leaseVendorMac env.conf) { vdc.mac with draws := draws } with
  | mk r mac =>
    rw [hx] at h
    cases r with
    | error e => cases h
    | ok macAddr =>
      cases h
      have hg := gained_of_leaseVendorMac hx
      refine hs.gain ⟨hg.free, hg.leased⟩ ?_
      unfold Vdc.holders Vdc.holdersBut Table.create
      rw [List.map_append, ← List.append_assoc]
      exact List.perm_append_singleton _ _

/-! Destroying goes through the vifs one by one, but each only marks its own row
and drops its own address. -/

theorem isLeased_destroyed (vs : List VifRow) (vdc : Vdc) (m : Int) :
    (vs.foldl Vdc.destroyVif vdc).mac.isLeased m = true ↔
      vdc.mac.isLeased m = true ∧ ∀ v ∈ vs, m ≠ v.mac := by
  induction vs generalizing vdc with
  | nil => simp
  | cons v vs ih =>
    rw [List.foldl_cons, ih, List.forall_mem_cons, ← and_assoc]
    exact and_congr_left' (isLeased_beforeDestroy vdc.mac _ m)

theorem rows_destroyed (vs : List VifRow) (vdc : Vdc) :
    (vs.foldl Vdc.destroyVif vdc).vifs.rows =
      vdc.vifs.rows.map fun w => { w with deleted := w.deleted || vs.any fun v => v.id == w.id } := by
  induction vs generalizing vdc with
  | nil => simp
  | cons v vs ih =>
    rw [List.foldl_cons, ih]
    show (List.map _ vdc.vifs.rows).map _ = _
    rw [List.map_map]
    apply List.map_congr_left
    intro w _
    by_cases hid : w.id = v.id
    · simp [Row.pk, hid]
    · have hne : (v.id == w.id) = false := beq_eq_false_iff_ne.mpr (Ne.symm hid)
      simp [Row.pk, hid, hne]

theorem vnets_destroyed (vs : List VifRow) (vdc : Vdc) :
    (vs.foldl Vdc.destroyVif vdc).vnets = vdc.vnets := by
  induction vs generalizing vdc with
  | nil => rfl
  | cons v vs ih => rw [List.foldl_cons, ih, Vdc.destroyVif]

theorem holders_destroyed {vs : List VifRow} (hsub : ∀ v ∈ vs, v ∈ vdc.vifs.rows) :
    (vs.foldl Vdc.destroyVif vdc).holders = vdc.holdersBut vs := by
  unfold Vdc.holders Vdc.holdersBut
  rw [vnets_destroyed, rows_destroyed, List.filter_map, List.map_map]
  congr 1
  rw [List.filter_congr]
  · rfl
  · intro w hw
    have hmem : (vs.any fun v => v.id == w.id) = vs.contains w := by
      rw [Bool.eq_iff_iff, List.any_eq_true, List.contains_iff_mem]
      constructor
      · rintro ⟨v, hv, hid⟩
        rwa [← vdc.vifs.eq_of_pk (hsub v hv) hw (eq_of_beq hid)]
      · exact fun hv => ⟨w, hv, beq_self_eq_true _⟩
    simp only [Function.comp, hmem, List.contains_nil, Bool.not_false, Bool.and_true, Bool.not_or]

theorem holders_perm (vdc : Vdc) (vs : List VifRow) :
    vdc.holders.Perm (((vdc.vifs.rows.filter fun v => !v.deleted).filter vs.contains).map VifRow.mac
      ++ vdc.holdersBut vs) := by
  unfold Vdc.holders Vdc.holdersBut
  rw [← List.append_assoc, ← List.map_append]
  apply List.Perm.append_right
  apply List.Perm.map
  simp only [List.contains_nil, Bool.not_false, Bool.and_true]
  have hrest : (vdc.vifs.rows.filter fun v => !v.deleted && !vs.contains v) =
      (vdc.vifs.rows.filter fun v => !v.deleted).filter fun v => !vs.contains v := by
    rw [List.filter_filter]
    apply List.filter_congr
    intro v _
    rw [Bool.and_comm]
  rw [hrest]
  exact (List.filter_append_perm vs.contains _).symm

theorem inStep_destroyed_iff {vs : List VifRow} (hs : vdc.InStep)
    (hsub : ∀ v ∈ vs, v ∈ vdc.vifs.rows) :
    (vs.foldl Vdc.destroyVif vdc).InStep ↔
      ∀ v ∈ vs, v.deleted = true → v.mac ∉ vdc.holdersBut vs := by
  have hperm := holders_perm vdc vs
  have hdistinct := hperm.nodup_iff.mp hs.distinct
  rw [List.nodup_append] at hdistinct
  obtain ⟨-, hrest, hdisjoint⟩ := hdistinct
  constructor
  · rintro ⟨hleased, -⟩ v hv _ hmem
    rw [← holders_destroyed hsub, ← hleased, isLeased_destroyed] at hmem
    exact hmem.2 v hv rfl
  · intro hspares
    have hnone : ∀ v ∈ vs, v.mac ∉ vdc.holdersBut vs := by
      intro v hv hmem
      cases hdel : v.deleted with
      | true => exact hspares v hv hdel hmem
      | false =>
        refine hdisjoint v.mac (List.mem_map_of_mem ?_) v.mac hmem rfl
        simp [hsub v hv, hdel, hv]
    constructor
    · intro m
      rw [isLeased_destroyed, hs.leased, hperm.mem_iff, holders_destroyed hsub, List.mem_append]
      constructor
      · rintro ⟨hgone | hstays, hne⟩
        · obtain ⟨v, hv, rfl⟩ := List.mem_map.mp hgone
          exact absurd rfl (hne v (List.contains_iff_mem.mp (List.mem_filter.mp hv).2))
        · exact hstays
      · intro hmem
        refine ⟨.inr hmem, ?_⟩
        rintro v hv rfl
        exact hnone v hv hmem
    · rw [holders_destroyed hsub]
      exact hrest

theorem mem_targets {op : MacOp} {v : VifRow} (h : v ∈ op.targets env vdc) :
    v ∈ vdc.vifs.rows := by
  cases op with
  | deleteVif network vif =>
    dsimp only [MacOp.targets] at h
    split at h
    · cases h
    · have hfind := Option.mem_toList.mp h
      exact List.mem_of_mem_filter (List.mem_of_find?_eq_some hfind)
  | destroyInstance instance' =>
    dsimp only [MacOp.targets] at h
    split at h
    · cases h
    · exact List.mem_of_mem_filter h
  | createVif draws new => simp [MacOp.targets] at h
  | addServiceVif draws network ipv4 => simp [MacOp.targets] at h
  | addVnet draws => simp [MacOp.targets] at h

theorem step_deleteVif (vdc : Vdc) (network vif : Nat) :
    (MacOp.deleteVif network vif).step env vdc =
      ((MacOp.deleteVif network vif).targets env vdc).foldl Vdc.destroyVif vdc := by
  unfold MacOp.step MacOp.run MacOp.targets Vdc.deleteVif Vdc.destroyVifs
  dsimp only
  cases hf : (vdc.networkVif network).find? fun v => v.id == vif with
  | none => simp
  | some v =>
    dsimp only [Option.toList]
    by_cases hr : env.refuses vdc [v.id] = true
    · simp [hr]
    · simp [hr]

theorem step_destroyInstance (vdc : Vdc) (instance' : Nat) :
    (MacOp.destroyInstance instance').step env vdc =
      ((MacOp.destroyInstance instance').targets env vdc).foldl Vdc.destroyVif vdc := by
  unfold MacOp.step MacOp.run MacOp.targets Vdc.destroyInstance Vdc.destroyVifs
  dsimp only
  by_cases hr : env.refuses vdc ((vdc.instanceNic instance').map VifRow.id) = true
  · rw [if_pos hr, if_pos hr]
    rfl
  · rw [if_neg hr, if_neg hr]

/-- A call keeps leases and holders in step exactly if it spares the addresses of
the vifs it destroys again. -/
theorem inStep_step_iff (hs : vdc.InStep) (op : MacOp) :
    (op.step env vdc).InStep ↔ vdc.Spares env op := by
  have created : ∀ {x : Except MacError Vdc}, op.run env vdc = x →
      (∀ vdc', x = .ok vdc' → vdc'.InStep) → op.targets env vdc = [] →
      ((op.step env vdc).InStep ↔ vdc.Spares env op) := by
    intro x hx hok hnone
    refine iff_of_true ?_ ?_
    · unfold MacOp.step
      rw [hx]
      cases x with
      | error e => exact hs
      | ok vdc' => exact hok vdc' rfl
    · unfold Vdc.Spares
      rw [hnone]
      intro v hv
      cases hv
  cases op with
  | createVif draws new =>
    exact created rfl (fun _ h => inStep_createVif hs h) (ite_self [])
  | addServiceVif draws network ipv4 =>
    exact created rfl (fun _ h => inStep_addServiceVif hs h) (ite_self [])
  | addVnet draws =>
    exact created rfl (fun _ h => inStep_addVnet hs h) (ite_self [])
  | deleteVif network vif =>
    rw [step_deleteVif]
    exact inStep_destroyed_iff hs fun v hv => mem_targets hv
  | destroyInstance instance' =>
    rw [step_destroyInstance]
    exact inStep_destroyed_iff hs fun v hv => mem_targets hv

/-- Leases and holders stay in step along a run exactly if no call of it destroys a
vif again whose address has passed to another one. -/
theorem inStep_run_iff (env : Env) {vdc : Vdc} (hs : vdc.InStep) (ops : List MacOp) :
    Each (MacOp.step env) (fun vdc op => (op.step env vdc).InStep) vdc ops ↔
      Each (MacOp.step env) (Vdc.Spares env) vdc ops :=
  each_congr_of Vdc.InStep (fun _ _ _ h => h) (fun _ op h => inStep_step_iff h op) hs

end

/-! ## One address, leased twice -/

instance (env : Env) (vdc : Vdc) (op : MacOp) : Decidable (vdc.Spares env op) :=
  inferInstanceAs (Decidable (∀ v ∈ op.targets env vdc, v.deleted = true →
    v.mac ∉ vdc.holdersBut (op.targets env vdc)))

/-- Nothing but a range, from which the default scheduler picks. -/
def noVifs : Vdc := ⟨oneRange 0x525400, .empty, .empty, []⟩

def permissive : Env where
  conf := defaultConf
  vifValid := fun _ _ => true
  reserves := fun _ _ _ => true
  refuses := fun _ _ => false

theorem noVifs_inStep : noVifs.InStep where
  leased := by
    intro m
    refine iff_of_false (fun h => ?_) List.not_mem_nil
    cases h
  distinct := List.nodup_nil

def vifOf (instance' draw : Nat) : MacOp :=
  .createVif [draw] ⟨.default, newVif, instance', some 7⟩

theorem inStep_run_released :
    Each (MacOp.step permissive) (fun vdc op => (op.step permissive vdc).InStep) noVifs
      [vifOf 1 0x123456, .deleteVif 7 1, vifOf 2 0x123456, .destroyInstance 2] :=
  (inStep_run_iff permissive noVifs_inStep _).mpr (by
    refine ⟨?_, ?_, ?_, ?_, trivial⟩ <;> decide +kernel)

/-- The first vif is destroyed a second time, with its instance, while the second
vif has its address. -/
theorem lease_of_another :
    noVifs.InStep ∧
      ¬ Each (MacOp.step permissive) (fun vdc op => (op.step permissive vdc).InStep) noVifs
        [vifOf 1 0x123456, .deleteVif 7 1, vifOf 2 0x123456, .destroyInstance 1] := by
  refine ⟨noVifs_inStep, fun h => ?_⟩
  have hlast := (each_iff_cut.mp h [vifOf 1 0x123456, .deleteVif 7 1, vifOf 2 0x123456]
    (.destroyInstance 1) [] rfl).leased 0x525400123456
  revert hlast
  decide +kernel

end Mac

end WakameVdc
