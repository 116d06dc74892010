import WakameVdc.IpLeaseRun

/-!
# Reserved addresses

`Network#reserved_ip?` names the addresses that cannot be used. The incremental
scheduler sets them aside as it comes across them; a requested address is
compared with the network's segment, its ranges and the leases only, by
`check_network_ip_combo` of the API as by the scheduler.
-/

namespace WakameVdc

open Lib

namespace Lease

/-! ## Requests -/

inductive RequestError
  | unknownNetwork
  | invalidIpAddress
  | duplicateIpAddress (ipv4 : Nat)
  | ipAddressNotInSegment (ipv4 : Nat)
  | ipNotInDhcpRange (ipv4 : Nat)
  | noMethodError
  deriving DecidableEq, Repr

/-- An entry of the `vifs` parameter of `POST /instances`; an address that is
given but is no valid IPv4 address is `some none`. -/
structure VifParam where
  index : Int
  network : Option Nat
  ipv4Addr : Option (Option Nat)
  natNetwork : Option Nat
  natIpv4Addr : Option (Option Nat)
  deriving DecidableEq, Repr

def VifParam.template (p : VifParam) : VifTemplate := ⟨p.index, p.ipv4Addr.join, p.natIpv4Addr⟩

namespace Db

def checkNetworkIpCombo (db : Db) (networkId : Option Nat) (ipAddr : Option Nat) :
    Except RequestError Unit :=
  match networkId.bind db.networks.find with
  | none => .error .unknownNetwork
  | some nw =>
    match ipAddr with
    | none => .error .invalidIpAddress
    | some leaseaddr =>
      if db.ipLeases.rows.any fun l => l.ipv4 == leaseaddr then
        .error (.duplicateIpAddress leaseaddr)
      else if !nw.includes leaseaddr then .error (.ipAddressNotInSegment leaseaddr)
      else if !db.existsInDhcpRange nw.id leaseaddr then .error (.ipNotInDhcpRange leaseaddr)
      else .ok ()

def checkDcNetwork (db : Db) (networkId : Option Nat) : Except RequestError Unit :=
  match networkId.bind db.networks.find with
  | none => .error .noMethodError
  | some _ => .ok ()

def checkVifParam (db : Db) (p : VifParam) : Except RequestError Unit := do
  match p.ipv4Addr with
  | none => pure ()
  | some ip => db.checkNetworkIpCombo p.network ip
  match p.natIpv4Addr with
  | none => pure ()
  | some ip => db.checkNetworkIpCombo p.natNetwork ip
  db.checkDcNetwork p.network

/-- The vif of an accepted request, as `SpecifyNetwork#schedule` sets it up. -/
def addNic (db : Db) (params : List VifParam) (p : VifParam) : Db :=
  { db with
    vifs := db.vifs.create
      (fun id => ⟨id, p.network, (p.natNetwork.bind db.networks.find).map NetworkRow.id, p.index,
        some (params.map VifParam.template), false⟩) fun _ => rfl }

def postInstance (db : Db) (params : List VifParam) : Except RequestError Db := do
  params.forM db.checkVifParam
  return params.foldl (fun t p => t.addNic params p) db

end Db

inductive ScheduleOp
  | postInstance (params : List VifParam)
  | incremental (options : ScheduleOptions)
  | specifyIP (vif : Nat)
  deriving DecidableEq, Repr

namespace ScheduleOp

def step (env : Env) (db : Db) : ScheduleOp → Db
  | postInstance params =>
    match db.postInstance params with
    | .ok db => db
    | .error _ => db
  | incremental options => Proc.final (Incremental.schedule env options) db
  | specifyIP vif => Proc.final (withVif vif SpecifyIP.schedule) db

end ScheduleOp

/-! ## Scheduled leases -/

/-- No alive lease of a scheduler has an address its network reserves. -/
def Db.NoReservedAuto (db : Db) : Prop :=
  ∀ r ∈ db.vifLeases.rows, r.deleted = false → r.allocType = .auto →
    ∀ nw ∈ db.networks.find r.networkId, nw.isReservedIp r.ipv4 = false

def VifRow.template (vif : VifRow) : Option VifTemplate :=
  vif.requestVifs.bind fun vifs => vifs.find? fun temp => temp.index == vif.deviceIndex

namespace SpecifyIP

/-- None of the requested addresses that pass the checks is reserved. The one
outside the NAT is leased first, so the other one is checked against it too. -/
def RequestsUnreserved (db : Db) (vif : VifRow) : Prop :=
  ∀ template ∈ vif.template, ∀ network ∈ vif.networkId.bind db.networks.find,
    ∀ a ∈ (performChecks db network template.ipv4Addr).toOption, network.isReservedIp a = false ∧
      ∀ nat ∈ template.natIpv4Addr, ∀ natNetwork ∈ vif.natNetworkId.bind db.networks.find,
        ∀ b ∈ (performChecks db natNetwork nat).toOption, b ≠ a → natNetwork.isReservedIp b = false

end SpecifyIP

/-- The call requests no reserved address. -/
def ScheduleOp.Unreserved (db : Db) : ScheduleOp → Prop
  | specifyIP vif => ∀ v ∈ db.vifs.find vif, SpecifyIP.RequestsUnreserved db v
  | _ => True

theorem noReservedAuto_insertLease {db : Db} {n a : Nat} {vif : Option Nat} {t : AllocType}
    {handle : Option Nat} :
    (db.insertLease n a vif t handle).NoReservedAuto ↔
      db.NoReservedAuto ∧ (t = .auto → ∀ nw ∈ db.networks.find n, nw.isReservedIp a = false) := by
  simp only [Db.NoReservedAuto, Db.insertLease, Table.mem_create]
  constructor
  · intro h
    exact ⟨fun r hr => h r (Or.inl hr), fun ht => h _ (Or.inr rfl) rfl ht⟩
  · intro h r hr
    rcases hr with hr | hr
    · exact h.1 r hr
    · rw [hr]
      exact fun _ => h.2

/-! ## The incremental scheduler -/

/-- The networks stay as they are, and no lease of a scheduler is reserved. -/
structure Scheduled (db t : Db) : Prop where
  networks : t.networks = db.networks
  unreserved : t.NoReservedAuto

theorem keptByReserved_scheduled (db : Db) : KeptByReserved (Scheduled db) :=
  fun _ _ _ ht _ => ⟨ht.networks, noReservedAuto_insertLease.mpr ⟨ht.unreserved, nofun⟩⟩

theorem keptByHandle_scheduled (db : Db) : KeptByHandle (Scheduled db) :=
  fun _ _ ht => ⟨ht.networks, ht.unreserved⟩

theorem keeps_assign_scheduled {db : Db} {network : NetworkRow} {ip : Nat}
    (hn : db.networks.find network.id = some network) (hip : network.isReservedIp ip = false)
    (options : ScheduleOptions) :
    Proc.Keeps (Scheduled db) (Incremental.assign options network ip) := by
  have hlease : ∀ t handle, Scheduled db t → t.validateLease network.id ip handle = [] →
      Scheduled db (t.insertLease network.id ip options.networkVif .auto handle) := by
    intro t handle ht _
    refine ⟨ht.networks, noReservedAuto_insertLease.mpr ⟨ht.unreserved, ?_⟩⟩
    intro _ nw hnw
    rw [ht.networks, hn] at hnw
    cases hnw
    exact hip
  unfold Incremental.assign
  cases options.ipPool with
  | none => exact keeps_createLease fun t => hlease t none
  | some ipPool =>
    apply Proc.Keeps.bind (keeps_createIpHandle (keptByHandle_scheduled db) _)
    intro handle
    exact keeps_createLease fun t => hlease t (some handle)

theorem noReservedAuto_incremental {env : Env} {options : ScheduleOptions} {db : Db}
    (h : db.NoReservedAuto) : (Proc.final (Incremental.schedule env options) db).NoReservedAuto := by
  unfold Incremental.schedule
  rw [Proc.final_bind_get]
  cases hn : options.network.bind db.networks.find with
  | none => exact h
  | some network =>
    have hfind : db.networks.find network.id = some network := by
      obtain ⟨i, _, hi⟩ := Option.bind_eq_some_iff.mp hn
      exact db.networks.find_of_mem (db.networks.mem_of_find hi)
    dsimp only
    split
    · exact h
    · refine (Proc.Keeps.at_final ?_ db (⟨rfl, h⟩ : Scheduled db db)).unreserved
      apply (answers_leaseAddress (keptByReserved_scheduled db) env network _).bind_keeps
      intro ip hip
      cases ip with
      | none => exact Proc.keeps_throw _
      | some a => exact keeps_assign_scheduled hfind (hip a rfl) options

/-! ## Requested addresses -/

theorem mem_toOption {ε α : Type} {x : Except ε α} {a : α} : a ∈ x.toOption ↔ x = .ok a := by
  cases x with
  | error e => simp [Except.toOption]
  | ok b => simp [Except.toOption]

theorem performChecks_iff {db : Db} {nw : NetworkRow} {ip : Option Nat} {a : Nat} :
    SpecifyIP.performChecks db nw ip = .ok a ↔ ip = some a ∧ nw.includes a = true ∧
      db.existsInDhcpRange nw.id a = true ∧ ∀ l ∈ db.ipLeases.rows, l.ipv4 ≠ a := by
  cases ip with
  | none => simp [SpecifyIP.performChecks]
  | some b =>
    simp only [SpecifyIP.performChecks, Option.some.injEq]
    cases hs : nw.includes b with
    | false =>
      simp only [Bool.not_false, if_true, reduceCtorEq, false_iff]
      intro h
      rw [← h.1, hs] at h
      cases h.2.1
    | true =>
      cases hr : db.existsInDhcpRange nw.id b with
      | false =>
        simp only [Bool.not_true, Bool.false_eq_true, if_false, Bool.not_false, if_true,
          reduceCtorEq, false_iff]
        intro h
        rw [← h.1, hr] at h
        cases h.2.2.1
      | true =>
        by_cases hl : (db.ipLeases.rows.any fun l => l.ipv4 == b) = true
        · simp only [Bool.not_true, Bool.false_eq_true, if_false, if_pos hl, reduceCtorEq, false_iff]
          intro h
          obtain ⟨l, hmem, he⟩ := List.any_eq_true.mp hl
          exact h.2.2.2 l hmem (by rw [← h.1]; exact eq_of_beq he)
        · simp only [Bool.not_true, Bool.false_eq_true, if_false, if_neg hl, Except.ok.injEq]
          constructor
          · intro h
            rw [← h]
            refine ⟨rfl, hs, hr, ?_⟩
            intro l hmem he
            exact hl (List.any_eq_true.mpr ⟨l, hmem, beq_iff_eq.mpr he⟩)
          · exact fun h => h.1

theorem performChecks_insertLease {db : Db} {nw : NetworkRow} {ip : Option Nat} {n a b : Nat}
    {vif : Option Nat} {t : AllocType} :
    SpecifyIP.performChecks (db.insertLease n a vif t none) nw ip = .ok b ↔
      SpecifyIP.performChecks db nw ip = .ok b ∧ b ≠ a := by
  have hrange : (db.insertLease n a vif t none).existsInDhcpRange nw.id b =
      db.existsInDhcpRange nw.id b := rfl
  have hrows : (∀ l ∈ (db.insertLease n a vif t none).ipLeases.rows, l.ipv4 ≠ b) ↔
      (∀ l ∈ db.ipLeases.rows, l.ipv4 ≠ b) ∧ b ≠ a := by
    simp only [Db.insertLease, Table.mem_create, or_imp, forall_and, forall_eq]
    exact and_congr_right fun _ => ne_comm
  rw [performChecks_iff, performChecks_iff, hrange, hrows, and_assoc, and_assoc, and_assoc]

section
variable {db : Db} {nw : NetworkRow} {ip : Option Nat}

theorem exec_checkAndAssign_error {e : LeaseError} (h : SpecifyIP.performChecks db nw ip = .error e)
    (vif : VifRow) : Proc.exec (SpecifyIP.checkAndAssign vif nw ip) db = (.error e, db) := by
  unfold SpecifyIP.checkAndAssign
  rw [Proc.exec_bind, Proc.exec_get]
  dsimp only
  rw [h]
  rfl

theorem exec_checkAndAssign_ok (hn : db.networks.find nw.id = some nw) {a : Nat}
    (h : SpecifyIP.performChecks db nw ip = .ok a) (vif : VifRow) :
    Proc.exec (SpecifyIP.checkAndAssign vif nw ip) db =
      (.ok (), db.insertLease nw.id a (some vif.id) .auto none) := by
  obtain ⟨_, hs, _, hl⟩ := performChecks_iff.mp h
  have hvalid : db.validateLease nw.id a none = [] := by
    have hno : db.isLeased nw.id a = false := by
      simp only [Db.isLeased, List.any_eq_false, Bool.and_eq_true, beq_iff_eq, not_and]
      exact fun l hmem _ => hl l hmem
    simp [Db.validateLease, hn, hs, hno]
  unfold SpecifyIP.checkAndAssign
  rw [Proc.exec_bind, Proc.exec_get]
  dsimp only
  rw [h]
  dsimp only
  rw [exec_createLease, if_pos hvalid]

theorem final_checkAndAssign (hn : db.networks.find nw.id = some nw) (vif : VifRow) :
    (Proc.final (SpecifyIP.checkAndAssign vif nw ip) db).NoReservedAuto ↔ db.NoReservedAuto ∧
      ∀ a ∈ (SpecifyIP.performChecks db nw ip).toOption, nw.isReservedIp a = false := by
  unfold Proc.final
  cases hc : SpecifyIP.performChecks db nw ip with
  | error e => simp [exec_checkAndAssign_error hc, Except.toOption]
  | ok a => simp [exec_checkAndAssign_ok hn hc, noReservedAuto_insertLease, hn, Except.toOption]

end

theorem find_of_bind {db : Db} {i : Option Nat} {nw : NetworkRow}
    (h : i.bind db.networks.find = some nw) : db.networks.find nw.id = some nw := by
  obtain ⟨k, _, hk⟩ := Option.bind_eq_some_iff.mp h
  exact db.networks.find_of_mem (db.networks.mem_of_find hk)

theorem final_specifyIP_none {db : Db} {vif : VifRow}
    (h : vif.template = none ∨ vif.networkId.bind db.networks.find = none) :
    Proc.final (SpecifyIP.schedule vif) db = db := by
  unfold SpecifyIP.schedule
  rw [Proc.final_bind_get]
  cases hv : vif.requestVifs with
  | none => rfl
  | some vifs =>
    dsimp only
    cases hf : vifs.find? fun temp => temp.index == vif.deviceIndex with
    | none => rfl
    | some template =>
      have ht : vif.template = some template := by
        unfold VifRow.template
        rw [hv]
        exact hf
      rcases h with h | h
      · rw [ht] at h
        cases h
      · rw [h]
        rfl

/-- A specified vif is left with an unreserved address, or with none, exactly
if it asks for no other. -/
theorem noReservedAuto_specifyIP {db : Db} (h : db.NoReservedAuto) (vif : VifRow) :
    (Proc.final (SpecifyIP.schedule vif) db).NoReservedAuto ↔
      SpecifyIP.RequestsUnreserved db vif := by
  unfold SpecifyIP.RequestsUnreserved
  cases ht : vif.template with
  | none => simp [final_specifyIP_none (Or.inl ht), h]
  | some template =>
    cases hn : vif.networkId.bind db.networks.find with
    | none => simp [final_specifyIP_none (Or.inr hn), h]
    | some network =>
      have hfind := find_of_bind hn
      obtain ⟨vifs, hv, hf⟩ := Option.bind_eq_some_iff.mp ht
      unfold SpecifyIP.schedule
      rw [Proc.final_bind_get]
      simp only [hv, hf, hn, Option.mem_some_iff, forall_eq']
      cases hc : SpecifyIP.performChecks db network template.ipv4Addr with
      | error e =>
        unfold Proc.final
        rw [Proc.exec_bind, exec_checkAndAssign_error hc]
        simp [Except.toOption, h]
      | ok a =>
        have hone : (db.insertLease network.id a (some vif.id) .auto none).NoReservedAuto ↔
            network.isReservedIp a = false := by simp [noReservedAuto_insertLease, hfind, h]
        unfold Proc.final
        rw [Proc.exec_bind, exec_checkAndAssign_ok hfind hc]
        simp only [mem_toOption, Except.ok.injEq, forall_eq']
        cases hnat : template.natIpv4Addr with
        | none => simpa [Proc.exec_pure] using hone
        | some nat =>
          cases hnn : vif.natNetworkId.bind db.networks.find with
          | none => simpa [Proc.exec_pure] using hone
          | some natNetwork =>
            simp only [Option.mem_some_iff, forall_eq']
            have hleased : (db.insertLease network.id a (some vif.id) .auto none).networks.find natNetwork.id =
                some natNetwork := find_of_bind hnn
            refine (final_checkAndAssign hleased vif).trans ?_
            rw [hone]
            apply and_congr_right
            intro _
            simp only [mem_toOption, performChecks_insertLease, and_imp]

/-! ## Runs -/

theorem noReservedAuto_postInstance {db t : Db} {params : List VifParam}
    (h : db.postInstance params = .ok t) : t.NoReservedAuto ↔ db.NoReservedAuto := by
  obtain ⟨_, _, ht⟩ := bind_ok h
  cases ht
  generalize params = ps
  have hnics : ∀ (qs : List VifParam) (t : Db),
      (qs.foldl (fun t p => t.addNic ps p) t).NoReservedAuto ↔ t.NoReservedAuto := by
    intro qs
    induction qs with
    | nil => exact fun _ => Iff.rfl
    | cons p qs ih => exact fun t => ih (t.addNic ps p)
  exact hnics ps db

theorem noReservedAuto_step {env : Env} {db : Db} (h : db.NoReservedAuto) (op : ScheduleOp) :
    (op.step env db).NoReservedAuto ↔ op.Unreserved db := by
  cases op with
  | postInstance params =>
    simp only [ScheduleOp.step, ScheduleOp.Unreserved, iff_true]
    cases hp : db.postInstance params with
    | error e => exact h
    | ok t => exact (noReservedAuto_postInstance hp).mpr h
  | incremental options =>
    simp only [ScheduleOp.step, ScheduleOp.Unreserved, iff_true]
    exact noReservedAuto_incremental h
  | specifyIP vif =>
    simp only [ScheduleOp.step, ScheduleOp.Unreserved, final_withVif]
    cases hv : db.vifs.find vif with
    | none => simpa using h
    | some v => simpa using noReservedAuto_specifyIP h v

/-- No scheduled lease in any state of a run has a reserved address exactly if
no call of the run is asked for one. -/
theorem scheduled_unreserved {env : Env} {db : Db} {ops : List ScheduleOp}
    (h : db.NoReservedAuto) :
    Each (fun db op => op.step env db) (fun db op => (op.step env db).NoReservedAuto) db ops ↔
      Each (fun db op => op.step env db) (fun db op => op.Unreserved db) db ops :=
  each_congr_of Db.NoReservedAuto (fun _ _ _ hs => hs)
    (fun _ op hs => noReservedAuto_step hs op) h

instance (db : Db) : Decidable db.NoReservedAuto :=
  inferInstanceAs (Decidable (∀ r ∈ db.vifLeases.rows, r.deleted = false → r.allocType = .auto →
    ∀ nw ∈ db.networks.find r.networkId, nw.isReservedIp r.ipv4 = false))

instance (db : Db) (vif : VifRow) : Decidable (SpecifyIP.RequestsUnreserved db vif) :=
  inferInstanceAs (Decidable (∀ template ∈ vif.template,
    ∀ network ∈ vif.networkId.bind db.networks.find,
    ∀ a ∈ (SpecifyIP.performChecks db network template.ipv4Addr).toOption,
      network.isReservedIp a = false ∧
      ∀ nat ∈ template.natIpv4Addr, ∀ natNetwork ∈ vif.natNetworkId.bind db.networks.find,
        ∀ b ∈ (SpecifyIP.performChecks db natNetwork nat).toOption, b ≠ a →
          natNetwork.isReservedIp b = false))

instance (db : Db) (op : ScheduleOp) : Decidable (op.Unreserved db) :=
  match op with
  | .specifyIP vif => inferInstanceAs
    (Decidable (∀ v ∈ db.vifs.find vif, SpecifyIP.RequestsUnreserved db v))
  | .postInstance _ => inferInstanceAs (Decidable True)
  | .incremental _ => inferInstanceAs (Decidable True)

/-- `10.0.0.0/24`, its gateway `10.0.0.10` the first address of its range. -/
def gatewayInRange : Db := { threeVifs with
  networks := Table.empty.create
    (fun id => ⟨id, 0x0a000000, 24, some 0x0a00000a, none, none, none, .asc, 1⟩) fun _ => rfl
  vifs := Table.empty }

def requestFor (ipv4 : Nat) : ScheduleOp :=
  .postInstance [⟨0, some 1, some (some ipv4), none, none⟩]

theorem scheduled_unreserved_requested :
    Each (fun db op => op.step incrementalEnv db)
      (fun db op => (op.step incrementalEnv db).NoReservedAuto) gatewayInRange
      [requestFor 0x0a00000f, .incremental ⟨some 1, some 1, none⟩, .specifyIP 1] :=
  (scheduled_unreserved (by decide)).mpr ⟨trivial, trivial, by decide, trivial⟩

/-- The API accepts a request for the gateway's address, and the scheduler
leases it; the incremental scheduler passes over it. -/
theorem gateway_leased :
    gatewayInRange.checkNetworkIpCombo (some 1) (some 0x0a00000a) = .ok () ∧
      ¬ Each (fun db op => op.step incrementalEnv db)
        (fun db op => (op.step incrementalEnv db).NoReservedAuto) gatewayInRange
        [requestFor 0x0a00000a, .specifyIP 1] ∧
      ((ScheduleOp.incremental ⟨some 1, some 1, none⟩).step incrementalEnv gatewayInRange).latestIp
        1 = some 0x0a00000b := by
  refine ⟨by decide, ?_, by decide⟩
  intro h
  have hlast : ¬ ([requestFor 0x0a00000a, .specifyIP 1].foldl
      (fun db op => op.step incrementalEnv db) gatewayInRange).NoReservedAuto := by decide
  exact hlast h.2.1

end Lease

end WakameVdc
