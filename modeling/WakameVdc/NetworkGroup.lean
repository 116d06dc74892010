import WakameVdc.IpLeaseIncremental
import WakameVdc.Lib.Loop
import WakameVdc.VifIndexSound

/-!
# Networks of a group

`NetworkGroup#schedule` of `scheduler/network/network_group.rb`, with the addresses of
the incremental scheduler. A network without a free address is dropped, and the block
that has created a vif and attached it to that network is run again.
-/

namespace WakameVdc

open Lib

namespace GroupScheduler

open VifIndex (VifRow VifError IpAnswer)

/-- An entry of the `vifs` parameter: whether there is a MAC address for each vif made
for it, and whether its security groups are known. -/
structure VifTemplate where
  index : VifIndex.Index
  network : Option Text
  macAddr : Nat → Bool
  securityGroups : Nat → Bool

structure Env where
  conf : VifIndex.Conf
  /-- The networks of a tag of network groups. -/
  mappedResources : Text → Option (List Nat)
  ip : Lease.Env

structure State where
  vifs : VifIndex.Vifs
  leases : Lease.Db

inductive Outcome
  | raised (e : VifError)
  | ended (s : State)

def State.allocatedIpNums (s : State) (network : Nat) : Nat :=
  (s.leases.vifLeases.rows.filter fun r =>
    r.networkId == network && r.allocType != .reserved && !r.deleted).length

/-- `NetworkVif#lease_ip_lease` of a vif without a NAT network. -/
def leaseIpLease (env : Env) (leases : Lease.Db) (vif network : Nat) :
    Except Lease.LeaseError Unit × Lease.Db :=
  if (leases.aliveLeases vif (some network)).isEmpty then
    Proc.exec (Lease.Incremental.schedule env.ip ⟨some vif, some network, none⟩) leases
  else (.ok (), leases)

/-- The local variables of the block, and how often it has been run. -/
structure Try where
  networkCandidates : List (Nat × Nat)
  tried : Nat
  state : State

/-- The block, with its `rescue` clause. -/
def round (env : Env) (instanceId : Nat) (t : VifTemplate) (a : Try) : Outcome ⊕ Try :=
  match a.networkCandidates.argmin Prod.snd with
  | none => .inl (.raised .noNetworkLeft)
  | some selected =>
    match t.index.typecast env.conf with
    | .error e => .inl (.raised e)
    | .ok index =>
      match VifIndex.addNic a.state.vifs instanceId index
        ⟨t.macAddr a.tried, t.securityGroups a.tried, .leased⟩ with
      | .error e => .inl (.raised e)
      | .ok (vifs, vif) =>
        if (a.state.leases.networks.find selected.1).isNone then .inl (.raised .unknownNetwork)
        else
          match VifIndex.attachToNetwork vifs vif selected.1 with
          | .error e => .inl (.raised e)
          | .ok vifs =>
            match leaseIpLease env a.state.leases vif.id selected.1 with
            | (.ok _, leases) => .inl (.ended ⟨vifs, leases⟩)
            | (.error (.outOfIpRange _ _), leases) =>
              .inr
                { networkCandidates := a.networkCandidates.filter fun c => c.1 ≠ selected.1
                  tried := a.tried + 1
                  state := ⟨vifs, leases⟩ }
            | (.error _, _) => .inl (.raised .noIpLease)

def Env.networks (env : Env) (t : VifTemplate) : Option (List Nat) :=
  (t.network.or env.conf.networkGroupId).bind env.mappedResources

def State.networkCandidates (s : State) (networks : List Nat) : List (Nat × Nat) :=
  networks.map fun n => (n, s.allocatedIpNums n)

/-- A turn of the loop over the templates; the block is run once more than the group
has networks at most. -/
def createVif (env : Env) (instanceId : Nat) (s : State) (t : VifTemplate) : Option Outcome :=
  match env.networks t with
  | none => some (.raised .noNetworkGroup)
  | some networks =>
    Loop.within (round env instanceId t) (networks.length + 1) ⟨s.networkCandidates networks, 0, s⟩

def createVifs (env : Env) (instanceId : Nat) : State → List VifTemplate → Option Outcome
  | s, [] => some (.ended s)
  | s, t :: ts =>
    match createVif env instanceId s t with
    | some (.ended s') => createVifs env instanceId s' ts
    | r => r

/-! ## What is promised -/

namespace State

def Full (s : State) (n : Nat) : Prop :=
  ∀ network, s.leases.networks.find n = some network → s.leases.usable network = ∅

def FullAt (env : Env) (s : State) (t : VifTemplate) : Prop :=
  ∃ networks, env.networks t = some networks ∧ ∀ n ∈ networks, s.Full n

/-- One vif more, attached to a network of the group that had a free address and, among
those, the least allocated ones, and holding one lease there; nothing else changes. -/
def NewVif (env : Env) (instanceId : Nat) (s : State) (t : VifTemplate) (s' : State) : Prop :=
  ∃ networks n vif, env.networks t = some networks ∧ n ∈ networks ∧ ¬ s.Full n ∧
    (∀ m ∈ networks, ¬ s.Full m → s.allocatedIpNums n ≤ s.allocatedIpNums m) ∧
    s'.vifs.rows = s.vifs.rows ++ [vif] ∧ vif.instanceId = some instanceId ∧
    vif.networkId = some n ∧ (s'.leases.aliveLeases vif.id (some n)).length = 1 ∧
    ∀ v ≠ vif.id, s'.leases.ipDataset v = s.leases.ipDataset v

end State

inductive OneEach (env : Env) (instanceId : Nat) : State → List VifTemplate → State → Prop
  | nil (s : State) : OneEach env instanceId s [] s
  | cons {s s' s'' : State} {t : VifTemplate} {ts : List VifTemplate} :
    s.NewVif env instanceId t s' → OneEach env instanceId s' ts s'' →
    OneEach env instanceId s (t :: ts) s''

structure Promised (env : Env) (instanceId : Nat) (s : State) (ts : List VifTemplate) : Prop where
  terminates : (createVifs env instanceId s ts).isSome
  raises : ∀ pre t post s' e, ts = pre ++ t :: post →
    createVifs env instanceId s pre = some (.ended s') →
    createVif env instanceId s' t = some (.raised e) → s'.FullAt env t
  ends : ∀ s', createVifs env instanceId s ts = some (.ended s') → OneEach env instanceId s ts s'

/-! ## What decides -/

/-- What leasing an address of the network comes to. -/
noncomputable def State.answer (s : State) (n : Nat) : IpAnswer :=
  open Classical in
  match s.leases.networks.find n with
  | none => .refused
  | some network =>
    if network.ipAssignment.order = none then .refused
    else if s.leases.usable network = ∅ then .outOfIpRange
    else .leased

/-- The networks tried one after another lead to one with a free address, and a vif can
be created for each of them. -/
inductive Finds (answer : Nat → IpAnswer) (created : Nat → Bool) : Nat → List (Nat × Nat) → Prop
  | here {k : Nat} {candidates : List (Nat × Nat)} {selected : Nat × Nat} :
    candidates.argmin Prod.snd = some selected → created k → answer selected.1 = .leased →
    Finds answer created k candidates
  | next {k : Nat} {candidates : List (Nat × Nat)} {selected : Nat × Nat} :
    candidates.argmin Prod.snd = some selected → created k → answer selected.1 = .outOfIpRange →
    Finds answer created (k + 1) (candidates.filter fun c => c.1 ≠ selected.1) →
    Finds answer created k candidates

def VifTemplate.created (t : VifTemplate) (k : Nat) : Bool := t.macAddr k && t.securityGroups k

/-- The vif can be created, and the index it is given after so many others is in the column. -/
def VifTemplate.createdAfter (t : VifTemplate) (index : Int) (k : Nat) : Bool :=
  t.created k && decide (index + k ≤ VifIndex.maxIndex)

/-- The network selected first has a free address, and the vif can be created. -/
def State.Fits (env : Env) (instanceId : Nat) (s : State) (t : VifTemplate) : Prop :=
  ∃ networks selected index, env.networks t = some networks ∧
    (s.networkCandidates networks).argmin Prod.snd = some selected ∧
    t.index.typecast env.conf = .ok index ∧ t.created 0 ∧
    (VifIndex.deviceIndexes s.vifs instanceId ++
      [VifIndex.stored (index.getD (VifIndex.nextIndex s.vifs instanceId))]).Nodup ∧
    s.answer selected.1 = .leased

/-- The network selected first is full, a later one is not, and each try up to that one can
have an index of its own. -/
def State.Strays (env : Env) (instanceId : Nat) (s : State) (t : VifTemplate) : Prop :=
  ∃ networks selected, env.networks t = some networks ∧
    (s.networkCandidates networks).argmin Prod.snd = some selected ∧
    t.index.typecast env.conf = .ok none ∧ (VifIndex.deviceIndexes s.vifs instanceId).Nodup ∧
    s.answer selected.1 = .outOfIpRange ∧
    Finds s.answer (t.createdAfter (VifIndex.nextIndex s.vifs instanceId)) 0
      (s.networkCandidates networks)

/-- Every template fits the state it is taken up in. -/
inductive AllFit (env : Env) (instanceId : Nat) : State → List VifTemplate → Prop
  | nil (s : State) : AllFit env instanceId s []
  | cons {s s' : State} {t : VifTemplate} {ts : List VifTemplate} :
    s.Fits env instanceId t → createVif env instanceId s t = some (.ended s') →
    AllFit env instanceId s' ts → AllFit env instanceId s (t :: ts)

inductive FullReached (env : Env) (instanceId : Nat) : State → List VifTemplate → Prop
  | here {s : State} {t : VifTemplate} {ts : List VifTemplate} :
    s.FullAt env t → FullReached env instanceId s (t :: ts)
  | later {s s' : State} {t : VifTemplate} {ts : List VifTemplate} :
    s.Fits env instanceId t ∨ s.Strays env instanceId t →
    createVif env instanceId s t = some (.ended s') →
    FullReached env instanceId s' ts → FullReached env instanceId s (t :: ts)

structure State.Ready (env : Env) (s : State) : Prop where
  ascending : env.ip.Ascending
  unique : s.leases.UniqueLeases
  ranges : ∀ n network, s.leases.networks.find n = some network → s.leases.RangesValid network
  vifs : ∀ r ∈ s.leases.vifLeases.rows, ∀ v ∈ r.networkVifId, v < s.vifs.next
  indexes : ∀ v ∈ s.vifs.rows, VifIndex.stored v.deviceIndex = v.deviceIndex

/-! ## Leases -/

section
variable {db t : Lease.Db} {network : Lease.NetworkRow}

theorem ipDataset_insertLease (db : Lease.Db) (n a : Nat) (vif : Option Nat) (ty : Lease.AllocType)
    (handle : Option Nat) (v : Nat) :
    (db.insertLease n a vif ty handle).ipDataset v =
      db.ipDataset v ++
        if vif = some v then [⟨db.vifLeases.next, n, vif, a, ty, handle, false⟩] else [] := by
  unfold Lease.Db.ipDataset Lease.Db.insertLease Table.create
  rw [List.filter_append]
  congr 1
  by_cases hv : vif = some v
  · simp [hv]
  · simp [hv]

theorem setsAside_ipDataset (h : db.SetsAside network t) (v : Nat) :
    t.ipDataset v = db.ipDataset v := by
  induction h with
  | refl => rfl
  | addReserved _ _ _ ih =>
    rw [ipDataset_insertLease, ih, if_neg (by simp), List.append_nil]

theorem setsAside_usable_ne (h : db.SetsAside network t) {other : Lease.NetworkRow}
    (hne : other.id ≠ network.id) : t.usable other = db.usable other := by
  induction h with
  | refl => rfl
  | addReserved _ _ _ ih =>
    rw [← ih]
    unfold Lease.Db.usable
    simp only [Lease.isLeased_insertLease, beq_eq_false_iff_ne.mpr hne.symm, Bool.false_and,
      Bool.or_false]
    rfl

theorem setsAside_vifs (h : db.SetsAside network t) {next : Nat}
    (hdb : ∀ r ∈ db.vifLeases.rows, ∀ v ∈ r.networkVifId, v < next) :
    ∀ r ∈ t.vifLeases.rows, ∀ v ∈ r.networkVifId, v < next := by
  induction h with
  | refl => exact hdb
  | addReserved _ _ _ ih =>
    intro r hr v hv
    rcases List.mem_append.mp hr with hr | hr
    · exact ih r hr v hv
    · rw [List.mem_singleton.mp hr] at hv
      cases hv

end

section
variable {env : Env} {s : State} {n vif : Nat}

theorem State.Ready.aliveLeases (hs : s.Ready env) (hvif : s.vifs.next ≤ vif) :
    s.leases.ipDataset vif = [] := by
  unfold Lease.Db.ipDataset
  rw [List.filter_eq_nil_iff]
  intro r hr he
  have := hs.vifs r hr vif (beq_iff_eq.mp he)
  omega

theorem leaseIpLease_of_ready (hs : s.Ready env) (hvif : s.vifs.next ≤ vif) :
    leaseIpLease env s.leases vif n =
      Proc.exec (Lease.Incremental.schedule env.ip ⟨some vif, some n, none⟩) s.leases := by
  unfold leaseIpLease Lease.Db.aliveLeases
  rw [hs.aliveLeases hvif]
  rfl

theorem leaseIpLease_finds (hs : s.Ready env) (hvif : s.vifs.next ≤ vif)
    {network : Lease.NetworkRow} {order : Lease.Order}
    (hn : s.leases.networks.find n = some network)
    (ho : network.ipAssignment.order = some order) :
    ∃ ip t, s.leases.SetsAside network t ∧
      ((∃ a, ip = some a ∧ a ∈ s.leases.usable network) ∨
        ip = none ∧ s.leases.usable network = ∅) ∧
      leaseIpLease env s.leases vif n =
        match ip with
        | none => (.error (.outOfIpRange network.ipv4Network network.prefixLen), t)
        | some a => (.ok (), t.insertLease network.id a (some vif) .auto none) := by
  let options : Lease.ScheduleOptions := ⟨some vif, some n, none⟩
  have hfind : options.network.bind s.leases.networks.find = some network := hn
  have hopt : options.Accepted s.leases network := ⟨.inl rfl, nofun⟩
  obtain ⟨ip, t, haside, hnext, hexec⟩ :=
    Lease.schedule_finds (fun _ => hs.ascending) hs.unique hfind ho (hs.ranges n network hn) hopt
  refine ⟨ip, t, haside, ?_, (leaseIpLease_of_ready hs hvif).trans hexec⟩
  rcases hnext with ⟨a, ha, hisnext⟩ | hnone
  · exact .inl ⟨a, ha, Lease.IsNext.mem hisnext⟩
  · exact .inr hnone

theorem answer_of_found {network : Lease.NetworkRow} {order : Lease.Order}
    (hn : s.leases.networks.find n = some network) (ho : network.ipAssignment.order = some order) :
    s.answer n = open Classical in
      if s.leases.usable network = ∅ then .outOfIpRange else .leased := by
  unfold State.answer
  rw [hn]
  dsimp only
  rw [ho, if_neg (by simp)]

theorem found_of_answer (h : s.answer n ≠ .refused) : ∃ network order,
    s.leases.networks.find n = some network ∧ network.ipAssignment.order = some order := by
  unfold State.answer at h
  cases hn : s.leases.networks.find n with
  | none =>
    rw [hn] at h
    exact absurd rfl h
  | some network =>
    rw [hn] at h
    dsimp only at h
    cases ho : network.ipAssignment.order with
    | none =>
      rw [ho, if_pos rfl] at h
      exact absurd rfl h
    | some order => exact ⟨network, order, rfl, ho⟩

theorem answer_leased (h : s.answer n = .leased) : ∃ network order,
    s.leases.networks.find n = some network ∧ network.ipAssignment.order = some order ∧
    s.leases.usable network ≠ ∅ := by
  obtain ⟨network, order, hn, ho⟩ := found_of_answer (h ▸ nofun : s.answer n ≠ .refused)
  refine ⟨network, order, hn, ho, fun hu => ?_⟩
  rw [answer_of_found hn ho, if_pos hu] at h
  cases h

theorem leased_of_usable {network : Lease.NetworkRow} {order : Lease.Order}
    (hn : s.leases.networks.find n = some network) (ho : network.ipAssignment.order = some order)
    (hu : s.leases.usable network ≠ ∅) : s.answer n = .leased := by
  rw [answer_of_found hn ho, if_neg hu]

theorem answer_outOfIpRange (h : s.answer n = .outOfIpRange) : ∃ network order,
    s.leases.networks.find n = some network ∧ network.ipAssignment.order = some order ∧
    s.leases.usable network = ∅ := by
  obtain ⟨network, order, hn, ho⟩ := found_of_answer (h ▸ nofun : s.answer n ≠ .refused)
  refine ⟨network, order, hn, ho, ?_⟩
  by_contra hu
  rw [answer_of_found hn ho, if_neg hu] at h
  cases h

theorem answer_refused (h : s.answer n = .refused) {network : Lease.NetworkRow}
    (hn : s.leases.networks.find n = some network) : network.ipAssignment = .unsupported := by
  unfold State.answer at h
  rw [hn] at h
  dsimp only at h
  split at h
  · rename_i ho
    cases ha : network.ipAssignment with
    | unsupported => rfl
    | asc =>
      rw [ha] at ho
      cases ho
    | desc =>
      rw [ha] at ho
      cases ho
  · split at h <;> cases h

theorem leaseIpLease_refused (hs : s.Ready env) (hvif : s.vifs.next ≤ vif)
    {network : Lease.NetworkRow} (hn : s.leases.networks.find n = some network)
    (ha : network.ipAssignment = .unsupported) :
    leaseIpLease env s.leases vif n = (.error .unsupportedAssignment, s.leases) := by
  rw [leaseIpLease_of_ready hs hvif]
  unfold Lease.Incremental.schedule
  rw [Proc.exec_bind, Proc.exec_get]
  dsimp only
  rw [Option.bind_some, hn]
  dsimp only
  rw [if_neg (by simp), Proc.exec_bind]
  unfold Lease.Incremental.leaseAddress
  rw [ha]
  rfl

end

/-! ## One vif -/

section
variable {vifs : VifIndex.Vifs} {instanceId n : Nat} {index : Option Int}
  {answer : VifIndex.Attempt}

def givenIndex (vifs : VifIndex.Vifs) (instanceId : Nat) (index : Option Int) : Int :=
  VifIndex.stored (index.getD (VifIndex.nextIndex vifs instanceId))

theorem stored_stored (n : Int) : VifIndex.stored (VifIndex.stored n) = VifIndex.stored n := by
  unfold VifIndex.stored VifIndex.maxIndex
  omega

theorem save_create {ρ : Type} [Row ρ] (t : Table ρ) (mk : Nat → ρ) (hmk : ∀ k, Row.pk (mk k) = k)
    {r : ρ} (hr : Row.pk r = t.next) : ((t.create mk hmk).save r).rows = t.rows ++ [r] := by
  change List.map (fun x => if Row.pk x = Row.pk r then r else x) (t.rows ++ [mk t.next]) = _
  rw [List.map_append]
  congr 1
  · refine (List.map_congr_left fun x hx => ?_).trans (List.map_id _)
    have := t.bound x hx
    exact if_neg (by omega)
  · rw [List.map_singleton, if_pos ((hmk _).trans hr.symm)]

theorem nic_of_nodup (hmac : answer.macAddr = true) (hgroups : answer.securityGroups = true)
    (hnodup : (VifIndex.deviceIndexes vifs instanceId ++ [givenIndex vifs instanceId index]).Nodup)
    (n : Nat) : ∃ vifs₁ vif vifs₂ vif',
      VifIndex.addNic vifs instanceId index answer = .ok (vifs₁, vif) ∧
      VifIndex.attachToNetwork vifs₁ vif n = .ok vifs₂ ∧ vif.id = vifs.next ∧ vif'.id = vifs.next ∧
      vif'.instanceId = some instanceId ∧ vif'.networkId = some n ∧
      VifIndex.stored vif'.deviceIndex = vif'.deviceIndex ∧
      vifs₂.rows = vifs.rows ++ [vif'] ∧ vifs₂.next = vifs.next + 1 ∧
      VifIndex.deviceIndexes vifs₂ instanceId =
        VifIndex.deviceIndexes vifs instanceId ++ [givenIndex vifs instanceId index] := by
  obtain ⟨⟨vifs₁, vif⟩, hadd⟩ := VifIndex.addNic_succeeds index hmac hgroups hnodup.of_append_left
  obtain ⟨-, -, -, hfresh, hindexes⟩ := VifIndex.addNic_ok hadd
  have hindex := hindexes instanceId
  rw [if_pos rfl] at hindex
  have hsave := @VifIndex.saveVif_fresh vifs₁ vif { vif with networkId := some n } instanceId hfresh
    rfl rfl rfl rfl
  rw [if_pos (hindex ▸ hnodup)] at hsave
  have hattach := (VifIndex.attachToNetwork_fresh hfresh n).trans hsave.1
  have hid : vif.id = vifs.next ∧ VifIndex.stored vif.deviceIndex = vif.deviceIndex ∧
      ∃ mk hmk, vifs₁ = vifs.create mk hmk := by
    unfold VifIndex.addNic at hadd
    dsimp only at hadd
    split at hadd
    · cases hadd
    split at hadd
    · cases hadd
    split at hadd
    · cases hadd
    cases hadd
    exact ⟨rfl, stored_stored _, _, _, rfl⟩
  obtain ⟨hid, hstored, mk, hmk, rfl⟩ := hid
  exact ⟨_, vif, _, { vif with networkId := some n }, hadd, hattach, hid, hid, hfresh.instanceId,
    rfl, hstored, save_create vifs mk hmk hid, rfl, (hsave.2 instanceId).trans hindex⟩

/-- A vif that cannot be created, or has an index that is taken, is refused. -/
theorem nic_of_clash (h : ¬ (answer.macAddr = true ∧ answer.securityGroups = true ∧
      (VifIndex.deviceIndexes vifs instanceId ++ [givenIndex vifs instanceId index]).Nodup))
    {vifs₁ : VifIndex.Vifs} {vif : VifRow}
    (hadd : VifIndex.addNic vifs instanceId index answer = .ok (vifs₁, vif)) (n : Nat) :
    VifIndex.attachToNetwork vifs₁ vif n = .error .duplicateIndex := by
  obtain ⟨hmac, hgroups, -, hfresh, hindexes⟩ := VifIndex.addNic_ok hadd
  have hindex := hindexes instanceId
  rw [if_pos rfl] at hindex
  have hno : ¬ (VifIndex.deviceIndexes vifs₁ instanceId).Nodup := by
    rw [hindex]
    exact fun hnodup => h ⟨hmac, hgroups, hnodup⟩
  have hsave := @VifIndex.saveVif_fresh vifs₁ vif { vif with networkId := some n } instanceId hfresh
    rfl rfl rfl rfl
  rw [if_neg hno] at hsave
  exact (VifIndex.attachToNetwork_fresh hfresh n).trans hsave

section
variable (hcolumn : ∀ v ∈ vifs.rows, VifIndex.stored v.deviceIndex = v.deviceIndex)
include hcolumn

theorem stored_of_mem_deviceIndexes {i : Int} (h : i ∈ VifIndex.deviceIndexes vifs instanceId) :
    VifIndex.stored i = i := by
  obtain ⟨v, hv, rfl⟩ := List.mem_map.mp h
  exact hcolumn v (List.mem_of_mem_filter hv)

variable (instanceId) in
theorem nextIndex_cases : (∀ i ∈ VifIndex.deviceIndexes vifs instanceId,
      i < VifIndex.nextIndex vifs instanceId) ∧
    (VifIndex.nextIndex vifs instanceId ≤ VifIndex.maxIndex →
      givenIndex vifs instanceId none = VifIndex.nextIndex vifs instanceId) ∧
    (VifIndex.maxIndex < VifIndex.nextIndex vifs instanceId →
      givenIndex vifs instanceId none ∈ VifIndex.deviceIndexes vifs instanceId) := by
  unfold givenIndex VifIndex.nextIndex
  rw [Option.getD_none]
  cases hmax : (VifIndex.deviceIndexes vifs instanceId).max? with
  | none =>
    rw [List.max?_eq_none_iff.mp hmax]
    exact ⟨by simp, fun _ => by decide, fun h => absurd h (by decide)⟩
  | some maxIdx =>
    obtain ⟨hmem, hle⟩ := List.max?_eq_some_iff.mp hmax
    have hkept := stored_of_mem_deviceIndexes hcolumn hmem
    dsimp only
    refine ⟨fun i hi => ?_, fun hfits => ?_, fun hout => ?_⟩
    · have := hle i hi
      omega
    · unfold VifIndex.stored VifIndex.maxIndex at *
      omega
    · -- what is stored instead is the greatest index there is
      have hsame : VifIndex.stored (maxIdx + 1) = maxIdx := by
        unfold VifIndex.stored VifIndex.maxIndex at *
        omega
      rw [hsame]
      exact hmem

/-- The index that is given by the model is not taken, unless there is none left. -/
theorem nodup_nextIndex_iff (h : (VifIndex.deviceIndexes vifs instanceId).Nodup) :
    (VifIndex.deviceIndexes vifs instanceId ++ [givenIndex vifs instanceId none]).Nodup ↔
      VifIndex.nextIndex vifs instanceId ≤ VifIndex.maxIndex := by
  obtain ⟨hlt, hfits, hout⟩ := nextIndex_cases instanceId hcolumn
  rw [← List.concat_eq_append]
  constructor
  · intro hnodup
    by_contra hgt
    rw [List.concat_eq_append, List.nodup_append] at hnodup
    exact hnodup.2.2 _ (hout (by omega)) _ (List.mem_singleton_self _) rfl
  · intro hle
    rw [hfits hle]
    refine h.concat fun hmem => ?_
    have := hlt _ hmem
    omega

theorem nextIndex_after {vifs' : VifIndex.Vifs}
    (h : VifIndex.deviceIndexes vifs' instanceId =
      VifIndex.deviceIndexes vifs instanceId ++ [givenIndex vifs instanceId none])
    (hfits : VifIndex.nextIndex vifs instanceId ≤ VifIndex.maxIndex) :
    VifIndex.nextIndex vifs' instanceId = VifIndex.nextIndex vifs instanceId + 1 := by
  obtain ⟨hlt, hgiven, -⟩ := nextIndex_cases instanceId hcolumn
  rw [hgiven hfits] at h
  have hmax : (VifIndex.deviceIndexes vifs' instanceId).max? =
      some (VifIndex.nextIndex vifs instanceId) := by
    rw [h, List.max?_eq_some_iff]
    refine ⟨List.mem_append_right _ (List.mem_singleton_self _), fun i hi => ?_⟩
    rcases List.mem_append.mp hi with hi | hi
    · exact Int.le_of_lt (hlt i hi)
    · exact Int.le_of_eq (List.mem_singleton.mp hi)
  conv_lhs => unfold VifIndex.nextIndex
  rw [hmax]

end

end

/-! ## One run of the block -/

/-- The vif of a try stays behind when the network turns out to be full. -/
structure Retried (env : Env) (instanceId : Nat) (index : Option Int) (s s' : State) : Prop where
  ready : s'.Ready env
  answer : s'.answer = s.answer
  rows : s'.vifs.rows.length = s.vifs.rows.length + 1
  indexes : VifIndex.deviceIndexes s'.vifs instanceId =
    VifIndex.deviceIndexes s.vifs instanceId ++ [givenIndex s.vifs instanceId index]

/-- The vif of the try that ends is attached to the network and has a lease there. -/
structure Attached (env : Env) (instanceId n : Nat) (s s' : State) : Prop where
  ready : s'.Ready env
  vif : ∃ vif, s'.vifs.rows = s.vifs.rows ++ [vif] ∧ vif.instanceId = some instanceId ∧
    vif.networkId = some n ∧ (s'.leases.aliveLeases vif.id (some n)).length = 1 ∧
    ∀ v ≠ vif.id, s'.leases.ipDataset v = s.leases.ipDataset v

section
variable {env : Env} {instanceId : Nat} {t : VifTemplate} {s : State} {vifs : VifIndex.Vifs}
  {db : Lease.Db} {network : Lease.NetworkRow} {n : Nat}

theorem ready_setsAside (hs : s.Ready env) (h : s.leases.SetsAside network db) {vif : VifRow}
    (hrows : vifs.rows = s.vifs.rows ++ [vif]) (hnext : s.vifs.next ≤ vifs.next)
    (hindex : VifIndex.stored vif.deviceIndex = vif.deviceIndex) : State.Ready env ⟨vifs, db⟩ where
  ascending := hs.ascending
  unique := h.uniqueLeases hs.unique
  ranges m other hm := by
    have hranges := hs.ranges m other (h.networks ▸ hm)
    unfold Lease.Db.RangesValid Lease.Db.dhcpRangesOf at hranges ⊢
    rw [h.dhcpRanges]
    exact hranges
  vifs r hr v hv := Nat.lt_of_lt_of_le (setsAside_vifs h hs.vifs r hr v hv) hnext
  indexes v hv := by
    change v ∈ vifs.rows at hv
    rw [hrows, List.mem_append, List.mem_singleton] at hv
    rcases hv with hv | rfl
    · exact hs.indexes v hv
    · exact hindex

theorem answer_setsAside (h : s.leases.SetsAside network db)
    (hn : s.leases.networks.find network.id = some network) :
    State.answer ⟨vifs, db⟩ = s.answer := by
  funext m
  unfold State.answer
  dsimp only
  rw [h.networks]
  cases hm : s.leases.networks.find m with
  | none => rfl
  | some other =>
    have husable : db.usable other = s.leases.usable other := by
      by_cases he : other.id = network.id
      · have hm' : m = network.id := (s.leases.networks.pk_of_find hm).symm.trans he
        rw [hm', hn] at hm
        cases hm
        exact h.usable
      · exact setsAside_usable_ne h he
    dsimp only
    rw [husable]

theorem attached_insertLease (hs : s.Ready env) (h : s.leases.SetsAside network db)
    (hn : s.leases.networks.find n = some network) {a : Nat} (ha : a ∈ s.leases.usable network)
    {vif : VifRow} (hid : vif.id = s.vifs.next) (hrows : vifs.rows = s.vifs.rows ++ [vif])
    (hnext : vifs.next = s.vifs.next + 1) (hinstance : vif.instanceId = some instanceId)
    (hnetwork : vif.networkId = some n)
    (hindex : VifIndex.stored vif.deviceIndex = vif.deviceIndex) :
    Attached env instanceId n s ⟨vifs, db.insertLease network.id a (some vif.id) .auto none⟩ := by
  have hpk : network.id = n := s.leases.networks.pk_of_find hn
  have hready : State.Ready env ⟨vifs, db⟩ := ready_setsAside hs h hrows (by omega) hindex
  have husable : a ∈ db.usable network := by
    rw [h.usable]
    exact ha
  constructor
  · refine ⟨hs.ascending, Lease.uniqueLeases_insertLease hready.unique husable.2.1, ?_, ?_,
      hready.indexes⟩
    · exact hready.ranges
    · intro r hr v hv
      rcases List.mem_append.mp hr with hr | hr
      · exact hready.vifs r hr v hv
      · rw [List.mem_singleton.mp hr] at hv
        cases hv
        change vif.id < vifs.next
        omega
  · refine ⟨vif, hrows, hinstance, hnetwork, ?_, ?_⟩
    · unfold Lease.Db.aliveLeases
      rw [ipDataset_insertLease, setsAside_ipDataset h, hs.aliveLeases (Nat.le_of_eq hid.symm),
        if_pos rfl, List.nil_append, hpk]
      simp
    · intro v hv
      have hne : some vif.id ≠ some v := fun he => hv (Option.some.inj he).symm
      rw [ipDataset_insertLease, setsAside_ipDataset h, if_neg hne, List.append_nil]

end

section
variable {env : Env} {instanceId : Nat} {t : VifTemplate} {a : Try} {selected : Nat × Nat}
  {index : Option Int}

theorem round_none (h : a.networkCandidates = []) :
    round env instanceId t a = .inl (.raised .noNetworkLeft) := by
  unfold round
  rw [h]
  rfl

theorem round_typecast {e : VifError} (hsel : a.networkCandidates.argmin Prod.snd = some selected)
    (htype : t.index.typecast env.conf = .error e) :
    round env instanceId t a = .inl (.raised e) := by
  unfold round
  rw [hsel]
  dsimp only
  rw [htype]

theorem round_clash (hsel : a.networkCandidates.argmin Prod.snd = some selected)
    (htype : t.index.typecast env.conf = .ok index)
    (h : ¬ (t.created a.tried = true ∧ (VifIndex.deviceIndexes a.state.vifs instanceId ++
      [givenIndex a.state.vifs instanceId index]).Nodup)) :
    ∃ e, round env instanceId t a = .inl (.raised e) := by
  unfold round
  rw [hsel]
  dsimp only
  rw [htype]
  dsimp only
  split
  · exact ⟨_, rfl⟩
  · rename_i vifs vif hadd
    split
    · exact ⟨_, rfl⟩
    · have hrefused : ¬ (t.macAddr a.tried = true ∧ t.securityGroups a.tried = true ∧
          (VifIndex.deviceIndexes a.state.vifs instanceId ++
            [givenIndex a.state.vifs instanceId index]).Nodup) := by
        rintro ⟨hmac, hgroups, hnodup⟩
        exact h ⟨(Bool.and_eq_true _ _).mpr ⟨hmac, hgroups⟩, hnodup⟩
      rw [nic_of_clash hrefused hadd selected.1]
      exact ⟨_, rfl⟩

/-- Otherwise the try comes to what leasing an address of the network does. -/
theorem round_of_created (hs : a.state.Ready env)
    (hsel : a.networkCandidates.argmin Prod.snd = some selected)
    (htype : t.index.typecast env.conf = .ok index) (hcreated : t.created a.tried = true)
    (hnodup : (VifIndex.deviceIndexes a.state.vifs instanceId ++
      [givenIndex a.state.vifs instanceId index]).Nodup) :
    match a.state.answer selected.1 with
    | .leased => ∃ s', round env instanceId t a = .inl (.ended s') ∧
        Attached env instanceId selected.1 a.state s'
    | .outOfIpRange => ∃ s', round env instanceId t a =
        .inr ⟨a.networkCandidates.filter fun c => c.1 ≠ selected.1, a.tried + 1, s'⟩ ∧
        Retried env instanceId index a.state s'
    | .refused => ∃ e, round env instanceId t a = .inl (.raised e) := by
  unfold VifTemplate.created at hcreated
  rw [Bool.and_eq_true] at hcreated
  obtain ⟨vifs₁, vif, vifs₂, vif', hadd, hattach, hid, hid', hinstance, hnetwork, hindex, hrows,
    hnext, hindexes⟩ := @nic_of_nodup a.state.vifs instanceId index
      ⟨t.macAddr a.tried, t.securityGroups a.tried, .leased⟩ hcreated.1 hcreated.2 hnodup selected.1
  have hround : round env instanceId t a =
      if (a.state.leases.networks.find selected.1).isNone then .inl (.raised .unknownNetwork)
      else match leaseIpLease env a.state.leases vif.id selected.1 with
        | (.ok _, leases) => .inl (.ended ⟨vifs₂, leases⟩)
        | (.error (.outOfIpRange _ _), leases) =>
          .inr ⟨a.networkCandidates.filter fun c => c.1 ≠ selected.1, a.tried + 1, ⟨vifs₂, leases⟩⟩
        | (.error _, _) => .inl (.raised .noIpLease) := by
    unfold round
    rw [hsel]
    dsimp only
    rw [htype]
    dsimp only
    rw [hadd]
    dsimp only
    rw [hattach]
  have hvif : a.state.vifs.next ≤ vif.id := Nat.le_of_eq hid.symm
  cases hanswer : a.state.answer selected.1 with
  | leased =>
    obtain ⟨network, order, hn, ho, hu⟩ := answer_leased hanswer
    obtain ⟨ip, db, haside, hip, hlease⟩ := leaseIpLease_finds hs hvif hn ho
    rcases hip with ⟨b, rfl, hb⟩ | ⟨-, hnone⟩
    · rw [hn, if_neg (by simp), hlease] at hround
      rw [hid, ← hid'] at hround
      exact ⟨_, hround,
        attached_insertLease hs haside hn hb hid' hrows hnext hinstance hnetwork hindex⟩
    · exact absurd hnone hu
  | outOfIpRange =>
    obtain ⟨network, order, hn, ho, hu⟩ := answer_outOfIpRange hanswer
    obtain ⟨ip, db, haside, hip, hlease⟩ := leaseIpLease_finds hs hvif hn ho
    rcases hip with ⟨b, -, hb⟩ | ⟨rfl, -⟩
    · rw [hu] at hb
      cases hb
    · rw [hn, if_neg (by simp), hlease] at hround
      have hpk : network.id = selected.1 := a.state.leases.networks.pk_of_find hn
      refine ⟨_, hround, ready_setsAside hs haside hrows (by omega) hindex,
        answer_setsAside haside (hpk ▸ hn), ?_, hindexes⟩
      rw [hrows, List.length_append, List.length_singleton]
  | refused =>
    cases hn : a.state.leases.networks.find selected.1 with
    | none =>
      rw [hn] at hround
      exact ⟨_, hround⟩
    | some network =>
      have hlease := leaseIpLease_refused hs hvif hn (answer_refused hanswer hn)
      rw [hn, if_neg (by simp), hlease] at hround
      exact ⟨_, hround⟩

end

end GroupScheduler

end WakameVdc
