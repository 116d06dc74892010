import WakameVdc.IpHandle

/-!
# Expiring IP handles

`expire_ip_handles` of `node_modules/maintenance.rb` selects the handles that are past
their expiry and at no vif, and then destroys them one by one. The API attaches and
detaches leases and creates handles in between.
-/

namespace WakameVdc

open Lib

namespace Lease

/-! ## Handles and the clock -/

structure IpPoolRow where
  id : Nat
  expireInitial : Option Nat
  expireReleased : Option Nat
  deriving DecidableEq, Repr

instance : Row IpPoolRow := ⟨IpPoolRow.id⟩

/-- The errors of `IpHandle#validate`. -/
inductive HandleInvalid
  | ipPool (handle : Nat)
  | ipLease (handle : Nat)
  deriving DecidableEq, Repr

inductive HandleError
  | lease (e : LeaseError)
  | invalid (errors : List HandleInvalid)
  | noMethodError
  | runtimeError
  deriving DecidableEq, Repr

/-- `pass` is what `expire_ip_handles` has selected and not come to yet. -/
structure ExpireState where
  db : Db
  ipPools : Table IpPoolRow
  /-- `ip_handles.expires_at` -/
  expiresAt : Nat → Option Nat
  now : Nat
  pass : List Nat

/-- `lease.network_vif.nil?` -/
def Db.unattached (db : Db) (lease : VifLeaseRow) : Bool :=
  (lease.networkVifId.bind db.vifs.find).isNone

def Db.joinWithIpLeases (db : Db) : List (IpHandleRow × Option VifLeaseRow) :=
  db.ipHandles.rows.flatMap fun h =>
    match db.vifLeases.rows.filter fun r => r.ipHandleId == some h.id with
    | [] => [(h, none)]
    | rs => rs.map fun r => (h, some r)

def Db.notLeased (db : Db) : List IpHandleRow :=
  (db.joinWithIpLeases.filter fun p => (p.2.bind VifLeaseRow.networkVifId).isNone).map Prod.fst

namespace ExpireState

def canDestroy (s : ExpireState) (handle : Nat) : Bool := (s.db.ipLease handle).all s.db.unattached

/-- The subset `expired` -/
def expired (s : ExpireState) (h : IpHandleRow) : Bool := (s.expiresAt h.id).any (· ≤ s.now)

/-- `IpHandle.dataset.not_leased.expired.alives` -/
def selected (s : ExpireState) : List IpHandleRow :=
  s.db.notLeased.filter fun h => s.expired h && !h.deleted

def validateHandle (s : ExpireState) (h : IpHandleRow) (expiresAt : Option Nat) :
    List HandleInvalid :=
  (if expiresAt.isNone && (s.ipPools.find h.ipPoolId).isNone then [.ipPool h.id] else []) ++
    if (s.db.ipLease h.id).isNone then [.ipLease h.id] else []

/-- `save_changes` of a stored handle with a new `expires_at`; the hook strikes it if the
lease is at a vif. -/
def saveExpiresAt (s : ExpireState) (h : IpHandleRow) (expiresAt : Option Nat) :
    Except HandleError ExpireState :=
  match s.validateHandle h expiresAt with
  | [] => .ok { s with
      expiresAt := Function.update s.expiresAt h.id
        (if s.canDestroy h.id then expiresAt else none) }
  | errors => .error (.invalid errors)

def attachVif (s : ExpireState) (lease : VifLeaseRow) (vif : VifRow) :
    Except HandleError ExpireState :=
  if s.db.unattached lease then
    match s.db.attachVif lease vif.id with
    | .error e => .error (.lease e)
    | .ok db =>
      match lease.ipHandleId.bind db.ipHandles.find with
      | none => .ok { s with db := db }
      | some h =>
        if (s.expiresAt h.id).isSome then { s with db := db }.saveExpiresAt h none
        else .ok { s with db := db }
  else .error .runtimeError

def detachVif (s : ExpireState) (lease : VifLeaseRow) : Except HandleError ExpireState :=
  if s.db.unattached lease then .error .runtimeError
  else
    match s.db.detachVif lease with
    | .error e => .error (.lease e)
    | .ok db =>
      match lease.ipHandleId.bind db.ipHandles.find with
      | none => .ok { s with db := db }
      | some h =>
        match s.ipPools.find h.ipPoolId with
        | none => .error .noMethodError
        | some ipPool =>
          match ipPool.expireReleased with
          | none => .ok { s with db := db }
          | some d => { s with db := db }.saveExpiresAt h (some (s.now + d))

/-- What `PUT /ip_pools/:id/acquire` writes: a handle, and a lease for it at the address
the scheduler found. -/
def acquire (s : ExpireState) (ipPool networkId ipv4 : Nat) : Except HandleError ExpireState :=
  match s.ipPools.find ipPool with
  | none => .error (.invalid [.ipPool s.db.ipHandles.next])
  | some pool =>
    let db := { s.db with
      ipHandles := s.db.ipHandles.create (fun id => ⟨id, ipPool, false⟩)
        fun id => pk_ipHandle ipPool id }
    match db.validateLease networkId ipv4 (some s.db.ipHandles.next) with
    | [] => .ok { s with
        db := db.insertLease networkId ipv4 none .auto (some s.db.ipHandles.next)
        expiresAt := Function.update s.expiresAt s.db.ipHandles.next
          (pool.expireInitial.map (s.now + ·)) }
    | errors => .error (.lease (.validationFailed errors))

/-- The log line and `handle.destroy`. The hook takes the lease along unless it is at a
vif; the handle goes either way. Its `expires_at` was set when it was selected and its
lease is there, so it passes its validation. -/
def destroyHandle (s : ExpireState) (handle : Nat) : Except HandleError ExpireState :=
  match s.db.ipLease handle with
  | none => .error .noMethodError
  | some lease =>
    if (s.db.networks.find lease.networkId).isNone then .error .noMethodError
    else
      let db := if s.db.unattached lease then s.db.destroyLease lease else s.db
      .ok { s with
        db := { db with
          ipHandles := db.ipHandles.modify handle (fun h => { h with deleted := true })
            pk_deletedHandle }
        expiresAt := if s.db.unattached lease then s.expiresAt
          else Function.update s.expiresAt handle none }

end ExpireState

/-! ## Steps -/

inductive ExpireOp
  | wait (d : Nat)
  | select
  | destroyNext
  | attachVif (lease vif : Nat)
  | detachVif (lease : Nat)
  | acquire (ipPool networkId ipv4 : Nat)
  deriving DecidableEq, Repr

namespace ExpireState

/-- A request that raises is rolled back; a pass that raises ends. -/
def step (s : ExpireState) : ExpireOp → ExpireState
  | .wait d => { s with now := s.now + d }
  | .select => if s.pass = [] then { s with pass := s.selected.map IpHandleRow.id } else s
  | .destroyNext =>
    match s.pass with
    | [] => s
    | h :: rest =>
      match s.destroyHandle h with
      | .ok t => { t with pass := rest }
      | .error _ => { s with pass := [] }
  | .attachVif lease vif =>
    match s.db.vifLeases.find lease, s.db.vifs.find vif with
    | some lease, some vif => (s.attachVif lease vif).toOption.getD s
    | _, _ => s
  | .detachVif lease =>
    match s.db.vifLeases.find lease with
    | some lease => (s.detachVif lease).toOption.getD s
    | none => s
  | .acquire ipPool networkId ipv4 => (s.acquire ipPool networkId ipv4).toOption.getD s

/-! ## What the pass is to do -/

def Attached (s : ExpireState) (handle : Nat) : Prop :=
  ∃ r ∈ s.db.vifLeases.rows, r.ipHandleId = some handle ∧ s.db.unattached r = false

def Destroys (s : ExpireState) (op : ExpireOp) (handle : Nat) : Prop :=
  (∃ x ∈ s.db.ipHandles.rows, x.id = handle ∧ x.deleted = false) ∧
    ∃ x ∈ (s.step op).db.ipHandles.rows, x.id = handle ∧ x.deleted = true

def Freed (s : ExpireState) : Prop :=
  ∀ x ∈ s.db.ipHandles.rows, x.deleted = true →
    ∀ r ∈ s.db.vifLeases.rows, r.ipHandleId = some x.id → r.deleted = true

/-- A step destroys no handle whose lease is at a vif, and the address of one it destroys
is leased no more. -/
structure Spares (s : ExpireState) (op : ExpireOp) : Prop where
  attached : ∀ h, s.Destroys op h → ¬ s.Attached h
  address : ∀ h, s.Destroys op h → ∀ r ∈ (s.step op).db.vifLeases.rows, r.ipHandleId = some h →
    (s.step op).db.isLeased r.networkId r.ipv4 = false
  freed : (s.step op).Freed

/-- An alive handle, past its expiry and at no vif. -/
def Due (s : ExpireState) (handle : Nat) : Prop :=
  (∃ x ∈ s.db.ipHandles.rows, x.id = handle ∧ x.deleted = false ∧ s.expired x = true) ∧
    ¬ s.Attached handle

/-- Along the run every step spares the attached handles, and a pass that is complete has
destroyed what was due when it began. -/
structure Expires (s : ExpireState) (ops : List ExpireOp) : Prop where
  spares : Each step Spares s ops
  complete : ∀ pre mid post, ops = pre ++ .select :: (mid ++ post) →
    (pre.foldl step s).pass = [] → ((pre ++ .select :: mid).foldl step s).pass = [] →
    ∀ h, (pre.foldl step s).Due h →
      ∃ x ∈ ((pre ++ .select :: mid).foldl step s).db.ipHandles.rows, x.id = h ∧ x.deleted = true

end ExpireState

/-! ## Every handle has its lease -/

structure Db.HandlesOwn (db : Db) : Prop where
  leased : ∀ x ∈ db.ipHandles.rows, ∃ r ∈ db.vifLeases.rows, r.ipHandleId = some x.id
  unique : ∀ r ∈ db.vifLeases.rows, ∀ r' ∈ db.vifLeases.rows, ∀ h, r.ipHandleId = some h →
    r'.ipHandleId = some h → r = r'
  owner : ∀ r ∈ db.vifLeases.rows, ∀ h, r.ipHandleId = some h → ∃ x ∈ db.ipHandles.rows, x.id = h
  network : ∀ r ∈ db.vifLeases.rows, (db.networks.find r.networkId).isSome = true
  vif : ∀ r ∈ db.vifLeases.rows, ∀ v, r.networkVifId = some v → (db.vifs.find v).isSome = true

def Db.moveLease (db : Db) (k : Nat) (v : Option Nat) : Db := { db with
  vifLeases := db.vifLeases.modify k (fun r => { r with networkVifId := v }) fun _ => rfl }

section
variable {db : Db}

theorem Db.HandlesOwn.ipLease (h : db.HandlesOwn) {r : VifLeaseRow} (hr : r ∈ db.vifLeases.rows)
    {handle : Nat} (hown : r.ipHandleId = some handle) : db.ipLease handle = some r := by
  cases hf : db.ipLease handle with
  | none =>
    have := db.vifLeases.first_none hf r hr
    simp [hown] at this
  | some r' =>
    obtain ⟨hmem, hp, -⟩ := db.vifLeases.first_spec hf
    rw [h.unique r' hmem r hr handle (by simpa using hp) hown]

theorem Db.HandlesOwn.rewrite {t : Db} (h : db.HandlesOwn) {f : VifLeaseRow → VifLeaseRow}
    (hrows : t.vifLeases.rows = db.vifLeases.rows.map f) (hh : t.ipHandles = db.ipHandles)
    (hn : t.networks = db.networks) (hv : t.vifs = db.vifs)
    (howner : ∀ r, (f r).ipHandleId = r.ipHandleId) (hnetwork : ∀ r, (f r).networkId = r.networkId)
    (hvif : ∀ r, (f r).networkVifId = r.networkVifId ∨
      ∀ v, (f r).networkVifId = some v → (db.vifs.find v).isSome = true) : t.HandlesOwn := by
  have hmem : ∀ {r}, r ∈ t.vifLeases.rows → ∃ y ∈ db.vifLeases.rows, f y = r := by
    intro r hr
    rw [hrows] at hr
    exact List.mem_map.mp hr
  constructor
  · intro x hx
    rw [hh] at hx
    obtain ⟨r, hr, hown⟩ := h.leased x hx
    exact ⟨f r, hrows ▸ List.mem_map_of_mem hr, (howner r).trans hown⟩
  · intro r hr r' hr' handle hown hown'
    obtain ⟨y, hy, rfl⟩ := hmem hr
    obtain ⟨y', hy', rfl⟩ := hmem hr'
    rw [howner] at hown hown'
    rw [h.unique y hy y' hy' handle hown hown']
  · intro r hr handle hown
    obtain ⟨y, hy, rfl⟩ := hmem hr
    rw [howner] at hown
    rw [hh]
    exact h.owner y hy handle hown
  · intro r hr
    obtain ⟨y, hy, rfl⟩ := hmem hr
    rw [hnetwork, hn]
    exact h.network y hy
  · intro r hr w hw
    obtain ⟨y, hy, rfl⟩ := hmem hr
    rw [hv]
    rcases hvif y with hsame | hnew
    · exact h.vif y hy w (hsame.symm.trans hw)
    · exact hnew w hw

theorem Db.HandlesOwn.move (h : db.HandlesOwn) (k : Nat) {v : Option Nat}
    (hv : ∀ w, v = some w → (db.vifs.find w).isSome = true) : (db.moveLease k v).HandlesOwn := by
  refine h.rewrite rfl rfl rfl rfl ?_ ?_ ?_
  · intro r
    split <;> rfl
  · intro r
    split <;> rfl
  · intro r
    split
    · exact .inr hv
    · exact .inl rfl

theorem Db.HandlesOwn.destroyLease (h : db.HandlesOwn) (lease : VifLeaseRow) :
    (db.destroyLease lease).HandlesOwn := by
  refine h.rewrite rfl rfl rfl rfl ?_ ?_ ?_
  · intro r
    split <;> rfl
  · intro r
    split <;> rfl
  · intro r
    left
    split <;> rfl

theorem Db.HandlesOwn.deleteHandle (h : db.HandlesOwn) (handle : Nat) :
    Db.HandlesOwn { db with
      ipHandles := db.ipHandles.modify handle (fun h => { h with deleted := true }) fun _ => rfl } := by
  have hid : ∀ x : IpHandleRow,
      (if Row.pk x = handle then { x with deleted := true } else x).id = x.id := by
    intro x
    split
    · rfl
    · rfl
  refine ⟨?_, h.unique, ?_, h.network, h.vif⟩
  · intro x hx
    obtain ⟨y, hy, rfl⟩ := List.mem_map.mp hx
    rw [hid]
    exact h.leased y hy
  · intro r hr k hown
    obtain ⟨x, hx, hk⟩ := h.owner r hr k hown
    exact ⟨_, List.mem_map_of_mem hx, (hid x).trans hk⟩

theorem Db.HandlesOwn.acquire (h : db.HandlesOwn) (ipPool ipv4 : Nat) {networkId : Nat}
    (hn : (db.networks.find networkId).isSome = true) :
    Db.HandlesOwn (Db.insertLease { db with
      ipHandles := db.ipHandles.create (fun id => ⟨id, ipPool, false⟩)
        fun id => pk_ipHandle ipPool id } networkId ipv4 none .auto (some db.ipHandles.next)) := by
  have hmem : ∀ {r : VifLeaseRow}, r ∈ (Db.insertLease { db with
      ipHandles := db.ipHandles.create (fun id => ⟨id, ipPool, false⟩)
        fun id => pk_ipHandle ipPool id } networkId ipv4 none .auto
        (some db.ipHandles.next)).vifLeases.rows → r ∈ db.vifLeases.rows ∨
      r = ⟨db.vifLeases.next, networkId, none, ipv4, .auto, some db.ipHandles.next, false⟩ :=
    fun hr => (Table.mem_create _).mp hr
  have hfresh : ∀ r ∈ db.vifLeases.rows, r.ipHandleId ≠ some db.ipHandles.next := by
    intro r hr hown
    obtain ⟨x, hx, hid⟩ := h.owner r hr _ hown
    exact Nat.lt_irrefl _ (hid ▸ db.ipHandles.bound x hx)
  constructor
  · intro x hx
    rcases (Table.mem_create _).mp hx with hx | rfl
    · obtain ⟨r, hr, hown⟩ := h.leased x hx
      exact ⟨r, (Table.mem_create _).mpr (.inl hr), hown⟩
    · exact ⟨_, (Table.mem_create _).mpr (.inr rfl), rfl⟩
  · intro r hr r' hr' handle hown hown'
    rcases hmem hr with hr | rfl
    · rcases hmem hr' with hr' | rfl
      · exact h.unique r hr r' hr' handle hown hown'
      · exact absurd (hown.trans hown'.symm) (hfresh r hr)
    · rcases hmem hr' with hr' | rfl
      · exact absurd (hown'.trans hown.symm) (hfresh r' hr')
      · rfl
  · intro r hr handle hown
    rcases hmem hr with hr | rfl
    · obtain ⟨x, hx, hid⟩ := h.owner r hr handle hown
      exact ⟨x, (Table.mem_create _).mpr (.inl hx), hid⟩
    · exact ⟨_, (Table.mem_create _).mpr (.inr rfl), Option.some.inj hown⟩
  · intro r hr
    rcases hmem hr with hr | rfl
    · exact h.network r hr
    · exact hn
  · intro r hr v hv
    rcases hmem hr with hr | rfl
    · exact h.vif r hr v hv
    · cases hv

end

/-! ## One step -/

namespace ExpireState

/-- The handles the pass has yet to come to are alive. -/
structure Consistent (s : ExpireState) : Prop where
  own : s.db.HandlesOwn
  nodup : s.pass.Nodup
  alive : ∀ h ∈ s.pass, ∃ x ∈ s.db.ipHandles.rows, x.id = h ∧ x.deleted = false

section
variable {s t : ExpireState}

theorem saveExpiresAt_ok {h : IpHandleRow} {e : Option Nat} (hok : s.saveExpiresAt h e = .ok t) :
    t.db = s.db ∧ t.pass = s.pass := by
  unfold saveExpiresAt at hok
  split at hok
  · cases hok
    exact ⟨rfl, rfl⟩
  · cases hok

def Moves (s t : ExpireState) (lease : Nat) (v : Option Nat) : Prop :=
  t.pass = s.pass ∧ t.db = s.db.moveLease lease v

theorem attachVif_ok {lease : VifLeaseRow} {vif : VifRow} (hok : s.attachVif lease vif = .ok t) :
    s.Moves t lease.id (some vif.id) := by
  unfold attachVif at hok
  split at hok
  · cases hdb : s.db.attachVif lease vif.id with
    | error e => rw [hdb] at hok; cases hok
    | ok db =>
      have hmove : db = s.db.moveLease lease.id (some vif.id) := by
        unfold Db.attachVif at hdb
        split at hdb
        · cases hdb; rfl
        · cases hdb
      rw [hdb] at hok
      dsimp only at hok
      split at hok
      · cases hok
        exact ⟨rfl, hmove⟩
      · split at hok
        · obtain ⟨hsame, hpass⟩ := saveExpiresAt_ok hok
          exact ⟨hpass, hsame.trans hmove⟩
        · cases hok
          exact ⟨rfl, hmove⟩
  · cases hok

theorem detachVif_ok {lease : VifLeaseRow} (hok : s.detachVif lease = .ok t) :
    s.Moves t lease.id none := by
  unfold detachVif at hok
  split at hok
  · cases hok
  · cases hdb : s.db.detachVif lease with
    | error e => rw [hdb] at hok; cases hok
    | ok db =>
      have hmove : db = s.db.moveLease lease.id none := by
        unfold Db.detachVif at hdb
        split at hdb
        · cases hdb
        · split at hdb
          · cases hdb; rfl
          · cases hdb
      rw [hdb] at hok
      dsimp only at hok
      split at hok
      · cases hok
        exact ⟨rfl, hmove⟩
      · split at hok
        · cases hok
        · split at hok
          · cases hok
            exact ⟨rfl, hmove⟩
          · obtain ⟨hsame, hpass⟩ := saveExpiresAt_ok hok
            exact ⟨hpass, hsame.trans hmove⟩

theorem acquire_ok {ipPool networkId ipv4 : Nat} (hok : s.acquire ipPool networkId ipv4 = .ok t) :
    (s.db.networks.find networkId).isSome = true ∧ t.pass = s.pass ∧
      t.db = Db.insertLease { s.db with
        ipHandles := s.db.ipHandles.create (fun id => ⟨id, ipPool, false⟩)
          fun id => pk_ipHandle ipPool id } networkId ipv4 none .auto (some s.db.ipHandles.next) := by
  unfold acquire at hok
  split at hok
  · cases hok
  · dsimp only at hok
    split at hok
    · rename_i hvalid
      cases hok
      refine ⟨?_, rfl, rfl⟩
      unfold Db.validateLease at hvalid
      dsimp only at hvalid
      cases hn : s.db.networks.find networkId with
      | none => rw [hn] at hvalid; cases hvalid
      | some network => rfl
    · cases hok

/-- The lease of a handle, which the destroyed handle takes along if no vif has it. -/
theorem destroyHandle_ok (h : s.db.HandlesOwn) {x : IpHandleRow} (hx : x ∈ s.db.ipHandles.rows) :
    ∃ r ∈ s.db.vifLeases.rows, r.ipHandleId = some x.id ∧ ∃ t, s.destroyHandle x.id = .ok t ∧
      t.pass = s.pass ∧ t.db = { (if s.db.unattached r then s.db.destroyLease r else s.db) with
        ipHandles := s.db.ipHandles.modify x.id (fun h => { h with deleted := true }) fun _ => rfl } := by
  obtain ⟨r, hr, hown⟩ := h.leased x hx
  refine ⟨r, hr, hown, ?_⟩
  unfold destroyHandle
  rw [h.ipLease hr hown]
  dsimp only
  rw [if_neg (by rw [Option.isNone_eq_false_iff.mpr (h.network r hr)]; exact Bool.false_ne_true)]
  refine ⟨_, rfl, rfl, ?_⟩
  split <;> rfl

/-- What a step can do to the tables and to the pass. -/
inductive Change (s : ExpireState) (op : ExpireOp) (t : ExpireState) : Prop
  | keep (db : t.db = s.db) (pass : t.pass = s.pass)
  | select (db : t.db = s.db) (empty : s.pass = []) (pass : t.pass = s.selected.map IpHandleRow.id)
  | move (k : Nat) (v : Option Nat) (known : ∀ w, v = some w → (s.db.vifs.find w).isSome = true)
      (source : v = none ∨ ∃ w, op = .attachVif k w) (moves : s.Moves t k v)
  | acquire (ipPool networkId ipv4 : Nat)
      (known : (s.db.networks.find networkId).isSome = true) (pass : t.pass = s.pass)
      (db : t.db = Db.insertLease { s.db with
        ipHandles := s.db.ipHandles.create (fun id => ⟨id, ipPool, false⟩)
          fun id => pk_ipHandle ipPool id } networkId ipv4 none .auto (some s.db.ipHandles.next))

theorem change_of_toOption {op : ExpireOp} {x : Except HandleError ExpireState}
    (h : ∀ t, x = .ok t → s.Change op t) : s.Change op (x.toOption.getD s) := by
  cases x with
  | error e => exact .keep rfl rfl
  | ok t => exact h t rfl

/-- Every step but one that destroys. -/
theorem change_step (op : ExpireOp) (hop : op = .destroyNext → s.pass = []) :
    s.Change op (s.step op) := by
  cases op with
  | wait d => exact .keep rfl rfl
  | select =>
    by_cases hpass : s.pass = []
    · simp only [step, if_pos hpass]
      exact .select rfl hpass rfl
    · simp only [step, if_neg hpass]
      exact .keep rfl rfl
  | destroyNext =>
    simp only [step, hop rfl]
    exact .keep rfl rfl
  | attachVif lease vif =>
    simp only [step]
    split
    · rename_i lease vif hl hv
      apply change_of_toOption
      intro t ht
      have hid : lease.id = _ := s.db.vifLeases.pk_of_find hl
      refine .move lease.id (some vif.id) ?_ (.inr ⟨_, by rw [hid]⟩) (attachVif_ok ht)
      intro w hw
      cases hw
      have hpk : Row.pk vif = _ := s.db.vifs.pk_of_find hv
      rw [show vif.id = Row.pk vif from rfl, hpk, hv]
      rfl
    · exact .keep rfl rfl
  | detachVif lease =>
    simp only [step]
    split
    · apply change_of_toOption
      intro t ht
      exact .move _ none (fun w hw => nomatch hw) (.inl rfl) (detachVif_ok ht)
    · exact .keep rfl rfl
  | acquire ipPool networkId ipv4 =>
    simp only [step]
    apply change_of_toOption
    intro t ht
    obtain ⟨hn, hpass, hdb⟩ := acquire_ok ht
    exact .acquire ipPool networkId ipv4 hn hpass hdb

/-! ### The selection -/

theorem unattached_iff (h : s.db.HandlesOwn) {r : VifLeaseRow} (hr : r ∈ s.db.vifLeases.rows) :
    s.db.unattached r = r.networkVifId.isNone := by
  unfold Db.unattached
  cases hv : r.networkVifId with
  | none => rfl
  | some v =>
    have := h.vif r hr v hv
    rw [Option.isSome_iff_exists] at this
    obtain ⟨vif, hvif⟩ := this
    rw [Option.bind_some, hvif]
    rfl

theorem joinWithIpLeases_eq (h : s.db.HandlesOwn) :
    s.db.joinWithIpLeases = s.db.ipHandles.rows.map fun x => (x, s.db.ipLease x.id) := by
  unfold Db.joinWithIpLeases
  rw [← List.flatMap_pure_eq_map]
  apply List.flatMap_congr
  intro x hx
  obtain ⟨r, hr, hown⟩ := h.leased x hx
  have hone : s.db.vifLeases.rows.filter (fun r => r.ipHandleId == some x.id) = [r] := by
    have hall : ∀ y ∈ s.db.vifLeases.rows.filter (fun r => r.ipHandleId == some x.id), y = r := by
      intro y hy
      obtain ⟨hy, hyown⟩ := List.mem_filter.mp hy
      exact h.unique y hy r hr x.id (by simpa using hyown) hown
    have hmem : r ∈ s.db.vifLeases.rows.filter (fun r => r.ipHandleId == some x.id) :=
      List.mem_filter.mpr ⟨hr, by simp [hown]⟩
    have hnodup := (List.Nodup.of_map _ s.db.vifLeases.nodup_pk).filter
      (fun r => r.ipHandleId == some x.id)
    have hrep := List.eq_replicate_of_mem hall
    rw [hrep, List.nodup_replicate] at hnodup
    rw [hrep] at hmem ⊢
    have hpos := (List.mem_replicate.mp hmem).1
    rw [show List.length _ = 1 by omega]
    rfl
  rw [hone]
  show [(x, some r)] = [(x, s.db.ipLease x.id)]
  rw [h.ipLease hr hown]

theorem selected_eq (h : s.db.HandlesOwn) :
    s.selected = s.db.ipHandles.rows.filter fun x =>
      ((s.db.ipLease x.id).bind VifLeaseRow.networkVifId).isNone && (s.expired x && !x.deleted) := by
  unfold selected Db.notLeased
  rw [joinWithIpLeases_eq h]
  simp only [List.filter_map, List.map_map, List.filter_filter, Function.comp_def, List.map_id']
  apply List.filter_congr
  intro x _
  exact Bool.and_comm _ _

theorem mem_selected_of_due (h : s.db.HandlesOwn) {handle : Nat} (hdue : s.Due handle) :
    handle ∈ s.selected.map IpHandleRow.id := by
  obtain ⟨⟨x, hx, rfl, hd, he⟩, hattached⟩ := hdue
  obtain ⟨r, hr, hown⟩ := h.leased x hx
  have hnone : r.networkVifId.isNone = true := by
    rw [← unattached_iff h hr]
    by_contra hno
    exact hattached ⟨r, hr, hown, by simpa using hno⟩
  refine List.mem_map_of_mem ?_
  rw [selected_eq h, List.mem_filter]
  refine ⟨hx, ?_⟩
  rw [h.ipLease hr hown, Option.bind_some, hnone, he, hd]
  rfl

/-! ### What stays -/

theorem mem_deleteHandle {db : Db} {handle : Nat} {x : IpHandleRow} :
    x ∈ (db.ipHandles.modify handle (fun h => { h with deleted := true }) fun _ => rfl).rows ↔
      x ∈ db.ipHandles.rows ∧ x.id ≠ handle ∨
        x.id = handle ∧ ∃ y ∈ db.ipHandles.rows, y.id = handle ∧ x = { y with deleted := true } := by
  constructor
  · intro hx
    obtain ⟨y, hy, rfl⟩ := List.mem_map.mp hx
    by_cases hid : Row.pk y = handle
    · rw [if_pos hid]
      exact .inr ⟨hid, y, hy, hid, rfl⟩
    · rw [if_neg hid]
      exact .inl ⟨hy, hid⟩
  · rintro (⟨hx, hid⟩ | ⟨-, y, hy, hid, rfl⟩)
    · exact List.mem_map.mpr ⟨x, hx, if_neg hid⟩
    · exact List.mem_map.mpr ⟨y, hy, if_pos hid⟩

/-- The head of the pass is destroyed, and its lease too unless a vif has it. -/
theorem destroyNext_ok (h : s.Consistent) {handle : Nat} {rest : List Nat}
    (hpass : s.pass = handle :: rest) :
    ∃ r ∈ s.db.vifLeases.rows, r.ipHandleId = some handle ∧ (s.step .destroyNext).pass = rest ∧
      (s.step .destroyNext).db = { (if s.db.unattached r then s.db.destroyLease r else s.db) with
        ipHandles := s.db.ipHandles.modify handle (fun h => { h with deleted := true })
          fun _ => rfl } := by
  obtain ⟨x, hx, rfl, -⟩ := h.alive handle (hpass ▸ List.mem_cons_self ..)
  obtain ⟨r, hr, hown, t, hok, -, hdb⟩ := destroyHandle_ok h.own hx
  refine ⟨r, hr, hown, ?_⟩
  simp only [step, hpass, hok]
  exact ⟨trivial, hdb⟩

theorem Consistent.change (h : s.Consistent) {op : ExpireOp} (hc : s.Change op t) :
    t.Consistent := by
  cases hc with
  | keep hdb hpass => exact ⟨hdb ▸ h.own, hpass ▸ h.nodup, hdb ▸ hpass ▸ h.alive⟩
  | select hdb hempty hpass =>
    refine ⟨hdb ▸ h.own, ?_, ?_⟩
    · rw [hpass, selected_eq h.own]
      exact (s.db.ipHandles.nodup_pk).sublist ((List.filter_sublist).map _)
    · rw [hpass, hdb, selected_eq h.own]
      intro k hk
      obtain ⟨x, hx, rfl⟩ := List.mem_map.mp hk
      obtain ⟨hx, hp⟩ := List.mem_filter.mp hx
      simp only [Bool.and_eq_true, Bool.not_eq_true'] at hp
      exact ⟨x, hx, rfl, hp.2.2⟩
  | move k v known _ moves =>
    obtain ⟨hpass, hdb⟩ := moves
    refine ⟨hdb ▸ h.own.move k known, hpass ▸ h.nodup, ?_⟩
    rw [hpass, hdb]
    exact h.alive
  | acquire ipPool networkId ipv4 known hpass hdb =>
    refine ⟨hdb ▸ h.own.acquire ipPool ipv4 known, hpass ▸ h.nodup, ?_⟩
    rw [hpass, hdb]
    intro k hk
    obtain ⟨x, hx, hid⟩ := h.alive k hk
    exact ⟨x, (Table.mem_create _).mpr (.inl hx), hid⟩

theorem Consistent.step (h : s.Consistent) (op : ExpireOp) : (s.step op).Consistent := by
  by_cases hop : op = .destroyNext → s.pass = []
  · exact h.change (change_step op hop)
  · obtain ⟨rfl, hne⟩ := Classical.not_imp.mp hop
    obtain ⟨handle, rest, hpass⟩ := List.exists_cons_of_ne_nil hne
    obtain ⟨r, hr, hown, hrest, hdb⟩ := destroyNext_ok h hpass
    have hnodup := h.nodup
    rw [hpass, List.nodup_cons] at hnodup
    refine ⟨?_, hrest ▸ hnodup.2, ?_⟩
    · rw [hdb]
      split
      · exact (h.own.destroyLease r).deleteHandle handle
      · exact h.own.deleteHandle handle
    · rw [hrest, hdb]
      intro k hk
      obtain ⟨x, hx, rfl, hd⟩ := h.alive k (hpass ▸ List.mem_cons_of_mem _ hk)
      refine ⟨x, mem_deleteHandle.mpr (.inl ⟨hx, ?_⟩), rfl, hd⟩
      rintro rfl
      exact hnodup.1 hk

/-! ### The head of the pass -/

theorem canDestroy_eq (h : s.db.HandlesOwn) {r : VifLeaseRow} (hr : r ∈ s.db.vifLeases.rows)
    {handle : Nat} (hown : r.ipHandleId = some handle) :
    s.canDestroy handle = s.db.unattached r := by
  unfold canDestroy
  rw [h.ipLease hr hown]
  rfl

theorem attached_iff (h : s.db.HandlesOwn) {r : VifLeaseRow} (hr : r ∈ s.db.vifLeases.rows)
    {handle : Nat} (hown : r.ipHandleId = some handle) :
    s.Attached handle ↔ s.db.unattached r = false := by
  constructor
  · rintro ⟨r', hr', hown', hun⟩
    rw [h.unique r hr r' hr' handle hown hown']
    exact hun
  · intro hun
    exact ⟨r, hr, hown, hun⟩

theorem not_destroys_of_change {op : ExpireOp} (hc : s.Change op (s.step op)) (handle : Nat) :
    ¬ s.Destroys op handle := by
  have hrows : ∀ x ∈ (s.step op).db.ipHandles.rows, x ∈ s.db.ipHandles.rows ∨ x.deleted = false := by
    intro x hx
    cases hc with
    | keep hdb _ => exact .inl (hdb ▸ hx)
    | select hdb _ _ => exact .inl (hdb ▸ hx)
    | move k v _ _ moves =>
      rw [moves.2] at hx
      exact .inl hx
    | acquire ipPool networkId ipv4 _ _ hdb =>
      rw [hdb] at hx
      rcases (Table.mem_create _).mp hx with hx | rfl
      · exact .inl hx
      · exact .inr rfl
  rintro ⟨⟨x, hx, hid, hd⟩, y, hy, hid', hd'⟩
  rcases hrows y hy with hy | hy
  · have hxy : x = y := s.db.ipHandles.eq_of_pk hx hy (hid.trans hid'.symm)
    rw [hxy, hd'] at hd
    cases hd
  · rw [hy] at hd'
    cases hd'

theorem Freed.change (h : s.Freed) {op : ExpireOp} (hc : s.Change op t) : t.Freed := by
  cases hc with
  | keep hdb _ => unfold Freed; rw [hdb]; exact h
  | select hdb _ _ => unfold Freed; rw [hdb]; exact h
  | move k v _ _ moves =>
    unfold Freed
    rw [moves.2]
    intro x hx hd r hr hr'
    obtain ⟨y, hy, rfl⟩ := List.mem_map.mp hr
    have hsame : (if Row.pk y = k then { y with networkVifId := v } else y).deleted = y.deleted ∧
        (if Row.pk y = k then { y with networkVifId := v } else y).ipHandleId = y.ipHandleId := by
      split
      · exact ⟨rfl, rfl⟩
      · exact ⟨rfl, rfl⟩
    rw [hsame.2] at hr'
    rw [hsame.1]
    exact h x hx hd y hy hr'
  | acquire ipPool networkId ipv4 _ _ hdb =>
    unfold Freed
    rw [hdb]
    intro x hx hd r hr hr'
    rcases (Table.mem_create _).mp hx with hx | rfl
    · rcases (Table.mem_create _).mp hr with hr | rfl
      · exact h x hx hd r hr hr'
      · have := s.db.ipHandles.bound x hx
        rw [show Row.pk x = s.db.ipHandles.next from (Option.some.inj hr').symm] at this
        exact absurd this (Nat.lt_irrefl _)
    · cases hd

theorem isLeased_destroyLease (db : Db) (r : VifLeaseRow) :
    (db.destroyLease r).isLeased r.networkId r.ipv4 = false := by
  unfold Db.isLeased
  rw [List.any_eq_false]
  intro l hl
  have hp := ((Table.mem_delete _).mp hl).2
  rw [hp]
  exact Bool.false_ne_true

/-- The step that destroys spares what it has to if and only if the handle it comes to can
be destroyed. -/
theorem spares_destroyNext_iff (h : s.Consistent) (hf : s.Freed) {handle : Nat} {rest : List Nat}
    (hpass : s.pass = handle :: rest) : s.Spares .destroyNext ↔ s.canDestroy handle = true := by
  obtain ⟨x, hx, hid, hd⟩ := h.alive handle (hpass ▸ List.mem_cons_self ..)
  obtain ⟨r, hr, hown, hrest, hdb⟩ := destroyNext_ok h hpass
  rw [canDestroy_eq h.own hr hown]
  have hdestroys : s.Destroys .destroyNext handle := by
    refine ⟨⟨x, hx, hid, hd⟩, { x with deleted := true }, ?_, hid, rfl⟩
    rw [hdb]
    exact mem_deleteHandle.mpr (.inr ⟨hid, x, hx, hid, rfl⟩)
  have honly : ∀ k, s.Destroys .destroyNext k → k = handle := by
    rintro k ⟨⟨y, hy, rfl, hyd⟩, z, hz, hzid, hzd⟩
    rw [hdb] at hz
    rcases mem_deleteHandle.mp hz with ⟨hz, -⟩ | ⟨hz, -⟩
    · rw [s.db.ipHandles.eq_of_pk hy hz hzid.symm, hzd] at hyd
      cases hyd
    · exact hzid.symm.trans hz
  constructor
  · intro hspares
    by_contra hno
    exact hspares.attached handle hdestroys
      ((attached_iff h.own hr hown).mpr (by simpa using hno))
  · intro hun
    rw [if_pos hun] at hdb
    have hrow : ∀ {r'}, r' ∈ (s.db.destroyLease r).vifLeases.rows → r'.ipHandleId = some handle →
        r' = { r with deleted := true } := by
      intro r' hr' hown'
      obtain ⟨y, hy, rfl⟩ := List.mem_map.mp hr'
      have hyown : y.ipHandleId = some handle := by
        rw [← hown']
        split <;> rfl
      rw [h.own.unique y hy r hr handle hyown hown]
      exact if_pos rfl
    constructor
    · intro k hk
      rw [honly k hk, attached_iff h.own hr hown, hun]
      exact Bool.noConfusion
    · intro k hk r' hr' hown'
      rw [honly k hk] at hown'
      rw [hdb] at hr' ⊢
      rw [hrow hr' hown']
      exact isLeased_destroyLease s.db r
    · unfold Freed
      rw [hdb]
      intro y hy hyd r' hr' hown'
      rcases mem_deleteHandle.mp hy with ⟨hy, -⟩ | ⟨hy, -⟩
      · obtain ⟨r₀, hr₀, rfl⟩ := List.mem_map.mp hr'
        have hown₀ : r₀.ipHandleId = some y.id := by
          rw [← hown']
          split <;> rfl
        have hdel := hf y hy hyd r₀ hr₀ hown₀
        split
        · rfl
        · exact hdel
      · rw [hy] at hown'
        rw [hrow hr' hown']

/-- What is due is selected, and what is selected stays in the pass until it is destroyed. -/
def Reached (s : ExpireState) (handle : Nat) : Prop :=
  handle ∈ s.pass ∨ ∃ x ∈ s.db.ipHandles.rows, x.id = handle ∧ x.deleted = true

theorem Reached.step {handle : Nat} (hr : s.Reached handle) (h : s.Consistent) (op : ExpireOp) :
    (s.step op).Reached handle := by
  by_cases hop : op = .destroyNext → s.pass = []
  · have hc := change_step op hop
    generalize s.step op = t at hc
    cases hc with
    | keep hdb hpass => unfold Reached; rw [hdb, hpass]; exact hr
    | select hdb hempty hpass =>
      right
      rw [hdb]
      rcases hr with hr | hr
      · rw [hempty] at hr
        cases hr
      · exact hr
    | move k v _ _ moves => unfold Reached; rw [moves.1, moves.2]; exact hr
    | acquire ipPool networkId ipv4 _ hpass hdb =>
      unfold Reached
      rw [hpass, hdb]
      rcases hr with hr | ⟨x, hx, hid⟩
      · exact .inl hr
      · exact .inr ⟨x, (Table.mem_create _).mpr (.inl hx), hid⟩
  · obtain ⟨rfl, hne⟩ := Classical.not_imp.mp hop
    obtain ⟨k, rest, hpass⟩ := List.exists_cons_of_ne_nil hne
    obtain ⟨r, -, -, hrest, hdb⟩ := destroyNext_ok h hpass
    unfold Reached
    rw [hrest, hdb]
    by_cases hk : handle = k
    · obtain ⟨x, hx, hid, -⟩ := h.alive k (hpass ▸ List.mem_cons_self ..)
      right
      exact ⟨{ x with deleted := true }, mem_deleteHandle.mpr (.inr ⟨hid, x, hx, hid, rfl⟩),
        hid.trans hk.symm, rfl⟩
    · rcases hr with hr | ⟨x, hx, hid, hd⟩
      · rw [hpass] at hr
        exact .inl ((List.mem_cons.mp hr).resolve_left hk)
      · exact .inr ⟨x, mem_deleteHandle.mpr (.inl ⟨hx, by rw [hid]; exact hk⟩), hid, hd⟩

end

/-! ## Runs -/

def ComesToFree (s : ExpireState) (op : ExpireOp) : Prop :=
  op = .destroyNext → ∀ h ∈ s.pass.head?, s.canDestroy h = true

theorem spares_iff {s : ExpireState} (h : s.Consistent ∧ s.Freed) (op : ExpireOp) :
    s.Spares op ↔ s.ComesToFree op := by
  by_cases hop : op = .destroyNext → s.pass = []
  · have hc := change_step op hop
    refine iff_of_true ⟨?_, ?_, h.2.change hc⟩ ?_
    · exact fun k hk => absurd hk (not_destroys_of_change hc k)
    · exact fun k hk => absurd hk (not_destroys_of_change hc k)
    · intro he k hk
      rw [hop he] at hk
      cases hk
  · obtain ⟨rfl, hne⟩ := Classical.not_imp.mp hop
    obtain ⟨k, rest, hpass⟩ := List.exists_cons_of_ne_nil hne
    rw [spares_destroyNext_iff h.1 h.2 hpass, ComesToFree, hpass]
    simp

/-- A complete pass destroys what was due when it began, whatever happens in between. -/
theorem complete_pass {s : ExpireState} (h : s.Consistent) (hempty : s.pass = [])
    (ops : List ExpireOp) (hdone : ((.select :: ops).foldl step s).pass = []) {handle : Nat}
    (hdue : s.Due handle) :
    ∃ x ∈ ((.select :: ops).foldl step s).db.ipHandles.rows, x.id = handle ∧ x.deleted = true := by
  have hstart : (s.step .select).Reached handle := by
    left
    simp only [step, if_pos hempty]
    exact mem_selected_of_due h.own hdue
  have hend := invariant (f := step) (fun t => t.Consistent ∧ t.Reached handle)
    (fun t op ht => ⟨ht.1.step op, ht.2.step ht.1 op⟩) ops ⟨h.step .select, hstart⟩
  rcases hend.2 with hpass | hdeleted
  · rw [List.foldl_cons] at hdone
    rw [hdone] at hpass
    cases hpass
  · exact hdeleted

/-- Handles expire as they should along a run if and only if each handle can be destroyed
when the pass comes to it. -/
theorem expires_iff {s : ExpireState} (h : s.Consistent) (hf : s.Freed) (ops : List ExpireOp) :
    s.Expires ops ↔ Each step ComesToFree s ops := by
  have hspares : Each step Spares s ops ↔ Each step ComesToFree s ops :=
    each_congr_of (fun t => t.Consistent ∧ t.Freed)
      (fun t op ht hs => ⟨ht.1.step op, hs.freed⟩) (fun t op ht => spares_iff ht op) ⟨h, hf⟩
  constructor
  · exact fun hex => hspares.mp hex.spares
  · intro hfree
    refine ⟨hspares.mpr hfree, ?_⟩
    intro pre mid post _ hempty hdone k hdue
    rw [List.foldl_append] at hdone ⊢
    exact complete_pass (invariant Consistent (fun t op ht => ht.step op) pre h) hempty mid hdone hdue

/-! ## Attaching outside the pass -/

/-- No lease of a handle is attached that the pass has selected and not come to. -/
def LeavesPass (s : ExpireState) (op : ExpireOp) : Prop :=
  ∀ lease vif, op = .attachVif lease vif → ∀ r, s.db.vifLeases.find lease = some r →
    ∀ h, r.ipHandleId = some h → h ∉ s.pass

/-- What the pass has yet to come to is at no vif. -/
def PassFree (s : ExpireState) : Prop := ∀ h ∈ s.pass, ¬ s.Attached h

theorem canDestroy_of_free {s : ExpireState} (h : s.Consistent) (hfree : s.PassFree) {handle : Nat}
    (hmem : handle ∈ s.pass) : s.canDestroy handle = true := by
  obtain ⟨x, hx, rfl, -⟩ := h.alive handle hmem
  obtain ⟨r, hr, hown⟩ := h.own.leased x hx
  rw [canDestroy_eq h.own hr hown]
  have := hfree _ hmem
  rw [attached_iff h.own hr hown] at this
  simpa using this

theorem PassFree.change {s t : ExpireState} (hfree : s.PassFree) (h : s.Consistent) {op : ExpireOp}
    (hleaves : s.LeavesPass op) (hc : s.Change op t) : t.PassFree := by
  intro handle hmem hattached
  cases hc with
  | keep hdb hpass =>
    unfold Attached at hattached
    rw [hdb] at hattached
    exact hfree handle (hpass ▸ hmem) hattached
  | select hdb _ hpass =>
    rw [hpass, selected_eq h.own] at hmem
    obtain ⟨x, hx, rfl⟩ := List.mem_map.mp hmem
    obtain ⟨r, hr, hown, hun⟩ := hattached
    rw [hdb] at hr hun
    have hp := (List.mem_filter.mp hx).2
    rw [h.own.ipLease hr hown, Option.bind_some, ← unattached_iff h.own hr, hun] at hp
    cases hp
  | move k v _ source moves =>
    obtain ⟨r, hr, hown, hun⟩ := hattached
    rw [moves.1] at hmem
    rw [moves.2] at hr hun
    obtain ⟨y, hy, rfl⟩ := List.mem_map.mp hr
    by_cases hk : Row.pk y = k
    · -- the lease that moved: it is not attached, or the handle is not in the pass
      rw [if_pos hk] at hown hun
      rcases source with rfl | ⟨w, rfl⟩
      · cases hun
      · exact hleaves k w rfl y (hk ▸ s.db.vifLeases.find_of_mem hy) handle hown hmem
    · rw [if_neg hk] at hown hun
      exact hfree handle hmem ⟨y, hy, hown, hun⟩
  | acquire ipPool networkId ipv4 _ hpass hdb =>
    obtain ⟨r, hr, hown, hun⟩ := hattached
    rw [hpass] at hmem
    rw [hdb] at hr hun
    rcases (Table.mem_create _).mp hr with hr | rfl
    · exact hfree handle hmem ⟨r, hr, hown, hun⟩
    · cases hun

theorem PassFree.step {s : ExpireState} (hfree : s.PassFree) (h : s.Consistent) {op : ExpireOp}
    (hleaves : s.LeavesPass op) : (s.step op).PassFree := by
  by_cases hop : op = .destroyNext → s.pass = []
  · exact hfree.change h hleaves (change_step op hop)
  · obtain ⟨rfl, hne⟩ := Classical.not_imp.mp hop
    obtain ⟨k, rest, hpass⟩ := List.exists_cons_of_ne_nil hne
    obtain ⟨r, -, -, hrest, hdb⟩ := destroyNext_ok h hpass
    rintro handle hmem ⟨r', hr', hown', hun'⟩
    rw [hrest] at hmem
    refine hfree handle (hpass ▸ List.mem_cons_of_mem k hmem) ?_
    rw [hdb] at hr' hun'
    by_cases hun : s.db.unattached r = true
    · rw [if_pos hun] at hr' hun'
      obtain ⟨y, hy, rfl⟩ := List.mem_map.mp hr'
      refine ⟨y, hy, ?_, ?_⟩
      · rw [← hown']
        split <;> rfl
      · rw [← hun']
        split <;> rfl
    · rw [if_neg hun] at hr' hun'
      exact ⟨r', hr', hown', hun'⟩

/-- Handles expire as they should along a run that attaches no lease of a selected handle. -/
theorem expires_of_leavesPass {s : ExpireState} (h : s.Consistent) (hf : s.Freed)
    (hfree : s.PassFree) {ops : List ExpireOp} (hleaves : Each step LeavesPass s ops) :
    s.Expires ops := by
  apply (expires_iff h hf ops).mpr
  apply hleaves.of_invariant (fun t => t.Consistent ∧ t.PassFree) ?_ ⟨h, hfree⟩
  intro t op ht hop
  refine ⟨⟨ht.1.step op, ht.2.step ht.1 hop⟩, ?_⟩
  intro _ k hk
  exact canDestroy_of_free ht.1 ht.2 (List.mem_of_mem_head? hk)

/-! ## A lease that is attached in the middle of a pass -/

def minutePool : ExpireState where
  db := pooledVifs
  ipPools := Table.empty.create (fun id => ⟨id, some 60, some 60⟩) fun _ => rfl
  expiresAt _ := none
  now := 0
  pass := []

theorem minutePool_consistent : minutePool.Consistent ∧ minutePool.Freed := by
  refine ⟨⟨⟨?_, ?_, ?_, ?_, ?_⟩, List.nodup_nil, nofun⟩, nofun⟩
  · exact nofun
  · exact nofun
  · exact nofun
  · exact nofun
  · exact nofun

theorem expires_unattached :
    minutePool.Expires [.acquire 1 1 0x0a000010, .wait 60, .select, .destroyNext] := by
  apply (expires_iff minutePool_consistent.1 minutePool_consistent.2 _).mpr
  refine ⟨nofun, nofun, nofun, ?_, trivial⟩
  intro _
  decide

/-- The lease is attached between the selection and the destruction. -/
theorem attached_handle_destroyed :
    ¬ minutePool.Expires
      [.acquire 1 1 0x0a000010, .wait 60, .select, .attachVif 1 1, .destroyNext] := by
  intro h
  have hspares := h.spares
  have hlast := hspares.2.2.2.2.1
  refine hlast.attached 1 ?_ ?_
  · exact ⟨⟨⟨1, 1, false⟩, by decide, rfl, rfl⟩, ⟨1, 1, true⟩, by decide, rfl, rfl⟩
  · exact ⟨⟨1, 1, some 1, 0x0a000010, .auto, some 1, false⟩, by decide, rfl, by decide⟩

end ExpireState

end Lease

end WakameVdc
