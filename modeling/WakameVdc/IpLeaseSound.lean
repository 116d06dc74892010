import WakameVdc.IpLease
import WakameVdc.Lib.Holders

/-!
# Leases and their holders

The rows of `ip_leases` say which addresses are taken, and the alive rows of
`network_vif_ip_leases` who holds them. Creating a lease is an `acquire` of
these records and destroying one a `release`; no other write touches them.
-/

namespace WakameVdc

open Lib

namespace Lease

def IpLeaseRow.key (l : IpLeaseRow) : Nat × Nat := (l.networkId, l.ipv4)

def VifLeaseRow.key (r : VifLeaseRow) : Nat × Nat := (r.networkId, r.ipv4)

/-- The rows in `ls` give up what they hold, and their addresses are struck. -/
def releaseRows (h : Holders Nat (Nat × Nat)) (ls : List VifLeaseRow) : Holders Nat (Nat × Nat) :=
  h.release (fun i => ∃ r ∈ ls, i = r.id) fun k => ∃ r ∈ ls, k = r.key

theorem releaseRows_nil (h : Holders Nat (Nat × Nat)) : releaseRows h [] = h := by
  simp only [releaseRows, List.not_mem_nil, false_and, exists_false]
  exact h.release_nothing

theorem releaseRows_append (h : Holders Nat (Nat × Nat)) (ls ls' : List VifLeaseRow) :
    releaseRows (releaseRows h ls) ls' = releaseRows h (ls ++ ls') := by
  simp only [releaseRows, Holders.release_release, List.mem_append, or_and_right, exists_or]

namespace Db

/-- An address of a network is in `ip_leases` exactly when an alive row of
`network_vif_ip_leases` has it, and no two of those have the same one. -/
structure TablesInStep (db : Db) : Prop where
  leased_iff : ∀ n a, (∃ l ∈ db.ipLeases.rows, l.networkId = n ∧ l.ipv4 = a) ↔
    ∃ r ∈ db.vifLeases.rows, r.deleted = false ∧ r.networkId = n ∧ r.ipv4 = a
  unique : ∀ n a, ∀ r ∈ db.vifLeases.rows, ∀ s ∈ db.vifLeases.rows,
    r.deleted = false ∧ r.networkId = n ∧ r.ipv4 = a →
    s.deleted = false ∧ s.networkId = n ∧ s.ipv4 = a → r = s

def holders (db : Db) : Holders Nat (Nat × Nat) where
  taken k := ∃ l ∈ db.ipLeases.rows, l.key = k
  holds i k := ∃ r, db.vifLeases.find i = some r ∧ r.deleted = false ∧ r.key = k

theorem holds_of_mem {db : Db} {r : VifLeaseRow} (hr : r ∈ db.vifLeases.rows)
    (hd : r.deleted = false) : db.holders.holds r.id r.key :=
  ⟨r, db.vifLeases.find_of_mem hr, hd, rfl⟩

theorem tablesInStep_iff {db : Db} : db.TablesInStep ↔ db.holders.InStep := by
  have htaken : ∀ n a, db.holders.taken (n, a) ↔
      ∃ l ∈ db.ipLeases.rows, l.networkId = n ∧ l.ipv4 = a := by
    intro n a
    simp only [holders, IpLeaseRow.key, Prod.mk.injEq]
  have hheld : ∀ n a, (∃ i, db.holders.holds i (n, a)) ↔
      ∃ r ∈ db.vifLeases.rows, r.deleted = false ∧ r.networkId = n ∧ r.ipv4 = a := by
    intro n a
    constructor
    · intro ⟨i, r, hr, hd, hk⟩
      exact ⟨r, db.vifLeases.mem_of_find hr, hd, congrArg Prod.fst hk, congrArg Prod.snd hk⟩
    · intro ⟨r, hr, hd, hn, ha⟩
      exact ⟨r.id, r, db.vifLeases.find_of_mem hr, hd, Prod.ext hn ha⟩
  constructor
  · intro h
    constructor
    · intro k
      exact (htaken k.1 k.2).trans ((h.leased_iff k.1 k.2).trans (hheld k.1 k.2).symm)
    · intro k i j ⟨r, hr, hrd, hrk⟩ ⟨s, hs, hsd, hsk⟩
      have he := h.unique k.1 k.2 r (db.vifLeases.mem_of_find hr) s (db.vifLeases.mem_of_find hs)
        ⟨hrd, congrArg Prod.fst hrk, congrArg Prod.snd hrk⟩
        ⟨hsd, congrArg Prod.fst hsk, congrArg Prod.snd hsk⟩
      rw [← db.vifLeases.pk_of_find hr, ← db.vifLeases.pk_of_find hs, he]
  · intro h
    constructor
    · intro n a
      exact (htaken n a).symm.trans ((h.taken_iff (n, a)).trans (hheld n a))
    · intro n a r hr s hs ⟨hrd, hrn, hra⟩ ⟨hsd, hsn, hsa⟩
      have hrk : r.key = (n, a) := Prod.ext hrn hra
      have hsk : s.key = (n, a) := Prod.ext hsn hsa
      have he := h.unique (n, a) r.id s.id (hrk ▸ holds_of_mem hr hrd) (hsk ▸ holds_of_mem hs hsd)
      exact db.vifLeases.eq_of_pk hr hs he

/-! ## The writes -/

theorem holders_insertLease (db : Db) (n a : Nat) (vif : Option Nat) (t : AllocType)
    (handle : Option Nat) :
    (db.insertLease n a vif t handle).holders = db.holders.acquire db.vifLeases.next (n, a) := by
  ext x y
  · simp only [holders, Holders.acquire, insertLease, Table.mem_create]
    constructor
    · intro ⟨l, hl, hk⟩
      rcases hl with hl | hl
      · exact Or.inl ⟨l, hl, hk⟩
      · exact Or.inr (by rw [← hk, hl]; rfl)
    · intro h
      rcases h with ⟨l, hl, hk⟩ | hk
      · exact ⟨l, Or.inl hl, hk⟩
      · exact ⟨_, Or.inr rfl, hk.symm⟩
  · simp only [holders, Holders.acquire, insertLease, Table.find_create]
    by_cases hx : x = db.vifLeases.next
    · have hnone : db.vifLeases.find x = none := db.vifLeases.find_next (Nat.le_of_eq hx.symm)
      simp only [if_pos hx, hnone]
      constructor
      · intro ⟨r, hr, _, hk⟩
        cases hr
        exact Or.inr ⟨hx, hk.symm⟩
      · intro h
        rcases h with ⟨r, hr, _⟩ | ⟨_, hk⟩
        · cases hr
        · exact ⟨_, rfl, rfl, hk.symm⟩
    · simp [hx]

theorem holders_destroyLease (db : Db) (r : VifLeaseRow) :
    (db.destroyLease r).holders = releaseRows db.holders [r] := by
  simp only [releaseRows, List.mem_singleton, exists_eq_left]
  ext x y
  · simp only [holders, Holders.release, destroyLease, Table.mem_delete, IpLeaseRow.key,
      VifLeaseRow.key]
    constructor
    · intro h
      obtain ⟨l, ⟨hl, hp⟩, hk⟩ := h
      refine ⟨⟨l, hl, hk⟩, ?_⟩
      intro he
      rw [← hk] at he
      have hn : l.networkId = r.networkId := congrArg Prod.fst he
      have ha : l.ipv4 = r.ipv4 := congrArg Prod.snd he
      simp [hn, ha] at hp
    · intro h
      obtain ⟨⟨l, hl, hk⟩, hne⟩ := h
      refine ⟨l, ⟨hl, ?_⟩, hk⟩
      rw [← hk] at hne
      simpa [Prod.ext_iff] using hne
  · simp only [holders, Holders.release, destroyLease, Table.find_modify]
    by_cases hx : x = r.id
    · simp only [if_pos hx, Option.map_eq_some_iff]
      constructor
      · intro h
        obtain ⟨s, ⟨s', _, hs⟩, hd, _⟩ := h
        rw [← hs] at hd
        cases hd
      · intro h
        obtain ⟨_, hne⟩ := h
        exact absurd hx hne
    · simp [hx]

theorem holders_destroyLeases (db : Db) (ls : List VifLeaseRow) :
    (db.destroyLeases ls).holders = releaseRows db.holders ls := by
  induction ls generalizing db with
  | nil => exact (releaseRows_nil _).symm
  | cons r ls ih =>
    show ((db.destroyLease r).destroyLeases ls).holders = _
    rw [ih, holders_destroyLease, releaseRows_append]
    rfl

theorem holders_detachVif {db db' : Db} {r : VifLeaseRow} (h : db.detachVif r = .ok db') :
    db'.holders = db.holders := by
  unfold detachVif at h
  split at h
  · cases h
  · split at h
    · cases h
      ext x y
      · rfl
      · simp only [holders, Table.find_modify]
        by_cases hx : x = r.id
        · simp only [if_pos hx, Option.map_eq_some_iff]
          constructor
          · intro ⟨s, ⟨s', hs', hs⟩, hd, hk⟩
            rw [← hs] at hd hk
            exact ⟨s', hs', hd, hk⟩
          · intro ⟨s, hs, hd, hk⟩
            exact ⟨_, ⟨s, hs, rfl⟩, hd, hk⟩
        · simp only [if_neg hx]
    · cases h

/-- The rows in `ls` may be destroyed together if every address of theirs that
is held is held by one of them. -/
def Covers (db : Db) (ls : List VifLeaseRow) : Prop :=
  ∀ r ∈ ls, r.deleted = true → ∀ s ∈ db.vifLeases.rows, s.deleted = false → s.key = r.key → s ∈ ls

theorem inStep_release {db : Db} (hs : db.holders.InStep) {ls : List VifLeaseRow}
    (hmem : ∀ r ∈ ls, r ∈ db.vifLeases.rows) (hc : db.Covers ls) :
    (releaseRows db.holders ls).InStep := by
  refine hs.release_iff.mpr ?_
  intro i k hi
  obtain ⟨s, hfind, hd, hk⟩ := hi
  have hsrow := db.vifLeases.mem_of_find hfind
  have hsid : s.id = i := db.vifLeases.pk_of_find hfind
  constructor
  · intro ⟨r, hr, hir⟩
    have : r = s := db.vifLeases.eq_of_pk (hmem r hr) hsrow (hir.symm.trans hsid.symm)
    exact ⟨r, hr, by rw [this, hk]⟩
  · intro ⟨r, hr, hkr⟩
    cases hrd : r.deleted with
    | true => exact ⟨s, hc r hr hrd s hsrow hd (hk.trans hkr), hsid.symm⟩
    | false =>
      have hrk := holds_of_mem (hmem r hr) hrd
      rw [← hkr] at hrk
      exact ⟨r, hr, hs.unique k i r.id ⟨s, hfind, hd, hk⟩ hrk⟩

end Db

/-! ## Calls that only create -/

/-- `I` is kept by every reserved lease the search for a free address makes. -/
def KeptByReserved (I : Db → Prop) : Prop :=
  ∀ db n a, I db → db.validateLease n a none = [] → I (db.insertLease n a none .reserved none)

/-- `I` is kept by a handle that is created. -/
def KeptByHandle (I : Db → Prop) : Prop :=
  ∀ (db : Db) ipPool, I db → I { db with
    ipHandles := db.ipHandles.create (fun id => ⟨id, ipPool, false⟩) fun id => pk_ipHandle ipPool id }

/-- `I` is kept by all that is created or moved on the way to a lease. -/
structure Creates (I : Db → Prop) : Prop where
  insertLease : ∀ db n a vif t handle, I db → db.validateLease n a handle = [] →
    I (db.insertLease n a vif t handle)
  saveNetwork : ∀ (db : Db) vif network, I db → I { db with
    vifs := db.vifs.modify vif (fun r => { r with networkId := network }) fun _ => rfl }

theorem Creates.reserved {I : Db → Prop} (hI : Creates I) : KeptByReserved I :=
  fun db n a => hI.insertLease db n a none .reserved none

section
variable {I : Db → Prop}

theorem keeps_createLease {n a : Nat} {vif : Option Nat} {t : AllocType} {handle : Option Nat}
    (hI : ∀ db, I db → db.validateLease n a handle = [] → I (db.insertLease n a vif t handle)) :
    Proc.Keeps I (createLease n a vif t handle) := by
  constructor
  intro db hdb
  unfold createLease
  rw [Proc.final_bind_get]
  split
  case h_1 hvalid => exact hI db hdb hvalid
  case h_2 => exact hdb

theorem answers_searchRange (hI : KeptByReserved I) (env : Env) (network : NetworkRow)
    (order : Order) (fuel f t : Nat) :
    Proc.Answers I (searchRange env network order fuel f t) fun ip =>
      ∀ a ∈ ip, network.isReservedIp a = false := by
  induction fuel generalizing f t with
  | zero => exact Proc.answers_throw _
  | succ fuel ih =>
    unfold searchRange
    apply Proc.keeps_get.bind_answers
    intro db
    split
    · apply Proc.answers_pure
      simp
    · split
      · apply (keeps_createLease fun db => hI db _ _).bind_answers
        intro _
        cases order with
        | asc => exact ih _ _
        | desc => exact ih _ _
      case isFalse hr =>
        apply Proc.answers_pure
        simpa using hr

theorem answers_searchRanges (hI : KeptByReserved I) (env : Env) (network : NetworkRow)
    (order : Order) (src dst : Nat) (ranges : List DhcpRangeRow) :
    Proc.Answers I (searchRanges env network order src dst ranges) fun ip =>
      ∀ a ∈ ip, network.isReservedIp a = false := by
  induction ranges with
  | nil =>
    apply Proc.answers_pure
    simp
  | cons i is ih =>
    unfold searchRanges
    split
    · exact Proc.answers_throw _
    · split
      · exact Proc.answers_throw _
      · apply (answers_searchRange hI env network order _ _ _).bind
        intro ip hip
        cases ip with
        | none => exact ih
        | some ip => exact Proc.answers_pure hip

theorem answers_getLeaseAddress (hI : KeptByReserved I) (env : Env) (network : NetworkRow)
    (lo hi : Option Nat) (order : Order) :
    Proc.Answers I (getLeaseAddress env network lo hi order) fun ip =>
      ∀ a ∈ ip, network.isReservedIp a = false := by
  apply Proc.keeps_get.bind_answers
  intro db
  exact answers_searchRanges hI ..

theorem answers_leaseAddress (hI : KeptByReserved I) (env : Env) (network : NetworkRow)
    (ipaddr : Option Nat) :
    Proc.Answers I (Incremental.leaseAddress env network ipaddr) fun ip =>
      ∀ a ∈ ip, network.isReservedIp a = false := by
  unfold Incremental.leaseAddress
  cases network.ipAssignment with
  | asc =>
    apply (answers_getLeaseAddress hI env network _ _ _).bind
    intro ip hip
    cases ip with
    | none => exact answers_getLeaseAddress hI ..
    | some ip => exact Proc.answers_pure hip
  | desc =>
    apply (answers_getLeaseAddress hI env network _ _ _).bind
    intro ip hip
    cases ip with
    | none => exact answers_getLeaseAddress hI ..
    | some ip => exact Proc.answers_pure hip
  | unsupported => exact Proc.answers_throw _

theorem keeps_createIpHandle (hH : KeptByHandle I) (ipPool : Nat) :
    Proc.Keeps I (createIpHandle ipPool) := by
  apply Proc.Keeps.bind Proc.keeps_get
  intro db
  apply Proc.Keeps.bind (Proc.keeps_modify fun db => hH db ipPool)
  intro _
  exact Proc.keeps_pure _

theorem keeps_assign (hI : Creates I) {options : ScheduleOptions}
    (hH : options.ipPool.isSome = true → KeptByHandle I) (network : NetworkRow) (ip : Nat) :
    Proc.Keeps I (Incremental.assign options network ip) := by
  unfold Incremental.assign
  cases hpool : options.ipPool with
  | none => exact keeps_createLease fun db => hI.insertLease db _ _ _ _ _
  | some ipPool =>
    apply Proc.Keeps.bind (keeps_createIpHandle (hH (by rw [hpool]; rfl)) _)
    intro handle
    exact keeps_createLease fun db => hI.insertLease db _ _ _ _ _

theorem keeps_incremental (hI : Creates I) (env : Env) {options : ScheduleOptions}
    (hH : options.ipPool.isSome = true → KeptByHandle I) :
    Proc.Keeps I (Incremental.schedule env options) := by
  apply Proc.Keeps.bind Proc.keeps_get
  intro db
  split
  · exact Proc.keeps_throw _
  · split
    · exact Proc.keeps_throw _
    · apply Proc.Keeps.bind (answers_leaseAddress hI.reserved ..).keeps
      intro ip
      cases ip with
      | none => exact Proc.keeps_throw _
      | some ip => exact keeps_assign hI hH ..

theorem keeps_checkAndAssign (hI : Creates I) (vif : VifRow) (nw : NetworkRow)
    (ip : Option Nat) : Proc.Keeps I (SpecifyIP.checkAndAssign vif nw ip) := by
  apply Proc.Keeps.bind Proc.keeps_get
  intro db
  split
  · exact Proc.keeps_throw _
  · exact keeps_createLease fun db => hI.insertLease db _ _ _ _ _

theorem keeps_specifyIP (hI : Creates I) (vif : VifRow) :
    Proc.Keeps I (SpecifyIP.schedule vif) := by
  apply Proc.Keeps.bind Proc.keeps_get
  intro db
  split
  · exact Proc.keeps_throw _
  · split
    · exact Proc.keeps_throw _
    · split
      · exact Proc.keeps_throw _
      · apply Proc.Keeps.bind (keeps_checkAndAssign hI ..)
        intro _
        split
        · exact keeps_checkAndAssign hI ..
        · exact Proc.keeps_pure _

theorem keeps_leaseIfEmpty (hI : Creates I) (env : Env) (vif : VifRow) (network : Option Nat) :
    Proc.Keeps I (leaseIfEmpty env vif network) := by
  apply Proc.Keeps.bind Proc.keeps_get
  intro db
  split
  · unfold lease
    split
    · exact keeps_incremental hI env fun hpool => by cases hpool
    · exact keeps_specifyIP hI _
  · exact Proc.keeps_pure _

theorem keeps_leaseIpLease (hI : Creates I) (env : Env) (vif : VifRow) :
    Proc.Keeps I (leaseIpLease env vif) := by
  apply Proc.Keeps.bind (keeps_leaseIfEmpty hI ..)
  intro _
  exact keeps_leaseIfEmpty hI ..

theorem keeps_saveNetwork (hI : Creates I) (env : Env) (vif : VifRow) (network : Option Nat) :
    Proc.Keeps I (saveNetwork env vif network) := by
  apply Proc.Keeps.bind Proc.keeps_get
  intro db
  split
  · exact Proc.keeps_pure _
  · split
    · exact Proc.keeps_modify fun db => hI.saveNetwork db _ _
    · exact Proc.keeps_throw _

end

/-! ## The tables in step -/

theorem isLeased_insertLease (db : Db) (n a : Nat) (vif : Option Nat) (t : AllocType)
    (handle : Option Nat) (n' a' : Nat) :
    (db.insertLease n a vif t handle).isLeased n' a' =
      (db.isLeased n' a' || (n == n' && a == a')) := by
  simp [Db.isLeased, Db.insertLease, Table.create]

theorem isLeased_destroyLease (db : Db) (r : VifLeaseRow) (n a : Nat) :
    (db.destroyLease r).isLeased n a = (db.isLeased n a && !(n == r.networkId && a == r.ipv4)) := by
  show List.any (List.filter _ _) _ = (List.any _ _ && _)
  rw [List.any_filter, Bool.eq_iff_iff, Bool.and_eq_true, List.any_eq_true, List.any_eq_true]
  simp only [Bool.and_eq_true, beq_iff_eq]
  constructor
  · intro h
    obtain ⟨l, hl, hno, hn, ha⟩ := h
    exact ⟨⟨l, hl, hn, ha⟩, by rw [← hn, ← ha]; exact hno⟩
  · intro h
    obtain ⟨⟨l, hl, hn, ha⟩, hno⟩ := h
    exact ⟨l, hl, by rw [hn, ha]; exact hno, hn, ha⟩

/-- The tables are in step, and nobody listed by `keep` has lost an address. -/
structure Grown (keep : Nat → Nat × Nat → Prop) (db : Db) : Prop where
  inStep : db.holders.InStep
  held : ∀ i k, keep i k → db.holders.holds i k

theorem isLeased_iff {db : Db} {n a : Nat} : db.isLeased n a = true ↔ db.holders.taken (n, a) := by
  simp only [Db.isLeased, Db.holders, IpLeaseRow.key, List.any_eq_true, Bool.and_eq_true, beq_iff_eq,
    Prod.mk.injEq]

theorem isLeased_of_valid {db : Db} {n a : Nat} {handle : Option Nat}
    (h : db.validateLease n a handle = []) : db.isLeased n a = false := by
  unfold Db.validateLease at h
  split at h
  · cases h
  · rw [List.append_eq_nil_iff, List.append_eq_nil_iff] at h
    cases hl : db.isLeased n a with
    | false => rfl
    | true =>
      rw [if_pos hl] at h
      exact absurd h.1.2 (List.cons_ne_nil _ _)

theorem not_taken_of_valid {db : Db} {n a : Nat} {handle : Option Nat}
    (h : db.validateLease n a handle = []) : ¬ db.holders.taken (n, a) := by
  rw [← isLeased_iff, isLeased_of_valid h]
  exact Bool.false_ne_true

theorem keptByHandle_grown (keep : Nat → Nat × Nat → Prop) : KeptByHandle (Grown keep) :=
  fun _ _ hg => ⟨hg.inStep, hg.held⟩

theorem creates_grown (keep : Nat → Nat × Nat → Prop) : Creates (Grown keep) := by
  refine ⟨?_, fun db _ _ hg => ⟨hg.inStep, hg.held⟩⟩
  intro db n a vif t handle hg hvalid
  refine ⟨?_, ?_⟩
  · rw [Db.holders_insertLease]
    exact hg.inStep.acquire (not_taken_of_valid hvalid)
  · intro i k hk
    rw [Db.holders_insertLease]
    exact Or.inl (hg.held i k hk)

end Lease

end WakameVdc
