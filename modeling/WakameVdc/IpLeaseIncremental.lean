import WakameVdc.IpLeaseAvailable
import WakameVdc.DhcpRange

/-!
# The next address of the incremental scheduler

`Incremental#schedule` goes on from the latest automatic lease and wraps around. A
reserved address it comes across is set aside with a lease of its own, which changes
nothing about the addresses that can be used.
-/

namespace WakameVdc

open Lib

namespace Lease

/-- `network[:ip_assignment]` as a direction. -/
def IpAssignment.order : IpAssignment → Option Order
  | .asc => some .asc
  | .desc => some .desc
  | .unsupported => none

namespace Order

/-- The elements from `latest` on, in the direction of the search. -/
def onwards (latest : Option Nat) (S : Set Nat) (order : Order) : Set Nat :=
  { a ∈ S | ∀ l ∈ latest, order.le l a }

/-- The elements up to `latest`. -/
def upTo (latest : Option Nat) (S : Set Nat) (order : Order) : Set Nat :=
  { a ∈ S | ∀ l ∈ latest, order.le a l }

/-- The first element from `latest` on, or else the first one of all. -/
def IsNext (order : Order) (latest : Option Nat) (S : Set Nat) (a : Nat) : Prop :=
  order.IsFirst (order.onwards latest S) a ∨
    order.onwards latest S = ∅ ∧ order.IsFirst (order.upTo latest S) a

end Order

namespace Db

/-- In a DHCP range of the network, not leased and not reserved. -/
def usable (db : Db) (network : NetworkRow) : Set Nat :=
  { a | db.existsInDhcpRange network.id a = true ∧ db.isLeased network.id a = false ∧
    network.isReservedIp a = false }

/-- The ranges of the network pass their validation. -/
def RangesValid (db : Db) (network : NetworkRow) : Prop :=
  ∀ r ∈ db.dhcpRangesOf network.id,
    network.validateRange r.rangeBegin r.rangeEnd = [] ∧ r.rangeEnd ≤ 0xFFFFFFFF

instance (db : Db) (network : NetworkRow) : Decidable (db.RangesValid network) :=
  inferInstanceAs (Decidable (∀ r ∈ db.dhcpRangesOf network.id, _ ∧ _))

/-- `t` has reserved leases of the network that `db` does not have, and is like `db`
otherwise. -/
inductive SetsAside (network : NetworkRow) (db : Db) : Db → Prop
  | refl : SetsAside network db db
  | addReserved {t : Db} {a : Nat} : SetsAside network db t → network.isReservedIp a = true →
    t.validateLease network.id a none = [] →
    SetsAside network db (t.insertLease network.id a none .reserved none)

end Db

/-- The rows of the boundary query come in ascending order. -/
def Env.Ascending (env : Env) : Prop :=
  ∀ bs, (env.scan bs).Perm bs ∧ (env.scan bs).Pairwise fun b c => b.ipv4 ≤ c.ipv4

/-- The lease is for a vif, or for a pool of the network's DC network. -/
structure ScheduleOptions.Accepted (db : Db) (network : NetworkRow) (options : ScheduleOptions) :
    Prop where
  given : options.networkVif.isSome = true ∨ options.ipPool.isSome = true
  pool : ∀ p ∈ options.ipPool, (p, network.dcNetworkId) ∈ db.ipPoolDcNetworks

def Db.leased (db : Db) (network : NetworkRow) (options : ScheduleOptions) (a : Nat) : Db :=
  match options.ipPool with
  | none => db.insertLease network.id a options.networkVif .auto none
  | some ipPool =>
    Db.insertLease { db with
      ipHandles := db.ipHandles.create (fun id => ⟨id, ipPool, false⟩) fun id => pk_ipHandle ipPool id }
      network.id a options.networkVif .auto (some db.ipHandles.next)

/-! ## Addresses set aside -/

section
variable {network : NetworkRow} {db t : Db}

theorem Db.SetsAside.trans {u : Db} (h : db.SetsAside network t) (h' : t.SetsAside network u) :
    db.SetsAside network u := by
  induction h' with
  | refl => exact h
  | addReserved _ hr hv ih => exact ih.addReserved hr hv

theorem Db.SetsAside.networks (h : db.SetsAside network t) : t.networks = db.networks := by
  induction h with
  | refl => rfl
  | addReserved _ _ _ ih => exact ih

theorem Db.SetsAside.dhcpRanges (h : db.SetsAside network t) : t.dhcpRanges = db.dhcpRanges := by
  induction h with
  | refl => rfl
  | addReserved _ _ _ ih => exact ih

theorem Db.SetsAside.ipHandles (h : db.SetsAside network t) : t.ipHandles = db.ipHandles := by
  induction h with
  | refl => rfl
  | addReserved _ _ _ ih => exact ih

theorem Db.SetsAside.ipPoolDcNetworks (h : db.SetsAside network t) :
    t.ipPoolDcNetworks = db.ipPoolDcNetworks := by
  induction h with
  | refl => rfl
  | addReserved _ _ _ ih => exact ih

theorem uniqueLeases_insertLease {n a : Nat} {vif : Option Nat} {ty : AllocType}
    {handle : Option Nat} (hu : db.UniqueLeases) (hfree : db.isLeased n a = false) :
    (db.insertLease n a vif ty handle).UniqueLeases := by
  show (List.map _ (_ ++ [_])).Nodup
  rw [List.map_append]
  refine hu.append (List.nodup_singleton _) ?_
  intro k hk hn
  obtain ⟨l, hl, rfl⟩ := List.mem_map.mp hk
  rw [List.map_singleton, List.mem_singleton, Prod.mk.injEq] at hn
  have hleased : db.isLeased n a = true := by
    refine List.any_eq_true.mpr ⟨l, hl, ?_⟩
    rw [hn.1, hn.2]
    simp
  rw [hfree] at hleased
  cases hleased

theorem Db.SetsAside.uniqueLeases (h : db.SetsAside network t) (hu : db.UniqueLeases) :
    t.UniqueLeases := by
  induction h with
  | refl => exact hu
  | addReserved _ _ hv ih => exact uniqueLeases_insertLease ih (isLeased_of_valid hv)

/-- An address that is not reserved is leased only if it was. -/
theorem Db.SetsAside.isLeased (h : db.SetsAside network t) {a : Nat}
    (ha : network.isReservedIp a = false) : t.isLeased network.id a = db.isLeased network.id a := by
  induction h with
  | refl => rfl
  | @addReserved t b _ hr _ ih =>
    rw [isLeased_insertLease, ih]
    have hne : (b == a) = false := by
      rw [beq_eq_false_iff_ne]
      intro he
      rw [he, ha] at hr
      cases hr
    rw [hne, Bool.and_false, Bool.or_false]

theorem Db.SetsAside.usable (h : db.SetsAside network t) : t.usable network = db.usable network := by
  ext a
  have hr : t.existsInDhcpRange network.id a = db.existsInDhcpRange network.id a := by
    unfold Db.existsInDhcpRange Db.dhcpRangesOf
    rw [h.dhcpRanges]
  constructor
  · rintro ⟨h1, h2, h3⟩
    exact ⟨hr ▸ h1, h.isLeased h3 ▸ h2, h3⟩
  · rintro ⟨h1, h2, h3⟩
    exact ⟨hr.symm ▸ h1, (h.isLeased h3).symm ▸ h2, h3⟩

end

/-! ## The search in one range -/

def Db.unreserved (db : Db) (network : NetworkRow) (lo hi : Nat) : Set Nat :=
  { a ∈ db.unleased network.id lo hi | network.isReservedIp a = false }

section
variable {network : NetworkRow} {db t : Db} {lo hi : Nat}

theorem Db.SetsAside.unreserved (h : db.SetsAside network t) (lo hi : Nat) :
    t.unreserved network lo hi = db.unreserved network lo hi := by
  ext a
  constructor
  · rintro ⟨⟨h1, h2, h3⟩, h4⟩
    exact ⟨⟨h1, h2, h.isLeased h4 ▸ h3⟩, h4⟩
  · rintro ⟨⟨h1, h2, h3⟩, h4⟩
    exact ⟨⟨h1, h2, (h.isLeased h4).symm ▸ h3⟩, h4⟩

/-- What is left of the window after `ip` in the direction of the search. -/
theorem unreserved_after {order : Order} {ip : Nat}
    (hf : order.IsFirst (db.unleased network.id lo hi) ip) :
    db.unreserved network (if order = .asc then ip else lo) (if order = .asc then hi else ip) =
      db.unreserved network lo hi := by
  obtain ⟨hip, hfirst⟩ := Order.isFirst_iff.mp hf
  have h1 := hip.1
  have h2 := hip.2.1
  ext a
  cases order with
  | asc =>
    simp only [if_true]
    constructor
    · rintro ⟨⟨hlo, hhi, hl⟩, ha⟩
      exact ⟨⟨by omega, hhi, hl⟩, ha⟩
    · intro ha
      exact ⟨⟨hfirst a ha.1, ha.1.2.1, ha.1.2.2⟩, ha.2⟩
  | desc =>
    simp only [reduceCtorEq, if_false]
    constructor
    · rintro ⟨⟨hlo, hhi, hl⟩, ha⟩
      exact ⟨⟨hlo, by omega, hl⟩, ha⟩
    · intro ha
      exact ⟨⟨ha.1.1, hfirst a ha.1, ha.1.2.2⟩, ha.2⟩

/-- An unleased address of the segment is set aside without complaint. -/
theorem validateLease_of_unleased (hn : db.networks.find network.id = some network) {a : Nat}
    (hin : network.includes a = true) (hl : db.isLeased network.id a = false) :
    db.validateLease network.id a none = [] := by
  simp [Db.validateLease, hn, hin, hl]

end

section
variable {env : Env} {network : NetworkRow} {order : Order}

theorem availableIp_finds {db : Db} {n lo hi : Nat} (henv : order = .asc → env.Ascending)
    (hu : db.UniqueLeases) (hle : lo ≤ hi) :
    order.Finds (db.unleased n lo hi) (availableIp env db n lo hi order) := by
  cases order with
  | asc => exact availableIp_asc hle hu (henv rfl _).1 (henv rfl _).2
  | desc => exact availableIp_desc env hle hu

/-- The loop of one range ends with the first address of the window that is neither
leased nor reserved. -/
theorem searchRange_finds (henv : order = .asc → env.Ascending) (fuel : Nat) {db : Db}
    (hn : db.networks.find network.id = some network) (hu : db.UniqueLeases)
    (hfuel : (db.freeReserved network).length < fuel) {lo hi : Nat} (hle : lo ≤ hi)
    (hin : ∀ a, lo ≤ a → a ≤ hi → network.includes a = true) :
    ∃ ip t, Proc.Runs (searchRange env network order fuel lo hi) db ip t ∧
      db.SetsAside network t ∧ order.Finds (db.unreserved network lo hi) ip := by
  induction fuel generalizing db lo hi with
  | zero => exact absurd hfuel (Nat.not_lt_zero _)
  | succ fuel ih =>
    have hfirst := availableIp_finds (n := network.id) henv hu hle
    unfold Proc.Runs
    simp only [exec_searchRange_succ]
    cases hip : availableIp env db network.id lo hi order with
    | none =>
      rw [hip] at hfirst
      refine ⟨none, db, rfl, .refl, ?_⟩
      exact Set.eq_empty_of_subset_empty fun a ha => hfirst.subset ha.1
    | some a =>
      rw [hip] at hfirst
      obtain ⟨ha, hbefore⟩ := Order.isFirst_iff.mp hfirst
      by_cases hr : network.isReservedIp a = true
      · -- the address is set aside, and the search goes on behind it
        have hv := validateLease_of_unleased hn (hin a ha.1 ha.2.1) ha.2.2
        have hless := freeReserved_insertLease (List.contains_iff_mem.mp hr) ha.2.2 .reserved
        have hle' : (if order = .asc then a else lo) ≤ (if order = .asc then hi else a) := by
          split
          · exact ha.2.1
          · exact ha.1
        have hin' : ∀ b, (if order = .asc then a else lo) ≤ b → b ≤ (if order = .asc then hi else a) →
            network.includes b = true := by
          intro b h1 h2
          have h3 := ha.1
          have h4 := ha.2.1
          split at h1
          · rename_i ho
            rw [if_pos ho] at h2
            exact hin b (by omega) h2
          · rename_i ho
            rw [if_neg ho] at h2
            exact hin b h1 (by omega)
        obtain ⟨ip, t, hrun, haside, hfinds⟩ :=
          ih (show (db.insertLease network.id a none .reserved none).networks.find network.id =
              some network from hn) (uniqueLeases_insertLease hu ha.2.2) (by omega) hle' hin'
        have hstep := Db.SetsAside.refl.addReserved hr hv
        refine ⟨ip, t, ?_, hstep.trans haside, ?_⟩
        · simp only [if_pos hr, if_pos hv]
          exact hrun
        · rwa [hstep.unreserved, unreserved_after hfirst] at hfinds
      · refine ⟨some a, db, ?_, .refl, ?_⟩
        · simp only [if_neg hr]
        · exact Order.isFirst_iff.mpr ⟨⟨ha, by simpa using hr⟩, fun x hx => hbefore x hx.1⟩

end

/-! ## The ranges in turn -/

/-- The addresses of the ranges in the window that are neither leased nor reserved. -/
def Db.usableIn (db : Db) (network : NetworkRow) (src dst : Nat) (ranges : List DhcpRangeRow) :
    Set Nat :=
  { a ∈ db.unreserved network src dst | ∃ i ∈ ranges, i.contains a = true }

/-- What `get_lease_address` relies on: a range of the network meets the window. -/
structure DhcpRangeRow.Meets (network : NetworkRow) (src dst : Nat) (i : DhcpRangeRow) : Prop where
  window : src ≤ dst
  le : i.rangeBegin ≤ i.rangeEnd
  begins : i.rangeBegin ≤ dst
  ends : src ≤ i.rangeEnd
  includes : ∀ a, i.rangeBegin ≤ a → a ≤ i.rangeEnd → network.includes a = true

def Order.sorts (i j : DhcpRangeRow) : Order → Prop
  | .asc => i.rangeBegin ≤ j.rangeBegin
  | .desc => j.rangeEnd ≤ i.rangeEnd

section
variable {env : Env} {network : NetworkRow} {order : Order} {src dst : Nat}

theorem mem_unreserved_range {db : Db} {i : DhcpRangeRow} {a : Nat} :
    a ∈ db.unreserved network (if src > i.rangeBegin then src else i.rangeBegin)
        (if dst < i.rangeEnd then dst else i.rangeEnd) ↔
      a ∈ db.unreserved network src dst ∧ i.contains a = true := by
  simp only [Db.unreserved, Db.unleased, Set.mem_ofPred_eq, DhcpRangeRow.contains, Bool.and_eq_true,
    decide_eq_true_eq]
  constructor
  · rintro ⟨⟨h1, h2, h3⟩, h4⟩
    split at h1 <;> split at h2 <;> exact ⟨⟨⟨by omega, by omega, h3⟩, h4⟩, by omega, by omega⟩
  · rintro ⟨⟨⟨h1, h2, h3⟩, h4⟩, h5, h6⟩
    refine ⟨⟨?_, ?_, h3⟩, h4⟩
    · split <;> omega
    · split <;> omega

/-- The first address of a range is the first one of all if the other ranges come later. -/
theorem isFirst_of_sorted {db : Db} {i : DhcpRangeRow} {is : List DhcpRangeRow} {a : Nat}
    (hs : ∀ j ∈ is, order.sorts i j)
    (hf : order.IsFirst { a ∈ db.unreserved network src dst | i.contains a = true } a) :
    order.IsFirst (db.usableIn network src dst (i :: is)) a := by
  obtain ⟨ha, hfirst⟩ := Order.isFirst_iff.mp hf
  refine Order.isFirst_iff.mpr ⟨⟨ha.1, i, List.mem_cons_self, ha.2⟩, ?_⟩
  rintro x ⟨hx, j, hj, hjx⟩
  rcases List.mem_cons.mp hj with rfl | hj
  · exact hfirst x ⟨hx, hjx⟩
  · have hij := hs j hj
    by_cases hix : i.contains x = true
    · exact hfirst x ⟨hx, hix⟩
    · have hai := ha.2
      simp only [DhcpRangeRow.contains, Bool.and_eq_true, decide_eq_true_eq] at hix hjx hai
      cases order with
      | asc => simp only [Order.sorts, Order.le] at hij ⊢; omega
      | desc => simp only [Order.sorts, Order.le] at hij ⊢; omega

theorem searchRanges_cons {i : DhcpRangeRow} (hi : i.Meets network src dst)
    (is : List DhcpRangeRow) :
    searchRanges env network order src dst (i :: is) =
      searchRange env network order (network.reservedIps.length + 1)
        (if src > i.rangeBegin then src else i.rangeBegin)
        (if dst < i.rangeEnd then dst else i.rangeEnd) >>= fun ip =>
      match ip with
      | some ip => pure (some ip)
      | none => searchRanges env network order src dst is := by
  have hends : ¬ src > i.rangeEnd := by
    have := hi.ends
    omega
  have hbegins : ¬ dst < i.rangeBegin := by
    have := hi.begins
    omega
  exact (if_neg hends).trans (if_neg hbegins)

theorem searchRanges_finds (henv : order = .asc → env.Ascending)
    (is : List DhcpRangeRow) {db : Db} (hn : db.networks.find network.id = some network)
    (hu : db.UniqueLeases) (hm : ∀ i ∈ is, i.Meets network src dst)
    (hs : is.Pairwise fun i j => order.sorts i j) :
    ∃ ip t, Proc.Runs (searchRanges env network order src dst is) db ip t ∧
      db.SetsAside network t ∧ order.Finds (db.usableIn network src dst is) ip := by
  induction is generalizing db with
  | nil =>
    refine ⟨none, db, Proc.runs_pure _ _, .refl, ?_⟩
    refine Set.eq_empty_iff_forall_notMem.mpr ?_
    rintro a ⟨_, i, hi, _⟩
    cases hi
  | cons i is ih =>
    have hi := hm i List.mem_cons_self
    have hle : (if src > i.rangeBegin then src else i.rangeBegin) ≤
        (if dst < i.rangeEnd then dst else i.rangeEnd) := by
      have h0 := hi.window
      have h1 := hi.le
      have h2 := hi.begins
      have h3 := hi.ends
      split <;> split <;> omega
    have hin : ∀ a, (if src > i.rangeBegin then src else i.rangeBegin) ≤ a →
        a ≤ (if dst < i.rangeEnd then dst else i.rangeEnd) → network.includes a = true := by
      intro a h1 h2
      refine hi.includes a ?_ ?_
      · split at h1 <;> omega
      · split at h2 <;> omega
    have hfuel : (db.freeReserved network).length < network.reservedIps.length + 1 :=
      Nat.lt_succ_of_le (List.length_filter_le _ _)
    obtain ⟨ip, t, hrun, haside, hfinds⟩ := searchRange_finds henv _ hn hu hfuel hle hin
    have hset : db.unreserved network (if src > i.rangeBegin then src else i.rangeBegin)
        (if dst < i.rangeEnd then dst else i.rangeEnd) =
          { a ∈ db.unreserved network src dst | i.contains a = true } :=
      Set.ext fun a => mem_unreserved_range
    rw [hset] at hfinds
    rw [searchRanges_cons hi]
    cases ip with
    | some a =>
      exact ⟨some a, t, hrun.bind (Proc.runs_pure _ _), haside,
        isFirst_of_sorted (List.pairwise_cons.mp hs).1 hfinds⟩
    | none =>
      have hnt : t.networks.find network.id = some network := by rw [haside.networks, hn]
      obtain ⟨ip, u, hrun', haside', hfinds'⟩ := ih hnt (haside.uniqueLeases hu)
        (fun j hj => hm j (List.mem_cons_of_mem _ hj)) hs.of_cons
      refine ⟨ip, u, hrun.bind hrun', haside.trans haside', ?_⟩
      have hrest : t.usableIn network src dst is = db.usableIn network src dst (i :: is) := by
        unfold Db.usableIn
        rw [haside.unreserved]
        ext a
        constructor
        · rintro ⟨ha, j, hj, hja⟩
          exact ⟨ha, j, List.mem_cons_of_mem _ hj, hja⟩
        · rintro ⟨ha, j, hj, hja⟩
          rcases List.mem_cons.mp hj with rfl | hj
          · exact absurd ⟨ha, hja⟩ (hfinds ▸ Set.notMem_empty a)
          · exact ⟨ha, j, hj, hja⟩
      rwa [hrest] at hfinds'

end

/-! ## The call -/

section
variable {env : Env} {network : NetworkRow} {order : Order} {db : Db}

theorem includes_of_valid {r : DhcpRangeRow}
    (hv : network.validateRange r.rangeBegin r.rangeEnd = []) :
    r.rangeBegin ≤ r.rangeEnd ∧
      ∀ a, r.rangeBegin ≤ a → a ≤ r.rangeEnd → network.includes a = true := by
  simp only [NetworkRow.validateRange, NetworkRow.validateAddress, List.append_eq_nil_iff,
    ite_eq_left_iff, ite_eq_right_iff, imp_false, List.cons_ne_nil,
    Bool.not_eq_true, Bool.not_eq_false] at hv
  obtain ⟨⟨⟨⟨hb, _⟩, _⟩, ⟨he, _⟩, _⟩, hle⟩ := hv
  refine ⟨by omega, fun a h1 h2 => ?_⟩
  rw [NetworkRow.includes, beq_iff_eq] at hb he ⊢
  apply le_antisymm
  · rw [← he]
    exact Nat.div_le_div_right h2
  · rw [← hb]
    exact Nat.div_le_div_right h1

/-- The ranges `get_lease_address` goes through. -/
def Db.rangesToSearch (db : Db) (network : NetworkRow) (src dst : Nat) (order : Order) :
    List DhcpRangeRow :=
  let ranges := (db.dhcpRangesOf network.id).filter fun r => src ≤ r.rangeEnd && r.rangeBegin ≤ dst
  match order with
  | .asc => ranges.insertionSort fun a b => a.rangeBegin ≤ b.rangeBegin
  | .desc => ranges.insertionSort fun a b => b.rangeEnd ≤ a.rangeEnd

theorem mem_rangesToSearch {src dst : Nat} {i : DhcpRangeRow} :
    i ∈ db.rangesToSearch network src dst order ↔
      i ∈ db.dhcpRangesOf network.id ∧ src ≤ i.rangeEnd ∧ i.rangeBegin ≤ dst := by
  cases order with
  | asc => simp [Db.rangesToSearch, List.mem_insertionSort]
  | desc => simp [Db.rangesToSearch, List.mem_insertionSort]

theorem pairwise_rangesToSearch {src dst : Nat} :
    (db.rangesToSearch network src dst order).Pairwise fun i j => order.sorts i j := by
  cases order with
  | asc => exact List.pairwise_insertionSort (fun a b : DhcpRangeRow => a.rangeBegin ≤ b.rangeBegin) _
  | desc => exact List.pairwise_insertionSort (fun a b : DhcpRangeRow => b.rangeEnd ≤ a.rangeEnd) _

theorem getLeaseAddress_finds (henv : order = .asc → env.Ascending)
    (hn : db.networks.find network.id = some network) (hu : db.UniqueLeases)
    (hv : db.RangesValid network) {lo hi : Option Nat} (hopen : lo = none ∨ hi = none) :
    ∃ ip t, Proc.Runs (getLeaseAddress env network lo hi order) db ip t ∧
      db.SetsAside network t ∧
      order.Finds { a ∈ db.usable network | lo.getD 0 ≤ a ∧ a ≤ hi.getD 0xFFFFFFFF } ip := by
  have hm : ∀ i ∈ db.rangesToSearch network (lo.getD 0) (hi.getD 0xFFFFFFFF) order,
      i.Meets network (lo.getD 0) (hi.getD 0xFFFFFFFF) := by
    intro i hi
    obtain ⟨hr, h1, h2⟩ := mem_rangesToSearch.mp hi
    obtain ⟨hb, hin⟩ := includes_of_valid (hv i hr).1
    refine ⟨?_, hb, h2, h1, hin⟩
    rcases hopen with rfl | rfl
    · exact Nat.zero_le _
    · exact le_trans h1 (hv i hr).2
  obtain ⟨ip, t, hrun, haside, hfinds⟩ :=
    searchRanges_finds henv _ hn hu hm pairwise_rangesToSearch
  refine ⟨ip, t, hrun, haside, ?_⟩
  have hset : db.usableIn network (lo.getD 0) (hi.getD 0xFFFFFFFF)
        (db.rangesToSearch network (lo.getD 0) (hi.getD 0xFFFFFFFF) order) =
      { a ∈ db.usable network | lo.getD 0 ≤ a ∧ a ≤ hi.getD 0xFFFFFFFF } := by
    ext a
    constructor
    · rintro ⟨⟨⟨h1, h2, h3⟩, h4⟩, i, hi, hia⟩
      exact ⟨⟨List.any_eq_true.mpr ⟨i, (mem_rangesToSearch.mp hi).1, hia⟩, h3, h4⟩, h1, h2⟩
    · rintro ⟨⟨hr, h3, h4⟩, h1, h2⟩
      obtain ⟨i, hi, hia⟩ := List.any_eq_true.mp hr
      refine ⟨⟨⟨h1, h2, h3⟩, h4⟩, i, mem_rangesToSearch.mpr ⟨hi, ?_, ?_⟩, hia⟩
      · simp only [Bool.and_eq_true, decide_eq_true_eq] at hia
        omega
      · simp only [Bool.and_eq_true, decide_eq_true_eq] at hia
        omega
  rwa [hset] at hfinds

theorem le_of_usable (hv : db.RangesValid network) {a : Nat} (ha : a ∈ db.usable network) :
    a ≤ 0xFFFFFFFF := by
  obtain ⟨i, hi, hia⟩ := List.any_eq_true.mp ha.1
  have := (hv i hi).2
  simp only [Bool.and_eq_true, decide_eq_true_eq] at hia
  omega

theorem mem_getD_le {latest : Option Nat} {a : Nat} :
    latest.getD 0 ≤ a ↔ ∀ l ∈ latest, l ≤ a := by
  cases latest with
  | none => simp
  | some l => simp

theorem mem_le_getD {latest : Option Nat} {a : Nat} (ha : a ≤ 0xFFFFFFFF) :
    a ≤ latest.getD 0xFFFFFFFF ↔ ∀ l ∈ latest, a ≤ l := by
  cases latest with
  | none => simpa using ha
  | some l => simp

def Order.onwardsBounds (latest : Option Nat) : Order → Option Nat × Option Nat
  | .asc => (latest, none)
  | .desc => (none, latest)

def Order.upToBounds (latest : Option Nat) : Order → Option Nat × Option Nat
  | .asc => (none, latest)
  | .desc => (latest, none)

theorem between_onwards (hv : db.RangesValid network) (latest : Option Nat) :
    { a ∈ db.usable network | (order.onwardsBounds latest).1.getD 0 ≤ a ∧
        a ≤ (order.onwardsBounds latest).2.getD 0xFFFFFFFF } =
      order.onwards latest (db.usable network) := by
  ext a
  refine and_congr_right fun ha => ?_
  have hmax := le_of_usable hv ha
  cases order with
  | asc => exact (and_iff_left hmax).trans mem_getD_le
  | desc => exact (and_iff_right (Nat.zero_le a)).trans (mem_le_getD hmax)

theorem between_upTo (hv : db.RangesValid network) (latest : Option Nat) :
    { a ∈ db.usable network | (order.upToBounds latest).1.getD 0 ≤ a ∧
        a ≤ (order.upToBounds latest).2.getD 0xFFFFFFFF } =
      order.upTo latest (db.usable network) := by
  ext a
  refine and_congr_right fun ha => ?_
  have hmax := le_of_usable hv ha
  cases order with
  | asc => exact (and_iff_right (Nat.zero_le a)).trans (mem_le_getD hmax)
  | desc => exact (and_iff_left hmax).trans mem_getD_le

theorem leaseAddress_eq (ho : network.ipAssignment.order = some order) (latest : Option Nat) :
    Incremental.leaseAddress env network latest =
      getLeaseAddress env network (order.onwardsBounds latest).1 (order.onwardsBounds latest).2 order >>=
        fun ip => match ip with
          | some ip => pure (some ip)
          | none => getLeaseAddress env network (order.upToBounds latest).1
              (order.upToBounds latest).2 order := by
  unfold Incremental.leaseAddress
  cases ha : network.ipAssignment with
  | asc =>
    rw [ha] at ho
    cases ho
    rfl
  | desc =>
    rw [ha] at ho
    cases ho
    rfl
  | unsupported =>
    rw [ha] at ho
    cases ho

theorem onwards_union_upTo {latest : Option Nat} {S : Set Nat}
    (h1 : order.onwards latest S = ∅) (h2 : order.upTo latest S = ∅) : S = ∅ := by
  refine Set.eq_empty_iff_forall_notMem.mpr fun a ha => ?_
  have hno1 := Set.eq_empty_iff_forall_notMem.mp h1 a
  have hno2 := Set.eq_empty_iff_forall_notMem.mp h2 a
  cases latest with
  | none => exact hno1 ⟨ha, fun l hl => nomatch hl⟩
  | some l =>
    by_cases hle : order.le l a
    · exact hno1 ⟨ha, fun m hm => Option.some.inj hm ▸ hle⟩
    · refine hno2 ⟨ha, fun m hm => Option.some.inj hm ▸ ?_⟩
      cases order with
      | asc => exact Nat.le_of_not_le hle
      | desc => exact Nat.le_of_not_le hle

/-- The scheduler finds the next usable address, or nothing if no address is usable. -/
theorem leaseAddress_finds (henv : order = .asc → env.Ascending)
    (hn : db.networks.find network.id = some network) (hu : db.UniqueLeases)
    (hv : db.RangesValid network) (ho : network.ipAssignment.order = some order)
    (latest : Option Nat) :
    ∃ ip t, Proc.Runs (Incremental.leaseAddress env network latest) db ip t ∧
      db.SetsAside network t ∧
      ((∃ a, ip = some a ∧ order.IsNext latest (db.usable network) a) ∨
        ip = none ∧ db.usable network = ∅) := by
  have hopen1 : (order.onwardsBounds latest).1 = none ∨ (order.onwardsBounds latest).2 = none := by
    cases order with
    | asc => exact .inr rfl
    | desc => exact .inl rfl
  have hopen2 : (order.upToBounds latest).1 = none ∨ (order.upToBounds latest).2 = none := by
    cases order with
    | asc => exact .inl rfl
    | desc => exact .inr rfl
  rw [leaseAddress_eq ho]
  obtain ⟨first, t, hrun, haside, hfirst⟩ := getLeaseAddress_finds henv hn hu hv hopen1
  rw [between_onwards hv] at hfirst
  cases first with
  | some a =>
    exact ⟨some a, t, hrun.bind (Proc.runs_pure _ _), haside, .inl ⟨a, rfl, .inl hfirst⟩⟩
  | none =>
    have hnt : t.networks.find network.id = some network := by rw [haside.networks, hn]
    have hvt : t.RangesValid network := by
      unfold Db.RangesValid Db.dhcpRangesOf
      rw [haside.dhcpRanges]
      exact hv
    obtain ⟨second, u, hrun', haside', hsecond⟩ :=
      getLeaseAddress_finds henv hnt (haside.uniqueLeases hu) hvt hopen2
    rw [between_upTo hvt, haside.usable] at hsecond
    refine ⟨second, u, hrun.bind hrun', haside.trans haside', ?_⟩
    cases second with
    | some a => exact .inl ⟨a, rfl, .inr ⟨hfirst, hsecond⟩⟩
    | none => exact .inr ⟨rfl, onwards_union_upTo hfirst hsecond⟩

theorem IsNext.mem {latest : Option Nat} {S : Set Nat} {a : Nat} (h : order.IsNext latest S a) :
    a ∈ S := by
  rcases h with h | ⟨_, h⟩
  · exact h.mem.1
  · exact h.mem.1

theorem exec_assign (hn : db.networks.find network.id = some network) {a : Nat}
    (hv : db.RangesValid network) (ha : a ∈ db.usable network) {options : ScheduleOptions}
    (hp : ∀ p ∈ options.ipPool, (p, network.dcNetworkId) ∈ db.ipPoolDcNetworks) :
    Proc.exec (Incremental.assign options network a) db = (.ok (), db.leased network options a) := by
  obtain ⟨i, hi, hia⟩ := List.any_eq_true.mp ha.1
  simp only [Bool.and_eq_true, decide_eq_true_eq] at hia
  have hin := (includes_of_valid (hv i hi).1).2 a hia.1 hia.2
  unfold Incremental.assign Db.leased
  cases hpool : options.ipPool with
  | none =>
    dsimp only
    rw [exec_createLease, if_pos (validateLease_of_unleased hn hin ha.2.1)]
  | some p =>
    have hv' : Db.validateLease { db with
        ipHandles := db.ipHandles.create (fun id => ⟨id, p, false⟩) fun id => pk_ipHandle p id }
        network.id a (some db.ipHandles.next) = [] := by
      have hpool' := hp p hpool
      have hl : Db.isLeased { db with
          ipHandles := db.ipHandles.create (fun id => ⟨id, p, false⟩) fun id => pk_ipHandle p id }
          network.id a = false := ha.2.1
      simp [Db.validateLease, hn, hin, hl, Table.find_create, hpool']
    dsimp only
    rw [Proc.exec_bind, createIpHandle, Proc.exec_bind, Proc.exec_get]
    dsimp only
    rw [Proc.exec_bind, Proc.exec_modify]
    dsimp only
    rw [Proc.exec_pure]
    dsimp only
    rw [exec_createLease, if_pos hv']

end

/-- What the scheduler finds is leased, or else `OutOfIpRange` is raised. -/
theorem schedule_finds {env : Env} {order : Order} (henv : order = .asc → env.Ascending)
    {db : Db} (hu : db.UniqueLeases) {options : ScheduleOptions} {network : NetworkRow}
    (hn : options.network.bind db.networks.find = some network)
    (ho : network.ipAssignment.order = some order) (hv : db.RangesValid network)
    (hopt : options.Accepted db network) :
    ∃ ip t, db.SetsAside network t ∧
      ((∃ a, ip = some a ∧ order.IsNext (db.latestIp network.id) (db.usable network) a) ∨
        ip = none ∧ db.usable network = ∅) ∧
      Proc.exec (Incremental.schedule env options) db =
        match ip with
        | none => (.error (.outOfIpRange network.ipv4Network network.prefixLen), t)
        | some a => (.ok (), t.leased network options a) := by
  have hfind := find_of_bind hn
  obtain ⟨ip, t, hrun, haside, hnext⟩ :=
    leaseAddress_finds henv hfind hu hv ho (db.latestIp network.id)
  have heq : Proc.exec (Incremental.schedule env options) db =
      match ip with
      | none => (.error (.outOfIpRange network.ipv4Network network.prefixLen), t)
      | some a => Proc.exec (Incremental.assign options network a) t := by
    unfold Incremental.schedule
    rw [Proc.exec_bind, Proc.exec_get]
    dsimp only
    rw [hn]
    dsimp only
    have hgiven : ¬ (options.ipPool.isNone && options.networkVif.isNone) = true := by
      have := hopt.given
      revert this
      cases options.networkVif <;> cases options.ipPool <;> simp
    rw [if_neg hgiven, Proc.exec_bind, hrun]
    cases ip with
    | none => rfl
    | some a => rfl
  refine ⟨ip, t, haside, hnext, heq.trans ?_⟩
  rcases hnext with ⟨a, rfl, ha⟩ | ⟨rfl, -⟩
  · have hnt : t.networks.find network.id = some network := by rw [haside.networks, hfind]
    have hvt : t.RangesValid network := by
      unfold Db.RangesValid Db.dhcpRangesOf
      rw [haside.dhcpRanges]
      exact hv
    have hat : a ∈ t.usable network := by
      rw [haside.usable]
      exact IsNext.mem ha
    exact exec_assign hnt hvt hat fun p hp => haside.ipPoolDcNetworks ▸ hopt.pool p hp
  · rfl

/-- The next address after the latest automatic lease is leased, and the call raises
`OutOfIpRange` exactly if no address of the ranges is usable. -/
theorem incremental_schedules {env : Env} {order : Order} (henv : order = .asc → env.Ascending)
    {db : Db} (hu : db.UniqueLeases) {options : ScheduleOptions} {network : NetworkRow}
    (hn : options.network.bind db.networks.find = some network)
    (ho : network.ipAssignment.order = some order) (hv : db.RangesValid network)
    (hopt : options.Accepted db network) :
    ∃ t, db.SetsAside network t ∧
      ((∃ a, order.IsNext (db.latestIp network.id) (db.usable network) a ∧
          Proc.exec (Incremental.schedule env options) db =
            (.ok (), t.leased network options a)) ∨
        db.usable network = ∅ ∧
          Proc.exec (Incremental.schedule env options) db =
            (.error (.outOfIpRange network.ipv4Network network.prefixLen), t)) := by
  obtain ⟨ip, t, haside, hnext, hexec⟩ := schedule_finds henv hu hn ho hv hopt
  refine ⟨t, haside, ?_⟩
  rcases hnext with ⟨a, rfl, ha⟩ | ⟨rfl, hnone⟩
  · exact .inl ⟨a, ha, hexec⟩
  · exact .inr ⟨hnone, hexec⟩

def ascendingEnv : Env :=
  { incrementalEnv with scan := fun bs => bs.insertionSort fun b c => b.ipv4 ≤ c.ipv4 }

theorem ascendingEnv_ascending : ascendingEnv.Ascending := fun bs =>
  ⟨List.perm_insertionSort _ bs,
    List.pairwise_insertionSort (fun b c : Boundary => b.ipv4 ≤ c.ipv4) bs⟩

def gatewayNetwork : NetworkRow :=
  ⟨1, 0x0a000000, 24, some 0x0a00000a, none, none, none, .asc, 1⟩

theorem incremental_schedules_gateway :
    ∃ t, gatewayInRange.SetsAside gatewayNetwork t ∧
      ((∃ a, Order.asc.IsNext (gatewayInRange.latestIp 1) (gatewayInRange.usable gatewayNetwork) a ∧
          Proc.exec (Incremental.schedule ascendingEnv ⟨some 1, some 1, none⟩) gatewayInRange =
            (.ok (), t.leased gatewayNetwork ⟨some 1, some 1, none⟩ a)) ∨
        gatewayInRange.usable gatewayNetwork = ∅ ∧
          Proc.exec (Incremental.schedule ascendingEnv ⟨some 1, some 1, none⟩) gatewayInRange =
            (.error (.outOfIpRange 0x0a000000 24), t)) :=
  incremental_schedules (fun _ => ascendingEnv_ascending) (by decide) rfl rfl (by decide)
    ⟨.inl rfl, nofun⟩

/-- The gateway is set aside, and the vif gets the address behind it. -/
example : ((ScheduleOp.incremental ⟨some 1, some 1, none⟩).step ascendingEnv gatewayInRange).latestIp
    1 = some 0x0a00000b := by decide

end Lease

end WakameVdc
