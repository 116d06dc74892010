import WakameVdc.IpLeaseReserved
import WakameVdc.Lib.Gap

/-!
# The first unleased address of a window

`DhcpRange#available_ip` of `models/dhcp_range.rb` asks for two of the leases at
either end of a block of leased addresses. Downwards these are the highest two;
upwards the query has no order, and the answer depends on which two it gets.
-/

namespace WakameVdc

open Lib

namespace Lease

namespace Order

/-- `a` comes before `b`, or is it. -/
def le (a b : Nat) : Order → Prop
  | .asc => a ≤ b
  | .desc => b ≤ a

def IsFirst (S : Set Nat) (a : Nat) : Order → Prop
  | .asc => IsLeast S a
  | .desc => IsGreatest S a

/-- `ip` is the first element, or nil if there is none. -/
def Finds (order : Order) (S : Set Nat) : Option Nat → Prop
  | none => S = ∅
  | some a => order.IsFirst S a

def window (lo hi : Nat) : Order → List Nat
  | .asc => List.range' lo (hi + 1 - lo)
  | .desc => (List.range' lo (hi + 1 - lo)).reverse

def address (lo hi k : Nat) : Order → Nat
  | .asc => lo + k
  | .desc => hi - k

def place (lo hi a : Nat) : Order → Nat
  | .asc => a - lo
  | .desc => hi - a

end Order

namespace Db

/-- The index of `ip_leases`. -/
def UniqueLeases (db : Db) : Prop :=
  (db.ipLeases.rows.map fun l => (l.networkId, l.ipv4)).Nodup

instance (db : Db) : Decidable db.UniqueLeases :=
  inferInstanceAs (Decidable (List.Nodup _))

def unleased (db : Db) (networkId lo hi : Nat) : Set Nat :=
  { a | lo ≤ a ∧ a ≤ hi ∧ db.isLeased networkId a = false }

def scanWindow (db : Db) (networkId lo hi : Nat) (order : Order) : Option Nat :=
  (order.window lo hi).find? fun a => !db.isLeased networkId a

/-- The row of the last lease of the block that starts at `lo`. -/
def EndsBlock (db : Db) (networkId lo : Nat) (b : Boundary) : Prop :=
  b.follow = none ∧ ∀ a, lo ≤ a → a ≤ b.ipv4 → db.isLeased networkId a = true

/-- Where `lo` is leased, the first row ends its block, or is its own and the second
one ends it; where it is not, the first row begins a block. -/
def RowsLead (db : Db) (networkId lo : Nat) (rows : List Boundary) : Prop :=
  match rows with
  | [] => True
  | b :: bs =>
    if db.isLeased networkId lo then
      db.EndsBlock networkId lo b ∨ b.ipv4 = lo ∧ ∃ c ∈ bs.head?, db.EndsBlock networkId lo c
    else b.prev = none

end Db

/-! ## First elements -/

namespace Order

variable {order : Order} {S : Set Nat}

theorem isFirst_iff {a : Nat} : order.IsFirst S a ↔ a ∈ S ∧ ∀ x ∈ S, order.le a x := by
  cases order with
  | asc => exact Iff.rfl
  | desc => exact Iff.rfl

theorem le_antisymm {a b : Nat} (h : order.le a b) (h' : order.le b a) : a = b := by
  cases order with
  | asc => exact Nat.le_antisymm h h'
  | desc => exact Nat.le_antisymm h' h

theorem IsFirst.mem {a : Nat} (h : order.IsFirst S a) : a ∈ S := (isFirst_iff.mp h).1

theorem Finds.unique {r s : Option Nat} (hr : order.Finds S r) (hs : order.Finds S s) : r = s := by
  cases r with
  | none =>
    cases s with
    | none => rfl
    | some b =>
      have hb := IsFirst.mem hs
      rw [show S = ∅ from hr] at hb
      exact absurd hb (Set.notMem_empty b)
  | some a =>
    obtain ⟨ha, hle⟩ := isFirst_iff.mp hr
    cases s with
    | none =>
      rw [show S = ∅ from hs] at ha
      exact absurd ha (Set.notMem_empty a)
    | some b =>
      obtain ⟨hb, hle'⟩ := isFirst_iff.mp hs
      rw [le_antisymm (hle b hb) (hle' a ha)]

/-! ## Windows as rows of places -/

variable {lo hi a k : Nat} (order : Order)

theorem place_address (h : k ≤ hi - lo) : order.place lo hi (order.address lo hi k) = k := by
  cases order with
  | asc => simp [place, address]
  | desc => simp only [place, address]; omega

theorem address_place (h1 : lo ≤ a) (h2 : a ≤ hi) :
    order.address lo hi (order.place lo hi a) = a := by
  cases order with
  | asc => simp only [place, address]; omega
  | desc => simp only [place, address]; omega

theorem place_le (h1 : lo ≤ a) (h2 : a ≤ hi) : order.place lo hi a ≤ hi - lo := by
  cases order with
  | asc => simp only [place]; omega
  | desc => simp only [place]; omega

theorem address_mem (hle : lo ≤ hi) (h : k ≤ hi - lo) :
    lo ≤ order.address lo hi k ∧ order.address lo hi k ≤ hi := by
  cases order with
  | asc => simp only [address]; omega
  | desc => simp only [address]; omega

theorem le_address_iff {j : Nat} (hle : lo ≤ hi) (hj : j ≤ hi - lo) :
    order.le (order.address lo hi j) (order.address lo hi k) ↔ j ≤ k := by
  cases order with
  | asc => simp [le, address]
  | desc => simp only [le, address]; omega

theorem mem_window : a ∈ order.window lo hi ↔ lo ≤ a ∧ a ≤ hi := by
  cases order with
  | asc => rw [window, List.mem_range'_1]; omega
  | desc => rw [window, List.mem_reverse, List.mem_range'_1]; omega

theorem pairwise_window : (order.window lo hi).Pairwise fun a b => order.le a b := by
  have hsort : (List.range' lo (hi + 1 - lo)).Pairwise (· < ·) := List.pairwise_lt_range'
  cases order with
  | asc => exact hsort.imp fun h => Nat.le_of_lt h
  | desc => exact List.pairwise_reverse.mpr (hsort.imp fun h => Nat.le_of_lt h)

end Order

/-- The row as an edge of a block, in the direction of the search. -/
def Boundary.edge (lo hi : Nat) (b : Boundary) : Order → Gap.Edge
  | .asc => ⟨b.ipv4 - lo, b.prev.isSome, b.follow.isSome⟩
  | .desc => ⟨hi - b.ipv4, b.follow.isSome, b.prev.isSome⟩

def Db.taken (db : Db) (networkId lo hi : Nat) (order : Order) (k : Nat) : Prop :=
  db.isLeased networkId (order.address lo hi k) = true

section
variable {db : Db} {n lo hi : Nat}

theorem mem_unleased_address (hle : lo ≤ hi) {order : Order} {k : Nat} (hk : k ≤ hi - lo) :
    order.address lo hi k ∈ db.unleased n lo hi ↔ ¬ db.taken n lo hi order k := by
  have hm := order.address_mem hle hk
  unfold Db.taken Db.unleased
  simp [hm.1, hm.2]

theorem finds_iff (hle : lo ≤ hi) {order : Order} {r : Option Nat} (hr : ∀ k ∈ r, k ≤ hi - lo) :
    Gap.IsFirst (db.taken n lo hi order) (hi - lo) r ↔
      order.Finds (db.unleased n lo hi) (r.map fun k => order.address lo hi k) := by
  -- every unleased address is that of a free place
  have hplace : ∀ a ∈ db.unleased n lo hi,
      ∃ j ≤ hi - lo, order.address lo hi j = a ∧ ¬ db.taken n lo hi order j := by
    intro a ha
    have hj := order.place_le ha.1 ha.2.1
    have he := order.address_place ha.1 ha.2.1
    exact ⟨_, hj, he, (mem_unleased_address hle hj).mp (he.symm ▸ ha)⟩
  cases r with
  | none =>
    show _ ↔ db.unleased n lo hi = ∅
    rw [Set.eq_empty_iff_forall_notMem]
    constructor
    · intro h a ha
      obtain ⟨j, hj, _, hfree⟩ := hplace a ha
      exact hfree (h j hj)
    · intro h k hk
      by_contra hf
      exact h _ ((mem_unleased_address hle hk).mpr hf)
  | some k =>
    have hk := hr k rfl
    show _ ↔ order.IsFirst _ _
    rw [Order.isFirst_iff, mem_unleased_address hle hk]
    constructor
    · intro h
      refine ⟨h.1.2, fun a ha => ?_⟩
      obtain ⟨j, hj, rfl, hfree⟩ := hplace a ha
      exact (order.le_address_iff hle hk).mpr (h.2 ⟨hj, hfree⟩)
    · intro h
      refine ⟨⟨hk, h.1⟩, fun j hj => ?_⟩
      exact (order.le_address_iff hle hk).mp (h.2 _ ((mem_unleased_address hle hj.1).mpr hj.2))

end

/-! ## The boundary rows -/

section
variable {db : Db} {n lo hi : Nat}

def Db.leasedIn (db : Db) (networkId lo hi : Nat) : List Nat :=
  (db.ipLeases.rows.filter fun l =>
    l.networkId == networkId && lo ≤ l.ipv4 && l.ipv4 ≤ hi).map IpLeaseRow.ipv4

theorem mem_leasedIn {a : Nat} :
    a ∈ db.leasedIn n lo hi ↔ lo ≤ a ∧ a ≤ hi ∧ db.isLeased n a = true := by
  simp only [Db.leasedIn, List.mem_map, List.mem_filter, Bool.and_eq_true, beq_iff_eq,
    decide_eq_true_eq, Db.isLeased, List.any_eq_true]
  constructor
  · rintro ⟨l, ⟨hl, ⟨hn, h1⟩, h2⟩, rfl⟩
    exact ⟨h1, h2, l, hl, hn, rfl⟩
  · rintro ⟨h1, h2, l, hl, hn, rfl⟩
    exact ⟨l, ⟨hl, ⟨hn, h1⟩, h2⟩, rfl⟩

theorem isSome_find {l : List Nat} {a : Nat} {p : Nat → Bool} (hp : ∀ x, p x = true ↔ x = a) :
    (l.find? p).isSome = true ↔ a ∈ l := by
  rw [List.find?_isSome]
  constructor
  · rintro ⟨x, hx, hxa⟩
    exact (hp x).mp hxa ▸ hx
  · exact fun h => ⟨a, h, (hp a).mpr rfl⟩

def Db.boundary (db : Db) (networkId lo hi a : Nat) : Boundary :=
  let leased := db.leasedIn networkId lo hi
  ⟨a, leased.find? fun b => b + 1 == a, leased.find? fun b => b == a + 1⟩

theorem leasedIpBoundLease_eq :
    db.leasedIpBoundLease n lo hi = ((db.leasedIn n lo hi).map (db.boundary n lo hi)).filter
      fun b => b.prev.isNone || b.follow.isNone := rfl

variable (db n lo) in
theorem boundary_prev {a : Nat} (hhi : a ≤ hi) :
    (db.boundary n lo hi a).prev.isSome = true ↔ lo < a ∧ db.isLeased n (a - 1) = true := by
  cases a with
  | zero =>
    simp only [Nat.not_lt_zero, false_and, iff_false, Bool.not_eq_true, Option.isSome_eq_false_iff,
      Option.isNone_iff_eq_none]
    exact List.find?_eq_none.mpr fun x _ h => by simp at h
  | succ a =>
    show (List.find? _ _).isSome = true ↔ _
    rw [isSome_find (a := a) (by intro x; simp), mem_leasedIn]
    simp only [Nat.add_sub_cancel]
    constructor
    · exact fun h => ⟨by omega, h.2.2⟩
    · exact fun h => ⟨by omega, by omega, h.2⟩

variable (db n hi) in
theorem boundary_follow {a : Nat} (hlo : lo ≤ a) :
    (db.boundary n lo hi a).follow.isSome = true ↔ a < hi ∧ db.isLeased n (a + 1) = true := by
  show (List.find? _ _).isSome = true ↔ _
  rw [isSome_find (a := a + 1) (by intro x; simp), mem_leasedIn]
  constructor
  · exact fun h => ⟨by omega, h.2.2⟩
  · exact fun h => ⟨by omega, by omega, h.2⟩

theorem mem_leasedIpBoundLease {b : Boundary} :
    b ∈ db.leasedIpBoundLease n lo hi ↔ lo ≤ b.ipv4 ∧ b.ipv4 ≤ hi ∧
      db.isLeased n b.ipv4 = true ∧ b = db.boundary n lo hi b.ipv4 ∧
        (b.prev.isSome = false ∨ b.follow.isSome = false) := by
  rw [leasedIpBoundLease_eq, List.mem_filter, List.mem_map]
  simp only [mem_leasedIn, Bool.or_eq_true, Option.isNone_iff_eq_none, Option.isSome_eq_false_iff]
  constructor
  · rintro ⟨⟨a, ha, rfl⟩, h⟩
    exact ⟨ha.1, ha.2.1, ha.2.2, rfl, h⟩
  · rintro ⟨h1, h2, h3, h4, h⟩
    exact ⟨⟨b.ipv4, ⟨h1, h2, h3⟩, h4.symm⟩, h⟩

theorem ipv4_of_mem {b : Boundary} (h : b ∈ db.leasedIpBoundLease n lo hi) :
    lo ≤ b.ipv4 ∧ b.ipv4 ≤ hi :=
  ⟨(mem_leasedIpBoundLease.mp h).1, (mem_leasedIpBoundLease.mp h).2.1⟩

variable (db n) in
theorem edge_boundary (order : Order) {a : Nat} (h1 : lo ≤ a) (h2 : a ≤ hi) :
    let e := (db.boundary n lo hi a).edge lo hi order
    e.pos = order.place lo hi a ∧
      (e.before = true ↔ 0 < e.pos ∧ db.taken n lo hi order (e.pos - 1)) ∧
      (e.after = true ↔ e.pos < hi - lo ∧ db.taken n lo hi order (e.pos + 1)) := by
  have hprev := boundary_prev db n lo h2
  have hfollow := boundary_follow db n hi h1
  cases order with
  | asc =>
    refine ⟨rfl, ?_, ?_⟩
    · show (db.boundary n lo hi a).prev.isSome = true ↔
        0 < a - lo ∧ db.isLeased n (lo + (a - lo - 1)) = true
      rw [hprev, Nat.sub_pos_iff_lt]
      refine and_congr_right fun h => ?_
      rw [show lo + (a - lo - 1) = a - 1 by omega]
    · show (db.boundary n lo hi a).follow.isSome = true ↔
        a - lo < hi - lo ∧ db.isLeased n (lo + (a - lo + 1)) = true
      rw [hfollow, show lo + (a - lo + 1) = a + 1 by omega]
      exact and_congr_left fun _ => by omega
  | desc =>
    refine ⟨rfl, ?_, ?_⟩
    · show (db.boundary n lo hi a).follow.isSome = true ↔
        0 < hi - a ∧ db.isLeased n (hi - (hi - a - 1)) = true
      rw [hfollow, Nat.sub_pos_iff_lt]
      refine and_congr_right fun h => ?_
      rw [show hi - (hi - a - 1) = a + 1 by omega]
    · show (db.boundary n lo hi a).prev.isSome = true ↔
        hi - a < hi - lo ∧ db.isLeased n (hi - (hi - a + 1)) = true
      rw [hprev, show hi - (hi - a + 1) = a - 1 by omega]
      exact and_congr_left fun _ => by omega

theorem mem_edges (hle : lo ≤ hi) (order : Order) {e : Gap.Edge} :
    e ∈ (db.leasedIpBoundLease n lo hi).map (fun b => b.edge lo hi order) ↔
      Gap.IsEdge (db.taken n lo hi order) (hi - lo) e := by
  rw [List.mem_map]
  constructor
  · rintro ⟨b, hb, rfl⟩
    obtain ⟨h1, h2, h3, h4, h5⟩ := mem_leasedIpBoundLease.mp hb
    obtain ⟨hpos, hbefore, hafter⟩ := edge_boundary db n order h1 h2
    rw [← h4] at hpos hbefore hafter
    refine ⟨?_, ?_, hbefore, hafter, ?_⟩
    · rw [hpos]
      exact order.place_le h1 h2
    · rw [hpos, Db.taken, order.address_place h1 h2]
      exact h3
    · cases order with
      | asc => exact h5
      | desc => exact h5.symm
  · intro he
    obtain ⟨h1, h2⟩ := order.address_mem hle he.le
    obtain ⟨hpos, hbefore, hafter⟩ := edge_boundary db n order h1 h2
    rw [order.place_address he.le] at hpos
    have heq : (db.boundary n lo hi (order.address lo hi e.pos)).edge lo hi order = e := by
      rw [hpos, ← he.before, Bool.eq_iff_iff.symm] at hbefore
      rw [hpos, ← he.after, Bool.eq_iff_iff.symm] at hafter
      exact Gap.Edge.ext hpos hbefore hafter
    refine ⟨db.boundary n lo hi (order.address lo hi e.pos),
      mem_leasedIpBoundLease.mpr ⟨h1, h2, he.here, rfl, ?_⟩, heq⟩
    have houter := he.outer
    rw [← heq] at houter
    cases order with
    | asc => exact houter
    | desc => exact houter.symm

theorem nodup_leasedIpBoundLease (hu : db.UniqueLeases) :
    ((db.leasedIpBoundLease n lo hi).map Boundary.ipv4).Nodup := by
  have hsub : ((db.leasedIpBoundLease n lo hi).map Boundary.ipv4).Sublist (db.leasedIn n lo hi) := by
    rw [leasedIpBoundLease_eq]
    refine (List.filter_sublist.map Boundary.ipv4).trans ?_
    rw [List.map_map]
    exact (List.map_id _).symm ▸ List.Sublist.refl _
  refine hsub.nodup ?_
  unfold Db.leasedIn
  refine List.Nodup.map_on ?_ (hu.of_map.filter _)
  intro l hl m hm h
  rw [List.mem_filter] at hl hm
  simp only [Bool.and_eq_true, beq_iff_eq] at hl hm
  exact List.inj_on_of_nodup_map hu hl.1 hm.1 (by rw [hl.2.1.1, hm.2.1.1, h])

end

/-! ## What the search answers -/

section
variable {lo hi : Nat} {rows : List Boundary}

theorem getAssignmentIp_asc (hle : lo ≤ hi) (hw : ∀ b ∈ rows, lo ≤ b.ipv4 ∧ b.ipv4 ≤ hi) :
    getAssignmentIp (rows.take 2) lo hi =
      (Gap.first (hi - lo) (rows.map fun b => b.edge lo hi .asc)).map fun k =>
        Order.asc.address lo hi k := by
  rcases rows with _ | ⟨b, _ | ⟨c, cs⟩⟩
  · simp [getAssignmentIp, Gap.first, Order.address]
  · have hb := hw b (by simp)
    simp only [List.take, getAssignmentIp, hle, decide_true, if_true, List.map, Gap.first,
      Gap.next, Boundary.edge, Order.address]
    cases b.prev <;> cases b.follow <;> simp <;> grind
  · have hb := hw b (by simp)
    have hc := hw c (by simp)
    simp only [List.take, getAssignmentIp, hle, decide_true, if_true, List.map, Gap.first,
      Gap.next, Boundary.edge, Order.address]
    cases b.prev <;> cases b.follow <;> cases c.follow <;> simp <;> grind

theorem getAssignmentIp_desc (hlt : lo < hi) (hw : ∀ b ∈ rows, lo ≤ b.ipv4 ∧ b.ipv4 ≤ hi) :
    getAssignmentIp (rows.take 2) hi lo =
      (Gap.first (hi - lo) (rows.map fun b => b.edge lo hi .desc)).map fun k =>
        Order.desc.address lo hi k := by
  have hn : ¬ hi ≤ lo := by omega
  rcases rows with _ | ⟨b, _ | ⟨c, cs⟩⟩
  · simp [getAssignmentIp, Gap.first, Order.address]
  · have hb := hw b (by simp)
    simp only [List.take, getAssignmentIp, hn, decide_false, Bool.false_eq_true, if_false,
      List.map, Gap.first, Gap.next, Boundary.edge, Order.address]
    cases b.prev <;> cases b.follow <;> simp <;> grind
  · have hb := hw b (by simp)
    have hc := hw c (by simp)
    simp only [List.take, getAssignmentIp, hn, decide_false, Bool.false_eq_true, if_false,
      List.map, Gap.first, Gap.next, Boundary.edge, Order.address]
    cases b.prev <;> cases b.follow <;> cases c.prev <;> simp <;> grind

end

section
variable {env : Env} {db : Db} {n lo hi : Nat}

theorem first_le {rows : List Gap.Edge} {m k : Nat} (h : ∀ e ∈ rows, e.pos ≤ m)
    (hk : Gap.first m rows = some k) : k ≤ m := by
  rcases rows with _ | ⟨b, _ | ⟨c, cs⟩⟩
  · simp [Gap.first] at hk
    omega
  · have hb := h b (by simp)
    simp only [Gap.first, Gap.next] at hk
    grind
  · have hb := h b (by simp)
    have hc := h c (by simp)
    simp only [Gap.first, Gap.next] at hk
    grind

section
variable {rows : List Boundary} (hp : rows.Perm (db.leasedIpBoundLease n lo hi))
include hp

theorem mem_edges_of_perm (hle : lo ≤ hi) (order : Order) (e : Gap.Edge) :
    e ∈ rows.map (fun b => b.edge lo hi order) ↔
      Gap.IsEdge (db.taken n lo hi order) (hi - lo) e := by
  rw [← mem_edges hle, (hp.map _).mem_iff]

theorem ipv4_of_perm : ∀ b ∈ rows, lo ≤ b.ipv4 ∧ b.ipv4 ≤ hi :=
  fun _ hb => ipv4_of_mem (hp.mem_iff.mp hb)

theorem nodup_edges (hu : db.UniqueLeases) (order : Order) :
    (rows.map fun b => b.edge lo hi order).Nodup := by
  have hnd : (rows.map Boundary.ipv4).Nodup := (hp.map _).nodup_iff.mpr (nodup_leasedIpBoundLease hu)
  refine List.Nodup.map_on ?_ hnd.of_map
  intro b hb c hc he
  have h1 := ipv4_of_perm hp b hb
  have h2 := ipv4_of_perm hp c hc
  refine List.inj_on_of_nodup_map hnd hb hc ?_
  have hpos := congrArg Gap.Edge.pos he
  cases order with
  | asc => simp only [Boundary.edge] at hpos; omega
  | desc => simp only [Boundary.edge] at hpos; omega

/-- What the first two rows tell is the first unleased address exactly if they lead
to it. -/
theorem finds_first_iff (hle : lo ≤ hi) (hu : db.UniqueLeases) (order : Order) :
    order.Finds (db.unleased n lo hi)
        ((Gap.first (hi - lo) (rows.map fun b => b.edge lo hi order)).map fun k =>
          order.address lo hi k) ↔
      Gap.Leads (db.taken n lo hi order) (rows.map fun b => b.edge lo hi order) := by
  have hmem := mem_edges_of_perm hp hle order
  rw [← Gap.first_iff hmem (nodup_edges hp hu order), finds_iff hle]
  exact fun k hk => first_le (fun e he => ((hmem e).mp he).le) hk

end

theorem endsFirst_iff {b : Boundary} (hb : lo ≤ b.ipv4) :
    Gap.EndsFirst (db.taken n lo hi .asc) (b.edge lo hi .asc) ↔ db.EndsBlock n lo b := by
  unfold Gap.EndsFirst Db.EndsBlock
  refine and_congr (by simp [Boundary.edge]) ?_
  constructor
  · intro h a h1 h2
    have := h (a - lo) (by simp only [Boundary.edge]; omega)
    rwa [Db.taken, Order.address, show lo + (a - lo) = a by omega] at this
  · intro h k hk
    exact h (lo + k) (by omega) (by simp only [Boundary.edge] at hk; omega)

theorem leads_iff {rows : List Boundary} (hw : ∀ b ∈ rows, lo ≤ b.ipv4 ∧ b.ipv4 ≤ hi) :
    Gap.Leads (db.taken n lo hi .asc) (rows.map fun b => b.edge lo hi .asc) ↔
      db.RowsLead n lo rows := by
  cases rows with
  | nil => exact Iff.rfl
  | cons b bs =>
    have hb := (hw b List.mem_cons_self).1
    have htaken : db.taken n lo hi .asc 0 ↔ db.isLeased n lo = true := Iff.rfl
    have hhead : (∃ c ∈ (bs.map fun b => b.edge lo hi .asc).head?,
        Gap.EndsFirst (db.taken n lo hi .asc) c) ↔ ∃ c ∈ bs.head?, db.EndsBlock n lo c := by
      cases bs with
      | nil => simp
      | cons c cs => simp [endsFirst_iff (hw c (by simp)).1]
    have hpos : (b.edge lo hi .asc).pos = 0 ↔ b.ipv4 = lo := by
      simp only [Boundary.edge]
      omega
    simp only [List.map_cons, Gap.Leads, Db.RowsLead, htaken, endsFirst_iff hb, hhead, hpos]
    by_cases hl : db.isLeased n lo = true
    · simp [hl]
    · simp [hl, Boundary.edge]

/-- The first row, or the first two, decide whether the search upwards is right. -/
theorem availableIp_asc_iff (hle : lo ≤ hi) (hu : db.UniqueLeases)
    (hscan : (env.scan (db.leasedIpBoundLease n lo hi)).Perm (db.leasedIpBoundLease n lo hi)) :
    Order.asc.Finds (db.unleased n lo hi) (availableIp env db n lo hi .asc) ↔
      db.RowsLead n lo (env.scan (db.leasedIpBoundLease n lo hi)) := by
  have hw := ipv4_of_perm hscan
  rw [availableIp, getAssignmentIp_asc hle hw, finds_first_iff hscan hle hu, leads_iff hw]

theorem finds_self {ip : Option Nat} :
    Order.desc.Finds (db.unleased n lo lo) ip ↔ Order.asc.Finds (db.unleased n lo lo) ip := by
  have heq : ∀ x ∈ db.unleased n lo lo, x = lo := fun x hx => le_antisymm hx.2.1 hx.1
  cases ip with
  | none => exact Iff.rfl
  | some a =>
    refine and_congr_right fun ha => ?_
    have ha' := heq a ha
    constructor
    · intro _ x hx
      rw [ha', heq x hx]
    · intro _ x hx
      rw [ha', heq x hx]

section
variable {rows : List Boundary} (hp : rows.Perm (db.leasedIpBoundLease n lo hi))
include hp

/-- Rows in a strict order, or of a single address, lead to the first gap. -/
theorem finds_of_sorted (hle : lo ≤ hi) (hu : db.UniqueLeases) (order : Order)
    (hs : rows.Pairwise fun b c => order.place lo hi b.ipv4 < order.place lo hi c.ipv4) :
    order.Finds (db.unleased n lo hi)
      ((Gap.first (hi - lo) (rows.map fun b => b.edge lo hi order)).map fun k =>
        order.address lo hi k) := by
  rw [finds_first_iff hp hle hu]
  refine Gap.leads_of_sorted (mem_edges_of_perm hp hle order) ?_
  rw [List.pairwise_map]
  refine hs.imp fun h => ?_
  cases order with
  | asc => exact h
  | desc => exact h

theorem pairwise_ne (hu : db.UniqueLeases) : rows.Pairwise fun b c => b.ipv4 ≠ c.ipv4 := by
  rw [← List.pairwise_map]
  exact (hp.map _).nodup_iff.mpr (nodup_leasedIpBoundLease hu)

end

theorem availableIp_asc (hle : lo ≤ hi) (hu : db.UniqueLeases)
    (hscan : (env.scan (db.leasedIpBoundLease n lo hi)).Perm (db.leasedIpBoundLease n lo hi))
    (hs : (env.scan (db.leasedIpBoundLease n lo hi)).Pairwise fun b c => b.ipv4 ≤ c.ipv4) :
    Order.asc.Finds (db.unleased n lo hi) (availableIp env db n lo hi .asc) := by
  have hw := ipv4_of_perm hscan
  rw [availableIp, getAssignmentIp_asc hle hw]
  refine finds_of_sorted hscan hle hu .asc ?_
  refine ((hs.and (pairwise_ne hscan hu)).imp_of_mem ?_)
  intro b c hb hc h
  have hb := hw b hb
  have hc := hw c hc
  show b.ipv4 - lo < c.ipv4 - lo
  omega

theorem availableIp_desc (env : Env) (hle : lo ≤ hi) (hu : db.UniqueLeases) :
    Order.desc.Finds (db.unleased n lo hi) (availableIp env db n lo hi .desc) := by
  have hp := List.perm_insertionSort (fun b c : Boundary => c.ipv4 ≤ b.ipv4)
    (db.leasedIpBoundLease n lo hi)
  have hsort := List.pairwise_insertionSort (fun b c : Boundary => c.ipv4 ≤ b.ipv4)
    (db.leasedIpBoundLease n lo hi)
  have hw := ipv4_of_perm hp
  have hlt := (hsort.and (pairwise_ne hp hu)).imp_of_mem
    (S := fun b c : Boundary => c.ipv4 < b.ipv4) (fun _ _ h => by omega)
  rw [availableIp]
  rcases Nat.lt_or_eq_of_le hle with h | h
  · rw [getAssignmentIp_desc h hw]
    refine finds_of_sorted hp hle hu .desc (hlt.imp_of_mem ?_)
    intro b c hb hc hbc
    have hb := hw b hb
    have hc := hw c hc
    show hi - b.ipv4 < hi - c.ipv4
    omega
  · -- one address: the call takes the direction for upwards
    subst h
    rw [finds_self, getAssignmentIp_asc hle hw]
    refine finds_of_sorted hp hle hu .asc (hlt.imp_of_mem ?_)
    intro b c hb hc hbc
    have hb := hw b hb
    have hc := hw c hc
    omega

end

/-! ## The plain scan -/

theorem find_first {α : Type} {R : α → α → Prop} {p : α → Bool} {l : List α} {a : α}
    (hl : l.Pairwise R) (h : l.find? p = some a) : ∀ x ∈ l, p x = true → x = a ∨ R a x := by
  induction l with
  | nil => cases h
  | cons b l ih =>
    obtain ⟨hb, hl⟩ := List.pairwise_cons.mp hl
    rw [List.find?_cons] at h
    intro x hx hpx
    cases hpb : p b with
    | true =>
      rw [hpb] at h
      cases h
      rcases List.mem_cons.mp hx with hx | hx
      · exact .inl hx
      · exact .inr (hb x hx)
    | false =>
      rw [hpb] at h
      rcases List.mem_cons.mp hx with hx | hx
      · rw [hx, hpb] at hpx
        cases hpx
      · exact ih hl h x hx hpx

section
variable {db : Db} {n lo hi : Nat}

theorem scanWindow_finds (order : Order) :
    order.Finds (db.unleased n lo hi) (db.scanWindow n lo hi order) := by
  have hmem : ∀ a, a ∈ db.unleased n lo hi ↔
      a ∈ order.window lo hi ∧ (!db.isLeased n a) = true := by
    intro a
    rw [order.mem_window, Bool.not_eq_true', and_assoc]
    exact Iff.rfl
  cases hf : db.scanWindow n lo hi order with
  | none =>
    refine Set.eq_empty_iff_forall_notMem.mpr fun a ha => ?_
    obtain ⟨hm, hp⟩ := (hmem a).mp ha
    exact List.find?_eq_none.mp hf a hm hp
  | some a =>
    have hp : (!db.isLeased n a) = true := List.find?_some (p := fun a => !db.isLeased n a) hf
    refine Order.isFirst_iff.mpr ⟨(hmem a).mpr ⟨List.mem_of_find?_eq_some hf, hp⟩, fun x hx => ?_⟩
    obtain ⟨hm, hp⟩ := (hmem x).mp hx
    rcases find_first order.pairwise_window hf x hm hp with h | h
    · rw [h]
      cases order with
      | asc => exact Nat.le_refl a
      | desc => exact Nat.le_refl a
    · exact h

/-- The search agrees with the plain scan of every window, in both directions, exactly
if the rows of the unordered query lead to the gap. -/
theorem available_ip_iff {env : Env} (hscan : ∀ bs, (env.scan bs).Perm bs)
    (hu : db.UniqueLeases) (hle : lo ≤ hi) :
    (∀ order, order.Finds (db.unleased n lo hi) (availableIp env db n lo hi order) ∧
        availableIp env db n lo hi order = db.scanWindow n lo hi order) ↔
      db.RowsLead n lo (env.scan (db.leasedIpBoundLease n lo hi)) := by
  rw [← availableIp_asc_iff hle hu (hscan _)]
  constructor
  · exact fun h => (h .asc).1
  · intro h order
    have hfirst : order.Finds (db.unleased n lo hi) (availableIp env db n lo hi order) := by
      cases order with
      | asc => exact h
      | desc => exact availableIp_desc env hle hu
    exact ⟨hfirst, hfirst.unique (scanWindow_finds order)⟩

end

/-- `10.0.0.10` and `10.0.0.12` are leased. -/
def twoLeased : Db :=
  (threeVifs.insertLease 1 0x0a00000a none .auto none).insertLease 1 0x0a00000c none .auto none

theorem available_ip_in_order :
    Order.asc.Finds (twoLeased.unleased 1 0x0a00000a 0x0a000014)
        (availableIp incrementalEnv twoLeased 1 0x0a00000a 0x0a000014 .asc) ∧
      availableIp incrementalEnv twoLeased 1 0x0a00000a 0x0a000014 .asc =
        twoLeased.scanWindow 1 0x0a00000a 0x0a000014 .asc := by
  refine (available_ip_iff (fun bs => List.Perm.refl bs) (by decide) (by decide)).mpr ?_ .asc
  refine .inl ⟨rfl, fun a h1 h2 => ?_⟩
  rw [le_antisymm h2 h1]
  rfl

def reversedEnv : Env := { incrementalEnv with scan := List.reverse }

/-- The row of `10.0.0.12` comes first, and the leased `10.0.0.10` is the answer. -/
theorem leased_ip_available :
    (∀ bs, (reversedEnv.scan bs).Perm bs) ∧ twoLeased.UniqueLeases ∧
      availableIp reversedEnv twoLeased 1 0x0a00000a 0x0a000014 .asc = some 0x0a00000a ∧
      twoLeased.isLeased 1 0x0a00000a = true ∧
      ¬ Order.asc.Finds (twoLeased.unleased 1 0x0a00000a 0x0a000014)
        (availableIp reversedEnv twoLeased 1 0x0a00000a 0x0a000014 .asc) := by
  have hanswer : availableIp reversedEnv twoLeased 1 0x0a00000a 0x0a000014 .asc =
      some 0x0a00000a := by decide
  refine ⟨fun bs => bs.reverse_perm, by decide, hanswer, by decide, ?_⟩
  rw [hanswer]
  intro h
  have := h.1.2.2
  revert this
  decide

end Lease

end WakameVdc
