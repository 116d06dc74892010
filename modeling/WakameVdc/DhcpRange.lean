import WakameVdc.IpLeaseRun
import WakameVdc.Lib.Interval

/-!
# DHCP ranges

`Network#add_ipv4_dynamic_range` and `#del_ipv4_dynamic_range` of
`models/network.rb` with the rows of `models/dhcp_range.rb`. A new range is
compared with the stored ones at its two ends only, so the ranges of a network
stay disjoint as long as no new range encloses an old one.
-/

namespace WakameVdc

open Lib

namespace Lease

/-! ## Arguments -/

/-- An `IPAddress::IPv4`. -/
structure IPv4 where
  u32 : Nat
  prefixLen : Nat
  deriving DecidableEq, Repr

def IPv4.lt (a b : IPv4) : Bool :=
  if a.u32 = b.u32 then a.prefixLen < b.prefixLen else a.u32 < b.u32

inductive RangeColumn
  | rangeBegin | rangeEnd
  deriving DecidableEq, Repr

inductive RangeInvalid
  | outOfSubnet (column : RangeColumn) (ipv4 : Nat)
  | networkAddress (column : RangeColumn) (ipv4 : Nat)
  | broadcastAddress (column : RangeColumn) (ipv4 : Nat)
  | beginLarger (rangeBegin rangeEnd : Nat)
  deriving DecidableEq, Repr

inductive RangeError
  | invalidAddress
  | outOfSubnet (network : Nat) (rangeBegin rangeEnd : IPv4)
  | beginLarger (rangeBegin rangeEnd : IPv4)
  | edgeOverwrap
  | notFound
  | validationFailed (errors : List RangeInvalid)
  deriving DecidableEq, Repr

namespace NetworkRow

/-- `include?` of the network's own address; a shorter prefix is out of it. -/
def includesRangeArg (n : NetworkRow) (a : IPv4) : Bool :=
  n.prefixLen ≤ a.prefixLen && n.includes a.u32

/-- An argument is the address `IPAddress::IPv4.new` makes of it with the prefix
of the network, and `none` where that raises. -/
def validateRangeArgs (n : NetworkRow) (rangeBegin rangeEnd : Option IPv4) :
    Except RangeError (Nat × Nat) :=
  match rangeBegin, rangeEnd with
  | some b, some e =>
    if !(n.includesRangeArg b && n.includesRangeArg e) then .error (.outOfSubnet n.network b e)
    else if e.lt b then .error (.beginLarger b e)
    else .ok (b.u32, e.u32)
  | _, _ => .error .invalidAddress

def validateAddress (n : NetworkRow) (column : RangeColumn) (ipv4 : Nat) : List RangeInvalid :=
  (if n.includes ipv4 then [] else [RangeInvalid.outOfSubnet column ipv4]) ++
    (if n.network == ipv4 then [RangeInvalid.networkAddress column ipv4] else []) ++
    if n.broadcast == ipv4 then [RangeInvalid.broadcastAddress column ipv4] else []

/-- `DhcpRange#validate` -/
def validateRange (n : NetworkRow) (rangeBegin rangeEnd : Nat) : List RangeInvalid :=
  n.validateAddress .rangeBegin rangeBegin ++ n.validateAddress .rangeEnd rangeEnd ++
    if rangeBegin > rangeEnd then [.beginLarger rangeBegin rangeEnd] else []

end NetworkRow

/-! ## Adding and deleting -/

def DhcpRangeRow.contains (r : DhcpRangeRow) (u32 : Nat) : Bool :=
  r.rangeBegin ≤ u32 && u32 ≤ r.rangeEnd

def DhcpRangeRow.addresses (r : DhcpRangeRow) : Set Nat := Set.Icc r.rangeBegin r.rangeEnd

namespace Db

def hitRanges (db : Db) (network : Nat) (u32s : List Nat) : List DhcpRangeRow :=
  ((db.dhcpRangesOf network).filter fun r => u32s.any r.contains).insertionSort
    fun a b => a.rangeBegin ≤ b.rangeBegin

def insertDhcpRange (db : Db) (networkId rangeBegin rangeEnd : Nat) : Db :=
  { db with dhcpRanges :=
      db.dhcpRanges.create (fun id => ⟨id, networkId, rangeBegin, rangeEnd⟩) fun _ => rfl }

def addDhcpRange (db : Db) (n : NetworkRow) (rangeBegin rangeEnd : Nat) : Except RangeError Db :=
  match n.validateRange rangeBegin rangeEnd with
  | [] => .ok (db.insertDhcpRange n.id rangeBegin rangeEnd)
  | errors => .error (.validationFailed errors)

def addIpv4DynamicRange (db : Db) (n : NetworkRow) (rangeBegin rangeEnd : Option IPv4) :
    Except RangeError Db := do
  let (b, e) ← n.validateRangeArgs rangeBegin rangeEnd
  if (db.hitRanges n.id [b, e]).isEmpty then db.addDhcpRange n b e
  else throw .edgeOverwrap

def delIpv4DynamicRange (db : Db) (n : NetworkRow) (rangeBegin rangeEnd : Option IPv4) :
    Except RangeError Db := do
  let (b, e) ← n.validateRangeArgs rangeBegin rangeEnd
  let toDestroy : DhcpRangeRow → Bool := fun r =>
    r.networkId == n.id && r.rangeBegin == b && r.rangeEnd == e
  if (db.dhcpRanges.rows.filter toDestroy).isEmpty then throw .notFound
  else return { db with dhcpRanges := db.dhcpRanges.delete toDestroy }

end Db

inductive RangeOp
  | add (network : Nat) (rangeBegin rangeEnd : Option IPv4)
  | del (network : Nat) (rangeBegin rangeEnd : Option IPv4)
  deriving DecidableEq, Repr

namespace RangeOp

def run (db : Db) : RangeOp → Except RangeError Db
  | add network b e =>
    match db.networks.find network with
    | none => .ok db
    | some n => db.addIpv4DynamicRange n b e
  | del network b e =>
    match db.networks.find network with
    | none => .ok db
    | some n => db.delIpv4DynamicRange n b e

def step (db : Db) (op : RangeOp) : Db :=
  match op.run db with
  | .ok db => db
  | .error _ => db

end RangeOp

/-! ## Disjoint ranges -/

def Db.RangesDisjoint (db : Db) : Prop :=
  ∀ n, (db.dhcpRangesOf n).Pairwise fun r s => Disjoint r.addresses s.addresses

def NetworkRow.accepts (n : NetworkRow) (b e : Option IPv4) (lo hi : Nat) : Prop :=
  n.validateRangeArgs b e = .ok (lo, hi) ∧ n.validateRange lo hi = []

/-- A range neither of whose ends lies in a range of the network encloses none
of them. -/
def RangeOp.EnclosesNone (db : Db) : RangeOp → Prop
  | .add network b e => ∀ n lo hi, db.networks.find network = some n → n.accepts b e lo hi →
      db.hitRanges n.id [lo, hi] = [] → ∀ r ∈ db.dhcpRangesOf n.id,
        ¬ (lo < r.rangeBegin ∧ r.rangeBegin ≤ r.rangeEnd ∧ r.rangeEnd < hi)
  | .del _ _ _ => True

/-- What is promised of one call: the ranges are disjoint after it, and a range
that meets a stored one is refused. -/
structure RangeOp.Promised (db : Db) (op : RangeOp) : Prop where
  disjoint : (op.step db).RangesDisjoint
  refused : ∀ network b e n lo hi, op = .add network b e → db.networks.find network = some n →
    n.validateRangeArgs b e = .ok (lo, hi) →
    (∃ r ∈ db.dhcpRangesOf n.id, ¬ Disjoint r.addresses (Set.Icc lo hi)) →
    (∃ err, op.run db = .error err) ∧ op.step db = db

section
variable {db : Db} {n : NetworkRow} {b e : Option IPv4} {lo hi : Nat}

theorem hitRanges_eq_nil : db.hitRanges n.id [lo, hi] = [] ↔
    ∀ r ∈ db.dhcpRangesOf n.id, ¬ (r.rangeBegin ≤ lo ∧ lo ≤ r.rangeEnd) ∧
      ¬ (r.rangeBegin ≤ hi ∧ hi ≤ r.rangeEnd) := by
  have hsort : db.hitRanges n.id [lo, hi] = [] ↔
      ((db.dhcpRangesOf n.id).filter fun r => [lo, hi].any r.contains) = [] := by
    unfold Db.hitRanges
    rw [← List.length_eq_zero_iff, List.length_insertionSort, List.length_eq_zero_iff]
  rw [hsort, List.filter_eq_nil_iff]
  simp [DhcpRangeRow.contains]

theorem dhcpRangesOf_insert (m : Nat) :
    (db.insertDhcpRange n.id lo hi).dhcpRangesOf m =
      db.dhcpRangesOf m ++ if n.id = m then [⟨db.dhcpRanges.next, n.id, lo, hi⟩] else [] := by
  unfold Db.dhcpRangesOf
  show List.filter _ (_ ++ _) = _
  rw [List.filter_append]
  congr 1
  by_cases h : n.id = m
  · simp [h]
  · simp [h]

/-- What an add does: it is refused, or the new range meets no end of an old one. -/
theorem add_cases (db : Db) (n : NetworkRow) (b e : Option IPv4) :
    (∃ err, db.addIpv4DynamicRange n b e = .error err) ∨
      ∃ lo hi, n.accepts b e lo hi ∧ db.hitRanges n.id [lo, hi] = [] ∧
        db.addIpv4DynamicRange n b e = .ok (db.insertDhcpRange n.id lo hi) := by
  unfold Db.addIpv4DynamicRange
  cases hargs : n.validateRangeArgs b e with
  | error err => exact Or.inl ⟨err, rfl⟩
  | ok args =>
    obtain ⟨lo, hi⟩ := args
    simp only [bind, Except.bind]
    by_cases hhit : (db.hitRanges n.id [lo, hi]).isEmpty = true
    · rw [if_pos hhit]
      unfold Db.addDhcpRange
      cases hvalid : n.validateRange lo hi with
      | nil => exact Or.inr ⟨lo, hi, ⟨hargs, hvalid⟩, List.isEmpty_iff.mp hhit, rfl⟩
      | cons x xs => exact Or.inl ⟨_, rfl⟩
    · rw [if_neg hhit]
      exact Or.inl ⟨_, rfl⟩

theorem disjoint_insert_iff (h : db.RangesDisjoint) (hhit : db.hitRanges n.id [lo, hi] = []) :
    (db.insertDhcpRange n.id lo hi).RangesDisjoint ↔
    ∀ r ∈ db.dhcpRangesOf n.id,
      ¬ (lo < r.rangeBegin ∧ r.rangeBegin ≤ r.rangeEnd ∧ r.rangeEnd < hi) := by
  rw [hitRanges_eq_nil] at hhit
  have hends : ∀ r ∈ db.dhcpRangesOf n.id, (Disjoint r.addresses (Set.Icc lo hi) ↔
      ¬ (lo < r.rangeBegin ∧ r.rangeBegin ≤ r.rangeEnd ∧ r.rangeEnd < hi)) := by
    intro r hr
    exact disjoint_Icc_of_ends (hhit r hr).1 (hhit r hr).2
  constructor
  · intro hd r hr
    have hn := hd n.id
    rw [dhcpRangesOf_insert, if_pos rfl, pairwise_concat] at hn
    exact (hends r hr).mp (hn.2 r hr)
  · intro hno m
    rw [dhcpRangesOf_insert]
    by_cases hm : n.id = m
    · rw [if_pos hm, pairwise_concat]
      refine ⟨h m, ?_⟩
      intro r hr
      rw [← hm] at hr
      exact (hends r hr).mpr (hno r hr)
    · rw [if_neg hm, List.append_nil]
      exact h m

theorem disjoint_del (h : db.RangesDisjoint) {db' : Db}
    (hdel : db.delIpv4DynamicRange n b e = .ok db') : db'.RangesDisjoint := by
  unfold Db.delIpv4DynamicRange at hdel
  obtain ⟨⟨lo, hi⟩, _, hdel⟩ := bind_ok hdel
  dsimp only at hdel
  split at hdel
  · cases hdel
  · cases hdel
    intro m
    exact (h m).sublist (List.Sublist.filter _ List.filter_sublist)

end

theorem promised_iff {db : Db} (h : db.RangesDisjoint) (op : RangeOp) :
    op.Promised db ↔ op.EnclosesNone db := by
  cases op with
  | del network b e =>
    refine ⟨fun _ => trivial, fun _ => ⟨?_, ?_⟩⟩
    · simp only [RangeOp.step, RangeOp.run]
      cases db.networks.find network with
      | none => exact h
      | some n =>
        dsimp only
        cases hdel : db.delIpv4DynamicRange n b e with
        | error err => exact h
        | ok db' => exact disjoint_del h hdel
    · intro _ _ _ _ _ _ hop
      cases hop
  | add network b e =>
    simp only [RangeOp.EnclosesNone]
    cases hn : db.networks.find network with
    | none =>
      constructor
      · intro _ n lo hi hn'
        cases hn'
      · intro _
        refine ⟨?_, ?_⟩
        · simp only [RangeOp.step, RangeOp.run, hn]
          exact h
        · intro _ _ _ n lo hi hop hn'
          cases hop
          rw [hn] at hn'
          cases hn'
    | some n =>
      have hrun : (RangeOp.add network b e).run db = db.addIpv4DynamicRange n b e := by
        simp only [RangeOp.run, hn]
      rcases add_cases db n b e with ⟨err, herr⟩ | ⟨lo, hi, hacc, hhit, hok⟩
      · have hstep : (RangeOp.add network b e).step db = db := by
          unfold RangeOp.step
          rw [hrun, herr]
        constructor
        · intro _ n' lo hi hn' hacc hhit
          cases hn'
          unfold Db.addIpv4DynamicRange at herr
          rw [hacc.1] at herr
          simp only [bind, Except.bind, hhit, List.isEmpty_nil, if_true] at herr
          unfold Db.addDhcpRange at herr
          rw [hacc.2] at herr
          cases herr
        · intro _
          refine ⟨?_, fun _ _ _ _ _ _ _ _ _ _ => ⟨⟨err, by rw [hrun, herr]⟩, hstep⟩⟩
          rw [hstep]
          exact h
      · have hstep : (RangeOp.add network b e).step db = db.insertDhcpRange n.id lo hi := by
          unfold RangeOp.step
          rw [hrun, hok]
        have hiff := disjoint_insert_iff h hhit
        have hsame : ∀ n' lo' hi', some n = some n' → n'.accepts b e lo' hi' →
            n' = n ∧ lo' = lo ∧ hi' = hi := by
          intro n' lo' hi' he ha
          cases he
          have hargs := hacc.1.symm.trans ha.1
          cases hargs
          exact ⟨rfl, rfl, rfl⟩
        constructor
        · intro hp n' lo' hi' he ha _
          obtain ⟨rfl, rfl, rfl⟩ := hsame n' lo' hi' he ha
          have hd := hp.disjoint
          rw [hstep] at hd
          exact hiff.mp hd
        · intro hnone
          have hno := hnone n lo hi rfl hacc hhit
          refine ⟨?_, ?_⟩
          · rw [hstep]
            exact hiff.mpr hno
          · intro network' b' e' n' lo' hi' hop hn' hargs hmeet
            cases hop
            rw [hn] at hn'
            cases hn'
            have hboth := hacc.1.symm.trans hargs
            cases hboth
            obtain ⟨r, hr, hmeet⟩ := hmeet
            rw [hitRanges_eq_nil] at hhit
            exact absurd ((disjoint_Icc_of_ends (hhit r hr).1 (hhit r hr).2).mpr (hno r hr)) hmeet

/-- Along a run from disjoint ranges every call keeps its promise exactly where
none encloses a range. -/
theorem dynamic_ranges_disjoint_iff {db : Db} (h : db.RangesDisjoint) {ops : List RangeOp} :
    Each (fun db op => op.step db) (fun db op => op.Promised db) db ops ↔
      Each (fun db op => op.step db) (fun db op => op.EnclosesNone db) db ops := by
  apply each_congr_of Db.RangesDisjoint _ (fun db op hd => promised_iff hd op) h
  intro db op _ hp
  exact hp.disjoint

/-! ## A range that encloses another one -/

/-- `10.0.0.0/24` without ranges. -/
def rangelessDb : Db := { threeVifs with
  dhcpRanges := Table.empty
  vifs := Table.empty }

/-- The range from `10.0.0.lo` to `10.0.0.hi`. -/
def addRange (lo hi : Nat) : RangeOp :=
  .add 1 (some ⟨0x0a000000 + lo, 24⟩) (some ⟨0x0a000000 + hi, 24⟩)

theorem rangelessDb_disjoint : rangelessDb.RangesDisjoint := by
  intro n
  exact List.Pairwise.nil

theorem dynamic_ranges_disjoint_apart :
    Each (fun db op => op.step db) (fun db op => op.Promised db) rangelessDb
      [addRange 10 20, addRange 30 40, addRange 15 35, .del 1 (some ⟨0x0a00000a, 24⟩)
        (some ⟨0x0a000014, 24⟩)] := by
  refine (dynamic_ranges_disjoint_iff rangelessDb_disjoint).mpr ⟨?_, ?_, ?_, trivial, trivial⟩
  · intro n lo hi hn _ _ r hr
    cases hr
  · intro n lo hi hn hacc _ r hr
    cases hn
    cases hacc.1
    revert r
    decide
  · intro n lo hi hn hacc hhit
    cases hn
    cases hacc.1
    revert hhit
    decide

/-- A range from 10 to 40 is added although the one from 20 to 30 is there. -/
theorem enclosing_range_added :
    rangelessDb.RangesDisjoint ∧
      (∃ db', (addRange 10 40).run ((addRange 20 30).step rangelessDb) = .ok db' ∧
        ¬ db'.RangesDisjoint) := by
  refine ⟨rangelessDb_disjoint, _, rfl, ?_⟩
  intro h
  have hd := (List.pairwise_cons.mp (h 1)).1 _ (List.mem_singleton_self _)
  have hboth : (0x0a000019 : Nat) ∈ Set.Icc 0x0a000014 0x0a00001e ∧
      (0x0a000019 : Nat) ∈ Set.Icc 0x0a00000a 0x0a000028 := by
    constructor <;> rw [Set.mem_Icc] <;> omega
  exact Set.disjoint_left.mp hd hboth.1 hboth.2

end Lease

end WakameVdc
