import WakameVdc.MacLeaseSound

/-!
# Available MAC addresses

`MacRange#available_macs_left?` takes the leased addresses from the distance between the
ends of the range, which is one less than the addresses it has. The pick that relies on
it draws until it meets an address that is not leased.
-/

namespace WakameVdc

open Lib

namespace Mac

def Db.unleased (db : Db) (r : MacRangeRow) : Finset Nat :=
  (Finset.Icc r.concatBegin r.concatEnd).filter fun a : Nat => db.isLeased a = false

/-- The state with the numbers `rand` is going to draw. -/
def Db.withDraws (db : Db) (draws : List Nat) : Db := { db with draws := draws }

/-- Whether there are addresses left, what is picked for whatever is drawn, and that
everything unleased may be picked. -/
structure Db.PicksUnleased (db : Db) (r : MacRangeRow) : Prop where
  left : db.availableMacsLeft r = true ↔ (db.unleased r).Nonempty
  picks : ∀ draws a t,
    Proc.exec (getRandomAvailableMac r) (db.withDraws draws) = (.ok (some a), t) → a ∈ db.unleased r
  nothing : ∀ draws t,
    Proc.exec (getRandomAvailableMac r) (db.withDraws draws) = (.ok none, t) → db.unleased r = ∅
  /-- It draws on only as long as everything it drew is leased. -/
  ends : ∀ draws e t, Proc.exec (getRandomAvailableMac r) (db.withDraws draws) = (.error e, t) →
    e = .stillDrawing ∧ ∀ d ∈ draws,
      db.isLeased ↑(r.concatBegin + d % (r.concatEnd - r.concatBegin + 1)) = true
  reaches : ∀ a ∈ db.unleased r, ∃ draws t,
    Proc.exec (getRandomAvailableMac r) (db.withDraws draws) = (.ok (some a), t)

section
variable {db : Db} {r : MacRangeRow}

theorem mem_unleased {a : Nat} :
    a ∈ db.unleased r ↔ (r.concatBegin ≤ a ∧ a ≤ r.concatEnd) ∧ db.isLeased a = false := by
  rw [Db.unleased, Finset.mem_filter, Finset.mem_Icc]

/-! ## Counting -/

theorem isLeased_iff {a : Nat} : db.isLeased a = true ↔ ∃ l ∈ db.leases.rows, l.macAddr = a := by
  simp [Db.isLeased]

/-- Every leased address of the range is counted once. -/
theorem countP_leases : (db.leases.rows.countP fun l =>
      r.concatBegin ≤ l.macAddr && l.macAddr ≤ r.concatEnd) =
    ((Finset.Icc r.concatBegin r.concatEnd).filter fun a : Nat => ¬ db.isLeased a = false).card := by
  rw [List.countP_eq_length_filter]
  have hnd : ((db.leases.rows.filter fun l =>
      r.concatBegin ≤ l.macAddr && l.macAddr ≤ r.concatEnd).map MacLeaseRow.macAddr).Nodup :=
    db.unique.sublist (List.filter_sublist.map _)
  rw [← List.length_map MacLeaseRow.macAddr, ← List.toFinset_card_of_nodup hnd]
  congr 1
  ext a
  simp only [List.mem_toFinset, List.mem_map, List.mem_filter, Bool.and_eq_true, decide_eq_true_eq,
    Finset.mem_filter, Finset.mem_Icc, Bool.not_eq_false, isLeased_iff]
  constructor
  · rintro ⟨l, ⟨hl, h⟩, rfl⟩
    exact ⟨h, l, hl, rfl⟩
  · rintro ⟨h, l, hl, rfl⟩
    exact ⟨l, ⟨hl, h⟩, rfl⟩

/-- One of the unleased addresses is never counted. -/
theorem availableMacsLeft_iff : db.availableMacsLeft r = true ↔ 2 ≤ (db.unleased r).card := by
  have hsum := Finset.card_filter_add_card_filter_not (s := Finset.Icc r.concatBegin r.concatEnd)
    (fun a : Nat => db.isLeased a = false)
  rw [Nat.card_Icc] at hsum
  unfold Db.availableMacsLeft Db.amountOfAvailableMacs
  rw [countP_leases, decide_eq_true_eq, Db.unleased]
  dsimp only
  omega

/-! ## Drawing -/

theorem mem_of_drawMac {draws rest : List Nat} {a : Nat} (hle : r.concatBegin ≤ r.concatEnd)
    (h : db.drawMac r draws = some (a, rest)) : a ∈ db.unleased r := by
  induction draws with
  | nil => cases h
  | cons d draws ih =>
    rw [Db.drawMac] at h
    split at h
    · exact ih h
    · rename_i hl
      cases h
      have hmod : d % (r.concatEnd - r.concatBegin + 1) < r.concatEnd - r.concatBegin + 1 :=
        Nat.mod_lt d (Nat.succ_pos _)
      exact mem_unleased.mpr ⟨⟨by omega, by omega⟩, by simpa using hl⟩

theorem leased_of_drawMac {draws : List Nat} (h : db.drawMac r draws = none) :
    ∀ d ∈ draws, db.isLeased ↑(r.concatBegin + d % (r.concatEnd - r.concatBegin + 1)) = true := by
  induction draws with
  | nil => exact fun d hd => nomatch hd
  | cons e draws ih =>
    rw [Db.drawMac] at h
    split at h
    · rename_i hl
      intro d hd
      rcases List.mem_cons.mp hd with rfl | hd
      · exact hl
      · exact ih h d hd
    · cases h

theorem drawMac_of_unleased {a : Nat} (ha : a ∈ db.unleased r) :
    db.drawMac r [a - r.concatBegin] = some (a, []) := by
  obtain ⟨⟨h1, h2⟩, hfree⟩ := mem_unleased.mp ha
  have hmod : (a - r.concatBegin) % (r.concatEnd - r.concatBegin + 1) = a - r.concatBegin :=
    Nat.mod_eq_of_lt (by omega)
  rw [Db.drawMac, hmod, Nat.add_sub_cancel' h1]
  simp [hfree]

theorem drawMac_withDraws (ds draws : List Nat) :
    (db.withDraws ds).drawMac r draws = db.drawMac r draws := by
  induction draws with
  | nil => rfl
  | cons d draws ih =>
    rw [Db.drawMac, Db.drawMac, ih]
    rfl

theorem exec_pick_none (h : db.availableMacsLeft r = false) (draws : List Nat) :
    Proc.exec (getRandomAvailableMac r) (db.withDraws draws) = (.ok none, db.withDraws draws) := by
  have hleft : (db.withDraws draws).availableMacsLeft r = false := h
  unfold getRandomAvailableMac
  rw [Proc.exec_bind, Proc.exec_get]
  dsimp only
  rw [hleft]
  rfl

theorem exec_pick (h : db.availableMacsLeft r = true) (draws : List Nat) :
    Proc.exec (getRandomAvailableMac r) (db.withDraws draws) =
      match db.drawMac r draws with
      | none => (.error .stillDrawing, db.withDraws draws)
      | some (a, rest) => (.ok (some a), db.withDraws rest) := by
  have hleft : (db.withDraws draws).availableMacsLeft r = true := h
  have hdraw : (db.withDraws draws).drawMac r (db.withDraws draws).draws = db.drawMac r draws :=
    drawMac_withDraws draws draws
  unfold getRandomAvailableMac
  rw [Proc.exec_bind, Proc.exec_get]
  dsimp only
  rw [hleft, hdraw]
  cases db.drawMac r draws with
  | none => rfl
  | some p => rfl

theorem picksUnleased_of_left (h : db.availableMacsLeft r = true) : db.PicksUnleased r := by
  have hcard := availableMacsLeft_iff.mp h
  have hne : (db.unleased r).Nonempty := Finset.card_pos.mp (by omega)
  have hle : r.concatBegin ≤ r.concatEnd := by
    obtain ⟨a, ha⟩ := hne
    have := (mem_unleased.mp ha).1
    omega
  constructor
  · exact iff_of_true h hne
  · intro draws a t ht
    rw [exec_pick h] at ht
    cases hd : db.drawMac r draws with
    | none =>
      rw [hd] at ht
      cases ht
    | some p =>
      rw [hd] at ht
      cases ht
      exact mem_of_drawMac hle hd
  · intro draws t ht
    rw [exec_pick h] at ht
    cases hd : db.drawMac r draws with
    | none =>
      rw [hd] at ht
      cases ht
    | some p =>
      rw [hd] at ht
      cases ht
  · intro draws e t ht
    rw [exec_pick h] at ht
    cases hd : db.drawMac r draws with
    | none =>
      rw [hd] at ht
      cases ht
      exact ⟨rfl, leased_of_drawMac hd⟩
    | some p =>
      rw [hd] at ht
      cases ht
  · intro a ha
    refine ⟨[a - r.concatBegin], db.withDraws [], ?_⟩
    rw [exec_pick h, drawMac_of_unleased ha]

theorem picksUnleased_of_none (hleft : db.availableMacsLeft r = false) (h : db.unleased r = ∅) :
    db.PicksUnleased r := by
  constructor
  · rw [hleft, h]
    simp
  · intro draws a t ht
    rw [exec_pick_none hleft] at ht
    cases ht
  · exact fun _ _ _ => h
  · intro draws e t ht
    rw [exec_pick_none hleft] at ht
    cases ht
  · intro a ha
    rw [h] at ha
    cases ha

/-- The addresses that are left are found, and picked, exactly unless there is only one. -/
theorem picks_unleased_iff : db.PicksUnleased r ↔ (db.unleased r).card ≠ 1 := by
  constructor
  · intro h hone
    have := availableMacsLeft_iff.mp (h.left.mpr (Finset.card_pos.mp (by omega)))
    omega
  · intro hne
    cases hl : db.availableMacsLeft r with
    | true => exact picksUnleased_of_left hl
    | false =>
      have hcard : ¬ 2 ≤ (db.unleased r).card := by
        rw [← availableMacsLeft_iff, hl]
        simp
      exact picksUnleased_of_none hl (Finset.card_eq_zero.mp (by omega))

end

example : ((oneRange 0x525400).unleased ⟨1, 0x525400, 0, 2⟩).card ≠ 1 := by decide

/-- A range of one address that nobody leased has no addresses left. -/
theorem single_mac_refused :
    (oneRange 0x525400).unleased ⟨1, 0x525400, 7, 7⟩ = {0x525400000007} ∧
      (oneRange 0x525400).availableMacsLeft ⟨1, 0x525400, 7, 7⟩ = false ∧
      answer (getRandomAvailableMac ⟨1, 0x525400, 7, 7⟩) (oneRange 0x525400) = some none := by
  decide

end Mac

end WakameVdc
