import WakameVdc.MacLease

/-!
# Leased MAC addresses

A scheduler leases the address it picks, and the vif finds its lease again,
exactly if the address fills its twelve digits: the schedulers write it without
padding, and `MacLease.lease` goes by the length of what it is given.
-/

namespace WakameVdc

open Lib

namespace Mac

/-! ## What is picked -/

/-- An address of twelve digits that is not leased. -/
structure Pickable (db : Db) (a : Nat) : Prop where
  lt : a < 16 ^ 12
  free : db.isLeased a = false

theorem isLeased_congr {db t : Db} (h : t.leases = db.leases) (n : Int) :
    t.isLeased n = db.isLeased n := by
  unfold Db.isLeased
  rw [h]

theorem drawMac_spec {db : Db} {r : MacRangeRow} {draws rest : List Nat} {a : Nat}
    (h : db.drawMac r draws = some (a, rest)) : Pickable db a := by
  induction draws with
  | nil => cases h
  | cons d draws ih =>
    rw [Db.drawMac] at h
    split at h
    · exact ih h
    case isFalse hl =>
      cases h
      refine ⟨?_, by simpa using hl⟩
      have hv := r.vendorId.isLt
      have hb := r.rangeBegin.isLt
      have he := r.rangeEnd.isLt
      have hmod : d % (r.concatEnd - r.concatBegin + 1) < r.concatEnd - r.concatBegin + 1 :=
        Nat.mod_lt d (Nat.succ_pos _)
      unfold MacRangeRow.concatBegin MacRangeRow.concatEnd at *
      omega

section
variable {db : Db} {conf : Conf} {vif : MacVif}

theorem answers_getRandomAvailableMac (r : MacRangeRow) :
    Proc.Answers (fun t => t.leases = db.leases) (getRandomAvailableMac r) fun mac =>
      ∀ a ∈ mac, Pickable db a := by
  apply Proc.answers_get.bind
  intro t ht
  split
  · apply Proc.answers_pure
    simp
  · cases hd : t.drawMac r t.draws with
    | none => exact Proc.answers_throw _
    | some p =>
      have hp : Pickable t p.1 := drawMac_spec hd
      dsimp only
      refine Proc.Keeps.bind_answers (Proc.keeps_set ht) ?_
      intro _
      apply Proc.answers_pure
      intro a ha
      cases ha
      exact ⟨hp.lt, (isLeased_congr ht _).symm.trans hp.free⟩

theorem answers_macOfRange {β : Type} {r : MacRangeRow} {e : MacError} {k : Nat → MacM β} {Q : β → Prop}
    (hk : ∀ a, Pickable db a → Proc.Answers (fun t => t.leases = db.leases) (k a) Q) :
    Proc.Answers (fun t => t.leases = db.leases)
      (getRandomAvailableMac r >>= fun
        | none => throw e
        | some a => k a) Q := by
  apply (answers_getRandomAvailableMac _).bind
  intro mac hmac
  cases mac with
  | none => exact Proc.answers_throw _
  | some a => exact hk a (hmac a rfl)

theorem answers_default :
    Proc.Answers (fun t => t.leases = db.leases) Default.pick (Pickable db) := by
  apply Proc.keeps_get.bind_answers
  intro t
  split
  · exact Proc.answers_throw _
  · exact answers_macOfRange fun _ ha => Proc.answers_pure ha

theorem answers_tryGroups (hids : List Nat) {mac : Option Nat} (hmac : ∀ a ∈ mac, Pickable db a) :
    Proc.Answers (fun t => t.leases = db.leases) (ByHostNodeGroup.tryGroups conf hids mac) fun mac =>
      ∀ a ∈ mac, Pickable db a := by
  induction hids generalizing mac with
  | nil => exact Proc.answers_pure hmac
  | cons hid hids ih =>
    unfold ByHostNodeGroup.tryGroups
    split
    · exact Proc.answers_throw _
    · apply Proc.keeps_get.bind_answers
      intro t
      split
      · exact ih hmac
      · split
        · exact ih hmac
        · refine answers_macOfRange fun a ha => ih fun b hb => ?_
          cases hb
          exact ha

theorem answers_byHostNodeGroup :
    Proc.Answers (fun t => t.leases = db.leases) (ByHostNodeGroup.pick conf vif)
      (Pickable db) := by
  apply (answers_tryGroups vif.hostGroups (by simp)).bind
  intro mac hmac
  cases mac with
  | some a => exact Proc.answers_pure (hmac a rfl)
  | none =>
    apply Proc.keeps_get.bind_answers
    intro t
    split
    · exact Proc.answers_throw _
    · exact answers_macOfRange fun _ ha => Proc.answers_pure ha

/-- A requested address lies in a range, so it has twelve digits whatever the
request's text was. -/
theorem pickable_of_range {t : Db} (ht : t.leases = db.leases) {vendorId addr : Int}
    (hfree : ¬ t.isLeased (vendorId * 0x1000000 + addr) = true)
    (hrange : ¬ (!t.existsInAnyRange vendorId addr) = true) :
    Pickable db (vendorId * 0x1000000 + addr).toNat := by
  rw [Bool.not_eq_true, Bool.not_eq_false'] at hrange
  obtain ⟨r, _, hr⟩ := List.any_eq_true.mp hrange
  simp only [Bool.and_eq_true, beq_iff_eq, decide_eq_true_eq] at hr
  obtain ⟨⟨hv, hlo⟩, hhi⟩ := hr
  have hvlt := r.vendorId.isLt
  have helt := r.rangeEnd.isLt
  refine ⟨by omega, ?_⟩
  rw [← isLeased_congr ht, Int.toNat_of_nonneg (by omega)]
  simpa using hfree

theorem answers_specifyMacAddress :
    Proc.Answers (fun t => t.leases = db.leases) (SpecifyMacAddress.pick conf vif)
      (Pickable db) := by
  apply Proc.answers_get.bind
  intro t ht
  split
  · exact Proc.answers_throw _
  · split
    · exact Proc.answers_throw _
    · split
      · exact Proc.answers_throw _
      · split
        · exact Proc.answers_throw _
        · split
          · exact Proc.answers_throw _
          · dsimp only
            split
            · exact Proc.answers_throw _
            · split
              · exact Proc.answers_throw _
              case isFalse.isFalse hfree hrange =>
                exact Proc.answers_pure (pickable_of_range ht hfree hrange)

theorem answers_pick (s : MacScheduler) :
    Proc.Answers (fun t => t.leases = db.leases) (s.pick conf vif) (Pickable db) := by
  cases s with
  | default => exact answers_default
  | byHostNodeGroup => exact answers_byHostNodeGroup
  | specifyMacAddress => exact answers_specifyMacAddress

end

/-! ## What is leased -/

/-- From `db`, a scheduler ended in `u` with one new lease for `a`, and with the
vif that finds it: the vif can be saved, and whenever it is destroyed, that
lease goes and no other. -/
structure LeasedTo (db u : Db) (vif : MacVif) (a : Nat) : Prop where
  lease : ∃ row : MacLeaseRow, row.macAddr = a ∧ u.leases.rows = db.leases.rows ++ [row]
  macAddr : vif.macAddr = Text.hexPad 12 a
  saved : Proc.exec (NetworkVif.save vif) u = (.ok vif, u)
  destroyed : ∀ v : Db, v.isLeased a = true → (NetworkVif.beforeDestroy v vif).leases.rows =
    v.leases.rows.filter fun l => l.macAddr != a

theorem all_lowerHex_hexPad (k a : Nat) : (Text.hexPad k a).all Text.isLowerHex = true := by
  rw [List.all_eq_true]
  intro c hc
  obtain ⟨d, hd, rfl⟩ := Text.mem_hexPad hc
  exact Text.isLowerHex_digitChar hd

theorem normalizeMacAddr_hexPad (a : Nat) :
    NetworkVif.normalizeMacAddr (Text.hexPad 12 a) = .ok (Text.hexPad 12 a) := by
  have hlower : (Text.hexPad 12 a).map Char.toLower = Text.hexPad 12 a := by
    apply (List.map_congr_left ?_).trans (List.map_id _)
    intro c hc
    obtain ⟨d, hd, rfl⟩ := Text.mem_hexPad hc
    have hall : ∀ d < 16, (Nat.digitChar d).toLower = Nat.digitChar d := by decide
    exact hall d hd
  have hkeep : (Text.hexPad 12 a).filter Text.isLowerHex = Text.hexPad 12 a :=
    List.filter_eq_self.mpr (List.all_eq_true.mp (all_lowerHex_hexPad 12 a))
  unfold NetworkVif.normalizeMacAddr
  rw [hlower, hkeep]
  dsimp only
  rw [Text.length_hexPad, if_neg (by decide)]

theorem exec_save {u : Db} {vif : MacVif} {a : Nat} (hlt : a < 16 ^ 12)
    (hmac : vif.macAddr = Text.hexPad 12 a) (hl : u.isLeased a = true) :
    Proc.exec (NetworkVif.save vif) u = (.ok vif, u) := by
  have hvalid : NetworkVif.validate u (Text.hexPad 12 a) = [] := by
    unfold NetworkVif.validate
    rw [Text.hex_hexPad hlt, if_pos ⟨Text.length_hexPad 12 a, all_lowerHex_hexPad 12 a⟩, if_pos hl]
    rfl
  unfold NetworkVif.save
  rw [Proc.exec_bind, Proc.exec_get]
  dsimp only
  rw [hmac, normalizeMacAddr_hexPad]
  dsimp only
  rw [hvalid, ← hmac]
  rfl

/-- The index on the addresses makes the lease the only one. -/
theorem leases_beforeDestroy {v : Db} {vif : MacVif} {a : Nat} (hlt : a < 16 ^ 12)
    (hmac : vif.macAddr = Text.hexPad 12 a) (hl : v.isLeased a = true) :
    (NetworkVif.beforeDestroy v vif).leases.rows =
      v.leases.rows.filter fun l => l.macAddr != a := by
  unfold NetworkVif.beforeDestroy
  rw [hmac, Text.hex_hexPad hlt]
  cases hf : v.leases.first fun l => (l.macAddr : Int) == (a : Int) with
  | none =>
    obtain ⟨l, hmem, he⟩ := List.any_eq_true.mp hl
    rw [v.leases.first_none hf l hmem] at he
    cases he
  | some row =>
    obtain ⟨hrow, he, _⟩ := v.leases.first_spec hf
    have hra : row.macAddr = a := by simpa using he
    apply List.filter_congr
    intro l hmem
    have hiff : l.id = row.id ↔ l.macAddr = a := by
      constructor
      · intro hid
        rw [v.leases.eq_of_pk hmem hrow hid, hra]
      · intro hla
        rw [List.inj_on_of_nodup_map v.unique hmem hrow (hla.trans hra.symm)]
    rw [Bool.eq_iff_iff]
    simp [hiff]

theorem exec_lease {db : Db} {conf : Conf} {a : Nat} (ha : Pickable db a) (hlo : 16 ^ 11 ≤ a) :
    ∃ u, Proc.exec (MacLease.lease conf (Text.toS16 a)) db = (.ok (), u) ∧
      ∃ row : MacLeaseRow, row.macAddr = a ∧ u.leases.rows = db.leases.rows ++ [row] := by
  have hnew : a ∉ db.leases.rows.map MacLeaseRow.macAddr := by
    intro hmem
    obtain ⟨l, hl, he⟩ := List.mem_map.mp hmem
    have := List.any_eq_false.mp ha.free l hl
    simp [he] at this
  refine ⟨db.insertLease a hnew, ?_, ⟨db.leases.next, a⟩, rfl, rfl⟩
  unfold MacLease.lease
  rw [Text.toS16_eq_hexPad hlo ha.lt, if_pos (Text.length_hexPad 12 a), Text.hex_hexPad ha.lt]
  unfold createLease
  rw [Proc.exec_bind, Proc.exec_get]
  dsimp only
  rw [if_neg (by omega)]
  simp only [Int.toNat_natCast]
  rw [dif_pos hnew]
  rfl

theorem schedule_eq (conf : Conf) (vif : MacVif) (s : MacScheduler) :
    s.schedule conf vif = s.pick conf vif >>= assignMac conf vif := by
  cases s with
  | default | byHostNodeGroup | specifyMacAddress => rfl

/-- The address a scheduler picks gets its lease and its vif exactly if its
first digit is not zero. -/
theorem schedule_leases_iff {conf : Conf} {s : MacScheduler} {vif : MacVif} {db t : Db} {a : Nat}
    (h : Proc.exec (s.pick conf vif) db = (.ok a, t)) :
    (∃ vif' u, Proc.exec (s.schedule conf vif) db = (.ok vif', u) ∧ LeasedTo db u vif' a) ↔
      0x100000000000 ≤ a := by
  have hpick : Proc.Answers (fun t => t.leases = db.leases) (s.pick conf vif) (Pickable db) :=
    answers_pick s
  have ha := hpick.answer db rfl a t h
  have ht : t.leases = db.leases := by
    have hk := hpick.keeps.at_final db rfl
    unfold Proc.final at hk
    rw [h] at hk
    exact hk
  have hexec : Proc.exec (s.schedule conf vif) db = Proc.exec (assignMac conf vif a) t := by
    rw [schedule_eq, Proc.exec_bind, h]
  rw [hexec]
  constructor
  · intro hleased
    obtain ⟨vif', u, he, hl⟩ := hleased
    obtain ⟨_, _, _, hvif⟩ := Proc.exec_bind_ok he
    cases hvif
    have hlen := congrArg List.length hl.macAddr
    rw [Text.length_hexPad] at hlen
    exact ((Text.length_toS16_eq (by decide)).mp hlen).1
  · intro hlo
    have hat : Pickable t a := ⟨ha.lt, (isLeased_congr ht a).trans ha.free⟩
    obtain ⟨u, hu, row, hrow, hrows⟩ : ∃ u, Proc.exec (MacLease.lease conf (Text.toS16 a)) t = (.ok (), u) ∧
        ∃ row : MacLeaseRow, row.macAddr = a ∧ u.leases.rows = t.leases.rows ++ [row] :=
      exec_lease hat hlo
    have hmac : Text.toS16 a = Text.hexPad 12 a := Text.toS16_eq_hexPad hlo ha.lt
    have hleased : u.isLeased a = true := by
      rw [Db.isLeased, hrows, List.any_eq_true]
      exact ⟨row, by simp, by simp [hrow]⟩
    refine ⟨{ vif with macAddr := Text.toS16 a }, u, ?_, ?_, hmac, ?_, ?_⟩
    · unfold assignMac
      rw [Proc.exec_bind, hu]
      rfl
    · exact ⟨row, hrow, by rw [hrows, ht]⟩
    · exact exec_save ha.lt hmac hleased
    · exact fun v hv => leases_beforeDestroy ha.lt hmac hv

def oneRange (vendorId : BitVec 24) : Db where
  leases := Table.empty
  ranges := Table.empty.create (fun id => ⟨id, vendorId, 0, 0xffffff⟩) fun _ => rfl
  draws := [0x123456]
  unique := List.nodup_nil

def defaultConf : Conf := ⟨"525400".toList, none, 1, fun _ _ => false⟩

def newVif : MacVif := ⟨0, [], none, []⟩

def answer {α : Type} (x : MacM α) (db : Db) : Option α := (Proc.exec x db).1.toOption

theorem picked_of_answer {α : Type} {x : MacM α} {db : Db} {a : α} (h : answer x db = some a) :
    (Proc.exec x db).1 = .ok a := by
  unfold answer at h
  cases hx : (Proc.exec x db).1 with
  | error e =>
    rw [hx] at h
    cases h
  | ok b =>
    rw [hx] at h
    cases h
    rfl

theorem schedule_leases_qemu :
    ∃ vif' u, Proc.exec (MacScheduler.default.schedule defaultConf newVif) (oneRange 0x525400) =
      (.ok vif', u) ∧ LeasedTo (oneRange 0x525400) u vif' 0x525400123456 :=
  (schedule_leases_iff (Prod.ext (picked_of_answer (by decide +kernel)) rfl)).mpr (by decide)

/-- The vendor id `00163e` leaves two digits out. -/
theorem xen_not_leased :
    ∃ t, Proc.exec (MacScheduler.default.pick defaultConf newVif) (oneRange 0x00163e) =
        (.ok 0x00163e123456, t) ∧
      ¬ ∃ vif' u, Proc.exec (MacScheduler.default.schedule defaultConf newVif)
        (oneRange 0x00163e) = (.ok vif', u) ∧ LeasedTo (oneRange 0x00163e) u vif' 0x00163e123456 := by
  refine ⟨(Proc.exec (MacScheduler.default.pick defaultConf newVif) (oneRange 0x00163e)).2,
    Prod.ext (picked_of_answer (by decide +kernel)) rfl, ?_⟩
  have hraise : (answer (MacScheduler.default.schedule defaultConf newVif)
      (oneRange 0x00163e)).isSome = false := by decide +kernel
  intro h
  obtain ⟨vif', u, he, _⟩ := h
  unfold answer at hraise
  rw [he] at hraise
  cases hraise

/-! ## Printing a lease -/

theorem filter_joinPairs {delim : Char} {t : Text} (h : delim ∉ t) :
    (MacLease.joinPairs delim t).filter (· != delim) = t := by
  have hself : ∀ u : Text, delim ∉ u → u.filter (· != delim) = u := by
    intro u hu
    apply List.filter_eq_self.mpr
    intro c hc
    rw [bne_iff_ne]
    intro he
    exact hu (he ▸ hc)
  induction t using MacLease.joinPairs.induct with
  | case1 a b c t ih =>
    simp only [List.mem_cons, not_or] at h
    rw [MacLease.joinPairs, List.filter_cons_of_pos (by simpa using Ne.symm h.1),
      List.filter_cons_of_pos (by simpa using Ne.symm h.2.1), List.filter_cons_of_neg (by simp),
      ih (by simp only [List.mem_cons, not_or]; exact h.2.2)]
  | case2 t hshort =>
    rw [MacLease.joinPairs]
    · exact hself t h
    · exact hshort

theorem prettyMacAddr_digits {l : MacLeaseRow} (h : l.macAddr < 16 ^ 12) :
    (MacLease.prettyMacAddr l ':').filter (· != ':') = Text.hexPad 12 l.macAddr := by
  unfold MacLease.prettyMacAddr
  rw [Text.leftpad_toS16 h]
  apply filter_joinPairs
  intro hc
  obtain ⟨d, hd, he⟩ := Text.mem_hexPad hc
  have hall : ∀ d < 16, Nat.digitChar d ≠ ':' := by decide
  exact hall d hd he.symm

end Mac

end WakameVdc
