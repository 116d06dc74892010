import WakameVdc.IpLeaseSound

/-!
# What the calls write

Every call on the lease tables is a chain of a few kinds of writes. A fact about
the rows of `network_vif_ip_leases` is proved once for each kind.
-/

namespace WakameVdc

open Lib

namespace Lease

/-- `t` is reached from `db` by writes that destroy rows with addresses in `S`
only, and create handles only if `H`. -/
inductive Writes (S : Nat × Nat → Prop) (H : Prop) (db : Db) : Db → Prop
  | refl : Writes S H db db
  | insertLease {t : Db} {n a : Nat} {vif : Option Nat} {ty : AllocType} {handle : Option Nat} :
    Writes S H db t → t.validateLease n a handle = [] →
    Writes S H db (t.insertLease n a vif ty handle)
  | destroyLease {t : Db} {r s : VifLeaseRow} : Writes S H db t → t.vifLeases.find r.id = some s →
    s.key = r.key → S r.key → Writes S H db (t.destroyLease r)
  | moveLease {t : Db} {i : Nat} {vif : Option Nat} : Writes S H db t → Writes S H db { t with
      vifLeases := t.vifLeases.modify i (fun r => { r with networkVifId := vif }) fun _ => rfl }
  | createHandle {t : Db} {ipPool : Nat} : Writes S H db t → H → Writes S H db { t with
      ipHandles := t.ipHandles.create (fun id => ⟨id, ipPool, false⟩) fun _ => rfl }
  | vifs {t : Db} {vifs : Table VifRow} : Writes S H db t → Writes S H db { t with vifs := vifs }
  | routes {t : Db} {routes : Table RouteRow} : Writes S H db t →
    Writes S H db { t with routes := routes }

theorem Writes.mono {S S' : Nat × Nat → Prop} {H H' : Prop} {db t : Db} (h : Writes S H db t)
    (hS : ∀ k, S k → S' k) (hH : H → H') : Writes S' H' db t := by
  induction h with
  | refl => exact .refl
  | insertLease _ hvalid ih => exact ih.insertLease hvalid
  | destroyLease _ hs hk hr ih => exact ih.destroyLease hs hk (hS _ hr)
  | moveLease _ ih => exact ih.moveLease
  | createHandle _ hh ih => exact ih.createHandle (hH hh)
  | vifs _ ih => exact ih.vifs
  | routes _ ih => exact ih.routes

/-- A row that was there before, perhaps at another vif and perhaps deleted. -/
structure VifLeaseRow.Later (r r' : VifLeaseRow) : Prop where
  key : r'.key = r.key
  ipHandleId : r'.ipHandleId = r.ipHandleId
  deleted : r.deleted = true → r'.deleted = true

theorem VifLeaseRow.Later.refl (r : VifLeaseRow) : r.Later r :=
  ⟨rfl, rfl, fun hd => hd⟩

theorem VifLeaseRow.Later.trans {r s t : VifLeaseRow} (h : r.Later s) (h' : s.Later t) :
    r.Later t :=
  ⟨h'.key.trans h.key, h'.ipHandleId.trans h.ipHandleId, fun hd => h'.deleted (h.deleted hd)⟩

section
variable {S : Nat × Nat → Prop} {H : Prop} {db t : Db}

theorem creates_writes (S : Nat × Nat → Prop) (H : Prop) (db : Db) : Creates (Writes S H db) :=
  ⟨fun _ _ _ _ _ _ => .insertLease, fun _ _ _ => .vifs⟩

theorem keptByHandle_writes (S : Nat × Nat → Prop) {H : Prop} (db : Db) (hH : H) :
    KeptByHandle (Writes S H db) :=
  fun _ _ h => .createHandle h hH

theorem find_modify_later {t : Table VifLeaseRow} {j : Nat} {f : VifLeaseRow → VifLeaseRow}
    (hf : ∀ r, Row.pk (f r) = Row.pk r) (hlater : ∀ r : VifLeaseRow, r.Later (f r)) {i : Nat} {r : VifLeaseRow}
    (hr : t.find i = some r) : ∃ r', (t.modify j f hf).find i = some r' ∧ r.Later r' := by
  rw [Table.find_modify, hr]
  by_cases hij : i = j
  · rw [if_pos hij]
    exact ⟨f r, rfl, hlater r⟩
  · rw [if_neg hij]
    exact ⟨r, rfl, .refl r⟩

theorem Writes.later (h : Writes S H db t) {i : Nat} {r : VifLeaseRow}
    (hr : db.vifLeases.find i = some r) : ∃ r', t.vifLeases.find i = some r' ∧ r.Later r' := by
  induction h with
  | refl => exact ⟨r, hr, .refl r⟩
  | @insertLease t n a vif ty handle _ _ ih =>
    obtain ⟨r', hr', hl⟩ := ih
    refine ⟨r', ?_, hl⟩
    show (t.vifLeases.create _ _).find i = _
    rw [Table.find_create, if_neg ?_, hr']
    intro hi
    rw [hi, t.vifLeases.find_next (Nat.le_refl _)] at hr'
    cases hr'
  | destroyLease _ _ _ _ ih =>
    obtain ⟨r', hr', hl⟩ := ih
    obtain ⟨r'', hr'', hl'⟩ := find_modify_later
      (f := fun r => { r with deleted := true }) (fun _ => rfl)
      (fun r => ⟨rfl, rfl, fun _ => rfl⟩) hr'
    exact ⟨r'', hr'', hl.trans hl'⟩
  | @moveLease t j vif _ ih =>
    obtain ⟨r', hr', hl⟩ := ih
    obtain ⟨r'', hr'', hl'⟩ := find_modify_later
      (f := fun r => { r with networkVifId := vif }) (fun _ => rfl)
      (fun r => ⟨rfl, rfl, fun hd => hd⟩) hr'
    exact ⟨r'', hr'', hl.trans hl'⟩
  | createHandle _ _ ih => exact ih
  | vifs _ ih => exact ih
  | routes _ ih => exact ih

/-- An alive row whose address no write strikes stays alive, and its address in
`ip_leases`. -/
theorem Writes.kept (h : Writes S H db t) {i : Nat} {r : VifLeaseRow}
    (hr : db.vifLeases.find i = some r) (hd : r.deleted = false)
    (hl : db.isLeased r.networkId r.ipv4 = true) (hS : ¬ S r.key) :
    ∃ r', t.vifLeases.find i = some r' ∧ r.Later r' ∧ r'.deleted = false ∧
      t.isLeased r.networkId r.ipv4 = true := by
  induction h with
  | refl => exact ⟨r, hr, .refl r, hd, hl⟩
  | @insertLease t n a vif ty handle hw _ ih =>
    obtain ⟨r', hr', hlater, hd', hl'⟩ := ih
    refine ⟨r', ?_, hlater, hd', ?_⟩
    · show (t.vifLeases.create _ _).find i = _
      rw [Table.find_create, if_neg ?_, hr']
      intro hi
      rw [hi, t.vifLeases.find_next (Nat.le_refl _)] at hr'
      cases hr'
    · rw [isLeased_insertLease, hl']
      rfl
  | @destroyLease t x s hw hs hk hx ih =>
    obtain ⟨r', hr', hlater, hd', hl'⟩ := ih
    have hne : x.key ≠ r.key := by
      intro he
      rw [he] at hx
      exact hS hx
    refine ⟨r', ?_, hlater, hd', ?_⟩
    · simp only [Db.destroyLease, Table.find_modify]
      rw [if_neg ?_, hr']
      intro hi
      rw [hi, hs] at hr'
      cases hr'
      exact hne (hk.symm.trans hlater.key)
    · rw [isLeased_destroyLease, hl', Bool.true_and, Bool.not_eq_true', Bool.and_eq_false_iff]
      by_contra hno
      rw [not_or, Bool.not_eq_false, Bool.not_eq_false, beq_iff_eq, beq_iff_eq] at hno
      exact hne (Prod.ext hno.1.symm hno.2.symm)
  | @moveLease t j vif hw ih =>
    obtain ⟨r', hr', hlater, hd', hl'⟩ := ih
    simp only [Table.find_modify]
    by_cases hij : i = j
    · refine ⟨{ r' with networkVifId := vif }, ?_, ⟨hlater.key, hlater.ipHandleId, hlater.deleted⟩,
        hd', hl'⟩
      rw [if_pos hij, hr']
      rfl
    · refine ⟨r', ?_, hlater, hd', hl'⟩
      rw [if_neg hij, hr']
  | createHandle _ _ ih => exact ih
  | vifs _ ih => exact ih
  | routes _ ih => exact ih

theorem Writes.ipHandles (h : Writes S False db t) : t.ipHandles = db.ipHandles := by
  induction h with
  | refl => rfl
  | insertLease _ _ ih => exact ih
  | destroyLease _ _ _ _ ih => exact ih
  | moveLease _ ih => exact ih
  | createHandle _ hno _ => exact hno.elim
  | vifs _ ih => exact ih
  | routes _ ih => exact ih

theorem Writes.networks (h : Writes S H db t) : t.networks = db.networks := by
  induction h with
  | refl => rfl
  | insertLease _ _ ih => exact ih
  | destroyLease _ _ _ _ ih => exact ih
  | moveLease _ ih => exact ih
  | createHandle _ _ ih => exact ih
  | vifs _ ih => exact ih
  | routes _ ih => exact ih

theorem Writes.destroyLeases (h : Writes S H db t) {ls : List VifLeaseRow}
    (hls : ∀ r ∈ ls, ∃ s, t.vifLeases.find r.id = some s ∧ s.key = r.key)
    (hS : ∀ r ∈ ls, S r.key) : Writes S H db (t.destroyLeases ls) := by
  induction ls generalizing t with
  | nil => exact h
  | cons r ls ih =>
    obtain ⟨s, hs, hk⟩ := hls r List.mem_cons_self
    apply ih (h.destroyLease hs hk (hS r List.mem_cons_self))
    · intro x hx
      obtain ⟨y, hy, hyk⟩ := hls x (List.mem_cons_of_mem _ hx)
      have hw : Writes (fun _ => True) H t (t.destroyLease r) :=
        .destroyLease .refl hs hk trivial
      obtain ⟨y', hy', hlater⟩ := hw.later hy
      exact ⟨y', hy', hlater.key.trans hyk⟩
    · intro x hx
      exact hS x (List.mem_cons_of_mem _ hx)

end

end Lease

end WakameVdc
