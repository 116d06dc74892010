import WakameVdc.IpLeaseSound

/-!
# Leases only go

Destroying leases, routes and vifs marks rows as deleted, takes them from their
vifs and strikes addresses from `ip_leases`; nothing comes back. As long as the
stored leases pass their own validation, the vif of `destroy` is destroyed.
-/

namespace WakameVdc

open Lib

namespace Lease

/-- A row of before, perhaps deleted and perhaps taken from its vif. -/
structure VifLeaseRow.Gone (r r' : VifLeaseRow) : Prop where
  key : r'.key = r.key
  ipHandleId : r'.ipHandleId = r.ipHandleId
  deleted : r.deleted = true → r'.deleted = true
  networkVifId : r'.networkVifId = r.networkVifId ∨ r'.networkVifId = none

theorem VifLeaseRow.Gone.refl (r : VifLeaseRow) : r.Gone r := ⟨rfl, rfl, fun h => h, .inl rfl⟩

theorem VifLeaseRow.Gone.trans {r s t : VifLeaseRow} (h : r.Gone s) (h' : s.Gone t) : r.Gone t where
  key := h'.key.trans h.key
  ipHandleId := h'.ipHandleId.trans h.ipHandleId
  deleted := fun hd => h'.deleted (h.deleted hd)
  networkVifId := by
    rcases h'.networkVifId with he | he
    · rw [he]
      exact h.networkVifId
    · exact .inr he

/-- The lease tables of `t` are those of `db`, with less in them. -/
structure Shrinks (db t : Db) : Prop where
  networks : t.networks = db.networks
  ipHandles : t.ipHandles = db.ipHandles
  vifLeases : ∀ r' ∈ t.vifLeases.rows, ∃ r ∈ db.vifLeases.rows, r.id = r'.id ∧ r.Gone r'
  isLeased : ∀ n a, t.isLeased n a = true → db.isLeased n a = true
  vifs : ∃ f : VifRow → VifRow, (∀ v, (f v).id = v.id ∧ (v.deleted = true → (f v).deleted = true)) ∧
    t.vifs.rows = db.vifs.rows.map f

/-- Every lease that is not deleted lies in its network. -/
def Db.Valid (db : Db) : Prop := ∀ r ∈ db.vifLeases.rows, db.revalidateLease r = []

section
variable {db t u : Db}

theorem Shrinks.refl (db : Db) : Shrinks db db where
  networks := rfl
  ipHandles := rfl
  vifLeases := fun r hr => ⟨r, hr, rfl, .refl r⟩
  isLeased := fun _ _ h => h
  vifs := ⟨id, fun _ => ⟨rfl, fun h => h⟩, by rw [List.map_id]⟩

theorem Shrinks.trans (h : Shrinks db t) (h' : Shrinks t u) : Shrinks db u where
  networks := h'.networks.trans h.networks
  ipHandles := h'.ipHandles.trans h.ipHandles
  vifLeases := by
    intro r'' hr''
    obtain ⟨r', hr', hid', hg'⟩ := h'.vifLeases r'' hr''
    obtain ⟨r, hr, hid, hg⟩ := h.vifLeases r' hr'
    exact ⟨r, hr, hid.trans hid', hg.trans hg'⟩
  isLeased := fun n a hl => h.isLeased n a (h'.isLeased n a hl)
  vifs := by
    obtain ⟨f, hf, he⟩ := h.vifs
    obtain ⟨g, hg, he'⟩ := h'.vifs
    refine ⟨g ∘ f, fun v => ⟨(hg _).1.trans (hf v).1, fun hd => (hg _).2 ((hf v).2 hd)⟩, ?_⟩
    rw [he', he, List.map_map]

theorem shrinks_destroyLease (db : Db) (r : VifLeaseRow) : Shrinks db (db.destroyLease r) where
  networks := rfl
  ipHandles := rfl
  vifLeases := by
    intro r' hr'
    obtain ⟨x, hx, rfl⟩ := List.mem_map.mp hr'
    refine ⟨x, hx, ?_, ?_⟩
    · split
      · rfl
      · rfl
    · split
      · exact ⟨rfl, rfl, fun _ => rfl, .inl rfl⟩
      · exact .refl x
  isLeased := by
    intro n a h
    rw [isLeased_destroyLease, Bool.and_eq_true] at h
    exact h.1
  vifs := ⟨id, fun _ => ⟨rfl, fun h => h⟩, by rw [List.map_id]; rfl⟩

theorem shrinks_destroyLeases (ls : List VifLeaseRow) (db : Db) :
    Shrinks db (db.destroyLeases ls) := by
  induction ls generalizing db with
  | nil => exact .refl db
  | cons r ls ih => exact (shrinks_destroyLease db r).trans (ih (db.destroyLease r))

theorem Shrinks.valid (h : Shrinks db t) (hv : db.Valid) : t.Valid := by
  intro r' hr'
  obtain ⟨r, hr, -, hg⟩ := h.vifLeases r' hr'
  have hkey : r'.networkId = r.networkId ∧ r'.ipv4 = r.ipv4 := by
    simpa [VifLeaseRow.key] using hg.key
  have hold := hv r hr
  unfold Db.revalidateLease at hold ⊢
  rw [h.networks, hkey.1, hkey.2]
  cases hd' : r'.deleted with
  | true => rfl
  | false =>
    have hd : r.deleted = false := by
      cases hd : r.deleted with
      | false => rfl
      | true => exact absurd (hg.deleted hd) (by simp [hd'])
    rw [hd] at hold
    simpa using hold

theorem detachVif_ok {lease : VifLeaseRow} (hl : lease ∈ db.vifLeases.rows) (hv : db.Valid)
    (hvif : (lease.networkVifId.bind db.vifs.find).isSome = true) :
    ∃ t, db.detachVif lease = .ok t ∧ Shrinks db t := by
  unfold Db.detachVif
  have hnot : (lease.networkVifId.bind db.vifs.find).isNone = false := by
    rw [← Option.not_isSome, hvif]
    rfl
  rw [hnot, hv lease hl]
  refine ⟨_, rfl, rfl, rfl, ?_, fun _ _ h => h, id, fun _ => ⟨rfl, fun h => h⟩, by rw [List.map_id]⟩
  intro r' hr'
  obtain ⟨x, hx, rfl⟩ := List.mem_map.mp hr'
  refine ⟨x, hx, ?_, ?_⟩
  · split
    · rfl
    · rfl
  · split
    · exact ⟨rfl, rfl, fun h => h, .inr rfl⟩
    · exact .refl x

theorem releaseRouteLease_shrinks (hv : db.Valid) (leaseId : Option Nat) (release : Bool) :
    ∃ t, db.releaseRouteLease leaseId release = .ok t ∧ Shrinks db t := by
  unfold Db.releaseRouteLease
  cases hf : leaseId.bind db.vifLeases.find with
  | none => exact ⟨db, rfl, .refl db⟩
  | some lease =>
    obtain ⟨i, -, hi⟩ := Option.bind_eq_some_iff.mp hf
    have hl := db.vifLeases.mem_of_find hi
    cases hvif : lease.networkVifId.bind db.vifs.find with
    | none => exact ⟨db, by simp only [hvif], .refl db⟩
    | some vif =>
      simp only [hvif]
      cases release with
      | false => exact ⟨db, rfl, .refl db⟩
      | true =>
        simp only [if_true]
        unfold Db.removeIpLease
        split
        · exact ⟨db, rfl, .refl db⟩
        · split
          · exact detachVif_ok hl hv (by rw [hvif]; rfl)
          · exact ⟨_, rfl, shrinks_destroyLease db lease⟩

theorem destroyRoute_shrinks (hv : db.Valid) (route : RouteRow) :
    ∃ t, db.destroyRoute route = .ok t ∧ Shrinks db t := by
  obtain ⟨t, ht, hs⟩ := releaseRouteLease_shrinks hv route.innerLeaseId route.releaseInnerVif
  obtain ⟨u, hu, hs'⟩ :=
    releaseRouteLease_shrinks (hs.valid hv) route.outerLeaseId route.releaseOuterVif
  have h := hs.trans hs'
  unfold Db.destroyRoute
  rw [ht]
  simp only [bind, Except.bind, hu]
  exact ⟨_, rfl, h.networks, h.ipHandles, h.vifLeases, h.isLeased, h.vifs⟩

theorem destroyRoutes_shrinks (hv : db.Valid) (routes : List RouteRow) :
    ∃ t, routes.foldlM Db.destroyRoute db = .ok t ∧ Shrinks db t := by
  induction routes generalizing db with
  | nil => exact ⟨db, rfl, .refl db⟩
  | cons route routes ih =>
    obtain ⟨t, ht, hs⟩ := destroyRoute_shrinks hv route
    obtain ⟨u, hu, hs'⟩ := ih (hs.valid hv)
    refine ⟨u, ?_, hs.trans hs'⟩
    rw [List.foldlM_cons, ht]
    exact hu

/-- The leases of the vif are deleted and their addresses free. -/
def Db.Released (db : Db) (vif : Nat) : Prop :=
  ∀ r ∈ db.vifLeases.rows, r.networkVifId = some vif →
    r.deleted = true ∧ db.isLeased r.networkId r.ipv4 = false

theorem Db.Released.shrinks {vif : Nat} (hr : db.Released vif) (h : Shrinks db t) :
    t.Released vif := by
  intro r' hr' hvif
  obtain ⟨r, hmem, -, hg⟩ := h.vifLeases r' hr'
  have hkey : r'.networkId = r.networkId ∧ r'.ipv4 = r.ipv4 := by
    simpa [VifLeaseRow.key] using hg.key
  have howner : r.networkVifId = some vif := by
    rcases hg.networkVifId with he | he
    · rw [← he, hvif]
    · rw [hvif] at he
      cases he
  obtain ⟨hd, hl⟩ := hr r hmem howner
  refine ⟨hg.deleted hd, ?_⟩
  rw [hkey.1, hkey.2]
  by_contra hno
  rw [Bool.not_eq_false] at hno
  rw [h.isLeased _ _ hno] at hl
  cases hl

theorem destroyLeases_deleted {ls : List VifLeaseRow} {r : VifLeaseRow} (hr : r ∈ ls) :
    ∀ r' ∈ (db.destroyLeases ls).vifLeases.rows, r'.id = r.id →
      r'.deleted = true ∧ (db.destroyLeases ls).isLeased r.networkId r.ipv4 = false := by
  obtain ⟨pre, post, rfl⟩ := List.append_of_mem hr
  have hsplit : db.destroyLeases (pre ++ r :: post) =
      ((db.destroyLeases pre).destroyLease r).destroyLeases post := by
    simp [Db.destroyLeases, List.foldl_append]
  rw [hsplit]
  intro r' hr' hid
  have hs := shrinks_destroyLeases post ((db.destroyLeases pre).destroyLease r)
  obtain ⟨x, hx, hxid, hg⟩ := hs.vifLeases r' hr'
  constructor
  · apply hg.deleted
    obtain ⟨y, -, rfl⟩ := List.mem_map.mp hx
    have hy : y.id = r.id := by
      split at hxid
      · exact hxid.trans hid
      · exact hxid.trans hid
    simp only [Row.pk]
    rw [if_pos hy]
  · by_contra hno
    rw [Bool.not_eq_false] at hno
    have := hs.isLeased _ _ hno
    rw [isLeased_destroyLease] at this
    simp at this

theorem released_destroyLeases (db : Db) (vif : Nat) :
    (db.destroyLeases (db.ipDataset vif)).Released vif := by
  intro r' hr' hvif
  obtain ⟨r, hmem, hid, hg⟩ := (shrinks_destroyLeases (db.ipDataset vif) db).vifLeases r' hr'
  have howner : r.networkVifId = some vif := by
    rcases hg.networkVifId with he | he
    · rw [← he, hvif]
    · rw [hvif] at he
      cases he
  have hkey : r'.networkId = r.networkId ∧ r'.ipv4 = r.ipv4 := by
    simpa [VifLeaseRow.key] using hg.key
  rw [hkey.1, hkey.2]
  exact destroyLeases_deleted (List.mem_filter.mpr ⟨hmem, by simp [howner]⟩) r' hr' hid.symm

theorem destroyVif_shrinks (hv : db.Valid) (vif : Nat) :
    ∃ t, db.destroyVif vif = .ok t ∧ Shrinks db t ∧ t.Released vif ∧
      ∀ v ∈ t.vifs.rows, v.id = vif → v.deleted = true := by
  have hs := shrinks_destroyLeases (db.ipDataset vif) db
  obtain ⟨t, ht, hs'⟩ := destroyRoutes_shrinks (hs.valid hv)
    ((db.destroyLeases (db.ipDataset vif)).networkRoutes vif)
  have h := hs.trans hs'
  have hreleased := (released_destroyLeases db vif).shrinks hs'
  unfold Db.destroyVif
  dsimp only
  rw [ht]
  refine ⟨_, rfl, ⟨h.networks, h.ipHandles, h.vifLeases, h.isLeased, ?_⟩, hreleased, ?_⟩
  · obtain ⟨f, hf, he⟩ := h.vifs
    refine ⟨fun v => if (f v).id = vif then { f v with deleted := true } else f v, ?_, ?_⟩
    · intro v
      by_cases hi : (f v).id = vif
      · simp only [if_pos hi]
        exact ⟨(hf v).1, fun _ => trivial⟩
      · simp only [if_neg hi]
        exact hf v
    · show List.map _ t.vifs.rows = _
      rw [he, List.map_map]
      rfl
  · intro v hmem hid
    obtain ⟨x, -, rfl⟩ := List.mem_map.mp hmem
    simp only [Row.pk] at hid ⊢
    split at hid
    · rename_i hx
      rw [if_pos hx]
    · rename_i hx
      exact absurd hid hx

end

end Lease

end WakameVdc
