import WakameVdc.IpLeaseRun

/-!
# How many addresses are left

`Network#available_ip_nums` counts the rows of `network_vif_ip_leases`, where a
released lease leaves its row behind. So it is the number of free addresses as
long as nothing of the network has been released.
-/

namespace WakameVdc

open Lib

namespace Lease

/-- `ipv4_ipaddress.hosts.size` -/
def NetworkRow.hostsSize (n : NetworkRow) : Nat := n.broadcast - n.network - 1

namespace Db

/-- `network_vif_ip_lease_dataset` of a network. -/
def leasesOf (db : Db) (networkId : Nat) : List VifLeaseRow :=
  db.vifLeases.rows.filter fun r => r.networkId == networkId

def availableIpNums (db : Db) (n : NetworkRow) : Int :=
  (n.hostsSize : Int) - (db.leasesOf n.id).length

/-- The addresses strictly between the network and the broadcast address that
no alive lease has. -/
def freeAddresses (db : Db) (n : NetworkRow) : Finset Nat :=
  (Finset.Ioo n.network n.broadcast).filter fun a =>
    ∀ r ∈ db.leasesOf n.id, r.deleted = false → r.ipv4 ≠ a

/-! ## One row for each leased address -/

theorem mem_leasesOf {db : Db} {networkId : Nat} {r : VifLeaseRow} :
    r ∈ db.leasesOf networkId ↔ r ∈ db.vifLeases.rows ∧ r.networkId = networkId := by
  unfold leasesOf
  rw [List.mem_filter, beq_iff_eq]

/-- The rows of the network have distinct addresses, all of them in `ip_leases`. -/
structure OneEach (networkId : Nat) (db : Db) : Prop where
  leased : ∀ r ∈ db.leasesOf networkId, db.isLeased networkId r.ipv4 = true
  distinct : ((db.leasesOf networkId).map VifLeaseRow.ipv4).Nodup

/-- A row of the network is marked as deleted, or every row has an address of
its own. -/
def CountOk (networkId : Nat) (db : Db) : Prop :=
  (∃ r ∈ db.leasesOf networkId, r.deleted = true) ∨ db.OneEach networkId

end Db

section
variable {networkId : Nat} {db : Db}

theorem leasesOf_insertLease (n a : Nat) (vif : Option Nat) (ty : AllocType)
    (handle : Option Nat) :
    (db.insertLease n a vif ty handle).leasesOf networkId = db.leasesOf networkId ++
      if n = networkId then [⟨db.vifLeases.next, n, vif, a, ty, handle, false⟩] else [] := by
  show List.filter _ (_ ++ _) = _
  rw [List.filter_append]
  congr 1
  by_cases h : n = networkId
  · simp [h]
  · simp [h]

theorem leasesOf_modify (db : Db) {j : Nat} {f : VifLeaseRow → VifLeaseRow}
    {hf : ∀ r, Row.pk (f r) = Row.pk r} (hn : ∀ r, (f r).networkId = r.networkId) :
    Db.leasesOf { db with vifLeases := db.vifLeases.modify j f hf } networkId =
      (db.leasesOf networkId).map fun r => if r.id = j then f r else r := by
  show List.filter _ (List.map _ _) = _
  rw [List.filter_map]
  congr 1
  apply List.filter_congr
  intro r _
  show (VifLeaseRow.networkId (if r.id = j then f r else r) == networkId) = _
  split
  · rw [hn]
  · rfl

theorem map_ipv4_modify {j : Nat} {f : VifLeaseRow → VifLeaseRow} (ha : ∀ r, (f r).ipv4 = r.ipv4)
    (ls : List VifLeaseRow) :
    (ls.map fun r => if r.id = j then f r else r).map VifLeaseRow.ipv4 =
      ls.map VifLeaseRow.ipv4 := by
  rw [List.map_map]
  apply List.map_congr_left
  intro r _
  show VifLeaseRow.ipv4 (if r.id = j then f r else r) = _
  split
  · exact ha r
  · rfl

theorem Db.OneEach.insertLease (h : db.OneEach networkId) {n a : Nat} {vif : Option Nat}
    {ty : AllocType} {handle : Option Nat} (hvalid : db.validateLease n a handle = []) :
    (db.insertLease n a vif ty handle).OneEach networkId := by
  refine ⟨?_, ?_⟩
  · intro r hr
    rw [leasesOf_insertLease, List.mem_append] at hr
    rw [isLeased_insertLease]
    rcases hr with hr | hr
    · rw [h.leased r hr]
      rfl
    · split at hr
      · rename_i hn
        rw [List.mem_singleton.mp hr]
        simp [hn]
      · cases hr
  · rw [leasesOf_insertLease, List.map_append]
    by_cases hn : n = networkId
    · rw [if_pos hn]
      apply List.nodup_append.mpr
      refine ⟨h.distinct, List.nodup_singleton _, ?_⟩
      intro x hx y hy hxy
      obtain ⟨r, hr, hra⟩ := List.mem_map.mp hx
      have hl := h.leased r hr
      rw [hra, hxy, List.mem_singleton.mp hy] at hl
      have hfree := isLeased_of_valid hvalid
      rw [hn, hl] at hfree
      cases hfree
    · rw [if_neg hn]
      simpa using h.distinct

/-- An update of one row that keeps its address, and every address of the
network in `ip_leases`. -/
theorem Db.OneEach.modify (h : db.OneEach networkId) {j : Nat} {f : VifLeaseRow → VifLeaseRow}
    {hf : ∀ r, Row.pk (f r) = Row.pk r} (hn : ∀ r, (f r).networkId = r.networkId)
    (ha : ∀ r, (f r).ipv4 = r.ipv4) {ipLeases : Table IpLeaseRow}
    (hl : ∀ a, db.isLeased networkId a = true →
      Db.isLeased { db with ipLeases := ipLeases } networkId a = true) :
    Db.OneEach networkId { db with
      ipLeases := ipLeases, vifLeases := db.vifLeases.modify j f hf } := by
  have hrows : Db.leasesOf { db with
      ipLeases := ipLeases, vifLeases := db.vifLeases.modify j f hf } networkId =
      (db.leasesOf networkId).map fun r => if r.id = j then f r else r :=
    leasesOf_modify db hn
  refine ⟨?_, ?_⟩
  · intro r hr
    have hmem : r.ipv4 ∈ (db.leasesOf networkId).map VifLeaseRow.ipv4 := by
      rw [hrows] at hr
      rw [← map_ipv4_modify (j := j) ha]
      exact List.mem_map_of_mem hr
    obtain ⟨x, hx, hxr⟩ := List.mem_map.mp hmem
    rw [← hxr]
    exact hl _ (h.leased x hx)
  · rw [hrows, map_ipv4_modify ha]
    exact h.distinct

theorem Db.CountOk.congr {t : Db} (h : db.CountOk networkId) (hl : t.ipLeases = db.ipLeases)
    (hv : t.vifLeases = db.vifLeases) : t.CountOk networkId := by
  have hrows : t.leasesOf networkId = db.leasesOf networkId := by
    unfold Db.leasesOf
    rw [hv]
  unfold Db.CountOk
  rw [hrows]
  rcases h with hdeleted | hone
  · exact Or.inl hdeleted
  · right
    refine ⟨?_, by rw [hrows]; exact hone.distinct⟩
    intro r hr
    rw [hrows] at hr
    unfold Db.isLeased
    rw [hl]
    exact hone.leased r hr

theorem Writes.countOk {S : Nat × Nat → Prop} {H : Prop} {t : Db} (hw : Writes S H db t)
    (h : db.CountOk networkId) : t.CountOk networkId := by
  induction hw with
  | refl => exact h
  | @insertLease t n a vif ty handle _ hvalid ih =>
    rcases ih with ⟨r, hr, hd⟩ | hone
    · left
      refine ⟨r, ?_, hd⟩
      rw [leasesOf_insertLease]
      exact List.mem_append_left _ hr
    · exact Or.inr (hone.insertLease hvalid)
  | @destroyLease t r s hw hs hk hS ih =>
    have hrows : (t.destroyLease r).leasesOf networkId = (t.leasesOf networkId).map fun x =>
        if x.id = r.id then { x with deleted := true } else x :=
      leasesOf_modify t fun _ => rfl
    have hid : s.id = r.id := t.vifLeases.pk_of_find hs
    by_cases hn : r.networkId = networkId
    · -- the row stays, marked as deleted
      left
      have hsn : s.networkId = networkId := (congrArg Prod.fst hk).trans hn
      refine ⟨{ s with deleted := true }, ?_, rfl⟩
      rw [hrows]
      refine List.mem_map.mpr ⟨s, Db.mem_leasesOf.mpr ⟨t.vifLeases.mem_of_find hs, hsn⟩, ?_⟩
      rw [if_pos hid]
    · rcases ih with ⟨x, hx, hd⟩ | hone
      · left
        refine ⟨x, ?_, hd⟩
        rw [hrows]
        refine List.mem_map.mpr ⟨x, hx, ?_⟩
        rw [if_neg]
        intro hxr
        have hxs : x = s := t.vifLeases.eq_of_pk (Db.mem_leasesOf.mp hx).1
          (t.vifLeases.mem_of_find hs) (hxr.trans hid.symm)
        apply hn
        rw [← (Db.mem_leasesOf.mp hx).2, hxs]
        exact (congrArg Prod.fst hk).symm
      · right
        apply hone.modify (f := fun x => { x with deleted := true }) (fun _ => rfl) fun _ => rfl
        intro a ha
        have hkeep := isLeased_destroyLease t r networkId a
        rw [ha, Bool.true_and] at hkeep
        refine Eq.trans hkeep ?_
        simp [Ne.symm hn]
  | @moveLease t j vif hw ih =>
    have hrows : Db.leasesOf { t with
          vifLeases := t.vifLeases.modify j (fun r => { r with networkVifId := vif }) fun _ => rfl }
          networkId =
        (t.leasesOf networkId).map fun x => if x.id = j then { x with networkVifId := vif } else x :=
      leasesOf_modify t fun _ => rfl
    rcases ih with ⟨x, hx, hd⟩ | hone
    · left
      refine ⟨if x.id = j then { x with networkVifId := vif } else x, ?_, ?_⟩
      · rw [hrows]
        exact List.mem_map_of_mem hx
      · split
        · exact hd
        · exact hd
    · right
      exact hone.modify (f := fun x => { x with networkVifId := vif }) (fun _ => rfl)
        (fun _ => rfl) fun _ ha => ha
  | createHandle _ _ ih => exact ih.congr rfl rfl
  | vifs _ ih => exact ih.congr rfl rfl
  | routes _ ih => exact ih.congr rfl rfl

/-! ## The count and the free addresses -/

theorem card_freeAddresses {n : NetworkRow} :
    ((db.freeAddresses n).card : Int) = n.hostsSize -
      ((Finset.Ioo n.network n.broadcast) ∩ (((db.leasesOf n.id).filter fun r =>
        !r.deleted).map VifLeaseRow.ipv4).toFinset).card := by
  have hfree : db.freeAddresses n = (Finset.Ioo n.network n.broadcast) \
      (((db.leasesOf n.id).filter fun r => !r.deleted).map VifLeaseRow.ipv4).toFinset := by
    ext a
    simp only [Db.freeAddresses, Finset.mem_filter, Finset.mem_sdiff, List.mem_toFinset,
      List.mem_map, List.mem_filter, Bool.not_eq_true', not_exists, not_and]
    constructor
    · intro h
      exact ⟨h.1, fun r hr he => h.2 r hr.1 hr.2 he⟩
    · intro h
      exact ⟨h.1, fun r hr hd he => h.2 r ⟨hr, hd⟩ he⟩
  have hcard := Finset.card_sdiff_add_card_inter (Finset.Ioo n.network n.broadcast)
    (((db.leasesOf n.id).filter fun r => !r.deleted).map VifLeaseRow.ipv4).toFinset
  rw [hfree]
  unfold NetworkRow.hostsSize
  rw [← Nat.card_Ioo]
  omega

/-- The rows of the network are all alive and between its two ends. -/
def Db.NothingReleased (db : Db) (n : NetworkRow) : Prop :=
  ∀ r ∈ db.leasesOf n.id, r.deleted = false ∧ n.network < r.ipv4 ∧ r.ipv4 < n.broadcast

theorem availableIpNums_iff {n : NetworkRow} (h : db.CountOk n.id) :
    db.availableIpNums n = (db.freeAddresses n).card ↔ db.NothingReleased n := by
  rw [card_freeAddresses]
  unfold Db.availableIpNums
  generalize hA : ((db.leasesOf n.id).filter fun r => !r.deleted) = alive
  have hsub : (alive.map VifLeaseRow.ipv4).toFinset.card ≤ alive.length := by
    refine (List.toFinset_card_le _).trans ?_
    rw [List.length_map]
  have hinter : (Finset.Ioo n.network n.broadcast ∩ (alive.map VifLeaseRow.ipv4).toFinset).card ≤
      (alive.map VifLeaseRow.ipv4).toFinset.card := Finset.card_le_card Finset.inter_subset_right
  have halive : alive.length ≤ (db.leasesOf n.id).length := by
    rw [← hA]
    exact List.length_filter_le ..
  constructor
  · intro heq r hr
    have hlen : alive.length = (db.leasesOf n.id).length := by omega
    have hall : alive = db.leasesOf n.id := by
      rw [← hA]
      exact List.filter_sublist.eq_of_length (by rw [hA]; exact hlen)
    have hd : r.deleted = false := by
      rw [← hall, ← hA] at hr
      simpa using (List.mem_filter.mp hr).2
    have hin : (alive.map VifLeaseRow.ipv4).toFinset ⊆ Finset.Ioo n.network n.broadcast := by
      rw [← Finset.inter_eq_right]
      apply Finset.eq_of_subset_of_card_le Finset.inter_subset_right
      omega
    have hmem : r.ipv4 ∈ (alive.map VifLeaseRow.ipv4).toFinset := by
      rw [List.mem_toFinset, hall]
      exact List.mem_map_of_mem hr
    obtain ⟨hlo, hhi⟩ := Finset.mem_Ioo.mp (hin hmem)
    exact ⟨hd, hlo, hhi⟩
  · intro hall
    have hone : db.OneEach n.id := by
      rcases h with ⟨r, hr, hd⟩ | hone
      · rw [(hall r hr).1] at hd
        cases hd
      · exact hone
    have hsame : alive = db.leasesOf n.id := by
      rw [← hA, List.filter_eq_self]
      intro r hr
      rw [(hall r hr).1]
      rfl
    have hin : (alive.map VifLeaseRow.ipv4).toFinset ⊆ Finset.Ioo n.network n.broadcast := by
      intro a ha
      obtain ⟨r, hr, hra⟩ := List.mem_map.mp (List.mem_toFinset.mp ha)
      rw [hsame] at hr
      rw [← hra]
      exact Finset.mem_Ioo.mpr (hall r hr).2
    rw [Finset.inter_eq_right.mpr hin, hsame, List.toFinset_card_of_nodup hone.distinct,
      List.length_map]

end

/-- Along every run from a network without leases, `available_ip_nums` is the
number of free addresses exactly as long as nothing has been released. -/
theorem available_ip_nums_iff (env : Env) {db : Db} {n : NetworkRow} (h : db.leasesOf n.id = [])
    (ops : List LeaseOp) :
    (ops.foldl (fun db op => op.step env db) db).availableIpNums n =
        ((ops.foldl (fun db op => op.step env db) db).freeAddresses n).card ↔
      (ops.foldl (fun db op => op.step env db) db).NothingReleased n := by
  apply availableIpNums_iff
  apply invariant (Db.CountOk n.id)
  · intro db op hdb
    exact (step_writes env db op).countOk hdb
  · right
    refine ⟨?_, ?_⟩
    · intro r hr
      rw [h] at hr
      cases hr
    · rw [h]
      exact List.nodup_nil

/-! ## A lease that is given back -/

/-- `10.0.0.0/30` with a range of its two host addresses, and a vif. -/
def twoHosts : Db := { threeVifs with
  networks := Table.empty.create
    (fun id => ⟨id, 0x0a000000, 30, none, none, none, none, .asc, 1⟩) fun _ => rfl
  dhcpRanges := Table.empty.create (fun id => ⟨id, 1, 0x0a000001, 0x0a000002⟩) fun _ => rfl }

def twoHostsNetwork : NetworkRow := ⟨1, 0x0a000000, 30, none, none, none, none, .asc, 1⟩

theorem available_ip_nums_leased :
    ([LeaseOp.attachToNetwork 1 1, .addReserved 1 0x0a000001].foldl
        (fun db op => op.step incrementalEnv db) twoHosts).availableIpNums twoHostsNetwork =
      (([LeaseOp.attachToNetwork 1 1, .addReserved 1 0x0a000001].foldl
        (fun db op => op.step incrementalEnv db) twoHosts).freeAddresses twoHostsNetwork).card :=
  (available_ip_nums_iff incrementalEnv (by decide) _).mpr (by unfold Db.NothingReleased; decide)

/-- A vif that leases an address and gives it back three times leaves minus one
address of two, which are both free. -/
theorem available_ip_nums_negative :
    ([LeaseOp.attachToNetwork 1 1, .detachFromNetwork 1, .attachToNetwork 1 1,
        .detachFromNetwork 1, .attachToNetwork 1 1, .detachFromNetwork 1].foldl
        (fun db op => op.step incrementalEnv db) twoHosts).availableIpNums twoHostsNetwork = -1 ∧
      (([LeaseOp.attachToNetwork 1 1, .detachFromNetwork 1, .attachToNetwork 1 1,
        .detachFromNetwork 1, .attachToNetwork 1 1, .detachFromNetwork 1].foldl
        (fun db op => op.step incrementalEnv db) twoHosts).freeAddresses twoHostsNetwork).card = 2 :=
  ⟨by decide, by decide⟩

end Lease

end WakameVdc
