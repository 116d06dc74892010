import WakameVdc.VolumePlacement

/-!
# Volumes and the space they take

`LeastUsage` and the volume loop of `schedule_instance` compare with the usage so far, and
a job that raises is undone. What is left is the placement that does not compare.
-/

namespace WakameVdc

open Lib

namespace VolumePlacement

open Scheduler (VolumeState)

section
variable {d : Domain} {online : Nat → Bool} {vdc vdc' : Vdc} {i : InstanceRow} {vol : VolumeRow}
  {s : StorageNodeScheduler} {node : StorageNodeRow} {host : HostNodeRow}

/-! ## Sums of sizes -/

theorem sumSize_setDevice (p : VolumeRow → Bool) (hv : vdc.volumes.find vol.id = some vol)
    (device : Device) :
    (vdc.setDevice vol.id device).sumSize p + (if p vol then vol.size else 0) =
      vdc.sumSize p + if p { vol with device := device } then vol.size else 0 :=
  vdc.volumes.sum_modify hv (fun v => { v with device := device }) (fun _ => rfl)
    fun v => if p v then v.size else 0

theorem sumSize_setVolumeState {p : VolumeRow → Bool}
    (hp : ∀ v state, p { v with state := state } = p v) (id : Nat) (state : VolumeState) :
    (vdc.setVolumeState id state).sumSize p = vdc.sumSize p := by
  unfold Vdc.sumSize Vdc.setVolumeState Table.modify
  rw [Table.sum_update]
  apply Table.sum_congr
  intro v _
  by_cases h : Row.pk v = id
  · rw [if_pos h, hp]
  · rw [if_neg h]

@[simp] theorem diskUsage_setVolumeState (id : Nat) (state : VolumeState) (n : Nat) :
    (vdc.setVolumeState id state).diskUsage n = vdc.diskUsage n :=
  sumSize_setVolumeState (fun _ _ => rfl) id state

@[simp] theorem localVolumesSize_setVolumeState (id : Nat) (state : VolumeState) (j : Nat) :
    (vdc.setVolumeState id state).localVolumesSize j = vdc.localVolumesSize j :=
  sumSize_setVolumeState (fun _ _ => rfl) id state

@[simp] theorem instances_setVolumeState (id : Nat) (state : VolumeState) :
    (vdc.setVolumeState id state).instances = vdc.instances := rfl

@[simp] theorem instances_setDevice (id : Nat) (device : Device) :
    (vdc.setDevice id device).instances = vdc.instances := rfl

@[simp] theorem diskSpaceUsage_setVolumeState (id : Nat) (state : VolumeState) (h : Nat) :
    (vdc.setVolumeState id state).diskSpaceUsage h = vdc.diskSpaceUsage h := by
  simp [Vdc.diskSpaceUsage]

theorem inStep_setVolumeState (id : Nat) (state : VolumeState) :
    InStep d (vdc.setVolumeState id state) ↔ InStep d vdc := by
  constructor
  · intro h
    refine ⟨?_, ?_⟩
    · intro node hn
      simpa using h.storageNodes node hn
    · intro host hh
      simpa using h.hostNodes host hh
  · intro h
    refine ⟨?_, ?_⟩
    · intro node hn
      simpa using h.storageNodes node hn
    · intro host hh
      simpa using h.hostNodes host hh

/-! ## A volume on a storage node -/

theorem diskUsage_setDevice_shared (hv : vdc.volumes.find vol.id = some vol)
    (hd : vol.device = .unset) (n m : Nat) :
    (vdc.setDevice vol.id (.shared n)).diskUsage m =
      vdc.diskUsage m + if n = m ∧ vol.deleted = false then vol.size else 0 := by
  have h := sumSize_setDevice (fun v => !v.deleted && v.device == .shared m) hv (.shared n)
  simp only [hd, Vdc.diskUsage] at h ⊢
  by_cases hn : n = m ∧ vol.deleted = false
  · simpa [hn] using h
  · rw [if_neg hn]
    rw [not_and_or] at hn
    rcases hn with hn | hn
    · simpa [hn] using h
    · simpa [hn] using h

theorem localVolumesSize_setDevice_shared (hv : vdc.volumes.find vol.id = some vol)
    (hd : vol.device = .unset) (n j : Nat) :
    (vdc.setDevice vol.id (.shared n)).localVolumesSize j = vdc.localVolumesSize j := by
  have h := sumSize_setDevice (fun v => v.device == .local (some j)) hv (.shared n)
  simpa [hd, Vdc.localVolumesSize] using h

theorem diskSpaceUsage_setDevice_shared (hv : vdc.volumes.find vol.id = some vol)
    (hd : vol.device = .unset) (n h : Nat) :
    (vdc.setDevice vol.id (.shared n)).diskSpaceUsage h = vdc.diskSpaceUsage h := by
  simp [Vdc.diskSpaceUsage, localVolumesSize_setDevice_shared hv hd]

/-- The volume has to fit unless it is one that is marked as deleted. -/
theorem storageFits_setDevice_iff (hs : StorageFits d vdc) (hn : node ∈ d.storageNodes.rows)
    (hv : vdc.volumes.find vol.id = some vol) (hd : vol.device = .unset) :
    StorageFits d (vdc.setDevice vol.id (.shared node.id)) ↔
      (vol.deleted = false → (vol.size : Int) ≤ vdc.freeDiskSpace node) := by
  constructor
  · intro h hdel
    have := h node hn
    rw [diskUsage_setDevice_shared hv hd, if_pos ⟨rfl, hdel⟩] at this
    unfold Vdc.freeDiskSpace
    omega
  · intro h m hm
    rw [diskUsage_setDevice_shared hv hd]
    have hold := hs m hm
    by_cases hc : node.id = m.id ∧ vol.deleted = false
    · have he : node = m := d.storageNodes.eq_of_pk hn hm hc.1
      have := h hc.2
      rw [if_pos hc]
      unfold Vdc.freeDiskSpace at this
      rw [he] at this
      omega
    · rw [if_neg hc]
      exact hold

theorem localsFit_setDevice_shared (hv : vdc.volumes.find vol.id = some vol)
    (hd : vol.device = .unset) (n : Nat) :
    LocalsFit d (vdc.setDevice vol.id (.shared n)) ↔ LocalsFit d vdc := by
  simp [LocalsFit, diskSpaceUsage_setDevice_shared hv hd]

theorem inStep_setDevice_iff (hs : InStep d vdc) (hn : node ∈ d.storageNodes.rows)
    (hv : vdc.volumes.find vol.id = some vol) (hd : vol.device = .unset) :
    InStep d (vdc.setDevice vol.id (.shared node.id)) ↔
      (vol.deleted = false → (vol.size : Int) ≤ vdc.freeDiskSpace node) := by
  rw [← storageFits_setDevice_iff hs.storageNodes hn hv hd]
  constructor
  · intro h
    exact h.storageNodes
  · intro h
    exact ⟨h, (localsFit_setDevice_shared hv hd node.id).mpr hs.hostNodes⟩

/-! ## A volume on a host node -/

theorem diskUsage_setDevice_local (hv : vdc.volumes.find vol.id = some vol)
    (hd : vol.device = .local none) (j : Option Nat) (n : Nat) :
    (vdc.setDevice vol.id (.local j)).diskUsage n = vdc.diskUsage n := by
  have h := sumSize_setDevice (fun v => !v.deleted && v.device == .shared n) hv (.local j)
  simpa [hd, Vdc.diskUsage] using h

theorem localVolumesSize_setDevice_local (hv : vdc.volumes.find vol.id = some vol)
    (hd : vol.device = .local none) (j k : Nat) :
    (vdc.setDevice vol.id (.local (some j))).localVolumesSize k =
      vdc.localVolumesSize k + if j = k then vol.size else 0 := by
  have h := sumSize_setDevice (fun v => v.device == .local (some k)) hv (.local (some j))
  simpa [hd, Vdc.localVolumesSize] using h

theorem diskSpaceUsage_setDevice_local (hv : vdc.volumes.find vol.id = some vol)
    (hd : vol.device = .local none) (hi : vdc.instances.find i.id = some i) (h : Nat) :
    (vdc.setDevice vol.id (.local (some i.id))).diskSpaceUsage h =
      vdc.diskSpaceUsage h + if !i.terminated && i.hostNode == some h then vol.size else 0 := by
  unfold Vdc.diskSpaceUsage
  simp only [instances_setDevice, localVolumesSize_setDevice_local hv hd]
  have hne : ∀ x ∈ vdc.instances.rows, Row.pk x ≠ Row.pk i →
      (if !x.terminated && x.hostNode == some h then
        vdc.localVolumesSize x.id + (if i.id = x.id then vol.size else 0) else 0) =
        if !x.terminated && x.hostNode == some h then vdc.localVolumesSize x.id else 0 := by
    intro x _ hx
    have hid : ¬ i.id = x.id := fun e => hx e.symm
    rw [if_neg hid, Nat.add_zero]
  have := vdc.instances.sum_change (vdc.instances.mem_of_find hi) hne
  split_ifs at this ⊢ <;> omega

theorem hostNodeOf_eq_some : d.hostNodeOf i = some host ↔
    ∃ h, i.hostNode = some h ∧ d.hostNodes.find h = some host := by
  simp [Domain.hostNodeOf, Option.bind_eq_some_iff]

theorem localsFit_setDevice_local (hs : LocalsFit d vdc)
    (hv : vdc.volumes.find vol.id = some vol) (hd : vol.device = .local none)
    (hi : vdc.instances.find i.id = some i) (hh : d.hostNodeOf i = some host)
    (hfit : (vol.size : Int) ≤ vdc.availableDiskSpace host) :
    LocalsFit d (vdc.setDevice vol.id (.local (some i.id))) := by
  obtain ⟨h, hih, hfh⟩ := hostNodeOf_eq_some.mp hh
  intro x hx
  rw [diskSpaceUsage_setDevice_local hv hd hi]
  have hold := hs x hx
  by_cases hc : (!i.terminated && i.hostNode == some x.id) = true
  · rw [if_pos hc]
    have hxh : x.id = h := by
      rw [hih] at hc
      simp only [Bool.and_eq_true, beq_iff_eq, Option.some.injEq] at hc
      exact hc.2.symm
    have he : x = host := by
      have := d.hostNodes.find_of_mem hx
      rw [show Row.pk x = h from hxh, hfh] at this
      exact (Option.some.inj this).symm
    unfold Vdc.availableDiskSpace at hfit
    rw [← he] at hfit
    omega
  · rw [if_neg hc]
    exact hold

/-! ## Local volumes belong to hosted instances -/

theorem located_setVolumeState (h : vdc.Located d) (id : Nat) (state : VolumeState) :
    (vdc.setVolumeState id state).Located d := by
  intro v hv j hj
  obtain ⟨x, hx, rfl⟩ := List.mem_map.mp hv
  apply h x hx j
  by_cases hk : Row.pk x = id
  · simpa [hk] using hj
  · simpa [hk] using hj

theorem located_setDevice (h : vdc.Located d) (id : Nat) (device : Device)
    (hd : ∀ j, device = .local (some j) →
      ∃ i ∈ vdc.instances.rows, i.id = j ∧ (d.hostNodeOf i).isSome) :
    (vdc.setDevice id device).Located d := by
  intro v hv j hj
  obtain ⟨x, hx, rfl⟩ := List.mem_map.mp hv
  by_cases hk : Row.pk x = id
  · simp only [hk, if_true] at hj
    exact hd j hj
  · simp only [hk, if_false] at hj
    exact h x hx j hj

/-- An instance without a host node has no local volumes. -/
theorem localVolumesSize_eq_zero (h : vdc.Located d) {j : Nat}
    (hj : ∀ x ∈ vdc.instances.rows, x.id = j → d.hostNodeOf x = none) :
    vdc.localVolumesSize j = 0 := by
  have hz : ∀ v ∈ vdc.volumes.rows,
      (if (v.device == .local (some j)) = true then v.size else 0) = 0 := by
    intro v hv
    rw [if_neg]
    intro hd
    obtain ⟨x, hx, hxj, hs⟩ := h v hv j (by simpa using hd)
    rw [hj x hx hxj] at hs
    cases hs
  unfold Vdc.localVolumesSize Vdc.sumSize
  rw [vdc.volumes.sum_congr hz]
  simp [Table.sum]

theorem located_setDevice_shared (hl : vdc.Located d) (id n : Nat) :
    (vdc.setDevice id (.shared n)).Located d := by
  apply located_setDevice hl
  intro j hj
  cases hj

/-! ## One volume of the loop -/

theorem mem_of_leastUsage
    (h : StorageNodeScheduler.leastUsageNode d online vdc vol = .ok node) :
    node ∈ d.storageNodes.rows ∧ (vol.size : Int) ≤ vdc.freeDiskSpace node := by
  unfold StorageNodeScheduler.leastUsageNode at h
  split at h
  · cases h
  · rename_i he
    cases h
    have hm := List.mem_reverse.mp (he ▸ List.mem_cons_self)
    have hf := List.mem_filter.mp ((d.sortBy.perm _ _).mem_iff.mp hm)
    exact ⟨List.mem_of_mem_filter hf.1, by simpa using hf.2⟩

theorem schedule_ok (h : s.schedule d online vdc vol = .ok vdc') :
    ∃ node ∈ d.storageNodes.rows, (vol.size : Int) ≤ vdc.freeDiskSpace node ∧
      vol.device = .unset ∧ vdc' = vdc.setDevice vol.id (.shared node.id) := by
  cases s with
  | findFirst => cases h
  | leastUsage =>
    unfold StorageNodeScheduler.schedule at h
    cases hn : StorageNodeScheduler.leastUsageNode d online vdc vol with
    | error e =>
      rw [hn] at h
      cases h
    | ok node =>
      obtain ⟨hmem, hfit⟩ := mem_of_leastUsage hn
      rw [hn] at h
      simp only [associateVolume] at h
      split at h
      · rename_i hd
        cases h
        exact ⟨node, hmem, hfit, hd, rfl⟩
      · cases h

theorem scheduleVolumeDevice_ok (h : scheduleVolumeDevice d online i s vdc vol = .ok vdc') :
    (∃ node ∈ d.storageNodes.rows, vol.device = .unset ∧
      (vol.size : Int) ≤ vdc.freeDiskSpace node ∧
      vdc' = (vdc.setDevice vol.id (.shared node.id)).setVolumeState vol.id .pending) ∨
    ∃ host, vol.device = .local none ∧ d.hostNodeOf i = some host ∧
      (vol.size : Int) ≤ vdc.availableDiskSpace host ∧
      vdc' = (vdc.setDevice vol.id (.local (some i.id))).setVolumeState vol.id .pending := by
  unfold scheduleVolumeDevice createDevice at h
  cases hd : vol.device with
  | unset =>
    simp only [hd] at h
    cases hs : s.schedule d online vdc vol with
    | error e =>
      rw [hs] at h
      cases h
    | ok u =>
      obtain ⟨node, hmem, hfit, _, rfl⟩ := schedule_ok hs
      rw [hs] at h
      cases h
      exact .inl ⟨node, hmem, rfl, hfit, rfl⟩
  | shared n =>
    simp only [hd] at h
    cases h
  | «local» row =>
    simp only [hd] at h
    cases hh : d.hostNodeOf i with
    | none =>
      rw [hh] at h
      cases h
    | some host =>
      simp only [hh] at h
      by_cases hlt : vdc.availableDiskSpace host < vol.size
      · rw [if_pos hlt] at h
        cases h
      · rw [if_neg hlt] at h
        cases row with
        | none =>
          cases h
          exact .inr ⟨host, rfl, rfl, not_lt.mp hlt, rfl⟩
        | some j => cases h

/-! ## The loop -/

/-- The volumes are rows of the table, and no two of them are one. -/
structure Stored (vdc : Vdc) (vols : List VolumeRow) : Prop where
  find : ∀ v ∈ vols, vdc.volumes.find v.id = some v
  apart : (vols.map VolumeRow.id).Nodup

theorem Stored.tail {vols : List VolumeRow} (h : Stored vdc (vol :: vols)) (device : Device)
    (state : VolumeState) :
    Stored ((vdc.setDevice vol.id device).setVolumeState vol.id state) vols := by
  have hnd := List.nodup_cons.mp h.apart
  constructor
  · intro v hv
    have hne : v.id ≠ vol.id := fun e => hnd.1 (e ▸ List.mem_map_of_mem hv)
    unfold Vdc.setVolumeState Vdc.setDevice
    rw [Table.find_modify, if_neg hne, Table.find_modify, if_neg hne]
    exact h.find v (List.mem_cons_of_mem _ hv)
  · exact hnd.2

theorem stored_schedulingVolumes (id : Nat) : Stored vdc (vdc.schedulingVolumes id) := by
  constructor
  · intro v hv
    exact vdc.volumes.find_of_mem (List.mem_of_mem_filter hv)
  · exact vdc.volumes.nodup_pk.sublist (List.filter_sublist.map _)

theorem foldlM_cons_ok_iff {ε σ α : Type} {f : σ → α → Except ε σ} {a : α} {as : List α}
    {x z : σ} :
    (a :: as).foldlM f x = .ok z ↔ ∃ y, f x a = .ok y ∧ as.foldlM f y = .ok z := by
  rw [List.foldlM_cons]
  cases f x a with
  | error e =>
    constructor
    · intro h
      cases h
    · rintro ⟨y, hy, _⟩
      cases hy
  | ok y =>
    constructor
    · intro h
      exact ⟨y, rfl, h⟩
    · rintro ⟨_, hy, h⟩
      cases hy
      exact h

/-- The loop leaves everything where it fits, as each of its volumes was compared with the
space that was left. -/
theorem scheduleVolumeDevices_kept {vols : List VolumeRow} (hr : Stored vdc vols)
    (hl : vdc.Located d) (hf : InStep d vdc) (hi : vdc.instances.find i.id = some i)
    (h : vols.foldlM (scheduleVolumeDevice d online i s) vdc = .ok vdc') :
    vdc'.Located d ∧ InStep d vdc' := by
  induction vols generalizing vdc with
  | nil =>
    cases h
    exact ⟨hl, hf⟩
  | cons vol vols ih =>
    obtain ⟨u, hu, hrest⟩ := foldlM_cons_ok_iff.mp h
    have hv := hr.find vol List.mem_cons_self
    rcases scheduleVolumeDevice_ok hu with ⟨n, hn, hd, hfit, rfl⟩ | ⟨x, hd, hx, hfit, rfl⟩
    · apply ih (hr.tail _ _) _ _ hi hrest
      · apply located_setVolumeState
        exact located_setDevice_shared hl _ _
      · rw [inStep_setVolumeState, inStep_setDevice_iff hf hn hv hd]
        exact fun _ => hfit
    · apply ih (hr.tail _ _) _ _ hi hrest
      · apply located_setVolumeState
        apply located_setDevice hl
        intro j hj
        cases hj
        exact ⟨i, vdc.instances.mem_of_find hi, rfl, by rw [hx]; rfl⟩
      · rw [inStep_setVolumeState]
        refine ⟨?_, localsFit_setDevice_local hf.hostNodes hv hd hi hx hfit⟩
        intro node hnode
        rw [diskUsage_setDevice_local hv hd]
        exact hf.storageNodes node hnode

end

end VolumePlacement

end WakameVdc
