import WakameVdc.VolumePlacementSound

/-!
# Runs of placements
-/

namespace WakameVdc

open Lib

namespace VolumePlacement

open Scheduler (VolumeState)

section
variable {d : Domain} {online : Nat → Bool} {vdc vdc' : Vdc} {i : InstanceRow} {vol : VolumeRow}
  {op : Op}

/-! ## Updates that place nothing -/

/-- The function places no volume, resizes none and brings none back. -/
structure Spares (g : VolumeRow → VolumeRow) : Prop where
  id : ∀ v, Row.pk (g v) = Row.pk v
  device : ∀ v, (g v).device = v.device
  size : ∀ v, (g v).size = v.size
  deleted : ∀ v, v.deleted = true → (g v).deleted = true

def Vdc.updateVolumes (vdc : Vdc) (g : VolumeRow → VolumeRow) (hg : Spares g) : Vdc :=
  { vdc with volumes := vdc.volumes.update g hg.id }

section
variable {g : VolumeRow → VolumeRow} (hg : Spares g)

theorem diskUsage_updateVolumes (n : Nat) :
    (vdc.updateVolumes g hg).diskUsage n ≤ vdc.diskUsage n := by
  unfold Vdc.diskUsage Vdc.sumSize Vdc.updateVolumes
  rw [Table.sum_update]
  apply Table.sum_le_sum
  intro v _
  simp only [hg.device, hg.size]
  by_cases hd : v.deleted = true
  · simp [hd, hg.deleted v hd]
  · split_ifs with h₁ h₂
    · exact Nat.le_refl _
    · simp_all
    · exact Nat.zero_le _
    · exact Nat.le_refl _

theorem localVolumesSize_updateVolumes (j : Nat) :
    (vdc.updateVolumes g hg).localVolumesSize j = vdc.localVolumesSize j := by
  unfold Vdc.localVolumesSize Vdc.sumSize Vdc.updateVolumes
  rw [Table.sum_update]
  apply Table.sum_congr
  intro v _
  simp only [hg.device, hg.size]

theorem inStep_updateVolumes (h : InStep d vdc) : InStep d (vdc.updateVolumes g hg) := by
  refine ⟨?_, ?_⟩
  · intro node hn
    exact (diskUsage_updateVolumes hg node.id).trans (h.storageNodes node hn)
  · intro host hh
    have := h.hostNodes host hh
    unfold Vdc.diskSpaceUsage at this ⊢
    simp only [localVolumesSize_updateVolumes hg]
    exact this

theorem located_updateVolumes (h : vdc.Located d) : (vdc.updateVolumes g hg).Located d := by
  intro v hv j hj
  obtain ⟨x, hx, rfl⟩ := List.mem_map.mp hv
  rw [hg.device] at hj
  exact h x hx j hj

theorem device_updateVolumes (id : Nat) :
    ((vdc.updateVolumes g hg).volumes.find id).map VolumeRow.device =
      (vdc.volumes.find id).map VolumeRow.device := by
  unfold Vdc.updateVolumes
  rw [Table.find_update, Option.map_map]
  congr 1
  funext v
  exact hg.device v

end

theorem spares_destroyVolume (id : Nat) :
    Spares fun v => if Row.pk v = id then { v with state := .deleted, deleted := true } else v := by
  refine ⟨?_, ?_, ?_, ?_⟩ <;> intro v <;> by_cases h : Row.pk v = id <;> simp [h]
  exact h

theorem spares_afterRollback (id : Nat) :
    Spares fun v =>
      if v.instanceId = some id then
        if v.state = .attached then { v with instanceId := none }
        else if v.deleted then v
        else { v with state := .deleted, deleted := true }
      else v := by
  refine ⟨?_, ?_, ?_, ?_⟩
  · intro v
    split_ifs <;> rfl
  · intro v
    split_ifs <;> rfl
  · intro v
    split_ifs <;> rfl
  · intro v hv
    split_ifs
    · exact hv
    · exact hv
    · exact hv

theorem inStep_destroyVolume (h : InStep d vdc) (id : Nat) : InStep d (vdc.destroyVolume id) :=
  inStep_updateVolumes (spares_destroyVolume id) h

theorem located_destroyVolume (h : vdc.Located d) (id : Nat) : (vdc.destroyVolume id).Located d :=
  located_updateVolumes (spares_destroyVolume id) h

/-! ## Instances -/

/-- The instance is saved with the host node it had, or before it has local volumes. -/
theorem diskSpaceUsage_save (i' : InstanceRow) (hi : vdc.instances.find i.id = some i)
    (hid : i'.id = i.id)
    (hz : i'.terminated = true ∨ i'.hostNode = i.hostNode ∧ i'.terminated = i.terminated ∨
      vdc.localVolumesSize i.id = 0) (h : Nat) :
    ({ vdc with instances := vdc.instances.save i' } : Vdc).diskSpaceUsage h ≤
      vdc.diskSpaceUsage h := by
  unfold Vdc.diskSpaceUsage Table.save
  rw [Table.sum_update]
  apply Table.sum_le_sum
  intro x hx
  by_cases hk : Row.pk x = Row.pk i'
  · have he : x = i := vdc.instances.eq_of_pk hx (vdc.instances.mem_of_find hi) (hk.trans hid)
    rw [if_pos hk, he, hid]
    show (if _ then vdc.localVolumesSize i.id else 0) ≤ _
    rcases hz with ht | ⟨hh, ht⟩ | hz
    · simp [ht]
    · rw [hh, ht]
    · simp [hz]
  · rw [if_neg hk]
    exact Nat.le_refl _

theorem located_save {i' : InstanceRow} (hl : vdc.Located d)
    (hi : vdc.instances.find i.id = some i) (hid : i'.id = i.id)
    (hh : (d.hostNodeOf i).isSome → (d.hostNodeOf i').isSome) :
    ({ vdc with instances := vdc.instances.save i' } : Vdc).Located d := by
  intro v hv j hj
  obtain ⟨x, hx, hxj, hs⟩ := hl v hv j hj
  by_cases hk : Row.pk x = Row.pk i'
  · have he : x = i := vdc.instances.eq_of_pk hx (vdc.instances.mem_of_find hi) (hk.trans hid)
    rw [he] at hs
    have hm := vdc.instances.find_save_self (r := i') (x := i) (by
      show vdc.instances.find i'.id = _
      rw [hid, hi])
    exact ⟨i', Table.mem_of_find _ hm, by rw [hid, ← he, hxj], hh hs⟩
  · refine ⟨x, ?_, hxj, hs⟩
    exact List.mem_map.mpr ⟨x, hx, if_neg hk⟩

theorem afterRollback_eq {id : Nat} (hi : vdc.instances.find id = some i) :
    afterRollback id vdc =
      ({ vdc with instances := vdc.instances.save { i with terminated := true } } : Vdc).updateVolumes
        _ (spares_afterRollback id) := by
  unfold afterRollback
  rw [hi]
  rfl

theorem good_afterRollback (hl : vdc.Located d) (hs : InStep d vdc) (id : Nat) :
    (afterRollback id vdc).Located d ∧ InStep d (afterRollback id vdc) := by
  cases hi : vdc.instances.find id with
  | none =>
    unfold afterRollback
    rw [hi]
    exact ⟨hl, hs⟩
  | some i =>
    obtain rfl : i.id = id := vdc.instances.pk_of_find hi
    rw [afterRollback_eq hi]
    constructor
    · exact located_updateVolumes _ (located_save hl hi rfl id)
    · apply inStep_updateVolumes
      refine ⟨hs.storageNodes, ?_⟩
      intro host hh
      have hle : ({ vdc with instances := vdc.instances.save { i with terminated := true } }
          : Vdc).diskSpaceUsage host.id ≤ vdc.diskSpaceUsage host.id :=
        diskSpaceUsage_save { i with terminated := true } hi rfl (.inl rfl) host.id
      exact hle.trans (hs.hostNodes host hh)

/-! ## Calls that raise -/

theorem good_cleanUp (hl : vdc.Located d) (hs : InStep d vdc) (op : Op) :
    (op.cleanUp vdc).Located d ∧ InStep d (op.cleanUp vdc) := by
  cases op with
  | scheduleVolume online id accepted =>
    exact ⟨located_destroyVolume hl id, inStep_destroyVolume hs id⟩
  | scheduleInstance online id a cleanedUp =>
    cases cleanedUp with
    | true => exact good_afterRollback hl hs id
    | false => exact ⟨hl, hs⟩
  | _ => exact ⟨hl, hs⟩

theorem device_cleanUp (op : Op) (id : Nat) :
    ((op.cleanUp vdc).volumes.find id).map VolumeRow.device =
      (vdc.volumes.find id).map VolumeRow.device := by
  cases op with
  | scheduleVolume online j accepted => exact device_updateVolumes (spares_destroyVolume j) id
  | scheduleInstance online j a cleanedUp =>
    cases cleanedUp with
    | true =>
      show ((afterRollback j vdc).volumes.find id).map _ = _
      cases hi : vdc.instances.find j with
      | none =>
        unfold afterRollback
        rw [hi]
      | some i =>
        rw [afterRollback_eq hi]
        exact device_updateVolumes _ id
    | false => rfl
  | _ => rfl

/-! ## New rows -/

theorem sumSize_create (p : VolumeRow → Bool) (mk : Nat → VolumeRow)
    (hmk : ∀ k, Row.pk (mk k) = k) :
    ({ vdc with volumes := vdc.volumes.create mk hmk } : Vdc).sumSize p =
      vdc.sumSize p + if p (mk vdc.volumes.next) then (mk vdc.volumes.next).size else 0 :=
  vdc.volumes.sum_create mk hmk _

theorem diskUsage_create (mk : Nat → VolumeRow) (hmk : ∀ k, Row.pk (mk k) = k)
    (hd : ∀ k, (mk k).device = .unset ∨ (mk k).device = .local none) (n : Nat) :
    ({ vdc with volumes := vdc.volumes.create mk hmk } : Vdc).diskUsage n = vdc.diskUsage n := by
  unfold Vdc.diskUsage
  rw [sumSize_create]
  rcases hd vdc.volumes.next with h | h <;> simp [h]

theorem good_createVolume (hl : vdc.Located d) (hs : InStep d vdc) (mk : Nat → VolumeRow)
    (hmk : ∀ k, Row.pk (mk k) = k)
    (hd : ∀ k, (mk k).device = .unset ∨ (mk k).device = .local none) :
    ({ vdc with volumes := vdc.volumes.create mk hmk } : Vdc).Located d ∧
      InStep d { vdc with volumes := vdc.volumes.create mk hmk } := by
  have hlocal : ∀ j, ({ vdc with volumes := vdc.volumes.create mk hmk } : Vdc).localVolumesSize j =
      vdc.localVolumesSize j := by
    intro j
    unfold Vdc.localVolumesSize
    rw [sumSize_create]
    rcases hd vdc.volumes.next with h | h <;> simp [h]
  constructor
  · intro v hv j hj
    have hm : v ∈ (vdc.volumes.create mk hmk).rows := hv
    rcases vdc.volumes.mem_create.mp hm with hv | rfl
    · exact hl v hv j hj
    · rcases hd vdc.volumes.next with h | h
      · rw [h] at hj
        cases hj
      · rw [h] at hj
        cases hj
  · refine ⟨?_, ?_⟩
    · intro node hn
      rw [diskUsage_create mk hmk hd]
      exact hs.storageNodes node hn
    · intro host hh
      have := hs.hostNodes host hh
      unfold Vdc.diskSpaceUsage at this ⊢
      simp only [hlocal]
      exact this

theorem good_createInstance (hl : vdc.Located d) (hs : InStep d vdc) (mk : Nat → InstanceRow)
    (hmk : ∀ k, Row.pk (mk k) = k) :
    ({ vdc with instances := vdc.instances.create mk hmk } : Vdc).Located d ∧
      InStep d { vdc with instances := vdc.instances.create mk hmk } := by
  constructor
  · intro v hv j hj
    obtain ⟨x, hx, hxj⟩ := hl v hv j hj
    have hm : x ∈ (vdc.instances.create mk hmk).rows := vdc.instances.mem_create.mpr (.inl hx)
    exact ⟨x, hm, hxj⟩
  · refine ⟨hs.storageNodes, ?_⟩
    intro host hh
    have hz : vdc.localVolumesSize vdc.instances.next = 0 := by
      apply localVolumesSize_eq_zero hl
      intro x hx hid
      have := vdc.instances.bound x hx
      exact absurd hid (Nat.ne_of_lt this)
    have hold := hs.hostNodes host hh
    unfold Vdc.diskSpaceUsage at hold ⊢
    rw [Table.sum_create]
    show _ + (if _ then vdc.localVolumesSize (Row.pk (mk vdc.instances.next)) else 0) ≤ _
    rw [hmk, hz, ite_self, Nat.add_zero]
    exact hold

theorem good_addVolumes (instance' : Nat) (hl : vdc.Located d) (hs : InStep d vdc)
    (volumes : List NewVolume) :
    (volumes.foldl (addVolume instance') vdc).Located d ∧
      InStep d (volumes.foldl (addVolume instance') vdc) := by
  induction volumes generalizing vdc with
  | nil => exact ⟨hl, hs⟩
  | cons v volumes ih =>
    obtain ⟨hl', hs'⟩ := good_createVolume hl hs
      (fun id => ⟨id, v.size, v.serviceType, some instance',
        if v.isLocal then .local none else .unset, .scheduling, false⟩) (fun _ => rfl)
      fun _ => by
        cases v.isLocal with
        | true => exact .inr rfl
        | false => exact .inl rfl
    exact ih hl' hs'

theorem good_postInstance {serviceType : Text} {host : Option Nat} {volumes : List NewVolume}
    (hl : vdc.Located d) (hs : InStep d vdc)
    (h : postInstance d serviceType host volumes vdc = .ok vdc') :
    vdc'.Located d ∧ InStep d vdc' := by
  unfold postInstance at h
  split at h
  · cases h
  · cases h
    obtain ⟨hl', hs'⟩ := good_createInstance hl hs (fun id => ⟨id, serviceType, host, false⟩)
      fun _ => rfl
    exact good_addVolumes _ hl' hs' volumes

/-! ## One volume of its own -/

theorem createVolume_ok_iff {r : VolumeRequest} {size : Int} {state : VolumeState} :
    createVolume vdc r size state = .ok (vdc', vol) ↔ r.accepted ∧ 0 ≤ size ∧
      vol = ⟨vdc.volumes.next, size.toNat, r.serviceType, none, .unset, state, false⟩ ∧
      vdc' = { vdc with
        volumes := vdc.volumes.create (fun id => { vol with id := id }) fun _ => rfl } := by
  unfold createVolume
  cases r.accepted with
  | false => simp
  | true =>
    by_cases hneg : size < 0
    · simp [hneg, not_le.mpr hneg]
    · simp only [Bool.not_true, Bool.false_or, hneg, decide_false, Bool.false_eq_true, if_false,
        Except.ok.injEq, Prod.mk.injEq, true_and, not_lt.mp hneg]
      constructor
      · rintro ⟨rfl, rfl⟩
        exact ⟨rfl, rfl⟩
      · rintro ⟨rfl, rfl⟩
        exact ⟨rfl, rfl⟩

theorem postVolume_node_iff {r : VolumeRequest} {id : Nat} (hr : r.storageNodeId = some id) :
    postVolume d online r vdc = .ok vdc' ↔
      ∃ size node vol created, volumeSize d r.size = .ok size ∧
        d.storageNodes.find id = some node ∧
        createVolume vdc r size .pending = .ok (created, vol) ∧
        vdc' = created.setDevice vol.id (.shared node.id) := by
  unfold postVolume
  cases volumeSize d r.size with
  | error e => simp
  | ok size =>
    simp only [hr]
    cases d.storageNodes.find id with
    | none => simp
    | some sp =>
      cases hc : createVolume vdc r size .pending with
      | error e => simp [hc]
      | ok p =>
        obtain ⟨created, vol⟩ := p
        have hd : vol.device = .unset := by
          rw [(createVolume_ok_iff.mp hc).2.2.1]
        simp [hc, associateVolume, hd, eq_comm]

theorem find_createVolume {r : VolumeRequest} {size : Int} {state : VolumeState} {created : Vdc}
    (h : createVolume vdc r size state = .ok (created, vol)) :
    created.volumes.find vol.id = some vol := by
  obtain ⟨_, _, rfl, rfl⟩ := createVolume_ok_iff.mp h
  rw [Table.find_create, if_pos rfl]

theorem good_created {r : VolumeRequest} {size : Int} {state : VolumeState} {created : Vdc}
    (hl : vdc.Located d) (hs : InStep d vdc)
    (h : createVolume vdc r size state = .ok (created, vol)) :
    (created.Located d ∧ InStep d created) ∧
      ∀ node, created.freeDiskSpace node = vdc.freeDiskSpace node := by
  obtain ⟨_, _, rfl, rfl⟩ := createVolume_ok_iff.mp h
  refine ⟨good_createVolume hl hs _ (fun _ => rfl) fun _ => .inl rfl, ?_⟩
  intro node
  unfold Vdc.freeDiskSpace
  rw [diskUsage_create _ (fun _ => rfl) fun _ => .inl rfl]

theorem postVolume_iff {r : VolumeRequest} (hl : vdc.Located d) (hs : InStep d vdc)
    (h : postVolume d online r vdc = .ok vdc') :
    vdc'.Located d ∧ (InStep d vdc' ↔ ¬ (Op.postVolume online r).Overfills d vdc) := by
  cases hr : r.storageNodeId with
  | none =>
    have hno : ¬ (Op.postVolume online r).Overfills d vdc := by
      rintro ⟨_, id, _, _, hid, _⟩
      rw [hr] at hid
      cases hid
    unfold postVolume at h
    split at h
    · cases h
    · rename_i size _
      simp only [hr] at h
      split at h
      · cases h
      · split at h
        · cases h
        · rename_i hc
          cases h
          obtain ⟨⟨hl', hs'⟩, _⟩ := good_created hl hs hc
          exact ⟨hl', iff_of_true hs' hno⟩
  | some id =>
    obtain ⟨size, node, vol, created, hsize, hnode, hc, rfl⟩ := (postVolume_node_iff hr).mp h
    obtain ⟨⟨hl', hs'⟩, hfree⟩ := good_created hl hs hc
    obtain ⟨hacc, hpos, hvol, _⟩ := createVolume_ok_iff.mp hc
    refine ⟨located_setDevice_shared hl' _ _, ?_⟩
    rw [inStep_setDevice_iff hs' (d.storageNodes.mem_of_find hnode) (find_createVolume hc)
      (by rw [hvol]), hfree]
    have hcast : (vol.size : Int) = size := by
      rw [hvol]
      exact Int.toNat_of_nonneg hpos
    have hdel : vol.deleted = false := by rw [hvol]
    constructor
    · rintro hfit ⟨_, id', node', size', hid, hnode', hsize', _, hlt⟩
      obtain rfl : id = id' := Option.some.inj (hr.symm.trans hid)
      obtain rfl : node = node' := Option.some.inj (hnode.symm.trans hnode')
      obtain rfl : size = size' := Except.ok.inj (hsize.symm.trans hsize')
      have := hfit hdel
      omega
    · intro hno _
      by_contra hlt
      exact hno ⟨hacc, id, node, size, hr, hnode, hsize, hpos, by omega⟩

theorem good_scheduleVolume {id : Nat} {accepted : Bool} (hl : vdc.Located d) (hs : InStep d vdc)
    (h : scheduleVolume d online id accepted vdc = .ok vdc') :
    vdc'.Located d ∧ InStep d vdc' := by
  unfold scheduleVolume at h
  split at h
  · cases h
  · rename_i vol hv
    split at h
    · cases h
    · split at h
      · cases h
      · rename_i hsch
        obtain ⟨node, hn, hfit, hd, rfl⟩ := schedule_ok hsch
        split at h
        · cases h
        · cases h
          obtain rfl : vol.id = id := vdc.volumes.pk_of_find hv
          refine ⟨located_setVolumeState (located_setDevice_shared hl _ _) _ _, ?_⟩
          rw [inStep_setVolumeState, inStep_setDevice_iff hs hn hv hd]
          exact fun _ => hfit

/-! ## The volumes of an instance -/

theorem scheduleInstance_ok {id : Nat} {a : Attempt}
    (h : scheduleInstance d online id a vdc = .ok vdc') :
    ∃ i s i', vdc.instances.find id = some i ∧ hostNodeScheduled d i a = .ok i' ∧
      (vdc.schedulingVolumes id).foldlM (scheduleVolumeDevice d online i' s)
        { vdc with instances := vdc.instances.save i' } = .ok vdc' := by
  unfold scheduleInstance at h
  split at h
  · cases h
  · rename_i i hi
    split at h
    · cases h
    · rename_i s _
      split at h
      · cases h
      · rename_i i' hh
        split at h
        · cases h
        · rename_i hf
          split at h
          · cases h
          · cases h
            exact ⟨i, s, i', hi, hh, hf⟩

theorem hostNodeScheduled_ok {a : Attempt} {i' : InstanceRow}
    (h : hostNodeScheduled d i a = .ok i') :
    i'.id = i.id ∧ i'.terminated = i.terminated ∧ ((d.hostNodeOf i).isSome → i' = i) := by
  unfold hostNodeScheduled at h
  split at h
  · cases h
    exact ⟨rfl, rfl, fun _ => rfl⟩
  · rename_i hn
    split at h
    · cases h
    · cases h
      exact ⟨rfl, rfl, fun hs => absurd hs hn⟩

theorem good_hostNodeScheduled {a : Attempt} {i' : InstanceRow} (hl : vdc.Located d)
    (hs : InStep d vdc) (hi : vdc.instances.find i.id = some i)
    (h : hostNodeScheduled d i a = .ok i') :
    ({ vdc with instances := vdc.instances.save i' } : Vdc).Located d ∧
      InStep d { vdc with instances := vdc.instances.save i' } := by
  obtain ⟨hid, ht, heq⟩ := hostNodeScheduled_ok h
  constructor
  · apply located_save hl hi hid
    intro hsome
    rwa [heq hsome]
  · refine ⟨hs.storageNodes, ?_⟩
    intro host hh
    refine (diskSpaceUsage_save i' hi hid ?_ host.id).trans (hs.hostNodes host hh)
    cases hn : d.hostNodeOf i with
    | none =>
      right
      right
      apply localVolumesSize_eq_zero hl
      intro x hx hxi
      rwa [show x = i from vdc.instances.eq_of_pk hx (vdc.instances.mem_of_find hi) hxi]
    | some n =>
      right
      left
      rw [heq (by rw [hn]; rfl)]
      exact ⟨rfl, rfl⟩

theorem find_hostNodeScheduled {a : Attempt} {i' : InstanceRow}
    (hi : vdc.instances.find i.id = some i) (h : hostNodeScheduled d i a = .ok i') :
    (vdc.instances.save i').find i'.id = some i' := by
  obtain ⟨hid, _⟩ := hostNodeScheduled_ok h
  apply Table.find_save_self
  show vdc.instances.find i'.id = some i
  rw [hid, hi]

theorem good_scheduleInstance {id : Nat} {a : Attempt} (hl : vdc.Located d) (hs : InStep d vdc)
    (h : scheduleInstance d online id a vdc = .ok vdc') :
    vdc'.Located d ∧ InStep d vdc' := by
  obtain ⟨i, s, i', hi, hh, hf⟩ := scheduleInstance_ok h
  obtain rfl : i.id = id := vdc.instances.pk_of_find hi
  obtain ⟨hl', hs'⟩ := good_hostNodeScheduled hl hs hi hh
  have hr : Stored { vdc with instances := vdc.instances.save i' } (vdc.schedulingVolumes i.id) :=
    stored_schedulingVolumes i.id
  exact scheduleVolumeDevices_kept hr hl' hs' (find_hostNodeScheduled hi hh) hf

/-! ## One step -/

theorem run_iff (hl : vdc.Located d) (hs : InStep d vdc) (h : op.run d vdc = .ok vdc') :
    vdc'.Located d ∧ (InStep d vdc' ↔ ¬ op.Overfills d vdc) := by
  cases op with
  | postVolume online r => exact postVolume_iff hl hs h
  | postInstance serviceType host volumes =>
    obtain ⟨hl', hs'⟩ := good_postInstance hl hs h
    exact ⟨hl', iff_of_true hs' id⟩
  | scheduleVolume online id accepted =>
    obtain ⟨hl', hs'⟩ := good_scheduleVolume hl hs h
    exact ⟨hl', iff_of_true hs' fun hno => hno⟩
  | scheduleInstance online id a cleanedUp =>
    obtain ⟨hl', hs'⟩ := good_scheduleInstance hl hs h
    exact ⟨hl', iff_of_true hs' fun hno => hno⟩
  | deleteVolume id =>
    change deleteVolume id vdc = .ok vdc' at h
    unfold deleteVolume at h
    split at h
    · cases h
    · split at h
      · cases h
      · cases h
        exact ⟨located_setVolumeState hl _ _,
          iff_of_true ((inStep_setVolumeState _ _).mpr hs) fun hno => hno⟩
  | updateVolume id state =>
    change updateVolume id state vdc = .ok vdc' at h
    unfold updateVolume at h
    split at h
    · cases h
    · cases h
      have hl' := located_setVolumeState hl id state
      have hs' := (inStep_setVolumeState (d := d) id state).mpr hs
      split_ifs
      · exact ⟨located_destroyVolume hl' id, iff_of_true (inStep_destroyVolume hs' id) fun hno => hno⟩
      · exact ⟨hl', iff_of_true hs' fun hno => hno⟩

theorem run_of_overfills (h : op.Overfills d vdc) :
    ∃ vdc', op.run d vdc = .ok vdc' := by
  cases op with
  | postVolume online r =>
    obtain ⟨hacc, id, node, size, hr, hnode, hsize, hpos, _⟩ := h
    exact ⟨_, (postVolume_node_iff hr).mpr ⟨size, node, _, _, hsize, hnode,
      createVolume_ok_iff.mpr ⟨hacc, hpos, rfl, rfl⟩, rfl⟩⟩
  | _ => exact absurd h id

theorem located_step (hl : vdc.Located d) (hs : InStep d vdc) (op : Op) :
    (op.step d vdc).Located d := by
  unfold Op.step
  cases h : op.run d vdc with
  | ok u => exact (run_iff hl hs h).1
  | error e => exact (good_cleanUp hl hs op).1

theorem kept_iff (hl : vdc.Located d) (hs : InStep d vdc) (op : Op) :
    Kept d vdc op ↔ ¬ op.Overfills d vdc := by
  cases h : op.run d vdc with
  | ok u =>
    have hstep : op.step d vdc = u := by
      unfold Op.step
      rw [h]
    rw [← (run_iff hl hs h).2]
    constructor
    · intro hk
      rw [← hstep]
      exact hk.inStep
    · intro hu
      refine ⟨by rwa [hstep], ?_⟩
      intro e he
      rw [h] at he
      cases he
  | error e =>
    have hstep : op.step d vdc = op.cleanUp vdc := by
      unfold Op.step
      rw [h]
    apply iff_of_true
    · refine ⟨?_, ?_⟩
      · rw [hstep]
        exact (good_cleanUp hl hs op).2
      · intro _ _ id
        rw [hstep]
        exact device_cleanUp op id
    · intro ho
      obtain ⟨u, hu⟩ := run_of_overfills ho
      rw [h] at hu
      cases hu

end

/-- Everything fits after every step of a run, and what does not fit is refused, exactly if
no request names a storage node without room for its volume. -/
theorem placements_run_iff {d : Domain} {vdc : Vdc} {ops : List Op} (hl : vdc.Located d)
    (hs : InStep d vdc) :
    Each (fun vdc op => op.step d vdc) (Kept d) vdc ops ↔
      Each (fun vdc op => op.step d vdc) (fun vdc op => ¬ op.Overfills d vdc) vdc ops :=
  each_congr_of (fun vdc => vdc.Located d ∧ InStep d vdc)
    (fun _ op h hk => ⟨located_step h.1 h.2 op, hk.inStep⟩) (fun _ op h => kept_iff h.1 h.2 op)
    ⟨hl, hs⟩

/-! ## A node of one megabyte -/

def oneStorageNode : Table StorageNodeRow := Table.empty.create (fun id => ⟨id, 1⟩) fun _ => rfl

def oneHostNode : Table HostNodeRow := Table.empty.create (fun id => ⟨id, 1⟩) fun _ => rfl

def smallDomain : Domain :=
  ⟨oneStorageNode, oneHostNode, fun _ => some .leastUsage, 8, 1, default⟩

def emptyVdc : Vdc := ⟨Table.empty, Table.empty⟩

def namedRequest (size : RequestedSize) : VolumeRequest := ⟨size, some 1, "std".toList, true⟩

/-- An instance with a local and a shared volume, a volume that fits beside it, and one
that does not. -/
def fittingRun : List Op :=
  [.postInstance "std".toList none [⟨1048576, "std".toList, true⟩, ⟨524288, "std".toList, false⟩],
    .scheduleInstance (fun _ => true) 1 ⟨some 1, true⟩ true,
    .postVolume (fun _ => true) (namedRequest (.backupObject 524288)),
    .updateVolume 3 .available, .deleteVolume 3, .updateVolume 3 .deleted,
    .scheduleVolume (fun _ => true) 3 true]

theorem located_emptyVdc : emptyVdc.Located smallDomain := by
  intro v hv
  cases hv

theorem inStep_emptyVdc : InStep smallDomain emptyVdc := by
  constructor
  · decide +kernel
  · decide +kernel

theorem placements_run_fitting :
    Each (fun vdc op => op.step smallDomain vdc) (Kept smallDomain) emptyVdc fittingRun := by
  apply (placements_run_iff located_emptyVdc inStep_emptyVdc).mpr
  refine ⟨id, id, ?_, id, id, id, id, trivial⟩
  rintro ⟨_, id, node, size, hid, hnode, hsize, _, hlt⟩
  cases hid
  cases hnode
  cases hsize
  revert hlt
  decide +kernel

theorem overfilled_storage_node :
    ¬ ∀ (d : Domain) (vdc : Vdc) (ops : List Op), vdc.Located d → InStep d vdc →
      Each (fun vdc op => op.step d vdc) (Kept d) vdc ops := by
  intro h
  have hk := (h smallDomain emptyVdc
    [.postVolume (fun _ => true) (namedRequest (.volumeSize 2))] located_emptyVdc
    inStep_emptyVdc).1.inStep.storageNodes ⟨1, 1⟩ List.mem_cons_self
  revert hk
  decide +kernel

end VolumePlacement

end WakameVdc
