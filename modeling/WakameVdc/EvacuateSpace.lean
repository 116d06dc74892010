import WakameVdc.EvacuateRun

/-!
# The disk space of a moved instance

`apply_ha_scheduler` stores the instance on the target first and checks its volumes one by one
afterwards, so the space that is left there already lacks all of them.
-/

namespace WakameVdc

open Lib

namespace Scheduler

/-! ## The usage of a host -/

section Usage

variable (g : Nat → Int) (host : Nat)

def hostSum (rows : List InstanceRow) : Int :=
  ((rows.filter fun i => i.hostNodeId == some host && !i.terminated).map fun i => g i.id).sum

theorem diskSpaceUsage_eq (vdc : Vdc) :
    vdc.diskSpaceUsage host = hostSum vdc.localVolumeUsage host vdc.instances.rows := rfl

def added (row : Option InstanceRow) : Int :=
  match row with
  | some row => if row.terminated = false ∧ row.hostNodeId ≠ some host then g row.id else 0
  | none => 0

theorem hostSum_cons (r : InstanceRow) (rows : List InstanceRow) :
    hostSum g host (r :: rows) =
      (if r.hostNodeId = some host ∧ r.terminated = false then g r.id else 0) +
        hostSum g host rows := by
  unfold hostSum
  by_cases h : r.hostNodeId = some host ∧ r.terminated = false
  · simp [h]
  · rw [if_neg h, List.filter_cons_of_neg (by simpa using h)]
    simp

theorem hostSum_assign {rows : List InstanceRow} (hnd : (rows.map InstanceRow.id).Nodup) (i : Nat) :
    hostSum g host (rows.map fun r => if r.id = i then { r with hostNodeId := some host } else r) =
      hostSum g host rows + added g host (rows.find? fun r => r.id == i) := by
  induction rows with
  | nil => simp [hostSum, added]
  | cons r rows ih =>
    rw [List.map_cons, List.nodup_cons] at hnd
    rw [List.map_cons, hostSum_cons, hostSum_cons]
    by_cases hr : r.id = i
    · rw [map_modify_of_not_mem _ (hr ▸ hnd.1), List.find?_cons_of_pos (by simpa using hr)]
      by_cases hdead : r.terminated = true
      · simp [added, hr, hdead]
      · by_cases hhost : r.hostNodeId = some host
        · simp [added, hr, hdead, hhost]
        · simp [added, hr, hdead, hhost]
          omega
    · rw [ih hnd.2, List.find?_cons_of_neg (by simpa using hr), if_neg hr]
      omega

end Usage

namespace Vdc

/-- `instance.local_volumes` of an alive instance that is not on the host yet. -/
def moving (vdc : Vdc) (i host : Nat) : Int :=
  added vdc.localVolumeUsage host (vdc.instances.find i)

theorem availableDiskSpace_setInstanceHost (vdc : Vdc) (i : Nat) (host : HostNodeRow) :
    (vdc.setInstanceHost i host.id).availableDiskSpace host =
      vdc.availableDiskSpace host - vdc.moving i host.id := by
  have hsum := hostSum_assign vdc.localVolumeUsage host.id vdc.instances.nodup_pk i
  unfold Vdc.availableDiskSpace moving
  rw [diskSpaceUsage_eq, diskSpaceUsage_eq]
  have hfind : vdc.instances.find i = vdc.instances.rows.find? fun r => r.id == i := rfl
  have hrows : (vdc.setInstanceHost i host.id).instances.rows =
      vdc.instances.rows.map fun r => if r.id = i then { r with hostNodeId := some host.id } else r :=
    rfl
  have hsame : (vdc.setInstanceHost i host.id).localVolumeUsage = vdc.localVolumeUsage := rfl
  rw [hrows, hsame, hsum, hfind]
  omega

end Vdc

/-! ## The checks -/

def checked (vdc : Vdc) (i : Nat) : List VolumeRow :=
  (vdc.aliveVolumes i).filter VolumeRow.isLocal

/-- The loop over the volumes raises nothing but for lack of space. -/
def SavesAll (env : Env) : Vdc → List VolumeRow → Prop
  | _, [] => True
  | vdc, vol :: vols =>
    ((vol.target ≠ vol.state → env.volumeValid vdc { vol with state := vol.target } = true) ∧
      vol.hasStorageNode = true) ∧
    SavesAll env (vdc.setVolumeState vol.id vol.target) vols

def Completes (env : Env) (vdc : Vdc) (inst : InstanceRow) (host : HostNodeRow) : Prop :=
  SavesAll env (vdc.setInstanceHost inst.id host.id) (vdc.aliveVolumes inst.id) ∧
    (inst.state = .halted ∨ inst.bootDevType ≠ .unknown)

def Accepts (env : Env) (vdc : Vdc) (jobs : List SchedulerJob) (inst : InstanceRow) : Prop :=
  ∃ vdc' jobs', applyHaScheduler env vdc jobs inst = .ok (vdc', jobs', true)

theorem migrateVolumes_iff {env : Env} {host : HostNodeRow} {vdc : Vdc} {vols : List VolumeRow} :
    (∃ vdc', migrateVolumes env host vdc vols = .ok (vdc', true)) ↔
      (∀ v ∈ vols, Fits vdc host v) ∧ SavesAll env vdc vols := by
  induction vols generalizing vdc with
  | nil => simp [migrateVolumes, SavesAll]
  | cons vol vols ih =>
    rw [List.forall_mem_cons]
    unfold migrateVolumes SavesAll
    by_cases hfit : Fits vdc host vol
    · rw [if_neg hfit]
      by_cases hvalid : vol.target ≠ vol.state ∧
          env.volumeValid vdc { vol with state := vol.target } = false
      · rw [if_pos hvalid]
        refine iff_of_false (by simp) ?_
        rintro ⟨-, ⟨h, -⟩, -⟩
        simp [h hvalid.1] at hvalid
      · rw [if_neg hvalid]
        by_cases hnode : vol.hasStorageNode = true
        · rw [if_pos hnode, ih]
          simp only [fits_setVolumeState]
          have hok : vol.target ≠ vol.state →
              env.volumeValid vdc { vol with state := vol.target } = true := by
            intro hne
            simpa [hne] using hvalid
          exact ⟨fun h => ⟨⟨hfit, h.1⟩, ⟨hok, hnode⟩, h.2⟩, fun h => ⟨h.1.2, h.2.2⟩⟩
        · rw [if_neg hnode]
          refine iff_of_false (by simp) ?_
          rintro ⟨-, ⟨-, h⟩, -⟩
          exact hnode h
    · have hno : vol.isLocal ∧ vdc.availableDiskSpace host < vol.size := not_not.mp hfit
      rw [if_pos hno]
      exact iff_of_false (by simp) fun h => hfit h.1.1

theorem fits_moved_iff (vdc : Vdc) (inst : InstanceRow) (host : HostNodeRow) :
    (∀ v ∈ vdc.aliveVolumes inst.id, Fits (vdc.setInstanceHost inst.id host.id) host v) ↔
      ∀ v ∈ checked vdc inst.id,
        vdc.moving inst.id host.id + v.size ≤ vdc.availableDiskSpace host := by
  unfold Fits checked
  rw [Vdc.availableDiskSpace_setInstanceHost]
  constructor
  · intro h v hv
    obtain ⟨hm, hlocal⟩ := List.mem_filter.mp hv
    have := h v hm
    simp only [hlocal, true_and] at this
    omega
  · rintro h v hv ⟨hlocal, hlt⟩
    have := h v (List.mem_filter.mpr ⟨hv, hlocal⟩)
    omega

/-- The end of the call, once all volumes are saved. -/
theorem applied_iff (vdc : Vdc) (jobs : List SchedulerJob) (inst : InstanceRow)
    (host : HostNodeRow) :
    (∃ vdc' jobs', (if inst.state = .halted then
        Except.ok (vdc.setInstanceState inst.id .halted, jobs ++ [.instanceScheduled inst.id], true)
      else do
        let boot ← bootJobs host inst
        return (vdc.setInstanceState inst.id .pending, jobs ++ boot ++ [.instanceScheduled inst.id],
          true)) = .ok (vdc', jobs', true)) ↔ inst.state = .halted ∨ inst.bootDevType ≠ .unknown := by
  by_cases hhalted : inst.state = .halted
  · simp [hhalted]
  · cases hboot : inst.bootDevType with
    | san => simp [hhalted, bootJobs, hboot, bind, Except.bind, pure, Except.pure]
    | localDev => simp [hhalted, bootJobs, hboot, bind, Except.bind, pure, Except.pure]
    | unknown => simp [hhalted, bootJobs, hboot, bind, Except.bind]

/-- A move is accepted when, besides all that the instance takes, each of its volumes fits once
more. -/
theorem accepts_iff {env : Env} {vdc : Vdc} {inst : InstanceRow} {host : HostNodeRow}
    (hpick : env.haSchedule vdc inst = .ok host) (jobs : List SchedulerJob) :
    Accepts env vdc jobs inst ↔ Completes env vdc inst host ∧
      ∀ v ∈ checked vdc inst.id,
        vdc.moving inst.id host.id + v.size ≤ vdc.availableDiskSpace host := by
  rw [← fits_moved_iff]
  have hmigrate : (∃ vdc', migrateVolumes env host (vdc.setInstanceHost inst.id host.id)
      (vdc.aliveVolumes inst.id) = .ok (vdc', true)) ↔ _ := migrateVolumes_iff
  have hvolumes : (vdc.setInstanceHost inst.id host.id).aliveVolumes inst.id =
      vdc.aliveVolumes inst.id := rfl
  unfold Accepts applyHaScheduler Completes
  simp only [hpick, hvolumes]
  cases hrun : migrateVolumes env host (vdc.setInstanceHost inst.id host.id)
      (vdc.aliveVolumes inst.id) with
  | error e =>
    refine iff_of_false (by simp [bind, Except.bind]) ?_
    rintro ⟨⟨hsaves, -⟩, hfits⟩
    obtain ⟨vdc', h⟩ := hmigrate.mpr ⟨hfits, hsaves⟩
    simp [hrun] at h
  | ok result =>
    obtain ⟨vdc', done⟩ := result
    cases done with
    | false =>
      refine iff_of_false (by simp [bind, Except.bind, pure, Except.pure]) ?_
      rintro ⟨⟨hsaves, -⟩, hfits⟩
      obtain ⟨vdc'', h⟩ := hmigrate.mpr ⟨hfits, hsaves⟩
      simp [hrun] at h
    | true =>
      obtain ⟨hfits, hsaves⟩ := hmigrate.mp ⟨vdc', hrun⟩
      exact (applied_iff vdc' jobs inst host).trans
        ⟨fun h => ⟨⟨hsaves, h⟩, hfits⟩, fun h => h.1.2⟩

/-- The free space decides about a move just when a move that it allows has no other trouble and
leaves room for each of the volumes a second time, and a move that it does not allow has other
trouble or a volume that does not fit besides all of them. -/
theorem move_exact_iff {env : Env} {vdc : Vdc} {inst : InstanceRow} {host : HostNodeRow}
    (hpick : env.haSchedule vdc inst = .ok host) (jobs : List SchedulerJob) :
    (Accepts env vdc jobs inst ↔ vdc.localVolumeUsage inst.id ≤ vdc.availableDiskSpace host) ↔
      (vdc.localVolumeUsage inst.id ≤ vdc.availableDiskSpace host →
        Completes env vdc inst host ∧ ∀ v ∈ checked vdc inst.id,
          vdc.moving inst.id host.id + v.size ≤ vdc.availableDiskSpace host) ∧
      (vdc.availableDiskSpace host < vdc.localVolumeUsage inst.id →
        ¬ Completes env vdc inst host ∨ ∃ v ∈ checked vdc inst.id,
          vdc.availableDiskSpace host < vdc.moving inst.id host.id + v.size) := by
  rw [accepts_iff hpick]
  by_cases hroom : vdc.localVolumeUsage inst.id ≤ vdc.availableDiskSpace host
  · simp only [hroom, iff_true, forall_const, not_lt.mpr hroom, false_imp_iff, and_true]
  · simp only [hroom, iff_false, false_imp_iff, true_and, not_le.mp hroom, forall_const, not_and_or,
      not_forall, not_le, exists_prop]

/-- The source of `twoHosts` being evacuated. -/
def evacuated (diskSpaceMb : Int) : Vdc := (twoHosts diskSpaceMb).setSchedulingEnabled 1 false

def secondHost (diskSpaceMb : Int) : HostNodeRow := ⟨2, true, true, diskSpaceMb⟩

def movedInstance : InstanceRow := ⟨1, some 1, .running, true, false, .localDev⟩

theorem move_exact_twice :
    Accepts firstOnline (evacuated 2) [] movedInstance ↔
      (evacuated 2).localVolumeUsage 1 ≤ (evacuated 2).availableDiskSpace (secondHost 2) := by
  have hpick : firstOnline.haSchedule (evacuated 2) movedInstance = .ok (secondHost 2) := rfl
  refine (move_exact_iff hpick []).mpr ⟨fun _ => ⟨?_, by decide⟩, fun h => absurd h (by decide)⟩
  exact ⟨⟨⟨fun _ => rfl, rfl⟩, trivial⟩, .inr (by decide)⟩

/-- The volume of 1 MiB is not moved to a host that has 1 MiB. -/
theorem move_needs_twice :
    firstOnline.haSchedule (evacuated 1) movedInstance = .ok (secondHost 1) ∧
      (evacuated 1).localVolumeUsage 1 = 1048576 ∧
      (evacuated 1).availableDiskSpace (secondHost 1) = 1048576 ∧
      ¬ Accepts firstOnline (evacuated 1) [] movedInstance := by
  refine ⟨rfl, by decide, by decide, ?_⟩
  rintro ⟨vdc', jobs', h⟩
  have hdone : (applyHaScheduler firstOnline (evacuated 1) [] movedInstance).map
      (fun r => r.2.2) = .ok false := rfl
  rw [h] at hdone
  cases hdone

/-! ## An instance that comes from another host -/

theorem moving_of_alive {vdc : Vdc} {i host : Nat} {row : InstanceRow}
    (hrow : vdc.instances.find i = some row) (halive : row.terminated = false)
    (hhost : row.hostNodeId ≠ some host) : vdc.moving i host = vdc.localVolumeUsage i := by
  have hid : row.id = i := vdc.instances.pk_of_find hrow
  simp [Vdc.moving, added, hrow, halive, hhost, hid]

/-- If nothing else stops the move of an alive instance, a free space between the size of its
volumes and that size with one of them again is where the check goes wrong. -/
theorem moved_refused_iff {env : Env} {vdc : Vdc} {inst row : InstanceRow} {host : HostNodeRow}
    (hpick : env.haSchedule vdc inst = .ok host) (hcompletes : Completes env vdc inst host)
    (hrow : vdc.instances.find inst.id = some row) (halive : row.terminated = false)
    (hhost : row.hostNodeId ≠ some host.id) (jobs : List SchedulerJob) :
    ¬ Accepts env vdc jobs inst ↔ ∃ v ∈ checked vdc inst.id,
      vdc.availableDiskSpace host < vdc.localVolumeUsage inst.id + v.size := by
  rw [accepts_iff hpick, moving_of_alive hrow halive hhost]
  simp only [hcompletes, true_and, not_forall, not_le, exists_prop]

end Scheduler

end WakameVdc
