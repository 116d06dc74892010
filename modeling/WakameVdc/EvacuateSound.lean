import WakameVdc.Evacuate

/-!
# What an evacuation leaves behind

Each turn of the loop touches the rows of its own instance only. So the fate of
an instance is decided in its turn, and the verdict on a whole call is the
verdict on its turns.
-/

namespace WakameVdc

open Lib

namespace Scheduler

def Fits (vdc : Vdc) (host : HostNodeRow) (vol : VolumeRow) : Prop :=
  ¬ (vol.isLocal ∧ vdc.availableDiskSpace host < vol.size)

instance (vdc : Vdc) (host : HostNodeRow) (vol : VolumeRow) : Decidable (Fits vdc host vol) :=
  inferInstanceAs (Decidable (¬ _))

/-- The volumes the loop saves before one does not fit. -/
def fitting (vdc : Vdc) (host : HostNodeRow) (vols : List VolumeRow) : List VolumeRow :=
  vols.takeWhile fun v => decide (Fits vdc host v)

def setTargets (vdc : Vdc) (vols : List VolumeRow) : Vdc :=
  vols.foldl (fun vdc v => vdc.setVolumeState v.id v.target) vdc

/-- Rewriting the row of an instance that is not among the rows changes nothing. -/
theorem map_modify_of_not_mem {rows : List InstanceRow} {i : Nat} (g : InstanceRow → InstanceRow)
    (h : i ∉ rows.map InstanceRow.id) : (rows.map fun r => if r.id = i then g r else r) = rows := by
  conv_rhs => rw [← List.map_id rows]
  refine List.map_congr_left fun x hx => if_neg fun hxi => h ?_
  rw [← hxi]
  exact List.mem_map_of_mem hx

/-! ## The volumes -/

theorem setVolumeState_rows (vdc : Vdc) (v : Nat) (state : VolumeState) (i : Nat) :
    (vdc.setVolumeState v state).localVolumeUsage i = vdc.localVolumeUsage i := by
  unfold Vdc.localVolumeUsage Vdc.setVolumeState Table.modify Table.update
  dsimp only
  rw [List.filter_map, List.map_map]
  have hp : ((fun r : VolumeRow => r.localInstanceId == some i) ∘ fun r =>
      if Row.pk r = v then { r with state := state } else r) =
        fun r : VolumeRow => r.localInstanceId == some i := by
    funext r
    simp only [Function.comp]
    split_ifs <;> rfl
  have hs : (VolumeRow.size ∘ fun r : VolumeRow =>
      if Row.pk r = v then { r with state := state } else r) = VolumeRow.size := by
    funext r
    simp only [Function.comp]
    split_ifs <;> rfl
  rw [hp, hs]

theorem setVolumeState_available (vdc : Vdc) (v : Nat) (state : VolumeState) (host : HostNodeRow) :
    (vdc.setVolumeState v state).availableDiskSpace host = vdc.availableDiskSpace host := by
  unfold Vdc.availableDiskSpace Vdc.diskSpaceUsage
  simp only [setVolumeState_rows]
  rfl

theorem fits_setVolumeState (vdc : Vdc) (v : Nat) (state : VolumeState) (host : HostNodeRow)
    (vol : VolumeRow) : Fits (vdc.setVolumeState v state) host vol ↔ Fits vdc host vol := by
  unfold Fits
  rw [setVolumeState_available]

theorem fitting_cons_of_fits {vdc : Vdc} {host : HostNodeRow} {vol : VolumeRow}
    (vols : List VolumeRow) (h : Fits vdc host vol) :
    fitting vdc host (vol :: vols) = vol :: fitting vdc host vols := by
  unfold fitting
  rw [List.takeWhile_cons, if_pos (decide_eq_true h)]

theorem fitting_cons_of_not {vdc : Vdc} {host : HostNodeRow} {vol : VolumeRow}
    (vols : List VolumeRow) (h : ¬ Fits vdc host vol) : fitting vdc host (vol :: vols) = [] := by
  unfold fitting
  rw [List.takeWhile_cons, if_neg]
  rw [decide_eq_true_eq]
  exact h

/-- The loop saves the volumes up to the first that does not fit, and is done
when there is none. -/
theorem migrateVolumes_ok {env : Env} {host : HostNodeRow} {vdc vdc' : Vdc} {vols : List VolumeRow}
    {done : Bool} (h : migrateVolumes env host vdc vols = .ok (vdc', done)) :
    vdc' = setTargets vdc (fitting vdc host vols) ∧ (done = true ↔ ∀ v ∈ vols, Fits vdc host v) := by
  induction vols generalizing vdc with
  | nil =>
    cases h
    exact ⟨rfl, by simp⟩
  | cons vol vols ih =>
    unfold migrateVolumes at h
    split at h
    · rename_i hno
      have hfit : ¬ Fits vdc host vol := not_not.mpr hno
      cases h
      refine ⟨?_, ?_⟩
      · rw [fitting_cons_of_not vols hfit]
        rfl
      · refine iff_of_false Bool.false_ne_true fun hall => ?_
        exact hfit (hall vol (List.mem_cons_self ..))
    · rename_i hno
      have hfit : Fits vdc host vol := hno
      split at h
      · cases h
      · split at h
        · obtain ⟨h1, h2⟩ := ih h
          have hsame : fitting (vdc.setVolumeState vol.id vol.target) host vols =
              fitting vdc host vols := by
            unfold fitting
            simp only [fits_setVolumeState]
          simp only [fits_setVolumeState] at h2
          refine ⟨?_, ?_⟩
          · rw [h1, hsame, fitting_cons_of_fits vols hfit]
            rfl
          · rw [h2, List.forall_mem_cons]
            exact (and_iff_right hfit).symm
        · cases h

theorem setTargets_frame (vdc : Vdc) (vols : List VolumeRow) :
    (setTargets vdc vols).instances = vdc.instances ∧
      (setTargets vdc vols).hostNodes = vdc.hostNodes := by
  induction vols generalizing vdc with
  | nil => exact ⟨rfl, rfl⟩
  | cons vol vols ih => exact ih (vdc.setVolumeState vol.id vol.target)

theorem find_setVolumeState (vdc : Vdc) (v : Nat) (state : VolumeState) (k : Nat) :
    (vdc.setVolumeState v state).volumes.find k =
      if k = v then (vdc.volumes.find k).map fun r => { r with state := state }
      else vdc.volumes.find k :=
  vdc.volumes.find_modify v (fun r => { r with state := state }) (fun _ => rfl) k

theorem find_setTargets_ne {vdc : Vdc} {vols : List VolumeRow} {k : Nat}
    (h : k ∉ vols.map VolumeRow.id) : (setTargets vdc vols).volumes.find k = vdc.volumes.find k := by
  induction vols generalizing vdc with
  | nil => rfl
  | cons vol vols ih =>
    rw [List.map_cons, List.mem_cons, not_or] at h
    have hstep := @ih (vdc.setVolumeState vol.id vol.target) h.2
    rw [find_setVolumeState, if_neg h.1] at hstep
    exact hstep

theorem find_setTargets {vdc : Vdc} {vols : List VolumeRow} (hnd : (vols.map VolumeRow.id).Nodup)
    {v : VolumeRow} (hv : v ∈ vols) :
    (setTargets vdc vols).volumes.find v.id =
      (vdc.volumes.find v.id).map fun r => { r with state := v.target } := by
  induction vols generalizing vdc with
  | nil => cases hv
  | cons vol vols ih =>
    rw [List.map_cons, List.nodup_cons] at hnd
    rcases List.mem_cons.mp hv with rfl | hv
    · have hstep := @find_setTargets_ne (vdc.setVolumeState v.id v.target) vols v.id hnd.1
      rw [find_setVolumeState, if_pos rfl] at hstep
      exact hstep
    · have hne : v.id ≠ vol.id := by
        intro he
        exact hnd.1 (he ▸ List.mem_map_of_mem hv)
      have hstep := @ih (vdc.setVolumeState vol.id vol.target) hnd.2 hv
      rw [find_setVolumeState, if_neg hne] at hstep
      exact hstep

theorem aliveVolumes_nodup (vdc : Vdc) (i : Nat) : ((vdc.aliveVolumes i).map VolumeRow.id).Nodup :=
  vdc.volumes.nodup_pk.sublist (List.filter_sublist.map _)

theorem mem_aliveVolumes {vdc : Vdc} {i : Nat} {v : VolumeRow} (h : v ∈ vdc.aliveVolumes i) :
    vdc.volumes.find v.id = some v ∧ v.instanceId = some i := by
  obtain ⟨hmem, hv⟩ := List.mem_filter.mp h
  refine ⟨vdc.volumes.find_of_mem hmem, ?_⟩
  rw [Bool.and_eq_true, beq_iff_eq] at hv
  exact hv.1

theorem fitting_sublist (vdc : Vdc) (host : HostNodeRow) (vols : List VolumeRow) :
    List.Sublist (fitting vdc host vols) vols := List.takeWhile_sublist _

/-! ## Frames -/

/-- Nothing about instance `i` differs between the two points of a call. -/
structure SameFor (i : Nat) (p q : Progress) : Prop where
  inst : q.vdc.instances.find i = p.vdc.instances.find i
  volumes : ∀ k row, row.instanceId = some i →
    (q.vdc.volumes.find k = some row ↔ p.vdc.volumes.find k = some row)
  cleanup : SchedulerJob.cleanup i ∈ q.jobs ↔ SchedulerJob.cleanup i ∈ p.jobs
  failed : i ∈ q.failed ↔ i ∈ p.failed
  scheduled : i ∈ q.scheduled ↔ i ∈ p.scheduled

theorem SameFor.refl (i : Nat) (p : Progress) : SameFor i p p :=
  ⟨rfl, fun _ _ _ => Iff.rfl, Iff.rfl, Iff.rfl, Iff.rfl⟩

theorem SameFor.trans {i : Nat} {p q r : Progress} (h₁ : SameFor i p q) (h₂ : SameFor i q r) :
    SameFor i p r where
  inst := h₂.inst.trans h₁.inst
  volumes k row ho := (h₂.volumes k row ho).trans (h₁.volumes k row ho)
  cleanup := h₂.cleanup.trans h₁.cleanup
  failed := h₂.failed.trans h₁.failed
  scheduled := h₂.scheduled.trans h₁.scheduled

/-- The instance's rows are as they were and no cleanup is submitted. -/
structure Untouched (i : Nat) (vdc : Vdc) (q : Progress) : Prop where
  inst : (q.vdc.instances.find i).map (fun r => (r.hostNodeId, r.state)) =
    (vdc.instances.find i).map fun r => (r.hostNodeId, r.state)
  volumes : ∀ k row, vdc.volumes.find k = some row → row.instanceId = some i →
    (q.vdc.volumes.find k).map VolumeRow.state = some row.state
  cleanup : SchedulerJob.cleanup i ∉ q.jobs

/-- The instance is stored on another host, waiting to be started there. -/
def Moved (i src : Nat) (vdc : Vdc) (q : Progress) : Prop :=
  ∃ row row', vdc.instances.find i = some row ∧ q.vdc.instances.find i = some row' ∧
    (∃ h, row'.hostNodeId = some h ∧ h ≠ src) ∧
    row'.state = if row.state = .halted then .halted else .pending

/-! ## One turn -/

inductive TurnStep (env : Env) (p : Progress) (inst : InstanceRow) : Progress → Prop
  | skipped (hha : inst.haEnabled = false) :
      TurnStep env p inst { p with
        vdc := p.vdc.setInstanceState inst.id .halted, skipped := p.skipped ++ [inst.id] }
  | refused (hha : inst.haEnabled = true)
      (hs : env.haSchedule p.vdc inst = .error .hostNodeSchedulingError) :
      TurnStep env p inst { p with
        jobs := if p.vdc.hostOnline inst then p.jobs ++ [.cleanup inst.id] else p.jobs
        failed := p.failed ++ [inst.id] }
  | full (host : HostNodeRow) (vdc : Vdc) (hha : inst.haEnabled = true)
      (hs : env.haSchedule p.vdc inst = .ok host)
      (hvdc : vdc = p.vdc.setInstanceHost inst.id host.id)
      (hno : ¬ ∀ v ∈ vdc.aliveVolumes inst.id, Fits vdc host v) :
      TurnStep env p inst { p with
        vdc := setTargets vdc (fitting vdc host (vdc.aliveVolumes inst.id))
        jobs := if p.vdc.hostOnline inst then p.jobs ++ [.cleanup inst.id] else p.jobs
        failed := p.failed ++ [inst.id] }
  | moved (host : HostNodeRow) (vdc : Vdc) (jobs : List SchedulerJob) (hha : inst.haEnabled = true)
      (hs : env.haSchedule p.vdc inst = .ok host)
      (hvdc : vdc = p.vdc.setInstanceHost inst.id host.id)
      (hfit : ∀ v ∈ vdc.aliveVolumes inst.id, Fits vdc host v)
      (hjobs : ∀ j, SchedulerJob.cleanup j ∈ jobs → SchedulerJob.cleanup j ∈
        if p.vdc.hostOnline inst then p.jobs ++ [.cleanup inst.id] else p.jobs)
      (hjobs' : ∀ j, SchedulerJob.cleanup j ∈ p.jobs → SchedulerJob.cleanup j ∈ jobs) :
      TurnStep env p inst { p with
        vdc := (setTargets vdc (fitting vdc host (vdc.aliveVolumes inst.id))).setInstanceState
          inst.id (if inst.state = .halted then .halted else .pending)
        jobs := jobs
        scheduled := p.scheduled ++ [inst.id] }

theorem cleanup_append_boot {jobs boot : List SchedulerJob} {host : HostNodeRow} {inst : InstanceRow}
    (hb : bootJobs host inst = .ok boot) (j : Nat) :
    SchedulerJob.cleanup j ∈ jobs ++ boot ++ [.instanceScheduled inst.id] ↔
      SchedulerJob.cleanup j ∈ jobs := by
  unfold bootJobs at hb
  split at hb
  · cases hb; simp
  · cases hb; simp
  · cases hb

theorem turn_step {env : Env} {p p' : Progress} {inst : InstanceRow}
    (h : turn env p inst = .ok p') : TurnStep env p inst p' := by
  unfold turn at h
  by_cases hha : inst.haEnabled = false
  · rw [if_pos hha] at h
    cases h
    exact .skipped hha
  · rw [if_neg hha] at h
    rw [Bool.not_eq_false] at hha
    unfold applyHaScheduler at h
    cases hs : env.haSchedule p.vdc inst with
    | error e =>
      rw [hs] at h
      cases e with
      | hostNodeSchedulingError =>
        cases h
        exact .refused hha hs
      | other => cases h
    | ok host =>
      rw [hs] at h
      simp only [bind, Except.bind] at h
      cases hm : migrateVolumes env host (p.vdc.setInstanceHost inst.id host.id)
          ((p.vdc.setInstanceHost inst.id host.id).aliveVolumes inst.id) with
      | error e => rw [hm] at h; cases h
      | ok r =>
        obtain ⟨vdc', done⟩ := r
        rw [hm] at h
        obtain ⟨rfl, hdone⟩ := migrateVolumes_ok hm
        cases done with
        | false =>
          simp only [if_true, pure, Except.pure, Bool.false_eq_true, if_false] at h
          cases h
          exact .full host _ hha hs rfl fun hall => Bool.false_ne_true (hdone.mpr hall)
        | true =>
          have hfit := hdone.mp rfl
          by_cases hst : inst.state = .halted
          · simp only [Bool.true_eq_false, if_false, if_pos hst, pure, Except.pure, if_true] at h
            cases h
            have hstep := @TurnStep.moved env p inst host _
              ((if p.vdc.hostOnline inst then p.jobs ++ [.cleanup inst.id] else p.jobs) ++
                [.instanceScheduled inst.id]) hha hs rfl hfit (by simp) (by
                  intro j hj
                  split_ifs <;> simp [hj])
            rw [if_pos hst] at hstep
            exact hstep
          · simp only [Bool.true_eq_false, if_false, if_neg hst, pure, Except.pure] at h
            cases hb : bootJobs host inst with
            | error e => rw [hb] at h; cases h
            | ok boot =>
              rw [hb] at h
              cases h
              have hstep := @TurnStep.moved env p inst host _
                ((if p.vdc.hostOnline inst then p.jobs ++ [.cleanup inst.id] else p.jobs) ++ boot ++
                  [.instanceScheduled inst.id]) hha hs rfl hfit
                (fun j hj => (cleanup_append_boot hb j).mp hj) (by
                  intro j hj
                  rw [cleanup_append_boot hb]
                  split_ifs <;> simp [hj])
              rw [if_neg hst] at hstep
              exact hstep

end Scheduler

end WakameVdc
