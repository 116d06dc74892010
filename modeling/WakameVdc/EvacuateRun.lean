import WakameVdc.EvacuateSound

/-!
# The verdict on an evacuation

The failed instances of a call are left as they were exactly when every turn
meets `TurnOk` in the state it starts from. The scheduled ones always are where
they should be.
-/

namespace WakameVdc

open Lib

namespace Scheduler

/-- A turn that leaves its instance alone if it fails: the scheduler fails and
the source is not online, or it finds a host and every volume fits there, or one
does not but nothing saved before made a difference. -/
def TurnOk (env : Env) (p : Progress) (inst : InstanceRow) : Prop :=
  inst.haEnabled = true →
    match env.haSchedule p.vdc inst with
    | .error .hostNodeSchedulingError => p.vdc.hostOnline inst = false
    | .error .other => True
    | .ok host =>
      let vdc := p.vdc.setInstanceHost inst.id host.id
      (∀ v ∈ vdc.aliveVolumes inst.id, Fits vdc host v) ∨
        p.vdc.hostOnline inst = false ∧ inst.hostNodeId = some host.id ∧
          ∀ v ∈ fitting vdc host (vdc.aliveVolumes inst.id), v.state = v.target

/-- The loop's step; a turn that raises ends the call. -/
def advance (env : Env) (p : Progress) (inst : InstanceRow) : Progress :=
  match turn env p inst with
  | .ok p => p
  | .error _ => p

/-- The HA scheduler picks from `HostNode.online_nodes`. -/
def PicksOnline (env : Env) : Prop :=
  ∀ vdc inst host, env.haSchedule vdc inst = .ok host → host ∈ vdc.onlineNodes

/-- What a returning call promises for the two lists it returns. -/
structure Evacuated (env : Env) (src : Nat) (vdc : Vdc) (q : Progress) : Prop where
  failed : ∀ i ∈ q.failed, Untouched i vdc q
  scheduled : PicksOnline env → ∀ i ∈ q.scheduled, Moved i src vdc q

/-! ## One turn -/

theorem find_setInstanceHost (vdc : Vdc) (i h k : Nat) :
    (vdc.setInstanceHost i h).instances.find k =
      if k = i then (vdc.instances.find k).map fun r => { r with hostNodeId := some h }
      else vdc.instances.find k :=
  vdc.instances.find_modify i (fun r => { r with hostNodeId := some h }) (fun _ => rfl) k

theorem find_setInstanceState (vdc : Vdc) (i : Nat) (state : InstanceState) (k : Nat) :
    (vdc.setInstanceState i state).instances.find k =
      if k = i then (vdc.instances.find k).map fun r => { r with state := state }
      else vdc.instances.find k :=
  vdc.instances.find_modify i (fun r => { r with state := state }) (fun _ => rfl) k

theorem mem_fitting {vdc : Vdc} {host : HostNodeRow} {i : Nat} {v : VolumeRow}
    (h : v ∈ fitting vdc host (vdc.aliveVolumes i)) :
    vdc.volumes.find v.id = some v ∧ v.instanceId = some i :=
  mem_aliveVolumes ((fitting_sublist vdc host _).mem h)

theorem fitting_nodup (vdc : Vdc) (host : HostNodeRow) (i : Nat) :
    ((fitting vdc host (vdc.aliveVolumes i)).map VolumeRow.id).Nodup :=
  (aliveVolumes_nodup vdc i).sublist ((fitting_sublist vdc host _).map _)

theorem setTargets_other (vdc : Vdc) (host : HostNodeRow) {i k : Nat} {row : VolumeRow}
    (ho : row.instanceId ≠ some i) :
    (setTargets vdc (fitting vdc host (vdc.aliveVolumes i))).volumes.find k = some row ↔
      vdc.volumes.find k = some row := by
  by_cases hmem : k ∈ (fitting vdc host (vdc.aliveVolumes i)).map VolumeRow.id
  · obtain ⟨v, hv, rfl⟩ := List.mem_map.mp hmem
    obtain ⟨hf, hi⟩ := mem_fitting hv
    rw [find_setTargets (fitting_nodup vdc host i) hv, hf]
    refine iff_of_false ?_ ?_
    · intro h
      rw [← Option.some.inj h] at ho
      exact ho hi
    · intro h
      rw [← Option.some.inj h] at ho
      exact ho hi
  · rw [find_setTargets_ne hmem]

theorem setTargets_owner (vdc : Vdc) (host : HostNodeRow) {i k : Nat} {row : VolumeRow}
    (hk : vdc.volumes.find k = some row) :
    ∃ row', (setTargets vdc (fitting vdc host (vdc.aliveVolumes i))).volumes.find k = some row' ∧
      row'.instanceId = row.instanceId := by
  by_cases hmem : k ∈ (fitting vdc host (vdc.aliveVolumes i)).map VolumeRow.id
  · obtain ⟨v, hv, rfl⟩ := List.mem_map.mp hmem
    rw [find_setTargets (fitting_nodup vdc host i) hv, hk]
    exact ⟨_, rfl, rfl⟩
  · rw [find_setTargets_ne hmem, hk]
    exact ⟨row, rfl, rfl⟩

theorem mem_cleanup {jobs : List SchedulerJob} {online : Bool} {i j : Nat} (h : j ≠ i) :
    SchedulerJob.cleanup j ∈ (if online then jobs ++ [.cleanup i] else jobs) ↔
      SchedulerJob.cleanup j ∈ jobs := by
  split_ifs
  · simp [h]
  · rfl

section
variable {env : Env} {p p' : Progress} {inst : InstanceRow}

theorem TurnStep.frame (hs : TurnStep env p inst p') {j : Nat} (hj : j ≠ inst.id) :
    SameFor j p p' := by
  cases hs with
  | skipped hha =>
    refine ⟨?_, fun _ _ _ => Iff.rfl, Iff.rfl, Iff.rfl, Iff.rfl⟩
    rw [find_setInstanceState, if_neg hj]
  | refused hha hs =>
    exact ⟨rfl, fun _ _ _ => Iff.rfl, mem_cleanup hj, by simp [hj], Iff.rfl⟩
  | full host vdc hha hs hvdc hno =>
    subst hvdc
    refine ⟨?_, fun k row ho => ?_, mem_cleanup hj, by simp [hj], Iff.rfl⟩
    · rw [(setTargets_frame _ _).1, find_setInstanceHost, if_neg hj]
    · apply setTargets_other (p.vdc.setInstanceHost inst.id host.id)
      rw [ho]
      exact fun he => hj (Option.some.inj he)
  | moved host vdc jobs hha hs hvdc hfit hjobs hjobs' =>
    subst hvdc
    refine ⟨?_, fun k row ho => ?_, ⟨fun h => ?_, hjobs' j⟩, Iff.rfl, by simp [hj]⟩
    · rw [find_setInstanceState, if_neg hj, (setTargets_frame _ _).1, find_setInstanceHost,
        if_neg hj]
    · apply setTargets_other (p.vdc.setInstanceHost inst.id host.id)
      rw [ho]
      exact fun he => hj (Option.some.inj he)
    · exact (mem_cleanup hj).mp (hjobs j h)

theorem TurnStep.owner (hs : TurnStep env p inst p') {k : Nat} {row : VolumeRow}
    (hk : p.vdc.volumes.find k = some row) :
    ∃ row', p'.vdc.volumes.find k = some row' ∧ row'.instanceId = row.instanceId := by
  cases hs with
  | skipped hha => exact ⟨row, hk, rfl⟩
  | refused hha hs => exact ⟨row, hk, rfl⟩
  | full host vdc hha hs hvdc hno =>
    subst hvdc
    exact setTargets_owner (p.vdc.setInstanceHost inst.id host.id) host hk
  | moved host vdc jobs hha hs hvdc hfit hjobs hjobs' =>
    subst hvdc
    exact setTargets_owner (p.vdc.setInstanceHost inst.id host.id) host hk

theorem TurnStep.hostNodes (hs : TurnStep env p inst p') : p'.vdc.hostNodes = p.vdc.hostNodes := by
  cases hs with
  | skipped hha => rfl
  | refused hha hs => rfl
  | full host vdc hha hs hvdc hno =>
    subst hvdc
    exact (setTargets_frame _ _).2
  | moved host vdc jobs hha hs hvdc hfit hjobs hjobs' =>
    subst hvdc
    exact (setTargets_frame _ _).2

theorem not_mem_cleanup {jobs : List SchedulerJob} {online : Bool} {i : Nat}
    (h : SchedulerJob.cleanup i ∉ jobs) :
    SchedulerJob.cleanup i ∉ (if online then jobs ++ [.cleanup i] else jobs) ↔ online = false := by
  cases online with
  | false => simp [h]
  | true => simp

/-- The volumes of a turn keep their states exactly when the saved ones already
had them. -/
theorem volumes_kept_iff (vdc : Vdc) (host : HostNodeRow) (i : Nat) :
    (∀ k row, vdc.volumes.find k = some row → row.instanceId = some i →
      ((setTargets vdc (fitting vdc host (vdc.aliveVolumes i))).volumes.find k).map
        VolumeRow.state = some row.state) ↔
      ∀ v ∈ fitting vdc host (vdc.aliveVolumes i), v.state = v.target := by
  constructor
  · intro h v hv
    obtain ⟨hf, ho⟩ := mem_fitting hv
    have := h v.id v hf ho
    rw [find_setTargets (fitting_nodup vdc host i) hv, hf] at this
    exact (Option.some.inj this).symm
  · intro h k row hk _
    by_cases hmem : k ∈ (fitting vdc host (vdc.aliveVolumes i)).map VolumeRow.id
    · obtain ⟨v, hv, rfl⟩ := List.mem_map.mp hmem
      obtain ⟨hf, -⟩ := mem_fitting hv
      have hrow : v = row := Option.some.inj (hf.symm.trans hk)
      subst hrow
      rw [find_setTargets (fitting_nodup vdc host i) hv, hf, Option.map_some, Option.map_some,
        ← h v hv]
    · rw [find_setTargets_ne hmem, hk]
      rfl

theorem TurnStep.verdict (hs : TurnStep env p inst p')
    (hrow : p.vdc.instances.find inst.id = some inst) (hfailed : inst.id ∉ p.failed)
    (hclean : SchedulerJob.cleanup inst.id ∉ p.jobs) :
    (inst.id ∈ p'.failed → Untouched inst.id p.vdc p') ↔ TurnOk env p inst := by
  cases hs with
  | skipped hha =>
    refine iff_of_true (fun h => absurd h hfailed) fun h => ?_
    rw [hha] at h; cases h
  | refused hha hs =>
    have hin : inst.id ∈ p.failed ++ [inst.id] := by simp
    simp only [TurnOk, hha, hs, true_imp_iff]
    constructor
    · intro h
      exact (not_mem_cleanup hclean).mp (h hin).cleanup
    · intro h _
      refine ⟨rfl, fun k row hk _ => ?_, (not_mem_cleanup hclean).mpr h⟩
      rw [hk]; rfl
  | full host vdc hha hs hvdc hno =>
    subst hvdc
    have hin : inst.id ∈ p.failed ++ [inst.id] := by simp
    have hfind : (setTargets (p.vdc.setInstanceHost inst.id host.id)
        (fitting (p.vdc.setInstanceHost inst.id host.id) host
          ((p.vdc.setInstanceHost inst.id host.id).aliveVolumes inst.id))).instances.find inst.id =
        some { inst with hostNodeId := some host.id } := by
      rw [(setTargets_frame _ _).1, find_setInstanceHost, if_pos rfl, hrow]
      rfl
    simp only [TurnOk, hha, hs, true_imp_iff, hno, false_or]
    rw [← volumes_kept_iff, ← not_mem_cleanup hclean]
    constructor
    · intro h
      obtain ⟨h1, h2, h3⟩ := h hin
      refine ⟨h3, ?_, h2⟩
      rw [hfind, hrow] at h1
      exact (congrArg Prod.fst (Option.some.inj h1)).symm
    · rintro ⟨h1, h2, h3⟩ _
      refine ⟨?_, h3, h1⟩
      rw [hfind, hrow, Option.map_some, Option.map_some, h2]
  | moved host vdc jobs hha hs hvdc hfit hjobs hjobs' =>
    subst hvdc
    refine iff_of_true (fun h => absurd h hfailed) fun _ => ?_
    rw [hs]
    exact Or.inl hfit

theorem TurnStep.moves (hs : TurnStep env p inst p')
    (hrow : p.vdc.instances.find inst.id = some inst) (hnew : inst.id ∉ p.scheduled)
    (hin : inst.id ∈ p'.scheduled) {src : Nat} (hpick : PicksOnline env)
    (hoff : ∀ h ∈ p.vdc.hostNodes.rows, h.id = src → h.schedulingEnabled = false) :
    Moved inst.id src p.vdc p' := by
  cases hs with
  | skipped hha => exact absurd hin hnew
  | refused hha hs => exact absurd hin hnew
  | full host vdc hha hs hvdc hno => exact absurd hin hnew
  | moved host vdc jobs hha hs hvdc hfit hjobs hjobs' =>
    subst hvdc
    refine ⟨inst, { inst with
      hostNodeId := some host.id
      state := if inst.state = .halted then .halted else .pending }, hrow, ?_, ⟨host.id, rfl, ?_⟩, rfl⟩
    · rw [find_setInstanceState, if_pos rfl, (setTargets_frame _ _).1, find_setInstanceHost,
        if_pos rfl, hrow]
      rfl
    · intro he
      obtain ⟨hmem, hon⟩ := List.mem_filter.mp (hpick _ _ _ hs)
      rw [hoff host hmem he, Bool.and_false] at hon
      cases hon

end

/-! ## The loop -/

/-- Later turns of other instances do not change the verdict on an instance. -/
theorem Untouched.congr_after {i : Nat} {vdc : Vdc} {p' q : Progress} (hsame : SameFor i p' q)
    (howner : ∀ k row, vdc.volumes.find k = some row →
      ∃ row', p'.vdc.volumes.find k = some row' ∧ row'.instanceId = row.instanceId) :
    Untouched i vdc q ↔ Untouched i vdc p' := by
  have hvol : ∀ k row, vdc.volumes.find k = some row → row.instanceId = some i →
      q.vdc.volumes.find k = p'.vdc.volumes.find k := by
    intro k row hk ho
    obtain ⟨row', hk', ho'⟩ := howner k row hk
    rw [hk', (hsame.volumes k row' (ho'.trans ho)).mpr hk']
  constructor
  · rintro ⟨h1, h2, h3⟩
    refine ⟨hsame.inst ▸ h1, fun k row hk ho => ?_, fun h => h3 (hsame.cleanup.mpr h)⟩
    rw [← hvol k row hk ho]
    exact h2 k row hk ho
  · rintro ⟨h1, h2, h3⟩
    refine ⟨hsame.inst.symm ▸ h1, fun k row hk ho => ?_, fun h => h3 (hsame.cleanup.mp h)⟩
    rw [hvol k row hk ho]
    exact h2 k row hk ho

theorem Untouched.congr_before {i : Nat} {p p' q : Progress} (hsame : SameFor i p p') :
    Untouched i p.vdc q ↔ Untouched i p'.vdc q := by
  constructor
  · rintro ⟨h1, h2, h3⟩
    exact ⟨hsame.inst.symm ▸ h1, fun k row hk ho => h2 k row ((hsame.volumes k row ho).mp hk) ho, h3⟩
  · rintro ⟨h1, h2, h3⟩
    exact ⟨hsame.inst ▸ h1, fun k row hk ho => h2 k row ((hsame.volumes k row ho).mpr hk) ho, h3⟩

theorem Moved.congr_after {i src : Nat} {vdc : Vdc} {p' q : Progress} (hsame : SameFor i p' q)
    (h : Moved i src vdc p') : Moved i src vdc q := by
  obtain ⟨row, row', h1, h2, h3⟩ := h
  exact ⟨row, row', h1, hsame.inst.trans h2, h3⟩

theorem Moved.congr_before {i src : Nat} {p p' q : Progress} (hsame : SameFor i p p')
    (h : Moved i src p'.vdc q) : Moved i src p.vdc q := by
  obtain ⟨row, row', h1, h2⟩ := h
  exact ⟨row, row', hsame.inst ▸ h1, h2⟩

/-- The instances whose turns are still to come: stored as loaded, and in none
of the lists. -/
structure Waiting (p : Progress) (insts : List InstanceRow) : Prop where
  nodup : (insts.map InstanceRow.id).Nodup
  stored : ∀ i ∈ insts, p.vdc.instances.find i.id = some i
  cleanup : ∀ i ∈ insts, SchedulerJob.cleanup i.id ∉ p.jobs
  failed : ∀ i ∈ insts, i.id ∉ p.failed
  scheduled : ∀ i ∈ insts, i.id ∉ p.scheduled

section
variable {env : Env} {p p' q : Progress} {inst : InstanceRow} {insts : List InstanceRow}

theorem Waiting.ne (hw : Waiting p (inst :: insts)) {i : InstanceRow} (hi : i ∈ insts) :
    i.id ≠ inst.id := by
  intro he
  have hnd := hw.nodup
  rw [List.map_cons, List.nodup_cons] at hnd
  exact hnd.1 (he ▸ List.mem_map_of_mem hi)

theorem Waiting.step (hw : Waiting p (inst :: insts)) (hs : TurnStep env p inst p') :
    Waiting p' insts where
  nodup := by
    have hnd := hw.nodup
    rw [List.map_cons, List.nodup_cons] at hnd
    exact hnd.2
  stored i hi := by
    rw [(hs.frame (hw.ne hi)).inst]
    exact hw.stored i (List.mem_cons_of_mem _ hi)
  cleanup i hi := by
    rw [(hs.frame (hw.ne hi)).cleanup]
    exact hw.cleanup i (List.mem_cons_of_mem _ hi)
  failed i hi := by
    rw [(hs.frame (hw.ne hi)).failed]
    exact hw.failed i (List.mem_cons_of_mem _ hi)
  scheduled i hi := by
    rw [(hs.frame (hw.ne hi)).scheduled]
    exact hw.scheduled i (List.mem_cons_of_mem _ hi)

/-- A loop that returns is a turn that returns and the rest of the loop. -/
theorem loop_cons (h : (inst :: insts).foldlM (turn env) p = .ok q) :
    ∃ p', turn env p inst = .ok p' ∧ insts.foldlM (turn env) p' = .ok q := by
  rw [List.foldlM_cons] at h
  cases ht : turn env p inst with
  | error e => rw [ht] at h; cases h
  | ok p' =>
    rw [ht] at h
    exact ⟨p', rfl, h⟩

theorem loop_frame (h : insts.foldlM (turn env) p = .ok q) {j : Nat}
    (hj : j ∉ insts.map InstanceRow.id) : SameFor j p q := by
  induction insts generalizing p with
  | nil =>
    cases h
    exact SameFor.refl j _
  | cons inst insts ih =>
    obtain ⟨p', ht, hl⟩ := loop_cons h
    rw [List.map_cons, List.mem_cons, not_or] at hj
    exact ((turn_step ht).frame hj.1).trans (ih hl hj.2)

/-- The failed instances of a loop are left alone exactly when its turns are. -/
theorem loop_verdict (h : insts.foldlM (turn env) p = .ok q) (hw : Waiting p insts) :
    (∀ i ∈ insts, i.id ∈ q.failed → Untouched i.id p.vdc q) ↔
      Each (advance env) (TurnOk env) p insts := by
  induction insts generalizing p with
  | nil => simp
  | cons inst insts ih =>
    obtain ⟨p', ht, hl⟩ := loop_cons h
    have hs := turn_step ht
    have hnd := hw.nodup
    rw [List.map_cons, List.nodup_cons] at hnd
    have hlater := loop_frame hl hnd.1
    have hverdict := hs.verdict (hw.stored inst (List.mem_cons_self ..))
      (hw.failed inst (List.mem_cons_self ..)) (hw.cleanup inst (List.mem_cons_self ..))
    have hadv : advance env p inst = p' := by
      unfold advance
      rw [ht]
    rw [List.forall_mem_cons, each_cons, hadv, ← hverdict, ← ih hl (hw.step hs)]
    refine and_congr ?_ ?_
    · -- the turn of this instance, then the turns of others
      rw [hlater.failed, Untouched.congr_after hlater fun k row hk => hs.owner hk]
    · refine forall₂_congr fun i hi => ?_
      rw [Untouched.congr_before (hs.frame (hw.ne hi))]

theorem loop_moved (h : insts.foldlM (turn env) p = .ok q) (hw : Waiting p insts) {src : Nat}
    (hpick : PicksOnline env)
    (hoff : ∀ h ∈ p.vdc.hostNodes.rows, h.id = src → h.schedulingEnabled = false) :
    ∀ i ∈ insts, i.id ∈ q.scheduled → Moved i.id src p.vdc q := by
  induction insts generalizing p with
  | nil => simp
  | cons inst insts ih =>
    obtain ⟨p', ht, hl⟩ := loop_cons h
    have hs := turn_step ht
    have hnd := hw.nodup
    rw [List.map_cons, List.nodup_cons] at hnd
    have hlater := loop_frame hl hnd.1
    rw [List.forall_mem_cons]
    constructor
    · intro hin
      exact (hs.moves (hw.stored inst (List.mem_cons_self ..))
        (hw.scheduled inst (List.mem_cons_self ..)) (hlater.scheduled.mp hin) hpick
        hoff).congr_after hlater
    · intro i hi hin
      exact (ih hl (hw.step hs) (by rw [hs.hostNodes]; exact hoff) i hi hin).congr_before
        (hs.frame (hw.ne hi))

end

/-! ## The call -/

theorem begin_disabled (vdc : Vdc) (src : Nat) :
    ∀ h ∈ (begin vdc src).vdc.hostNodes.rows, h.id = src → h.schedulingEnabled = false := by
  intro h hh he
  obtain ⟨x, hx, rfl⟩ := List.mem_map.mp hh
  by_cases hk : Row.pk x = src
  · simp [hk]
  · rw [if_neg hk] at he
    exact absurd he hk

theorem waiting_begin (vdc : Vdc) (src : Nat) :
    Waiting (begin vdc src) ((begin vdc src).vdc.aliveInstances src) where
  nodup := vdc.instances.nodup_pk.sublist (List.filter_sublist.map _)
  stored i hi := vdc.instances.find_of_mem (List.mem_of_mem_filter hi)
  cleanup _ _ h := by cases h
  failed _ _ h := by cases h
  scheduled _ _ h := by cases h

/-- A call that returns is the loop over the source's instances; switching the
host on again changes no instance and no volume. -/
theorem evacuateFrom_ok {env : Env} {vdc : Vdc} {src : Nat} {keep : Bool} {q : Progress}
    (h : evacuateFrom env vdc src keep = .ok q) :
    ∃ p, ((begin vdc src).vdc.aliveInstances src).foldlM (turn env) (begin vdc src) = .ok p ∧
      q.vdc.instances = p.vdc.instances ∧ q.vdc.volumes = p.vdc.volumes ∧ q.jobs = p.jobs ∧
      q.failed = p.failed ∧ q.scheduled = p.scheduled := by
  unfold evacuateFrom at h
  cases hsrc : vdc.hostNodes.find src with
  | none => rw [hsrc] at h; cases h
  | some row =>
    have hid : row.id = src := vdc.hostNodes.pk_of_find hsrc
    subst hid
    rw [hsrc] at h
    cases hl : ((begin vdc row.id).vdc.aliveInstances row.id).foldlM (turn env)
        (begin vdc row.id) with
    | error e =>
      simp only [hl] at h
      cases h
    | ok p =>
      simp only [hl, bind, Except.bind, pure, Except.pure] at h
      refine ⟨p, rfl, ?_⟩
      cases keep with
      | true => cases h; exact ⟨rfl, rfl, rfl, rfl, rfl⟩
      | false => cases h; exact ⟨rfl, rfl, rfl, rfl, rfl⟩

/-- An evacuation keeps its promises exactly when every turn meets `TurnOk`. -/
theorem evacuated_iff {env : Env} {vdc : Vdc} {src : Nat} {keep : Bool} {q : Progress}
    (h : evacuateFrom env vdc src keep = .ok q) :
    Evacuated env src vdc q ↔
      Each (advance env) (TurnOk env) (begin vdc src) ((begin vdc src).vdc.aliveInstances src) := by
  obtain ⟨p, hl, hi, hv, hj, hf, hsch⟩ := evacuateFrom_ok h
  have hw := waiting_begin vdc src
  rw [← loop_verdict hl hw]
  have hlisted : ∀ j, (j ∈ p.failed ∨ j ∈ p.scheduled) →
      ∃ i ∈ (begin vdc src).vdc.aliveInstances src, i.id = j := by
    intro j hj
    by_contra hno
    have hframe := loop_frame hl (j := j) fun hmem => hno (by
      obtain ⟨i, hi, he⟩ := List.mem_map.mp hmem
      exact ⟨i, hi, he⟩)
    rcases hj with hj | hj
    · exact absurd (hframe.failed.mp hj) (by simp [begin])
    · exact absurd (hframe.scheduled.mp hj) (by simp [begin])
  have huntouched : ∀ j, Untouched j vdc q ↔ Untouched j (begin vdc src).vdc p := by
    intro j
    constructor
    · rintro ⟨h1, h2, h3⟩
      exact ⟨hi ▸ h1, hv ▸ h2, hj ▸ h3⟩
    · rintro ⟨h1, h2, h3⟩
      exact ⟨hi.symm ▸ h1, hv.symm ▸ h2, hj.symm ▸ h3⟩
  constructor
  · intro hev i _ hin
    rw [← huntouched]
    exact hev.failed i.id (hf.symm ▸ hin)
  · intro hall
    refine ⟨fun j hj' => ?_, fun hpick j hj' => ?_⟩
    · rw [hf] at hj'
      obtain ⟨i, hmem, rfl⟩ := hlisted j (Or.inl hj')
      rw [huntouched]
      exact hall i hmem hj'
    · rw [hsch] at hj'
      obtain ⟨i, hmem, rfl⟩ := hlisted j (Or.inr hj')
      obtain ⟨row, row', h1, h2, h3⟩ :=
        loop_moved hl hw hpick (begin_disabled vdc src) i hmem hj'
      exact ⟨row, row', h1, by rw [hi]; exact h2, h3⟩

/-- Picks the first online node, whatever its space. -/
def firstOnline : Env where
  haSchedule vdc _ :=
    match vdc.onlineNodes.head? with
    | some host => .ok host
    | none => .error .hostNodeSchedulingError
  volumeValid _ _ := true

/-- A running HA instance with one attached local volume on host 1, and host 2
with the given disk space. -/
def twoHosts (diskSpaceMb : Int) : Vdc where
  instances := Table.empty.create (fun k => ⟨k, some 1, .running, true, false, .localDev⟩)
    fun _ => rfl
  volumes := Table.empty.create (fun k => ⟨k, some 1, true, some 1, 1048576, .attached, false, true⟩)
    fun _ => rfl
  hostNodes := (Table.empty.create (fun k => ⟨k, true, true, 100⟩) fun _ => rfl).create
    (fun k => ⟨k, true, true, diskSpaceMb⟩) fun _ => rfl

/-- With room on the other host the call keeps its promises. -/
theorem evacuated_with_room :
    ∃ q, evacuateFrom firstOnline (twoHosts 100) 1 false = .ok q ∧
      Evacuated firstOnline 1 (twoHosts 100) q := by
  refine ⟨_, rfl, (evacuated_iff rfl).mpr ⟨fun _ => Or.inl ?_, trivial⟩⟩
  decide

/-- Without, the instance is reported as failed, stored on the other host all
the same and cleaned up on its own. -/
theorem evacuated_without_room :
    ∃ q, evacuateFrom firstOnline (twoHosts 0) 1 false = .ok q ∧ q.failed = [1] ∧
      (q.vdc.instances.find 1).map InstanceRow.hostNodeId = some (some 2) ∧
      SchedulerJob.cleanup 1 ∈ q.jobs ∧ ¬ Evacuated firstOnline 1 (twoHosts 0) q := by
  refine ⟨_, rfl, rfl, rfl, by decide, fun h => ?_⟩
  exact (h.failed 1 (by decide)).cleanup (by decide)

end Scheduler

end WakameVdc
