import WakameVdc.InstanceJob

/-!
# Booting a scheduled instance

The jobs `schedule_instance` submits run in any order with those they submit
themselves. The instance is booted once, without a failure, just in the orders
in which no job comes too early.
-/

namespace WakameVdc

open Lib

namespace InstanceJob

open Scheduler (InstanceState VolumeState BootDev)

namespace Db

variable {db : Db}

/-- The facts about the rows of a scheduled instance that no boot job changes. -/
structure Own (db : Db) : Prop where
  own : ∀ v ∈ db.volumes, v.instanceId = some db.inst.id
  uuids : (db.volumes.map VolumeRow.uuid).Nodup
  host : db.inst.hostNode.isSome
  boot : ∃ v ∈ db.volumes, v.uuid = db.inst.bootVolumeId ∧
    (v.isLocal = true ↔ db.inst.bootDev = .localDev)
  bootDev : db.inst.bootDev = .localDev ∨ db.inst.bootDev = .san

theorem Own.volumesOf (h : db.Own) : db.volumesOf = db.volumes :=
  List.filter_eq_self.mpr fun v hv => by simp [h.own v hv]

theorem Own.eq_of_uuid (h : db.Own) {v w : VolumeRow} (hv : v ∈ db.volumes) (hw : w ∈ db.volumes)
    (huuid : v.uuid = w.uuid) : v = w :=
  List.inj_on_of_nodup_map h.uuids hv hw huuid

theorem Own.map (h : db.Own) {f : VolumeRow → VolumeRow} (hf : Keeps f) (state : InstanceState) :
    Own { db with inst := { db.inst with state }, volumes := db.volumes.map f } where
  own := by
    intro v hv
    obtain ⟨w, hw, rfl⟩ := List.mem_map.mp hv
    rw [(hf w).2.2.1]
    exact h.own w hw
  uuids := by
    have hcomp : (db.volumes.map f).map VolumeRow.uuid = db.volumes.map VolumeRow.uuid := by
      rw [List.map_map]
      exact List.map_congr_left fun v _ => (hf v).1
    rw [hcomp]
    exact h.uuids
  host := h.host
  boot := by
    obtain ⟨v, hv, hu, hl⟩ := h.boot
    exact ⟨f v, List.mem_map_of_mem hv, (hf v).1.trans hu, by rw [(hf v).2.1]; exact hl⟩
  bootDev := h.bootDev

/-- Only an instance that boots from a local volume has others deployed. -/
def Deployed (db : Db) : Prop := ∀ v ∈ db.volumes, v.isLocal = true → db.inst.bootDev = .localDev

theorem Deployed.map (h : db.Deployed) {f : VolumeRow → VolumeRow} (hf : Keeps f)
    (state : InstanceState) :
    Deployed { db with inst := { db.inst with state }, volumes := db.volumes.map f } := by
  intro v hv hl
  obtain ⟨w, hw, rfl⟩ := List.mem_map.mp hv
  rw [(hf w).2.1] at hl
  exact h w hw hl

end Db

/-! ## Scheduled instances -/

structure Scheduled (db : Db) : Prop extends db.Own where
  state : db.inst.state = .pending
  volumes : ∀ v ∈ db.volumes, v.state = .pending

/-- The jobs `schedule_instance` submits. -/
def scheduledJobs (db : Db) : List Job :=
  (db.volumes.filter fun v => !v.isLocal).map (fun v => .createVolumeAndRunInstance v.uuid) ++
    if db.inst.bootDev = .localDev then [.localRunLocalStore] else []

def scheduled (db : Db) : Sys := ⟨db, scheduledJobs db, [], 0⟩

/-- One boot, no failure, and the instance runs with its volumes attached. -/
structure Booted (s : Sys) : Prop where
  failures : s.failures = 0
  boots : s.boots = [true]
  state : s.db.inst.state = .running
  volumes : ∀ v ∈ s.db.volumesOf, v.state = .attached

/-- The job does not come too early, or too late. -/
def InTime (s : Sys) (j : Job) : Prop :=
  j ∈ s.queue →
    match j with
    | .createVolumeAndRunInstance u => ∀ v ∈ s.db.volumes, v.uuid = u → v.sourceReady = true
    | .waitVolumesAvailable =>
      s.allAvailable = true → s.db.inst.bootDev = .san ∧ .runVolStore ∉ s.queue
    | .runLocalStore => s.allAvailable = true
    | _ => True

/-! ## Phases -/

/-- A volume whose job is still to come is pending, and then available. -/
structure Creating (s : Sys) : Prop where
  count : ∀ v ∈ s.db.volumes, v.isLocal = false →
    s.queue.count (.createVolumeAndRunInstance v.uuid) = if v.state = .pending then 1 else 0
  only : ∀ u, .createVolumeAndRunInstance u ∈ s.queue →
    ∃ v ∈ s.db.volumes, v.uuid = u ∧ v.isLocal = false

/-- Some volumes are still to be created, and no boot job has run. -/
structure Waiting (s : Sys) : Prop where
  state : s.db.inst.state = .pending
  boots : s.boots = []
  runLocal : .runLocalStore ∉ s.queue
  localStore : s.queue.count .localRunLocalStore = if s.db.inst.bootDev = .localDev then 1 else 0
  locals : ∀ v ∈ s.db.volumes, v.isLocal = true → v.state = .pending
  shared : ∀ v ∈ s.db.volumes, v.isLocal = false → v.state = .pending ∨ v.state = .available
  runVolCount : s.queue.count .runVolStore ≤ 1
  runVol : .runVolStore ∈ s.queue → ∀ v ∈ s.db.volumes, v.state = .available
  wakes : (∀ v ∈ s.db.volumes, v.state = .available) →
    .waitVolumesAvailable ∈ s.queue ∨ .runVolStore ∈ s.queue

structure Prepared (s : Sys) : Prop where
  state : s.db.inst.state = .initializing
  boots : s.boots = []
  bootDev : s.db.inst.bootDev = .localDev
  runLocal : s.queue.count .runLocalStore = 1
  localStore : .localRunLocalStore ∉ s.queue
  runVol : .runVolStore ∉ s.queue
  locals : ∀ v ∈ s.db.volumes, v.isLocal = true → v.state = .available
  shared : ∀ v ∈ s.db.volumes, v.isLocal = false → v.state = .pending ∨ v.state = .available

structure Running (s : Sys) : Prop where
  state : s.db.inst.state = .running
  boots : s.boots = [true]
  runLocal : .runLocalStore ∉ s.queue
  localStore : .localRunLocalStore ∉ s.queue
  runVol : .runVolStore ∉ s.queue
  volumes : ∀ v ∈ s.db.volumes, v.state = .attached

inductive Phase (s : Sys) : Prop
  | waiting (h : Waiting s)
  | prepared (h : Prepared s)
  | running (h : Running s)

/-- Where a run without failures stands. -/
structure Inv (s : Sys) : Prop where
  own : s.db.Own
  deployed : s.db.Deployed
  creating : Creating s
  noDelete : ∀ u, .deleteVolume u ∉ s.queue ∧ .localDeleteVolume u ∉ s.queue
  failures : s.failures = 0
  phase : Phase s

variable {s : Sys}

theorem allAvailable_iff (h : s.db.Own) :
    s.allAvailable = true ↔ ∀ v ∈ s.db.volumes, v.state = .available := by
  simp [Sys.allAvailable, h.volumesOf]

theorem count_scheduledJobs {db : Db} (h : db.Own) {v : VolumeRow} (hv : v ∈ db.volumes)
    (hl : v.isLocal = false) :
    (scheduledJobs db).count (.createVolumeAndRunInstance v.uuid) = 1 := by
  have hnodup : ((db.volumes.filter fun v => !v.isLocal).map
      fun v => Job.createVolumeAndRunInstance v.uuid).Nodup := by
    have hu := h.uuids.sublist (List.filter_sublist.map VolumeRow.uuid :
      ((db.volumes.filter fun v => !v.isLocal).map VolumeRow.uuid).Sublist _)
    have := hu.map (f := Job.createVolumeAndRunInstance) fun a b hab => by cases hab; rfl
    rwa [List.map_map] at this
  have hmem : Job.createVolumeAndRunInstance v.uuid ∈ (db.volumes.filter fun v => !v.isLocal).map
      fun v => Job.createVolumeAndRunInstance v.uuid :=
    List.mem_map_of_mem (f := fun v : VolumeRow => Job.createVolumeAndRunInstance v.uuid)
      (List.mem_filter.mpr ⟨hv, by simp [hl]⟩)
  rw [scheduledJobs, List.count_append, List.count_eq_one_of_mem hnodup hmem]
  split
  · rfl
  · rfl

theorem count_scheduledJobs_localStore {db : Db} :
    (scheduledJobs db).count .localRunLocalStore =
      if db.inst.bootDev = .localDev then 1 else 0 := by
  have hcount : ((db.volumes.filter fun v => !v.isLocal).map
      fun v => Job.createVolumeAndRunInstance v.uuid).count .localRunLocalStore = 0 := by
    rw [List.count_eq_zero]
    simp
  rw [scheduledJobs, List.count_append, hcount]
  by_cases h : db.inst.bootDev = .localDev
  · simp [h]
  · simp [h]

theorem mem_scheduledJobs {db : Db} {j : Job} (h : j ∈ scheduledJobs db) :
    (∃ v ∈ db.volumes, v.isLocal = false ∧ j = .createVolumeAndRunInstance v.uuid) ∨
      j = .localRunLocalStore := by
  simp only [scheduledJobs, List.mem_append, List.mem_map, List.mem_filter] at h
  rcases h with ⟨v, ⟨hv, hl⟩, rfl⟩ | h
  · exact .inl ⟨v, hv, by simpa using hl, rfl⟩
  · split at h
    · exact .inr (List.mem_singleton.mp h)
    · cases h

theorem inv_scheduled {db : Db} (h : Scheduled db) (hd : db.Deployed) : Inv (scheduled db) where
  own := h.toOwn
  deployed := hd
  creating :=
    { count := fun v hv hl => by
        rw [if_pos (h.volumes v hv)]
        exact count_scheduledJobs h.toOwn hv hl
      only := fun u hu => by
        rcases mem_scheduledJobs hu with ⟨v, hv, hl, he⟩ | he
        · exact ⟨v, hv, (Job.createVolumeAndRunInstance.inj he).symm, hl⟩
        · cases he }
  noDelete := by
    intro u
    constructor
    · intro hm
      simpa using mem_scheduledJobs hm
    · intro hm
      simpa using mem_scheduledJobs hm
  failures := rfl
  phase := by
    obtain ⟨b, hb, -⟩ := h.boot
    exact .waiting
      { state := h.state
        boots := rfl
        runLocal := fun hm => by simpa using mem_scheduledJobs hm
        localStore := count_scheduledJobs_localStore
        locals := fun v hv _ => h.volumes v hv
        shared := fun v hv _ => .inl (h.volumes v hv)
        runVolCount := by
          rw [List.count_eq_zero.mpr fun hm => by simpa using mem_scheduledJobs hm]
          omega
        runVol := fun hm => absurd (mem_scheduledJobs hm) (by simp)
        wakes := fun ha => by
          have hb' := ha b hb
          rw [show b.state = .pending from h.volumes b hb] at hb'
          cases hb' }

/-! ## Steps -/

theorem Sys.step_of_mem {j : Job} (h : j ∈ s.queue) :
    s.step j = { s with queue := s.queue.erase j }.exec j := if_pos h

theorem count_erase {j k : Job} (h : j ≠ k) {q : List Job} : (q.erase j).count k = q.count k :=
  List.count_erase_of_ne h.symm

theorem mem_erase {j k : Job} (h : j ≠ k) {q : List Job} : k ∈ q.erase j ↔ k ∈ q :=
  List.mem_erase_of_ne h.symm

theorem Inv.boot_not_available (h : Inv s) (hw : Waiting s) (hl : s.db.inst.bootDev = .localDev) :
    ¬ ∀ v ∈ s.db.volumes, v.state = .available := by
  intro ha
  obtain ⟨b, hb, -, hloc⟩ := h.own.boot
  have hp := hw.locals b hb (hloc.mpr hl)
  rw [ha b hb] at hp
  cases hp

theorem find_volume (h : s.db.Own) {v : VolumeRow} (hv : v ∈ s.db.volumes) :
    (s.db.volumes.find? fun w => w.uuid == v.uuid) = some v := by
  cases hf : s.db.volumes.find? fun w => w.uuid == v.uuid with
  | none => exact absurd (List.find?_eq_none.mp hf v hv) (by simp)
  | some w =>
    have hu : w.uuid = v.uuid := by simpa using List.find?_some hf
    rw [h.eq_of_uuid (List.mem_of_find?_eq_some hf) hv hu]

theorem createVolumeAndRunInstance_eq (h : s.db.Own) {v : VolumeRow} (hv : v ∈ s.db.volumes)
    (hs : v.state = .pending) (hr : v.sourceReady = true) :
    s.createVolumeAndRunInstance v.uuid =
      { s with
        db := s.db.setVolumeState v.uuid .available
        queue := s.queue ++ [.waitVolumesAvailable] } := by
  have htwice : (s.db.setVolumeState v.uuid .creating).setVolumeState v.uuid .available =
      s.db.setVolumeState v.uuid .available := by
    simp only [Db.setVolumeState, Db.updateVolume, List.map_map]
    congr 1
    refine List.map_congr_left fun w _ => ?_
    by_cases hw : w.uuid = v.uuid
    · have hd : (VolumeState.creating == .deleted) = false := rfl
      simp [hw, VolumeRow.withState, hd]
    · simp [hw]
  have hhost : (s.db.setVolumeState v.uuid .available).inst.hostNode.isNone = false := by
    rw [← Option.not_isSome]
    exact congrArg Bool.not h.host
  rw [Sys.createVolumeAndRunInstance, find_volume h hv]
  simp only [hs, hr, htwice, hhost, ne_eq, not_true_eq_false, if_false, Bool.not_true,
    Bool.false_eq_true, Sys.submit]

theorem state_of_created {v w : VolumeRow}
    (hw : w ∈ (s.db.setVolumeState v.uuid .available).volumes) :
    ∃ w' ∈ s.db.volumes, w.uuid = w'.uuid ∧ w.isLocal = w'.isLocal ∧
      w.state = if w'.uuid = v.uuid then .available else w'.state := by
  simp only [Db.setVolumeState, Db.updateVolume, List.mem_map] at hw
  obtain ⟨w', hw', rfl⟩ := hw
  refine ⟨w', hw', ?_⟩
  by_cases he : w'.uuid = v.uuid <;> simp [he, VolumeRow.withState]

theorem inv_createVolume (h : Inv s) {u : Nat} (hm : .createVolumeAndRunInstance u ∈ s.queue)
    (hin : InTime s (.createVolumeAndRunInstance u)) :
    Inv (s.step (.createVolumeAndRunInstance u)) := by
  obtain ⟨v, hv, rfl, hl⟩ := h.creating.only u hm
  have hpending : v.state = .pending := by
    have hc := h.creating.count v hv hl
    by_contra hne
    rw [if_neg hne] at hc
    exact List.count_eq_zero.mp hc hm
  have hcount : s.queue.count (.createVolumeAndRunInstance v.uuid) = 1 := by
    rw [h.creating.count v hv hl, if_pos hpending]
  rw [Sys.step_of_mem hm, Sys.exec, createVolumeAndRunInstance_eq
    (s := { s with queue := s.queue.erase (.createVolumeAndRunInstance v.uuid) }) h.own hv hpending
    (hin hm v hv rfl)]
  have hkeeps := keeps_withState (fun w => w.uuid = v.uuid) .available
  -- every other job stays as it was, and the volume's own check is added
  have hstates {p : VolumeRow → Prop} (hp : ∀ w ∈ s.db.volumes, p w → w.state = .pending ∨
      w.state = .available) (w : VolumeRow) (hw : w ∈ s.db.volumes) (hpw : p w) :
      (if w.uuid = v.uuid then VolumeState.available else w.state) = .pending ∨
        (if w.uuid = v.uuid then VolumeState.available else w.state) = .available := by
    split
    · exact .inr rfl
    · exact hp w hw hpw
  exact
    { own := h.own.map hkeeps s.db.inst.state
      deployed := h.deployed.map hkeeps s.db.inst.state
      creating :=
        { only := fun u hu => by
            have hu' : Job.createVolumeAndRunInstance u ∈ s.queue := by
              simp only [List.mem_append, List.mem_singleton, reduceCtorEq, or_false] at hu
              exact List.mem_of_mem_erase hu
            obtain ⟨w, hw, hwu, hwl⟩ := h.creating.only u hu'
            exact ⟨_, List.mem_map_of_mem hw, (hkeeps w).1.trans hwu, (hkeeps w).2.1.trans hwl⟩
          count := fun w hw hwl => by
            obtain ⟨w', hw', hu, hl', hst⟩ := state_of_created hw
            rw [hu, hst]
            by_cases he : w'.uuid = v.uuid
            · rw [if_pos he, he, List.count_append, List.count_erase_self, hcount]
              simp
            · rw [if_neg he, List.count_append, count_erase (by simpa using Ne.symm he),
                h.creating.count w' hw' (hl'.symm.trans hwl)]
              simp }
      noDelete := fun u => by
        simp only [List.mem_append, List.mem_singleton, reduceCtorEq, or_false]
        exact ⟨fun hu => (h.noDelete u).1 (List.mem_of_mem_erase hu),
          fun hu => (h.noDelete u).2 (List.mem_of_mem_erase hu)⟩
      failures := h.failures
      phase := by
        cases h.phase with
        | waiting hw =>
          exact .waiting
            { state := hw.state
              boots := hw.boots
              runLocal := by simpa [mem_erase] using hw.runLocal
              localStore := by
                rw [List.count_append, count_erase (by simp), hw.localStore]
                rfl
              locals := fun w hw' hwl => by
                obtain ⟨w', hm', hu, hl', hst⟩ := state_of_created hw'
                have hne : w'.uuid ≠ v.uuid := fun he => by
                  rw [h.own.eq_of_uuid hm' hv he, hl] at hl'
                  simp [hl'] at hwl
                rw [hst, if_neg hne]
                exact hw.locals w' hm' (hl'.symm.trans hwl)
              shared := fun w hw' hwl => by
                obtain ⟨w', hm', hu, hl', hst⟩ := state_of_created hw'
                rw [hst]
                exact hstates hw.shared w' hm' (hl'.symm.trans hwl)
              runVolCount := by
                rw [List.count_append, count_erase (by simp)]
                simpa using hw.runVolCount
              runVol := fun hr => by
                have hav := hw.runVol (by simpa [mem_erase] using hr) v hv
                rw [hpending] at hav
                cases hav
              wakes := fun _ => .inl (by simp) }
        | prepared hp =>
          exact .prepared
            { state := hp.state
              boots := hp.boots
              bootDev := hp.bootDev
              runLocal := by
                rw [List.count_append, count_erase (by simp), hp.runLocal]
                rfl
              localStore := by simpa [mem_erase] using hp.localStore
              runVol := by simpa [mem_erase] using hp.runVol
              locals := fun w hw' hwl => by
                obtain ⟨w', hm', hu, hl', hst⟩ := state_of_created hw'
                rw [hst]
                split
                · rfl
                · exact hp.locals w' hm' (hl'.symm.trans hwl)
              shared := fun w hw' hwl => by
                obtain ⟨w', hm', hu, hl', hst⟩ := state_of_created hw'
                rw [hst]
                exact hstates hp.shared w' hm' (hl'.symm.trans hwl) }
        | running hr =>
          rw [hr.volumes v hv] at hpending
          cases hpending }

theorem Creating.step (h : Creating s) {t : Sys} {f : VolumeRow → VolumeRow} (hf : Keeps f)
    (hv : t.db.volumes = s.db.volumes.map f)
    (hs : ∀ v ∈ s.db.volumes, v.isLocal = false → ((f v).state = .pending ↔ v.state = .pending))
    (hq : ∀ u, t.queue.count (.createVolumeAndRunInstance u) =
      s.queue.count (.createVolumeAndRunInstance u)) : Creating t where
  count := by
    intro v hm hl
    rw [hv] at hm
    obtain ⟨w, hw, rfl⟩ := List.mem_map.mp hm
    rw [(hf w).2.1] at hl
    rw [(hf w).1, hq, h.count w hw hl]
    simp only [hs w hw hl]
  only := by
    intro u hu
    have hu' : Job.createVolumeAndRunInstance u ∈ s.queue := by
      rw [← List.count_pos_iff, ← hq]
      exact List.count_pos_iff.mpr hu
    obtain ⟨w, hw, hwu, hwl⟩ := h.only u hu'
    refine ⟨f w, ?_, (hf w).1.trans hwu, (hf w).2.1.trans hwl⟩
    rw [hv]
    exact List.mem_map_of_mem hw

theorem keeps_id : Keeps id := fun _ => ⟨rfl, rfl, rfl, rfl⟩

theorem waitVolumesAvailable_of_available (h : s.db.Own) (ha : s.allAvailable = true) :
    s.waitVolumesAvailable = s.submit [.runVolStore] := by
  obtain ⟨b, hb, hu, -⟩ := h.boot
  have htype : b.volumeType ≠ "Dcmgr::Model::LocalVolume" := by
    unfold VolumeRow.volumeType
    split <;> decide
  rw [Sys.waitVolumesAvailable, if_pos ha, h.volumesOf, ← hu, find_volume h hb]
  exact if_neg htype

theorem waitVolumesAvailable_of_not_available (h : s.db.Own) (ha : s.allAvailable = false)
    (ht : s.db.inst.state ≠ .terminated) (hd : ∀ v ∈ s.db.volumes, v.state ≠ .deleted) :
    s.waitVolumesAvailable = s := by
  have hn : ¬(s.db.inst.state = .terminated ∨
      (s.db.volumesOf.any fun v => v.state == .deleted) = true) := by
    rw [h.volumesOf]
    simpa using ⟨ht, hd⟩
  rw [Sys.waitVolumesAvailable, if_neg (by simp [ha]), if_neg hn]

theorem Inv.not_terminated (h : Inv s) : s.db.inst.state ≠ .terminated := by
  cases h.phase with
  | waiting hw => simp [hw.state]
  | prepared hp => simp [hp.state]
  | running hr => simp [hr.state]

theorem Inv.not_deleted (h : Inv s) : ∀ v ∈ s.db.volumes, v.state ≠ .deleted := by
  intro v hv
  cases h.phase with
  | waiting hw =>
    cases hl : v.isLocal with
    | true => simp [hw.locals v hv hl]
    | false => rcases hw.shared v hv hl with hs | hs <;> simp [hs]
  | prepared hp =>
    cases hl : v.isLocal with
    | true => simp [hp.locals v hv hl]
    | false => rcases hp.shared v hv hl with hs | hs <;> simp [hs]
  | running hr => simp [hr.volumes v hv]

theorem inv_wait (h : Inv s) (hm : .waitVolumesAvailable ∈ s.queue)
    (hin : InTime s .waitVolumesAvailable) : Inv (s.step .waitVolumesAvailable) := by
  rw [Sys.step_of_mem hm, Sys.exec]
  cases ha : s.allAvailable with
  | true =>
    rw [waitVolumesAvailable_of_available
      (s := { s with queue := s.queue.erase .waitVolumesAvailable }) h.own ha]
    have hall := (allAvailable_iff h.own).mp ha
    obtain ⟨hsan, hno⟩ := hin hm ha
    cases h.phase with
    | waiting hw =>
      exact
        { own := h.own
          deployed := h.deployed
          creating := h.creating.step keeps_id (by simp [Sys.submit]) (fun _ _ _ => Iff.rfl)
            fun u => by
              simp only [Sys.submit, List.count_append]
              rw [count_erase (by simp)]
              simp
          noDelete := fun u => by simpa [Sys.submit, mem_erase] using h.noDelete u
          failures := h.failures
          phase := .waiting
            { state := hw.state
              boots := hw.boots
              runLocal := by simpa [Sys.submit, mem_erase] using hw.runLocal
              localStore := by
                simp only [Sys.submit, List.count_append]
                rw [count_erase (by simp), hw.localStore]
                rfl
              locals := hw.locals
              shared := hw.shared
              runVolCount := by
                simp only [Sys.submit, List.count_append]
                rw [count_erase (by simp), List.count_eq_zero.mpr hno]
                simp
              runVol := fun _ => hall
              wakes := fun _ => .inr (by simp [Sys.submit]) } }
    | prepared hp =>
      rw [hp.bootDev] at hsan
      cases hsan
    | running hr =>
      obtain ⟨b, hb, -⟩ := h.own.boot
      have hb' := hall b hb
      rw [hr.volumes b hb] at hb'
      cases hb'
  | false =>
    rw [waitVolumesAvailable_of_not_available
      (s := { s with queue := s.queue.erase .waitVolumesAvailable }) h.own ha h.not_terminated
      h.not_deleted]
    have hnot : ¬ ∀ v ∈ s.db.volumes, v.state = .available := fun hall => by
      rw [(allAvailable_iff h.own).mpr hall] at ha
      cases ha
    exact
      { own := h.own
        deployed := h.deployed
        creating := h.creating.step keeps_id (by simp) (fun _ _ _ => Iff.rfl)
          fun u => count_erase (by simp)
        noDelete := fun u => by simpa [mem_erase] using h.noDelete u
        failures := h.failures
        phase := by
          cases h.phase with
          | waiting hw =>
            exact .waiting
              { state := hw.state
                boots := hw.boots
                runLocal := by simpa [mem_erase] using hw.runLocal
                localStore := by rw [count_erase (by simp), hw.localStore]
                locals := hw.locals
                shared := hw.shared
                runVolCount := by simpa [count_erase] using hw.runVolCount
                runVol := fun hr => hw.runVol (by simpa [mem_erase] using hr)
                wakes := fun hall => absurd hall hnot }
          | prepared hp =>
            exact .prepared
              { state := hp.state
                boots := hp.boots
                bootDev := hp.bootDev
                runLocal := by rw [count_erase (by simp), hp.runLocal]
                localStore := by simpa [mem_erase] using hp.localStore
                runVol := by simpa [mem_erase] using hp.runVol
                locals := hp.locals
                shared := hp.shared }
          | running hr =>
            exact .running
              { state := hr.state
                boots := hr.boots
                runLocal := by simpa [mem_erase] using hr.runLocal
                localStore := by simpa [mem_erase] using hr.localStore
                runVol := by simpa [mem_erase] using hr.runVol
                volumes := hr.volumes } }

theorem localRunLocalStore_eq (h : s.db.Own) (hs : s.db.inst.state = .pending) :
    s.localRunLocalStore =
      { s with
        db := { s.db with
          inst := { s.db.inst with state := .initializing }
          volumes := s.db.volumes.map fun v => if v.isLocal = true then v.withState .available else v }
        queue := s.queue ++ [.runLocalStore] } := by
  have hlocal {v : VolumeRow} (hv : v ∈ s.db.volumes) :
      v.uuid ∈ (s.db.volumes.filter VolumeRow.isLocal).map VolumeRow.uuid ↔ v.isLocal = true := by
    constructor
    · intro hm
      obtain ⟨w, hw, hu⟩ := List.mem_map.mp hm
      obtain ⟨hw, hwl⟩ := List.mem_filter.mp hw
      rwa [h.eq_of_uuid hw hv hu] at hwl
    · exact fun hl => List.mem_map_of_mem (List.mem_filter.mpr ⟨hv, hl⟩)
  have hmap : (s.db.volumes.map fun v =>
        if v.uuid ∈ (s.db.volumes.filter VolumeRow.isLocal).map VolumeRow.uuid then
          v.withState .available
        else v) =
      s.db.volumes.map fun v => if v.isLocal = true then v.withState .available else v :=
    List.map_congr_left fun v hv => by rw [if_congr (hlocal hv) rfl rfl]
  rw [Sys.localRunLocalStore, if_neg (by simp [hs]), h.volumesOf]
  simp only [Db.setVolumeStates_eq, Db.setInstanceState, Sys.submit, hmap]

theorem inv_localStore (h : Inv s) (hm : .localRunLocalStore ∈ s.queue) :
    Inv (s.step .localRunLocalStore) := by
  rw [Sys.step_of_mem hm, Sys.exec]
  cases h.phase with
  | waiting hw =>
    have hlocal : s.db.inst.bootDev = .localDev := by
      by_contra hne
      have hc := hw.localStore
      rw [if_neg hne] at hc
      exact List.count_eq_zero.mp hc hm
    have hcount : s.queue.count .localRunLocalStore = 1 := by rw [hw.localStore, if_pos hlocal]
    rw [localRunLocalStore_eq (s := { s with queue := s.queue.erase .localRunLocalStore }) h.own
      hw.state]
    have hkeeps := keeps_withState (fun v => v.isLocal = true) .available
    exact
      { own := h.own.map hkeeps .initializing
        deployed := h.deployed.map hkeeps .initializing
        creating := h.creating.step hkeeps rfl (fun v _ hl => by simp [hl]) fun u => by
          rw [List.count_append, count_erase (by simp)]
          simp
        noDelete := fun u => by simpa [mem_erase] using h.noDelete u
        failures := h.failures
        phase := .prepared
          { state := rfl
            boots := hw.boots
            bootDev := hlocal
            runLocal := by
              rw [List.count_append, count_erase (by simp), List.count_eq_zero.mpr hw.runLocal]
              simp
            localStore := by
              rw [← List.count_eq_zero, List.count_append, List.count_erase_self, hcount]
              simp
            runVol := fun hr => h.boot_not_available hw hlocal
              (hw.runVol (by simpa [mem_erase] using hr))
            locals := fun v hv hl => by
              obtain ⟨w, hw', rfl⟩ := List.mem_map.mp hv
              rw [(hkeeps w).2.1] at hl
              simp [hl, VolumeRow.withState]
            shared := fun v hv hl => by
              obtain ⟨w, hw', rfl⟩ := List.mem_map.mp hv
              rw [(hkeeps w).2.1] at hl
              simpa [hl] using hw.shared w hw' hl } }
  | prepared hp => exact absurd hm hp.localStore
  | running hr => exact absurd hm hr.localStore

theorem runInstance_eq (h : s.db.Own) (ha : s.allAvailable = true) :
    s.runInstance =
      { s with
        db := { s.db with
          inst := { s.db.inst with state := .running }
          volumes := s.db.volumes.map fun v => (v.withState .attaching).withState .attached }
        boots := s.boots ++ [true] } := by
  have hmem {v : VolumeRow} (hv : v ∈ s.db.volumes) : v.uuid ∈ s.db.volumes.map VolumeRow.uuid :=
    List.mem_map_of_mem hv
  have hmap : ((s.db.volumes.map fun v =>
        if v.uuid ∈ s.db.volumes.map VolumeRow.uuid then v.withState .attaching else v).map fun v =>
        if v.uuid ∈ s.db.volumes.map VolumeRow.uuid then v.withState .attached else v) =
      s.db.volumes.map fun v => (v.withState .attaching).withState .attached := by
    rw [List.map_map]
    refine List.map_congr_left fun v hv => ?_
    have hm := hmem hv
    simp only [Function.comp, if_pos hm]
    exact if_pos hm
  rw [Sys.runInstance, h.volumesOf, Db.setVolumeStates_eq, Db.setVolumeStates_eq]
  simp only [Db.setInstanceState, ha, hmap]

/-- The instance is run by the only boot job there is. -/
theorem inv_runInstance (hown : s.db.Own) (hdep : s.db.Deployed) (hc : Creating s)
    (hd : ∀ u, .deleteVolume u ∉ s.queue ∧ .localDeleteVolume u ∉ s.queue) (hf : s.failures = 0)
    (ha : s.allAvailable = true) (hb : s.boots = []) (hrl : .runLocalStore ∉ s.queue)
    (hl : .localRunLocalStore ∉ s.queue) (hrv : .runVolStore ∉ s.queue) : Inv s.runInstance := by
  rw [runInstance_eq hown ha]
  have hkeeps : Keeps fun v => (v.withState .attaching).withState .attached :=
    fun _ => ⟨rfl, rfl, rfl, rfl⟩
  have hall := (allAvailable_iff hown).mp ha
  exact
    { own := hown.map hkeeps .running
      deployed := hdep.map hkeeps .running
      creating := hc.step hkeeps rfl (fun v hv _ => by simp [hall v hv, VolumeRow.withState])
        fun _ => rfl
      noDelete := hd
      failures := hf
      phase := .running
        { state := rfl
          boots := by simp [hb]
          runLocal := hrl
          localStore := hl
          runVol := hrv
          volumes := fun v hv => by
            obtain ⟨w, -, rfl⟩ := List.mem_map.mp hv
            rfl } }

theorem inv_runLocalStore (h : Inv s) (hm : .runLocalStore ∈ s.queue)
    (hin : InTime s .runLocalStore) : Inv (s.step .runLocalStore) := by
  rw [Sys.step_of_mem hm, Sys.exec]
  cases h.phase with
  | waiting hw => exact absurd hm hw.runLocal
  | prepared hp =>
    have ha := hin hm
    have heq : ({ s with queue := s.queue.erase .runLocalStore } : Sys).runLocalStore =
        ({ s with queue := s.queue.erase .runLocalStore } : Sys).runInstance := by
      have ha' : ({ s with queue := s.queue.erase .runLocalStore } : Sys).allAvailable = true := ha
      rw [Sys.runLocalStore, if_neg (by simp [hp.state]), if_neg (by simp [ha'])]
    rw [heq]
    refine inv_runInstance h.own h.deployed ?_ ?_ h.failures ha hp.boots ?_ ?_ ?_
    · exact h.creating.step keeps_id (by simp) (fun _ _ _ => Iff.rfl) fun u => count_erase (by simp)
    · exact fun u => by simpa [mem_erase] using h.noDelete u
    · rw [← List.count_eq_zero, List.count_erase_self, hp.runLocal]
    · simpa [mem_erase] using hp.localStore
    · simpa [mem_erase] using hp.runVol
  | running hr => exact absurd hm hr.runLocal

theorem inv_runVolStore (h : Inv s) (hm : .runVolStore ∈ s.queue) : Inv (s.step .runVolStore) := by
  rw [Sys.step_of_mem hm, Sys.exec]
  cases h.phase with
  | waiting hw =>
    have hall := hw.runVol hm
    have ha := (allAvailable_iff h.own).mpr hall
    have heq : ({ s with queue := s.queue.erase .runVolStore } : Sys).runVolStore =
        ({ s with queue := s.queue.erase .runVolStore } : Sys).runInstance := by
      have ha' : ({ s with queue := s.queue.erase .runVolStore } : Sys).allAvailable = true := ha
      rw [Sys.runVolStore, if_neg (by simp [hw.state]), if_neg (by simp [ha'])]
    have hsan : s.db.inst.bootDev ≠ .localDev := fun hl => h.boot_not_available hw hl hall
    rw [heq]
    refine inv_runInstance h.own h.deployed ?_ ?_ h.failures ha hw.boots ?_ ?_ ?_
    · exact h.creating.step keeps_id (by simp) (fun _ _ _ => Iff.rfl) fun u => count_erase (by simp)
    · exact fun u => by simpa [mem_erase] using h.noDelete u
    · simpa [mem_erase] using hw.runLocal
    · have hc := hw.localStore
      rw [if_neg hsan] at hc
      simpa [mem_erase] using List.count_eq_zero.mp hc
    · have hpos := List.count_pos_iff.mpr hm
      have hle := hw.runVolCount
      rw [← List.count_eq_zero, List.count_erase_self]
      omega
  | prepared hp => exact absurd hm hp.runVol
  | running hr => exact absurd hm hr.runVol

theorem inv_step (h : Inv s) {j : Job} (hin : InTime s j) : Inv (s.step j) := by
  by_cases hm : j ∈ s.queue
  · cases j with
    | createVolumeAndRunInstance u => exact inv_createVolume h hm hin
    | localRunLocalStore => exact inv_localStore h hm
    | waitVolumesAvailable => exact inv_wait h hm hin
    | runLocalStore => exact inv_runLocalStore h hm hin
    | runVolStore => exact inv_runVolStore h hm
    | deleteVolume u => exact absurd hm (h.noDelete u).1
    | localDeleteVolume u => exact absurd hm (h.noDelete u).2
  · rw [Sys.step, if_neg hm]
    exact h

/-! ## Runs -/

theorem booted_of_done (h : Inv s) (hq : s.queue = []) : Booted s := by
  cases h.phase with
  | waiting hw =>
    have hsan : s.db.inst.bootDev ≠ .localDev := fun hl => by
      have hc := hw.localStore
      simp [hq, hl] at hc
    have hall : ∀ v ∈ s.db.volumes, v.state = .available := by
      intro v hv
      have hl : v.isLocal = false := by
        by_contra hne
        exact hsan (h.deployed v hv (by simpa using hne))
      have hc := h.creating.count v hv hl
      rcases hw.shared v hv hl with hs | hs
      · simp [hq, hs] at hc
      · exact hs
    rcases hw.wakes hall with hw' | hw'
    · simp [hq] at hw'
    · simp [hq] at hw'
  | prepared hp =>
    have hc := hp.runLocal
    simp [hq] at hc
  | running hr =>
    exact ⟨h.failures, hr.boots, hr.state, fun v hv => hr.volumes v (by rwa [h.own.volumesOf] at hv)⟩

/-- Every order in which no job comes too early or too late boots the instance
once, and none of its jobs fails on the way. -/
theorem booted_of_inTime {db : Db} (h : Scheduled db) (hd : db.Deployed) {jobs : List Job}
    (hin : Each Sys.step InTime (scheduled db) jobs) :
    (jobs.foldl Sys.step (scheduled db)).failures = 0 ∧
      ((jobs.foldl Sys.step (scheduled db)).queue = [] →
        Booted (jobs.foldl Sys.step (scheduled db))) := by
  have hi := Each.invariant Inv (fun s j hs hj => inv_step hs hj) hin (inv_scheduled h hd)
  exact ⟨hi.failures, booted_of_done hi⟩

/-- An instance that boots from a local volume and has a shared one as well. -/
def localBoot : Db :=
  ⟨⟨1, .pending, some 1, .localDev, 1, false⟩,
    [⟨1, true, .pending, some 1, false, true⟩, ⟨2, false, .pending, some 1, false, true⟩], []⟩

theorem scheduled_localBoot : Scheduled localBoot where
  own := by decide
  uuids := by decide
  host := rfl
  boot := ⟨⟨1, true, .pending, some 1, false, true⟩, by decide, rfl, by decide⟩
  bootDev := .inl rfl
  state := rfl
  volumes := by decide

/-- The shared volume is there first, and the local store starts the instance. -/
theorem booted_of_inTime_localBoot :
    Scheduled localBoot ∧ Booted ([.createVolumeAndRunInstance 2, .waitVolumesAvailable,
      .localRunLocalStore, .runLocalStore].foldl Sys.step (scheduled localBoot)) := by
  have hin : Each Sys.step InTime (scheduled localBoot)
      [.createVolumeAndRunInstance 2, .waitVolumesAvailable, .localRunLocalStore, .runLocalStore] := by
    refine ⟨fun _ v hv _ => ?_, fun _ ha => ?_, fun _ => trivial, fun _ => by decide, trivial⟩
    · have hready : ∀ v ∈ localBoot.volumes, v.sourceReady = true := by decide
      exact hready v hv
    · exact absurd ha (by decide)
  exact ⟨scheduled_localBoot, (booted_of_inTime scheduled_localBoot (fun _ _ _ => rfl) hin).2 (by decide)⟩

theorem not_booted :
    ¬ ∀ db, Scheduled db → ∀ jobs : List Job, (jobs.foldl Sys.step (scheduled db)).queue = [] →
      Booted (jobs.foldl Sys.step (scheduled db)) := by
  intro h
  have hb := h localBoot scheduled_localBoot [.localRunLocalStore, .createVolumeAndRunInstance 2,
    .waitVolumesAvailable, .runVolStore, .runLocalStore, .deleteVolume 2] (by decide)
  exact absurd hb.failures (by decide)

end InstanceJob

end WakameVdc
