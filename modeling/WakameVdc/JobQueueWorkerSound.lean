import WakameVdc.JobQueueWorker

/-!
# When the failure block is run

A worker compares the counters of the hash it got from `pop`, `finish_fail` those of the row. The
limit of a row stays as the first pop fixed it, and a job is popped again only below the limit, so
at most one pop hands out a job that is not to be tried again.
-/

namespace WakameVdc

open Lib

namespace JobQueueWorker

theorem retry_iff {job : QueuedJob} :
    JobContext.retry job = true ↔ job.retryCount < job.retryMax := decide_eq_true_iff

/-- Where the row is still what `pop` stored, `finish_fail` finishes the job just when the failure
block was run. -/
def Exact (w : Workers) : Act → Prop
  | .finishFail k message now =>
    ∀ f, w.flights[k]? = some f → f.phase = .raised → f.poller.failureBlock = true →
      w.table.find f.job.id = some f.job →
      ∃ row, (w.step (.finishFail k message now)).table.find f.job.id = some row ∧
        (f.failureRun = true ↔ row.state = .finished) ∧
        (row.state = .pending → f.failureRun = false)
  | _ => True

/-- The failure block was run once for a job, if at all. -/
def Once (w : Workers) : Prop :=
  ∀ id, (w.flights.filter fun f => f.job.id == id && f.failureRun).length ≤ 1

/-! ## The row of a job that is worked on -/

/-- The row of a popped job: its limit is that of the hash and its counter is not behind. -/
def Held (t : JobTable) (job : QueuedJob) : Prop :=
  ∃ row, t.find job.id = some row ∧ row.startedAt ≠ none ∧ row.retryMax = job.retryMax ∧
    job.retryCount ≤ row.retryCount

theorem Held.step {t : JobTable} {job : QueuedJob} (h : Held t job) (c : JobCall) :
    Held (c.step t) job := by
  obtain ⟨row, hrow, hstarted, hmax, hcount⟩ := h
  obtain ⟨row', hrow', hstep⟩ := JobCall.row_step (c := c) hrow
  refine ⟨row', hrow', ?_⟩
  cases hstep with
  | same => exact ⟨hstarted, hmax, hcount⟩
  | taken queueName w r now =>
    refine ⟨by simp [QueuedJob.taken], ?_, ?_⟩
    · simp [QueuedJob.taken, hstarted, hmax]
    · simp only [QueuedJob.taken]
      omega
  | finished op now m _ hm =>
    rw [hm.startedAt, hm.retryMax, hm.retryCount]
    exact ⟨hstarted, hmax, hcount⟩

/-- A running job is put back while its counter is below its limit, and finished otherwise. -/
theorem finishFail_running {t : JobTable} {job : QueuedJob} (hrow : t.find job.id = some job)
    (hrunning : job.state = .running) (reason : Option FinishReason) (now : Nat) :
    ∃ row, ((JobCall.finish (.finishFail reason) job.id now).step t).find job.id = some row ∧
      (row.state = .finished ↔ ¬ job.retryCount < job.retryMax) ∧
      (row.state = .pending ↔ job.retryCount < job.retryMax) := by
  have hunfinished : job.isFinished = false := by simp [QueuedJob.isFinished, hrunning]
  cases hm : (FinishOp.finishFail reason).run now (JobModel.load job) with
  | error e => simp [FinishOp.run, JobModel.finishFail, hunfinished] at hm
  | ok m =>
    have hstep := FinishOp.run_cases hm
    obtain ⟨t', hstore, -, hfind⟩ := JobModel.store_ok hstep.consistent hrow hstep.valid
    have hrun : (JobCall.finish (.finishFail reason) job.id now).run t = .ok (t', some m.values) := by
      simp only [JobCall.run, QueuedJob.finish, hrow, hm]
      simp only [bind, Except.bind, hstore]
      rfl
    refine ⟨m.values, ?_, ?_⟩
    · rw [JobCall.step_of_ok hrun, hfind, if_pos rfl]
    · simp only [FinishOp.run, JobModel.finishFail, JobModel.load_values, hunfinished] at hm
      by_cases hretry : job.retryCount < job.retryMax
      · simp [hretry] at hm
        subst hm
        simp [hretry]
      · simp [hretry] at hm
        subst hm
        simp [hretry]

/-! ## The flights -/

structure FlightInv (t : JobTable) (f : Flight) : Prop where
  held : Held t f.job
  running : f.job.state = .running
  idle : f.phase = .running → f.failureRun = false
  raised : f.phase = .raised →
    f.failureRun = (!JobContext.retry f.job && f.poller.failureBlock)
  last : f.failureRun = true → ¬ f.job.retryCount < f.job.retryMax

/-- A job that is popped again was to be tried again before. -/
def Retried (job again : QueuedJob) : Prop := job.id = again.id → job.retryCount < job.retryMax

structure WorkersInv (w : Workers) : Prop where
  table : TableInv w.table
  flights : ∀ f ∈ w.flights, FlightInv w.table f
  retried : (w.flights.map Flight.job).Pairwise Retried

theorem workersInv_start : WorkersInv Workers.start where
  table := tableInv_empty
  flights := by simp [Workers.start]
  retried := .nil

theorem WorkersInv.call {w : Workers} (h : WorkersInv w) (c : JobCall) :
    WorkersInv { w with table := c.step w.table } where
  table := h.table.step c
  flights f hf := { h.flights f hf with held := (h.flights f hf).held.step c }
  retried := h.retried

theorem map_modify_job {flights : List Flight} (k : Nat) {g : Flight → Flight}
    (hg : ∀ f, (g f).job = f.job) : (flights.modify k g).map Flight.job = flights.map Flight.job := by
  apply List.ext_getElem?
  intro i
  rw [List.getElem?_map, List.getElem?_map, List.getElem?_modify]
  by_cases hki : k = i
  · cases flights[i]? <;> simp [hki, hg]
  · cases flights[i]? <;> simp [hki]

theorem WorkersInv.advance {w : Workers} (h : WorkersInv w) {k : Nat} {g : Flight → Flight}
    (hg : ∀ f, (g f).job = f.job)
    (hinv : ∀ f, w.flights[k]? = some f → FlightInv w.table f → FlightInv w.table (g f)) :
    WorkersInv (w.advance k g) where
  table := h.table
  flights := by
    intro f hf
    obtain ⟨i, hi⟩ := List.mem_iff_getElem?.mp hf
    simp only [Workers.advance, List.getElem?_modify, Option.map_eq_map, Option.map_eq_some_iff] at hi
    obtain ⟨f', hf', rfl⟩ := hi
    have hold := h.flights f' (List.mem_of_getElem? hf')
    by_cases hki : k = i
    · subst hki
      rw [if_pos rfl]
      exact hinv f' hf' hold
    · rw [if_neg hki]
      exact hold
  retried := by
    unfold Workers.advance
    rw [map_modify_job k hg]
    exact h.retried

/-- A thread that only remembers how far it has come. -/
theorem FlightInv.setPhase {t : JobTable} {f : Flight} (h : FlightInv t f) {phase : Phase}
    (hrunning : phase ≠ .running) (hraised : phase ≠ .raised) :
    FlightInv t { f with phase := phase } :=
  { h with
    idle := fun he => absurd he hrunning
    raised := fun he => absurd he hraised }

theorem FlightInv.rescue {t : JobTable} {f : Flight} (h : FlightInv t f) :
    FlightInv t (Workers.rescue f) where
  held := h.held
  running := h.running
  idle he := by cases he
  raised _ := rfl
  last hrun := by
    simp only [Workers.rescue, Bool.and_eq_true, Bool.not_eq_true'] at hrun
    intro hlt
    have hretry : JobContext.retry f.job = true := retry_iff.mpr hlt
    rw [hretry] at hrun
    cases hrun.1

/-! ## A pop -/

theorem WorkersInv.popJob {w : Workers} (h : WorkersInv w) (p : Poller) (now : Nat) :
    WorkersInv (w.popJob p now) := by
  have hcall := h.call (.pop p.queueName (some p.nodeId) (some p.defaultRetryMax) now)
  unfold Workers.popJob
  rcases JobCall.pop_cases w.table p.queueName (some p.nodeId) (some p.defaultRetryMax) now with
    ⟨hrun, -⟩ | ⟨job, hmem, hpop, -, ⟨hw, -⟩ | ⟨-, t, hrun, -, hfind⟩⟩
  · rw [JobCall.step_of_ok hrun] at hcall
    rw [hrun]
    exact hcall
  · cases hw
  · rw [JobCall.step_of_ok hrun] at hcall
    rw [hrun]
    refine ⟨hcall.table, ?_, ?_⟩
    · intro f hf
      rcases List.mem_append.mp hf with hf | hf
      · exact hcall.flights f hf
      · rw [List.mem_singleton.mp hf]
        exact
          { held := ⟨_, (hfind _).trans (if_pos rfl), by simp [QueuedJob.taken], rfl, le_rfl⟩
            running := rfl
            idle := fun _ => rfl
            raised := fun he => by cases he
            last := fun he => by cases he }
    · rw [List.map_append, List.pairwise_append]
      refine ⟨hcall.retried, List.pairwise_singleton _ _, ?_⟩
      intro old hold new hnew hid
      obtain ⟨f, hf, rfl⟩ := List.mem_map.mp hold
      rw [List.map_singleton, List.mem_singleton] at hnew
      subst hnew
      -- the row was waiting to be tried again
      obtain ⟨row, hrow, hstarted, hmax, hcount⟩ := (h.flights f hf).held
      have hjob := w.table.find_of_mem hmem
      have hid : f.job.id = job.id := hid
      rw [hid] at hrow
      obtain rfl : job = row := Option.some.inj (hjob.symm.trans hrow)
      have hlt := (h.table _ _ hjob).retried (QueuedJob.poppable_iff.mp hpop).2.1 hstarted
      omega

/-! ## Runs -/

theorem WorkersInv.step {w : Workers} (h : WorkersInv w) (a : Act) : WorkersInv (w.step a) := by
  cases a with
  | call c => exact h.call c
  | poll p now => exact h.popJob p now
  | blockReturns k =>
    cases hk : w.flights[k]? with
    | none => simpa only [Workers.step, hk] using h
    | some f =>
      by_cases hphase : f.phase = .running
      · simp only [Workers.step, hk, if_pos hphase]
        exact h.advance (fun _ => rfl) fun f _ hf => hf.setPhase nofun nofun
      · simpa only [Workers.step, hk, if_neg hphase] using h
  | blockRaises k =>
    cases hk : w.flights[k]? with
    | none => simpa only [Workers.step, hk] using h
    | some f =>
      by_cases hphase : f.phase = .running
      · simp only [Workers.step, hk, if_pos hphase]
        exact h.advance (fun _ => rfl) fun f _ hf => hf.rescue
      · simpa only [Workers.step, hk, if_neg hphase] using h
  | finishSuccess k msg now =>
    cases hk : w.flights[k]? with
    | none => simpa only [Workers.step, hk] using h
    | some f =>
      by_cases hphase : f.phase = .returned
      · simp only [Workers.step, hk, if_pos hphase, Workers.success]
        have hcall := h.call (.finish (.finishSuccess msg) f.job.id now)
        cases hrun : (JobCall.finish (.finishSuccess msg) f.job.id now).run w.table with
        | error e => exact h.advance (fun _ => rfl) fun f _ hf => hf.setPhase nofun nofun
        | ok result =>
          rw [JobCall.step_of_ok hrun] at hcall
          exact hcall.advance (fun _ => rfl) fun f _ hf => hf.setPhase nofun nofun
      · simpa only [Workers.step, hk, if_neg hphase] using h
  | finishFail k message now =>
    cases hk : w.flights[k]? with
    | none => simpa only [Workers.step, hk] using h
    | some f =>
      by_cases hphase : f.phase = .raised ∨ f.phase = .refused
      · simp only [Workers.step, hk, if_pos hphase]
        exact (h.call (.finish (.finishFail (some (.text message))) f.job.id now)).advance
          (fun _ => rfl) fun f _ hf => hf.setPhase nofun nofun
      · simpa only [Workers.step, hk, if_neg hphase] using h

theorem WorkersInv.exact {w : Workers} (h : WorkersInv w) (a : Act) : Exact w a := by
  cases a with
  | finishFail k message now =>
    intro f hk hphase hblock hrow
    have hf := h.flights f (List.mem_of_getElem? hk)
    obtain ⟨row, hfind, hfinished, hpending⟩ :=
      finishFail_running hrow hf.running (some (.text message)) now
    refine ⟨row, ?_, ?_⟩
    · simp only [Workers.step, hk, hphase, true_or, if_true]
      exact hfind
    · rw [hf.raised hphase, hblock, hfinished, hpending, ← retry_iff]
      cases JobContext.retry f.job <;> simp
  | call c => trivial
  | poll p now => trivial
  | blockReturns k => trivial
  | blockRaises k => trivial
  | finishSuccess k msg now => trivial

theorem WorkersInv.once {w : Workers} (h : WorkersInv w) : Once w := by
  intro id
  have hpair : (w.flights.filter fun f => f.job.id == id && f.failureRun).Pairwise
      fun f g => Retried f.job g.job := (List.pairwise_map.mp h.retried).filter _
  cases hl : w.flights.filter fun f => f.job.id == id && f.failureRun with
  | nil => simp
  | cons f rest =>
    cases rest with
    | nil => simp
    | cons g rest =>
      rw [hl] at hpair
      have hf : f ∈ w.flights.filter fun f => f.job.id == id && f.failureRun := by simp [hl]
      have hg : g ∈ w.flights.filter fun f => f.job.id == id && f.failureRun := by simp [hl]
      simp only [List.mem_filter, Bool.and_eq_true, beq_iff_eq] at hf hg
      have hretried := List.rel_of_pairwise_cons hpair (List.mem_cons_self ..)
      exact absurd (hretried (hf.2.1.trans hg.2.1.symm)) ((h.flights f hf.1).last hf.2.2)

/-- In every run of any number of workers, whatever else is done to the queue, `finish_fail` on an
unchanged row finishes the job just when the failure block was run, and the failure block is run at
most once for a job. -/
theorem failure_block_once (acts : List Act) :
    Each Workers.step Exact Workers.start acts ∧ Once (acts.foldl Workers.step Workers.start) :=
  ⟨each_true.of_invariant WorkersInv (fun _ a h _ => ⟨h.step a, h.exact a⟩) workersInv_start,
    (invariant WorkersInv (fun _ a h => h.step a) acts workersInv_start).once⟩

end JobQueueWorker

end WakameVdc
