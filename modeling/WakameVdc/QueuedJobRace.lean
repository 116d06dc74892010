import WakameVdc.QueuedJobRun

/-!
# The job queue under interleaving

`pop` locks its row from the read to the write. `cancel`, `finish_success` and
`finish_fail` read a row, and save their changed columns over it any time
later; in between the loaded object is all they know.
-/

namespace WakameVdc

open Lib

structure Loaded where
  op : FinishOp
  job : QueuedJob
  deriving DecidableEq, Repr

structure RaceState where
  jobs : JobTable
  loaded : List Loaded

inductive RaceStep
  | submit (queueName resourceId params : String) (opts : Option QueuedJob.SubmitOpts)
  | pop (queueName : String) (workerId : Option String) (retryMaxIfZero : Option Int) (now : Nat)
  | read (op : FinishOp) (jobId : Nat)
  | write (i now : Nat)
  deriving DecidableEq, Repr

namespace RaceStep

/-- The check of the loaded object, its assignments and `save_changes`. -/
def save (t : JobTable) (l : Loaded) (now : Nat) : Except JobError JobTable := do
  let m ← l.op.run now (JobModel.load l.job)
  m.store t

def step (s : RaceState) : RaceStep → RaceState
  | .submit queueName resourceId params opts =>
    { s with jobs := (JobCall.submit queueName resourceId params opts).step s.jobs }
  | .pop queueName workerId retryMaxIfZero now =>
    { s with jobs := (JobCall.pop queueName workerId retryMaxIfZero now).step s.jobs }
  | .read op jobId =>
    match s.jobs.find jobId with
    | none => s
    | some job => { s with loaded := s.loaded ++ [⟨op, job⟩] }
  | .write i now =>
    match s.loaded[i]? with
    | none => s
    | some l =>
      { jobs := match save s.jobs l now with
          | .ok t => t
          | .error _ => s.jobs
        loaded := s.loaded.eraseIdx i }

def handedOut (s : RaceState) : RaceStep → Option Nat
  | .pop queueName workerId retryMaxIfZero now =>
    (JobCall.pop queueName workerId retryMaxIfZero now).handedOut s.jobs
  | _ => none

end RaceStep

def RaceState.start : RaceState := ⟨Table.empty, []⟩

def raced (steps : List RaceStep) : RaceState := steps.foldl RaceStep.step RaceState.start

/-- A job found finished is still finished with the same status at every later
state, and no later step hands it to a worker. -/
def FinishedStays (steps : List RaceStep) : Prop :=
  ∀ pre mid post, steps = pre ++ (mid ++ post) → ∀ k row, (raced pre).jobs.find k = some row →
    row.state = .finished →
      (∃ row', (raced (pre ++ mid)).jobs.find k = some row' ∧ row'.state = .finished ∧
        row'.finishStatus = row.finishStatus) ∧
      ∀ c post', post = c :: post' → c.handedOut (raced (pre ++ mid)) ≠ some k

/-- The status an operation gives the job it loaded; a failure with retries
left gives none. -/
def Loaded.outcome (l : Loaded) : Option FinishStatus :=
  match l.op with
  | .cancel => some .cancel
  | .finishSuccess _ => some .success
  | .finishFail _ => if l.job.retryMax > l.job.retryCount then none else some .fail

/-- Writing the operation over a finished row does no harm: it was loaded from
a finished row and raises, or it finishes with the same status, or it puts back
a job it read as pending, which leaves the state column alone. -/
def Loaded.Harmless (l : Loaded) (row : QueuedJob) : Prop :=
  l.job.state = .finished ∨
    match l.outcome with
    | some status => row.finishStatus = some status
    | none => l.job.state = .pending

/-- A write reaches a finished row only where it does no harm. -/
def RaceStep.WriteOk (s : RaceState) : RaceStep → Prop
  | .write i _ => ∀ l, s.loaded[i]? = some l → ∀ row, s.jobs.find l.job.id = some row →
      row.state = .finished → l.Harmless row
  | _ => True

/-! ## What a late write stores -/

theorem JobModel.mem_assign {m : JobModel} {c d : JobColumn} {f : QueuedJob → QueuedJob} :
    d ∈ (m.assign c f).changed ↔ d ∈ m.changed ∨ d = c ∧ f m.values ≠ m.values := by
  unfold JobModel.assign
  by_cases h : f m.values = m.values
  · simp [h]
  · simp [h, or_comm]

theorem JobModel.finishEntry_saved {job : QueuedJob} (hs : job.state ≠ .finished)
    (hf : job.finishStatus = none) (status : FinishStatus) (now : Nat) (row : QueuedJob) :
    (((JobModel.load job).finishEntry status now).saveChanges row).state = .finished ∧
      (((JobModel.load job).finishEntry status now).saveChanges row).finishStatus = some status := by
  have hstate : JobColumn.state ∈ ((JobModel.load job).finishEntry status now).changed := by
    simp only [finishEntry, setFinishStatus, setFinishedAt, setState, mem_assign]
    refine Or.inl (Or.inl (Or.inr ⟨trivial, fun e => hs ?_⟩))
    exact (congrArg QueuedJob.state e).symm
  have hstatus : JobColumn.finishStatus ∈ ((JobModel.load job).finishEntry status now).changed := by
    unfold finishEntry setFinishStatus
    rw [mem_assign]
    refine Or.inr ⟨rfl, fun e => ?_⟩
    have := congrArg QueuedJob.finishStatus e
    simp [hf] at this
  constructor
  · simp only [saveChanges, if_pos hstate, finishEntry_values]
  · simp only [saveChanges, if_pos hstatus, finishEntry_values]

theorem JobModel.setFinishMessage_saved (m : JobModel) (msg : Option FinishReason)
    (row : QueuedJob) :
    ((m.setFinishMessage msg).saveChanges row).state = (m.saveChanges row).state ∧
      ((m.setFinishMessage msg).saveChanges row).finishStatus =
        (m.saveChanges row).finishStatus := by
  constructor
  · simp [saveChanges]
  · simp [saveChanges]

/-- A put back job: the state column is written only if it changed. -/
theorem JobModel.putBack_saved (job row : QueuedJob) :
    ((((JobModel.load job).setState .pending).setWorkerId none).saveChanges row).state =
        (if job.state = .pending then row.state else .pending) ∧
      ((((JobModel.load job).setState .pending).setWorkerId none).saveChanges row).finishStatus =
        row.finishStatus := by
  have hstatus : JobColumn.finishStatus ∉
      (((JobModel.load job).setState .pending).setWorkerId none).changed := by
    simp [setWorkerId, setState, mem_assign, load]
  refine ⟨?_, by simp only [saveChanges, if_neg hstatus]⟩
  by_cases hp : job.state = .pending
  · have hstate : JobColumn.state ∉
        (((JobModel.load job).setState .pending).setWorkerId none).changed := by
      have he : ({ job with state := .pending } : QueuedJob) = job := by rw [← hp]
      simp [setWorkerId, setState, mem_assign, load, he]
    simp only [saveChanges, if_neg hstate, if_pos hp]
  · have hstate : JobColumn.state ∈
        (((JobModel.load job).setState .pending).setWorkerId none).changed := by
      simp only [setWorkerId, setState, mem_assign]
      refine Or.inl (Or.inr ⟨trivial, fun e => hp ?_⟩)
      exact (congrArg QueuedJob.state e).symm
    simp only [saveChanges, if_pos hstate, if_neg hp, setWorkerId_values, setState_values]

/-- The state and status a late write leaves in whatever row it meets. -/
theorem run_saved {l : Loaded} {now : Nat} {m : JobModel}
    (h : l.op.run now (JobModel.load l.job) = .ok m) (hf : l.job.finishStatus = none)
    (row : QueuedJob) :
    match l.outcome with
    | some status =>
      (m.saveChanges row).state = .finished ∧ (m.saveChanges row).finishStatus = some status
    | none =>
      (m.saveChanges row).state = (if l.job.state = .pending then row.state else .pending) ∧
        (m.saveChanges row).finishStatus = row.finishStatus := by
  have hs := (FinishOp.run_cases h).unfinished
  have hnf : (JobModel.load l.job).values.isFinished = false := by
    simpa [QueuedJob.isFinished] using hs
  obtain ⟨op, job⟩ := l
  cases op with
  | cancel =>
    simp only [FinishOp.run, JobModel.finishCancel, hnf, Bool.false_eq_true, if_false] at h
    cases h
    exact JobModel.finishEntry_saved hs hf .cancel now row
  | finishSuccess msg =>
    simp only [FinishOp.run, JobModel.finishSuccess, hnf, Bool.false_eq_true, if_false] at h
    have he := JobModel.finishEntry_saved hs hf .success now row
    cases h
    simp only [Loaded.outcome]
    split
    · obtain ⟨h1, h2⟩ := JobModel.setFinishMessage_saved
        ((JobModel.load job).finishEntry .success now) msg row
      exact ⟨h1.trans he.1, h2.trans he.2⟩
    · exact he
  | finishFail reason =>
    simp only [FinishOp.run, JobModel.finishFail, hnf, Bool.false_eq_true, if_false] at h
    cases h
    simp only [Loaded.outcome]
    by_cases hr : job.retryMax > job.retryCount
    · obtain ⟨p1, p2⟩ := JobModel.putBack_saved job row
      obtain ⟨h1, h2⟩ := JobModel.setFinishMessage_saved
        (((JobModel.load job).setState .pending).setWorkerId none) reason row
      have hr' : (JobModel.load job).values.retryMax > (JobModel.load job).values.retryCount := hr
      rw [if_pos hr, if_pos hr']
      exact ⟨h1.trans p1, h2.trans p2⟩
    · obtain ⟨e1, e2⟩ := JobModel.finishEntry_saved hs hf .fail now row
      obtain ⟨h1, h2⟩ := JobModel.setFinishMessage_saved
        ((JobModel.load job).finishEntry .fail now) reason row
      have hr' : ¬ (JobModel.load job).values.retryMax > (JobModel.load job).values.retryCount := hr
      rw [if_neg hr, if_neg hr']
      exact ⟨h1.trans e1, h2.trans e2⟩

theorem run_finished {l : Loaded} {now : Nat} (h : l.job.state = .finished) :
    l.op.run now (JobModel.load l.job) = .error .alreadyTerminated := by
  have hf : (JobModel.load l.job).values.isFinished = true := isFinished_iff.mpr h
  cases hop : l.op with
  | cancel => simp only [FinishOp.run, JobModel.finishCancel, hf, if_true]
  | finishSuccess msg => simp only [FinishOp.run, JobModel.finishSuccess, hf, if_true]
  | finishFail reason => simp only [FinishOp.run, JobModel.finishFail, hf, if_true]

theorem run_unfinished {l : Loaded} (now : Nat) (h : l.job.state ≠ .finished) :
    ∃ m, l.op.run now (JobModel.load l.job) = .ok m := by
  have hf : (JobModel.load l.job).values.isFinished = false := by
    simpa [QueuedJob.isFinished] using h
  cases hop : l.op with
  | cancel => exact ⟨_, by rw [FinishOp.run, JobModel.finishCancel, hf]; rfl⟩
  | finishSuccess msg => exact ⟨_, by rw [FinishOp.run, JobModel.finishSuccess, hf]; rfl⟩
  | finishFail reason => exact ⟨_, by rw [FinishOp.run, JobModel.finishFail, hf]; rfl⟩

theorem run_id {l : Loaded} {now : Nat} {m : JobModel}
    (h : l.op.run now (JobModel.load l.job) = .ok m) : m.values.id = l.job.id :=
  (FinishOp.run_cases h).consistent.id_eq

namespace RaceStep

/-- A save either raises and writes nothing, or rewrites the one row by the
changed columns. -/
theorem save_find {t : JobTable} {l : Loaded} {now : Nat} {m : JobModel}
    (h : l.op.run now (JobModel.load l.job) = .ok m) :
    ∃ t', save t l now = .ok t' ∧
      ∀ k, t'.find k = if k = l.job.id then (t.find k).map m.saveChanges else t.find k := by
  have hv := (FinishOp.run_cases h).valid
  have hid := run_id h
  by_cases hc : m.changed = []
  · refine ⟨t, by simp only [save, h, bind, Except.bind, JobModel.store, if_pos hc], fun k => ?_⟩
    have hsame : m.saveChanges = id := by
      funext row
      simp [JobModel.saveChanges, hc]
    rw [hsame, Option.map_id_fun, id_eq, ite_self]
  · simp only [save, h, bind, Except.bind, JobModel.store, if_neg hc, if_pos hv]
    refine ⟨_, rfl, fun k => ?_⟩
    rw [Table.find_update]
    cases hf : t.find k with
    | none => simp
    | some x =>
      have hx : x.id = k := t.pk_of_find hf
      rw [Option.map_some, hid, hx]
      by_cases hk : k = l.job.id
      · rw [if_pos hk, if_pos hk]; rfl
      · rw [if_neg hk, if_neg hk]

def Keeps (s : RaceState) (c : RaceStep) : Prop :=
  (∀ k row, s.jobs.find k = some row → row.state = .finished →
    ∃ row', (c.step s).jobs.find k = some row' ∧ row'.state = .finished ∧
      row'.finishStatus = row.finishStatus) ∧
  ∀ k row, s.jobs.find k = some row → row.state = .finished → c.handedOut s ≠ some k

theorem call_keeps {t : JobTable} {k : Nat} {row : QueuedJob} (c : JobCall)
    (hk : t.find k = some row) (hf : row.state = .finished) :
    (∃ row', (c.step t).find k = some row' ∧ row'.state = .finished ∧
      row'.finishStatus = row.finishStatus) ∧ c.handedOut t ≠ some k := by
  obtain ⟨row', hrow', hs⟩ := JobCall.row_step (c := c) hk
  obtain ⟨rfl, ho⟩ := hs.finished_same hf
  have hid : row'.id = k := t.pk_of_find hk
  exact ⟨⟨row', hrow', hf, rfl⟩, hid ▸ ho⟩

end RaceStep

/-! ## The invariant -/

/-- As long as no finished job was touched, only finished jobs carry a status,
in the table as in the loaded objects. -/
structure RaceInv (s : RaceState) : Prop where
  rows : ∀ k row, s.jobs.find k = some row → row.state ≠ .finished → row.finishStatus = none
  loaded : ∀ l ∈ s.loaded, l.job.state ≠ .finished → l.job.finishStatus = none

theorem raceInv_start : RaceInv RaceState.start where
  rows _ _ h := by cases h
  loaded _ h := by cases h

theorem raceInv_call {t : JobTable} {loaded : List Loaded} (h : RaceInv ⟨t, loaded⟩) (c : JobCall)
    (hc : ∀ op jobId now, c ≠ .finish op jobId now) : RaceInv ⟨c.step t, loaded⟩ where
  loaded := h.loaded
  rows k row' hk hf := by
    rcases JobCall.row_origin hk with ⟨row, hrow, hs⟩ | ⟨queueName, resourceId, params, opts, -, -, rfl⟩
    · cases hs with
      | same => exact h.rows k row' hrow hf
      | taken queueName w r now he hp ho =>
        have := h.rows k row hrow (by rw [hp]; decide)
        simpa [QueuedJob.taken] using this
      | finished op now m he hm => exact absurd he (hc _ _ _)
    · rfl

/-- Over a finished row a write keeps state and status exactly when it is
harmless. -/
theorem harmless_write_iff {l : Loaded} {now : Nat} {m : JobModel}
    (h : l.op.run now (JobModel.load l.job) = .ok m) (hf : l.job.finishStatus = none)
    {row : QueuedJob} (hrow : row.state = .finished) :
    (m.saveChanges row).state = .finished ∧ (m.saveChanges row).finishStatus = row.finishStatus ↔
      l.Harmless row := by
  have hs := (FinishOp.run_cases h).unfinished
  have hsaved := run_saved h hf row
  unfold Loaded.Harmless
  cases ho : l.outcome with
  | some status =>
    rw [ho] at hsaved
    simp only [hs, false_or]
    rw [hsaved.1, hsaved.2]
    simp [eq_comm]
  | none =>
    rw [ho] at hsaved
    simp only [hs, false_or]
    rw [hsaved.1, hsaved.2, hrow]
    by_cases hp : l.job.state = .pending
    · simp [hp]
    · simp [hp]

/-- A write keeps the invariant if it keeps the state of a finished row. -/
theorem raceInv_saved {l : Loaded} {now : Nat} {m : JobModel}
    (h : l.op.run now (JobModel.load l.job) = .ok m) (hf : l.job.finishStatus = none)
    {row : QueuedJob} (hrow : row.state ≠ .finished → row.finishStatus = none)
    (hkeep : row.state = .finished → (m.saveChanges row).state = .finished)
    (hs : (m.saveChanges row).state ≠ .finished) : (m.saveChanges row).finishStatus = none := by
  have hsaved := run_saved h hf row
  cases ho : l.outcome with
  | some status =>
    rw [ho] at hsaved
    exact absurd hsaved.1 hs
  | none =>
    rw [ho] at hsaved
    rw [hsaved.2]
    exact hrow fun he => hs (hkeep he)

namespace RaceStep

theorem step_write {s : RaceState} {i : Nat} {l : Loaded} (now : Nat) (hl : s.loaded[i]? = some l) :
    (RaceStep.write i now).step s =
      { jobs := match save s.jobs l now with
          | .ok t => t
          | .error _ => s.jobs
        loaded := s.loaded.eraseIdx i } := by
  simp only [step, hl]

theorem save_finished {t : JobTable} {l : Loaded} {now : Nat} (h : l.job.state = .finished) :
    save t l now = .error .alreadyTerminated := by
  rw [save, run_finished h]; rfl

theorem step_write_finished {s : RaceState} {i : Nat} {l : Loaded} (now : Nat)
    (hl : s.loaded[i]? = some l) (hf : l.job.state = .finished) :
    ((RaceStep.write i now).step s).jobs = s.jobs := by
  rw [step_write now hl, save_finished hf]

theorem step_write_find {s : RaceState} {i : Nat} {l : Loaded} {now : Nat} {m : JobModel}
    (hl : s.loaded[i]? = some l) (h : l.op.run now (JobModel.load l.job) = .ok m) (k : Nat) :
    ((RaceStep.write i now).step s).jobs.find k =
      if k = l.job.id then (s.jobs.find k).map m.saveChanges else s.jobs.find k := by
  obtain ⟨t', ht', hfind⟩ := save_find (t := s.jobs) h
  rw [step_write now hl, ht']
  exact hfind k

theorem step_loaded_mem {s : RaceState} {i now : Nat} {x : Loaded}
    (h : x ∈ ((RaceStep.write i now).step s).loaded) : x ∈ s.loaded := by
  simp only [step] at h
  split at h
  · exact h
  · exact List.mem_of_mem_eraseIdx h

/-- A step keeps the finished jobs exactly when its write is harmless. -/
theorem keeps_iff {s : RaceState} (hI : RaceInv s) (c : RaceStep) : Keeps s c ↔ WriteOk s c := by
  cases c with
  | submit queueName resourceId params opts =>
    refine iff_of_true ⟨fun k row hk hf => ?_, fun k row hk hf => ?_⟩ trivial
    · exact (call_keeps (.submit queueName resourceId params opts) hk hf).1
    · exact (call_keeps (.submit queueName resourceId params opts) hk hf).2
  | pop queueName w r now =>
    refine iff_of_true ⟨fun k row hk hf => ?_, fun k row hk hf => ?_⟩ trivial
    · exact (call_keeps (.pop queueName w r now) hk hf).1
    · exact (call_keeps (.pop queueName w r now) hk hf).2
  | read op jobId =>
    refine iff_of_true ⟨fun k row hk hf => ⟨row, ?_, hf, rfl⟩, fun _ _ _ _ => by simp [handedOut]⟩
      trivial
    simp only [step]
    cases hj : s.jobs.find jobId with
    | none => exact hk
    | some job => exact hk
  | write i now =>
    constructor
    · rintro ⟨hkeep, -⟩ l hl row hrow hf
      by_cases hfin : l.job.state = .finished
      · exact Or.inl hfin
      · obtain ⟨m, hm⟩ := run_unfinished now hfin
        obtain ⟨row', hrow', hs', hst'⟩ := hkeep l.job.id row hrow hf
        rw [step_write_find hl hm, if_pos rfl, hrow, Option.map_some] at hrow'
        obtain rfl := Option.some.inj hrow'
        exact (harmless_write_iff hm (hI.loaded l (List.mem_of_getElem? hl) hfin) hf).mp ⟨hs', hst'⟩
    · intro hok
      refine ⟨fun k row hk hf => ?_, fun _ _ _ _ => by simp [handedOut]⟩
      cases hl : s.loaded[i]? with
      | none => exact ⟨row, by simp only [step, hl]; exact hk, hf, rfl⟩
      | some l =>
        by_cases hfin : l.job.state = .finished
        · exact ⟨row, by rw [step_write_finished now hl hfin, hk], hf, rfl⟩
        · obtain ⟨m, hm⟩ := run_unfinished now hfin
          rw [step_write_find hl hm, hk]
          by_cases hid : k = l.job.id
          · subst hid
            rw [if_pos rfl]
            have hsafe := hok l hl row hk hf
            have := (harmless_write_iff hm (hI.loaded l (List.mem_of_getElem? hl) hfin) hf).mpr hsafe
            exact ⟨_, rfl, this⟩
          · rw [if_neg hid]; exact ⟨row, rfl, hf, rfl⟩

theorem inv_step {s : RaceState} (hI : RaceInv s) {c : RaceStep} (hc : Keeps s c) :
    RaceInv (c.step s) := by
  cases c with
  | submit queueName resourceId params opts =>
    exact raceInv_call (t := s.jobs) hI _ (by simp)
  | pop queueName w r now => exact raceInv_call (t := s.jobs) hI _ (by simp)
  | read op jobId =>
    simp only [step]
    cases hj : s.jobs.find jobId with
    | none => exact hI
    | some job =>
      refine ⟨hI.rows, fun l hl hf => ?_⟩
      rcases List.mem_append.mp hl with hl | hl
      · exact hI.loaded l hl hf
      · obtain rfl := List.mem_singleton.mp hl
        exact hI.rows jobId job hj hf
  | write i now =>
    refine ⟨fun k row' hk hf => ?_, fun x hx => hI.loaded x (step_loaded_mem hx)⟩
    cases hl : s.loaded[i]? with
    | none =>
      simp only [step, hl] at hk
      exact hI.rows k row' hk hf
    | some l =>
      by_cases hfin : l.job.state = .finished
      · rw [step_write_finished now hl hfin] at hk
        exact hI.rows k row' hk hf
      · obtain ⟨m, hm⟩ := run_unfinished now hfin
        have hfind := step_write_find hl hm k
        rw [hk] at hfind
        by_cases hid : k = l.job.id
        · rw [if_pos hid] at hfind
          obtain ⟨row, hrow, rfl⟩ := Option.map_eq_some_iff.mp hfind.symm
          refine raceInv_saved hm (hI.loaded l (List.mem_of_getElem? hl) hfin) (hI.rows k row hrow)
            (fun hrf => ?_) hf
          obtain ⟨x, hx, hxs, -⟩ := hc.1 k row hrow hrf
          rw [hk] at hx
          rwa [Option.some.inj hx]
        · rw [if_neg hid] at hfind
          exact hI.rows k row' hfind.symm hf

end RaceStep

/-! ## Runs -/

/-- The finished jobs of `s` are the finished jobs of `s'` with their status. -/
def SameFinished (s s' : RaceState) : Prop :=
  ∀ k row, s.jobs.find k = some row → row.state = .finished →
    ∃ row', s'.jobs.find k = some row' ∧ row'.state = .finished ∧
      row'.finishStatus = row.finishStatus

theorem SameFinished.trans (a b c : RaceState) (h₁ : SameFinished a b) (h₂ : SameFinished b c) :
    SameFinished a c := by
  intro k row hk hf
  obtain ⟨row', hk', hf', hs'⟩ := h₁ k row hk hf
  obtain ⟨row'', hk'', hf'', hs''⟩ := h₂ k row' hk' hf'
  exact ⟨row'', hk'', hf'', hs''.trans hs'⟩

theorem raced_append (as bs : List RaceStep) :
    raced (as ++ bs) = bs.foldl RaceStep.step (raced as) := List.foldl_append

theorem finishedStays_iff_each (steps : List RaceStep) :
    FinishedStays steps ↔ Each RaceStep.step RaceStep.Keeps RaceState.start steps := by
  constructor
  · intro h
    rw [each_iff_cut]
    rintro pre c post rfl
    refine ⟨fun k row hk hf => ?_, fun k row hk hf => ?_⟩
    · have := (h pre [c] post rfl k row hk hf).1
      rwa [raced_append] at this
    · have := (h pre [] (c :: post) rfl k row hk hf).2 c post rfl
      rwa [List.append_nil] at this
  · rintro h pre mid post rfl k row hk hf
    rw [each_append, each_append] at h
    have hmid : SameFinished (raced pre) (raced (pre ++ mid)) := by
      rw [raced_append]
      exact (h.2.1.mono fun s c hc => hc.1).rel SameFinished
        (fun s k row hk hf => ⟨row, hk, hf, rfl⟩) SameFinished.trans
    obtain ⟨row', hk', hf', hs'⟩ := hmid k row hk hf
    refine ⟨⟨row', hk', hf', hs'⟩, ?_⟩
    rintro c post' rfl
    have hc := h.2.2.1
    rw [raced_append] at hk' ⊢
    exact hc.2 k row' hk' hf'

theorem finished_stays_iff (steps : List RaceStep) :
    FinishedStays steps ↔ Each RaceStep.step RaceStep.WriteOk RaceState.start steps := by
  rw [finishedStays_iff_each]
  constructor
  · intro h
    exact h.of_invariant RaceInv
      (fun s c hI hc => ⟨RaceStep.inv_step hI hc, (RaceStep.keeps_iff hI c).mp hc⟩) raceInv_start
  · intro h
    refine h.of_invariant RaceInv (fun s c hI hc => ?_) raceInv_start
    have hkeep := (RaceStep.keeps_iff hI c).mpr hc
    exact ⟨RaceStep.inv_step hI hkeep, hkeep⟩

/-- A worker reports a failure with retries left while a client cancels the job:
both read it running, the cancellation is written first. -/
def cancelRace : List RaceStep :=
  [.submit "q" "i-xxx" "" (some ⟨some 3, none⟩), .pop "q" (some "w1") none 0,
    .read (.finishFail (some (.text "error"))) 1, .read .cancel 1, .write 1 5, .write 0 6]

theorem cancelRace_resurrects : ¬ FinishedStays (cancelRace ++ [.pop "q" (some "w2") none 7]) := by
  intro h
  have hrow : ∃ row, (raced (cancelRace.take 5)).jobs.find 1 = some row ∧ row.state = .finished :=
    ⟨_, rfl, rfl⟩
  obtain ⟨row, hk, hf⟩ := hrow
  have := (h (cancelRace.take 5) (cancelRace.drop 5) _ rfl 1 row hk hf).2 _ [] rfl
  exact this (by decide)

end WakameVdc
