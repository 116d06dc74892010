import WakameVdc.QueuedJob
import Mathlib.Tactic.Linarith

/-!
# What the queue operations do to a row

One lemma per operation says everything it can do to the object it loaded:
`FinishOp.run_cases` for the three finishing operations and `popped_spec` for
`pop`. Everything else about the queue is derived from these two.
-/

namespace WakameVdc

open Lib

namespace JobModel

/-! ## Assigned columns -/

@[simp] theorem assign_values (m : JobModel) (c : JobColumn) (f : QueuedJob → QueuedJob) :
    (m.assign c f).values = f m.values := by
  unfold assign
  split
  · rename_i h; exact h.symm
  · rfl

@[simp] theorem load_values (job : QueuedJob) : (load job).values = job := rfl

@[simp] theorem setState_values (m : JobModel) (s : JobState) :
    (m.setState s).values = { m.values with state := s } := m.assign_values _ _

@[simp] theorem setWorkerId_values (m : JobModel) (w : Option String) :
    (m.setWorkerId w).values = { m.values with workerId := w } := m.assign_values _ _

@[simp] theorem setRetryMax_values (m : JobModel) (n : Int) :
    (m.setRetryMax n).values = { m.values with retryMax := n } := m.assign_values _ _

@[simp] theorem setRetryCount_values (m : JobModel) (n : Int) :
    (m.setRetryCount n).values = { m.values with retryCount := n } := m.assign_values _ _

@[simp] theorem setStartedAt_values (m : JobModel) (t : Nat) :
    (m.setStartedAt t).values = { m.values with startedAt := some t } := m.assign_values _ _

@[simp] theorem setFinishedAt_values (m : JobModel) (t : Nat) :
    (m.setFinishedAt t).values = { m.values with finishedAt := some t } := m.assign_values _ _

@[simp] theorem setFinishStatus_values (m : JobModel) (s : FinishStatus) :
    (m.setFinishStatus s).values = { m.values with finishStatus := some s } := m.assign_values _ _

@[simp] theorem setFinishMessage_values (m : JobModel) (msg : Option FinishReason) :
    (m.setFinishMessage msg).values =
      { m.values with finishMessage := some (finishMessageHash msg) } := rfl

@[simp] theorem setFinishMessage_changed (m : JobModel) (msg : Option FinishReason) :
    (m.setFinishMessage msg).changed = .finishMessage :: m.changed := rfl

@[simp] theorem finishEntry_values (m : JobModel) (s : FinishStatus) (now : Nat) :
    (m.finishEntry s now).values =
      { m.values with state := .finished, finishedAt := some now, finishStatus := some s } := by
  simp [finishEntry]

/-- The object was loaded from `row`: outside its changed columns it still
agrees with it, so saving it over `row` stores exactly its values. -/
def Of (row : QueuedJob) (m : JobModel) : Prop := m.saveChanges row = m.values

theorem of_load (row : QueuedJob) : Of row (load row) := rfl

theorem Of.id_eq {row : QueuedJob} {m : JobModel} (h : Of row m) : m.values.id = row.id := by
  rw [← h]; rfl

/-- Assigning a column the save will write keeps the object consistent. -/
theorem Of.assign {row : QueuedJob} {m : JobModel} (h : Of row m) (c : JobColumn)
    (f : QueuedJob → QueuedJob)
    (hf : saveChanges ⟨f m.values, c :: m.changed⟩ row = f (m.saveChanges row)) :
    Of row (m.assign c f) := by
  unfold JobModel.assign
  split
  · exact h
  · unfold Of; rw [hf, h]

section
variable {row : QueuedJob} {m : JobModel} (h : Of row m)
include h

theorem Of.setState (s : JobState) : Of row (m.setState s) :=
  h.assign _ _ (by simp [saveChanges])

theorem Of.setWorkerId (w : Option String) : Of row (m.setWorkerId w) :=
  h.assign _ _ (by simp [saveChanges])

theorem Of.setRetryMax (n : Int) : Of row (m.setRetryMax n) :=
  h.assign _ _ (by simp [saveChanges])

theorem Of.setRetryCount (n : Int) : Of row (m.setRetryCount n) :=
  h.assign _ _ (by simp [saveChanges])

theorem Of.setStartedAt (t : Nat) : Of row (m.setStartedAt t) :=
  h.assign _ _ (by simp [saveChanges])

theorem Of.setFinishedAt (t : Nat) : Of row (m.setFinishedAt t) :=
  h.assign _ _ (by simp [saveChanges])

theorem Of.setFinishStatus (s : FinishStatus) : Of row (m.setFinishStatus s) :=
  h.assign _ _ (by simp [saveChanges])

theorem Of.setFinishMessage (msg : Option FinishReason) : Of row (m.setFinishMessage msg) := by
  have hs : (m.setFinishMessage msg).saveChanges row =
      { m.saveChanges row with finishMessage := some (finishMessageHash msg) } := by
    simp [saveChanges]
  unfold Of; rw [hs, h]; rfl

theorem Of.finishEntry (s : FinishStatus) (now : Nat) : Of row (m.finishEntry s now) :=
  ((h.setState .finished).setFinishedAt now).setFinishStatus s

end

/-- Saving a valid object over the row it was loaded from stores its values and
leaves every other row alone. -/
theorem store_ok {t : JobTable} {row : QueuedJob} {m : JobModel} (h : Of row m)
    (hrow : t.find row.id = some row) (hv : m.values.validate = []) :
    ∃ t' : JobTable, m.store t = .ok t' ∧ t'.next = t.next ∧
      ∀ k, t'.find k = if k = row.id then some m.values else t.find k := by
  unfold store
  by_cases hc : m.changed = []
  · rw [if_pos hc]
    have hm : m.values = row := by
      rw [← h]; simp [saveChanges, hc]
    refine ⟨t, rfl, rfl, fun k => ?_⟩
    by_cases hk : k = row.id
    · rw [if_pos hk, hk, hrow, hm]
    · rw [if_neg hk]
  · rw [if_neg hc, if_pos hv]
    refine ⟨_, rfl, rfl, fun k => ?_⟩
    rw [Table.find_update]
    by_cases hk : k = row.id
    · rw [if_pos hk, hk, hrow, Option.map_some, h.id_eq, if_pos rfl, h]
    · rw [if_neg hk]
      cases hf : t.find k with
      | none => rfl
      | some x =>
        have hx : x.id ≠ m.values.id := by
          rw [h.id_eq]
          exact fun e => hk ((t.pk_of_find hf).symm.trans e)
        rw [Option.map_some, if_neg hx]

theorem store_invalid {t : JobTable} {m : JobModel} (hc : m.changed ≠ [])
    (hv : m.values.validate ≠ []) : m.store t = .error (.validationFailed m.values.validate) := by
  unfold store
  rw [if_neg hc, if_neg hv]

end JobModel

/-! ## The finishing operations -/

/-- What `cancel`, `finish_success` and `finish_fail` can do to a job: it was
not finished; it becomes finished, or a failed job with retries left goes back
to the queue; its counters stay. -/
structure FinishStep (op : FinishOp) (job : QueuedJob) (m : JobModel) : Prop where
  unfinished : job.state ≠ .finished
  consistent : m.Of job
  valid : m.values.validate = []
  queueName : m.values.queueName = job.queueName
  retryMax : m.values.retryMax = job.retryMax
  retryCount : m.values.retryCount = job.retryCount
  startedAt : m.values.startedAt = job.startedAt
  outcome : m.values.state = .finished ∨
    (∃ reason, op = .finishFail reason) ∧ m.values.state = .pending ∧
      m.values.workerId = none ∧ job.retryCount < job.retryMax

theorem validate_finished {job : QueuedJob} (hs : job.state = .finished)
    (h1 : job.finishStatus.isSome) (h2 : job.finishedAt.isSome) : job.validate = [] := by
  simp [QueuedJob.validate, hs, h1, h2, ← Option.not_isSome]

theorem validate_pending {job : QueuedJob} (hs : job.state = .pending)
    (h : job.workerId = none) : job.validate = [] := by
  simp [QueuedJob.validate, hs, h]

theorem isFinished_iff {job : QueuedJob} : job.isFinished = true ↔ job.state = .finished := by
  simp [QueuedJob.isFinished]

theorem FinishOp.run_cases {op : FinishOp} {now : Nat} {job : QueuedJob} {m : JobModel}
    (h : op.run now (JobModel.load job) = .ok m) : FinishStep op job m := by
  have hl := JobModel.of_load job
  cases op with
  | cancel =>
    simp only [FinishOp.run, JobModel.finishCancel] at h
    split at h
    · cases h
    · rename_i hf
      cases h
      exact ⟨fun e => hf (isFinished_iff.mpr e), hl.finishEntry _ _,
        validate_finished (by simp) (by simp) (by simp), by simp,
        by simp, by simp, by simp,
        Or.inl (by simp)⟩
  | finishSuccess msg =>
    simp only [FinishOp.run, JobModel.finishSuccess] at h
    split at h
    · cases h
    · rename_i hf
      have hf' : job.state ≠ .finished := fun e => hf (isFinished_iff.mpr e)
      cases h
      cases hm : msg.isSome with
      | false =>
        exact ⟨hf', hl.finishEntry _ _, validate_finished (by simp) (by simp) (by simp),
          by simp, by simp, by simp,
          by simp, Or.inl (by simp)⟩
      | true =>
        exact ⟨hf', (hl.finishEntry _ _).setFinishMessage _,
          validate_finished (by simp) (by simp) (by simp), by simp,
          by simp, by simp, by simp,
          Or.inl (by simp)⟩
  | finishFail reason =>
    simp only [FinishOp.run, JobModel.finishFail] at h
    split at h
    · cases h
    · rename_i hf
      have hf' : job.state ≠ .finished := fun e => hf (isFinished_iff.mpr e)
      cases h
      by_cases hr : job.retryMax > job.retryCount
      · have hr' : (JobModel.load job).values.retryMax > (JobModel.load job).values.retryCount := hr
        rw [if_pos hr']
        exact ⟨hf', ((hl.setState _).setWorkerId _).setFinishMessage _,
          validate_pending (by simp) (by simp), by simp,
          by simp, by simp, by simp,
          Or.inr ⟨⟨reason, rfl⟩, by simp, by simp, hr⟩⟩
      · have hr' : ¬ (JobModel.load job).values.retryMax > (JobModel.load job).values.retryCount := hr
        rw [if_neg hr']
        exact ⟨hf', (hl.finishEntry _ _).setFinishMessage _,
          validate_finished (by simp) (by simp) (by simp), by simp,
          by simp, by simp, by simp,
          Or.inl (by simp)⟩

/-! ## `pop` -/

namespace QueuedJob

/-- The row after a worker took the job: the first pop of a job fixes its
retry limit. -/
def taken (workerId : Option String) (retryMaxIfZero : Option Int) (now : Nat)
    (job : QueuedJob) : QueuedJob :=
  { job with
    workerId := workerId
    state := .running
    startedAt := some (job.startedAt.getD now)
    retryMax :=
      if job.startedAt = none ∧ job.retryMax = 0 ∧ retryMaxIfZero.getD 0 > 0 then
        retryMaxIfZero.getD 0
      else job.retryMax
    retryCount := job.retryCount + 1 }

theorem popped_values (workerId : Option String) (retryMaxIfZero : Option Int) (now : Nat)
    (job : QueuedJob) :
    (popped workerId retryMaxIfZero now job).values = taken workerId retryMaxIfZero now job := by
  unfold popped taken
  cases hs : job.startedAt with
  | some t => simp [hs]
  | none =>
    by_cases hz : job.retryMax = 0 ∧ retryMaxIfZero.getD 0 > 0
    · simp [hs, hz]
    · simp only [hs, JobModel.setState_values, JobModel.setWorkerId_values, JobModel.load_values,
        JobModel.setStartedAt_values, Option.isNone_none, if_true, if_neg hz, true_and,
        JobModel.setRetryCount_values, Option.getD_none]

theorem popped_of (workerId : Option String) (retryMaxIfZero : Option Int) (now : Nat)
    (job : QueuedJob) : (popped workerId retryMaxIfZero now job).Of job := by
  have h := ((JobModel.of_load job).setWorkerId workerId).setState .running
  unfold popped
  apply JobModel.Of.setRetryCount
  simp only
  split
  · split
    · exact (h.setStartedAt now).setRetryMax _
    · exact h.setStartedAt now
  · exact h

theorem popped_changed (workerId : Option String) (retryMaxIfZero : Option Int) (now : Nat)
    (job : QueuedJob) : (popped workerId retryMaxIfZero now job).changed ≠ [] := by
  intro h
  have hm := popped_of workerId retryMaxIfZero now job
  have hv := popped_values workerId retryMaxIfZero now job
  have hr : (popped workerId retryMaxIfZero now job).values = job := by
    rw [← hm]; simp [JobModel.saveChanges, h]
  have : (taken workerId retryMaxIfZero now job).retryCount = job.retryCount := by rw [← hv, hr]
  simp only [taken] at this
  omega

theorem taken_validate (workerId : Option String) (retryMaxIfZero : Option Int) (now : Nat)
    (job : QueuedJob) :
    (taken workerId retryMaxIfZero now job).validate = [] ↔ workerId ≠ none := by
  simp [validate, taken]

theorem poppable_iff {queueName : String} {job : QueuedJob} :
    poppable queueName job = true ↔
      job.queueName = queueName ∧ job.state = .pending ∧ job.workerId = none := by
  simp [poppable, and_assoc]

end QueuedJob

/-! ## One call on the table -/

inductive JobCall
  | submit (queueName resourceId params : String) (opts : Option QueuedJob.SubmitOpts)
  | pop (queueName : String) (workerId : Option String) (retryMaxIfZero : Option Int) (now : Nat)
  | finish (op : FinishOp) (jobId now : Nat)
  deriving DecidableEq, Repr

namespace JobCall

/-- The call as `QueuedJob` answers it. A call that raises leaves the table as
it was. -/
def run (t : JobTable) : JobCall → Except JobError (JobTable × Option QueuedJob)
  | .submit queueName resourceId params opts =>
    let (t, job) := QueuedJob.submit t queueName resourceId params opts
    .ok (t, some job)
  | .pop queueName workerId retryMaxIfZero now =>
    QueuedJob.pop t queueName workerId retryMaxIfZero now
  | .finish op jobId now => do
    let (t, job) ← QueuedJob.finish t op jobId now
    return (t, some job)

def step (t : JobTable) (c : JobCall) : JobTable :=
  match c.run t with
  | .ok (t, _) => t
  | .error _ => t

def answer (t : JobTable) (c : JobCall) : Except JobError (Option QueuedJob) :=
  (c.run t).map Prod.snd

def handedOut (t : JobTable) : JobCall → Option Nat
  | c@(.pop ..) =>
    match c.answer t with
    | .ok (some job) => some job.id
    | _ => none
  | _ => none

theorem step_of_ok {t t' : JobTable} {c : JobCall} {a : Option QueuedJob}
    (h : c.run t = .ok (t', a)) : c.step t = t' := by
  unfold step; rw [h]

theorem step_of_error {t : JobTable} {c : JobCall} {e : JobError} (h : c.run t = .error e) :
    c.step t = t := by
  unfold step; rw [h]

theorem answer_of_ok {t t' : JobTable} {c : JobCall} {a : Option QueuedJob}
    (h : c.run t = .ok (t', a)) : c.answer t = .ok a := by
  unfold answer; rw [h]; rfl

theorem answer_of_error {t : JobTable} {c : JobCall} {e : JobError} (h : c.run t = .error e) :
    c.answer t = .error e := by
  unfold answer; rw [h]; rfl

theorem find_submit (t : JobTable) (queueName resourceId params : String)
    (opts : Option QueuedJob.SubmitOpts) (k : Nat) :
    ((JobCall.submit queueName resourceId params opts).step t).find k =
      if k = t.next then some (QueuedJob.submitted queueName resourceId params opts k)
      else t.find k :=
  t.find_create (QueuedJob.submitted queueName resourceId params opts) (fun _ => rfl) k

/-- `pop` either finds nothing, or raises for want of a worker id, or takes the
pending job of the queue with the lowest id. -/
theorem pop_cases (t : JobTable) (queueName : String) (workerId : Option String)
    (retryMaxIfZero : Option Int) (now : Nat) :
    ((JobCall.pop queueName workerId retryMaxIfZero now).run t = .ok (t, none) ∧
      ∀ job ∈ t.rows, QueuedJob.poppable queueName job = false) ∨
    ∃ job ∈ t.rows, QueuedJob.poppable queueName job = true ∧
      (∀ x ∈ t.rows, QueuedJob.poppable queueName x = true → job.id ≤ x.id) ∧
      (workerId = none ∧
          (∃ e, (JobCall.pop queueName workerId retryMaxIfZero now).run t = .error e) ∨
        workerId ≠ none ∧ ∃ t' : JobTable,
          (JobCall.pop queueName workerId retryMaxIfZero now).run t =
            .ok (t', some (job.taken workerId retryMaxIfZero now)) ∧ t'.next = t.next ∧
          ∀ k, t'.find k =
            if k = job.id then some (job.taken workerId retryMaxIfZero now) else t.find k) := by
  simp only [run, QueuedJob.pop]
  cases hf : t.first (QueuedJob.poppable queueName) with
  | none => exact Or.inl ⟨rfl, t.first_none hf⟩
  | some job =>
    obtain ⟨hmem, hp, hmin⟩ := t.first_spec hf
    refine Or.inr ⟨job, hmem, hp, hmin, ?_⟩
    have hv := QueuedJob.popped_values workerId retryMaxIfZero now job
    by_cases hw : workerId = none
    · refine Or.inl ⟨hw, ?_⟩
      have hbad : (QueuedJob.popped workerId retryMaxIfZero now job).values.validate ≠ [] := by
        rw [hv, Ne, QueuedJob.taken_validate]; simpa using hw
      dsimp only
      rw [JobModel.store_invalid (QueuedJob.popped_changed _ _ _ _) hbad]
      exact ⟨_, rfl⟩
    · refine Or.inr ⟨hw, ?_⟩
      have hgood : (QueuedJob.popped workerId retryMaxIfZero now job).values.validate = [] := by
        rw [hv, QueuedJob.taken_validate]; exact hw
      obtain ⟨t', ht', hnext, hfind⟩ := JobModel.store_ok
        (QueuedJob.popped_of workerId retryMaxIfZero now job) (t.find_of_mem hmem) hgood
      rw [hv] at hfind
      refine ⟨t', ?_, hnext, hfind⟩
      dsimp only
      rw [ht', hv]
      rfl

theorem finish_cases (t : JobTable) (op : FinishOp) (jobId now : Nat) :
    (∃ e, (JobCall.finish op jobId now).run t = .error e) ∨
    ∃ job m, t.find jobId = some job ∧ FinishStep op job m ∧ ∃ t' : JobTable,
      (JobCall.finish op jobId now).run t = .ok (t', some m.values) ∧ t'.next = t.next ∧
      ∀ k, t'.find k = if k = jobId then some m.values else t.find k := by
  simp only [run, QueuedJob.finish]
  cases hf : t.find jobId with
  | none => exact Or.inl ⟨_, rfl⟩
  | some job =>
    cases hr : op.run now (JobModel.load job) with
    | error e => exact Or.inl ⟨e, by simp [hr]; rfl⟩
    | ok m =>
      have hs := FinishOp.run_cases hr
      have hid : job.id = jobId := t.pk_of_find hf
      obtain ⟨t', ht', hnext, hfind⟩ :=
        JobModel.store_ok hs.consistent (by rw [hid]; exact hf) hs.valid
      rw [hid] at hfind
      refine Or.inr ⟨job, m, rfl, hs, t', ?_, hnext, hfind⟩
      simp only [hr]
      show ((m.store t >>= fun t => pure (t, m.values)) >>= _) = _
      rw [ht']
      rfl

end JobCall

end WakameVdc
