import WakameVdc.Lib.Run
import WakameVdc.Lib.Table

/-!
# The job queue table

`models/queued_job.rb`: the row type, its validation, and the operations on one
loaded model object. A loaded object remembers which of its columns were
assigned a new value, since `save_changes` writes only these.
-/

namespace WakameVdc

open Lib

inductive JobState
  | pending | running | finished
  deriving DecidableEq, Repr

inductive FinishStatus
  | cancel | success | fail
  deriving DecidableEq, Repr

/-- What a caller hands to `finish_message=`. -/
inductive FinishReason
  | exception (message errorType : String)
  | structured (yaml : String)
  | text (s : String)
  deriving DecidableEq, Repr

inductive FinishMessage
  | error (message errorType : String)
  | structured (yaml : String)
  | message (s : String)
  deriving DecidableEq, Repr

structure QueuedJob where
  id : Nat
  parentId : Option Nat
  queueName : String
  resourceId : String
  params : String
  state : JobState
  workerId : Option String
  retryMax : Int
  retryCount : Int
  finishStatus : Option FinishStatus
  finishMessage : Option FinishMessage
  startedAt : Option Nat
  finishedAt : Option Nat
  deriving DecidableEq, Repr

instance : Row QueuedJob := ⟨QueuedJob.id⟩

abbrev JobTable := Table QueuedJob

inductive JobColumn
  | state | workerId | retryMax | retryCount | finishStatus | finishMessage | startedAt | finishedAt
  deriving DecidableEq, Repr

inductive JobError
  | alreadyTerminated
  | unknownJob (id : Nat)
  | validationFailed (errors : List (JobColumn × String))
  | typeError
  deriving DecidableEq, Repr

namespace QueuedJob

def validate (job : QueuedJob) : List (JobColumn × String) :=
  match job.state with
  | .finished =>
    (if job.finishStatus.isNone then
      [(.finishStatus, "finish_status is not set at finished state")] else []) ++
    (if job.finishedAt.isNone then
      [(.finishedAt, "finished_at is not set at finished state")] else [])
  | .pending =>
    if job.workerId.isSome then
      [(.workerId, "worker_id must be unset during pending state")] else []
  | .running =>
    if job.workerId.isNone then
      [(.workerId, "worker_id must be set during running state")] else []

def isFinished (job : QueuedJob) : Bool := job.state == .finished

end QueuedJob

/-- A loaded `QueuedJob` object: its values and the columns assigned since. -/
structure JobModel where
  values : QueuedJob
  changed : List JobColumn
  deriving DecidableEq, Repr

namespace JobModel

def load (job : QueuedJob) : JobModel := ⟨job, []⟩

/-- Assigning an attribute records the column only when the value differs. -/
def assign (m : JobModel) (c : JobColumn) (f : QueuedJob → QueuedJob) : JobModel :=
  if f m.values = m.values then m else ⟨f m.values, c :: m.changed⟩

def setState (s : JobState) (m : JobModel) : JobModel :=
  m.assign .state fun v => { v with state := s }

def setWorkerId (w : Option String) (m : JobModel) : JobModel :=
  m.assign .workerId fun v => { v with workerId := w }

def setRetryMax (n : Int) (m : JobModel) : JobModel :=
  m.assign .retryMax fun v => { v with retryMax := n }

def setRetryCount (n : Int) (m : JobModel) : JobModel :=
  m.assign .retryCount fun v => { v with retryCount := n }

def setStartedAt (t : Nat) (m : JobModel) : JobModel :=
  m.assign .startedAt fun v => { v with startedAt := some t }

def setFinishedAt (t : Nat) (m : JobModel) : JobModel :=
  m.assign .finishedAt fun v => { v with finishedAt := some t }

def setFinishStatus (s : FinishStatus) (m : JobModel) : JobModel :=
  m.assign .finishStatus fun v => { v with finishStatus := some s }

def finishMessageHash : Option FinishReason → FinishMessage
  | some (.exception message errorType) => .error message errorType
  | some (.structured yaml) => .structured yaml
  | some (.text s) => .message s
  | none => .message ""

def setFinishMessage (msg : Option FinishReason) (m : JobModel) : JobModel :=
  ⟨{ m.values with finishMessage := some (finishMessageHash msg) }, .finishMessage :: m.changed⟩

def finishEntry (s : FinishStatus) (now : Nat) (m : JobModel) : JobModel :=
  ((m.setState .finished).setFinishedAt now).setFinishStatus s

def finishCancel (now : Nat) (m : JobModel) : Except JobError JobModel :=
  if m.values.isFinished then .error .alreadyTerminated
  else .ok (m.finishEntry .cancel now)

def finishSuccess (msg : Option FinishReason) (now : Nat) (m : JobModel) :
    Except JobError JobModel :=
  if m.values.isFinished then .error .alreadyTerminated
  else
    let m := m.finishEntry .success now
    .ok (if msg.isSome then m.setFinishMessage msg else m)

def finishFail (reason : Option FinishReason) (now : Nat) (m : JobModel) :
    Except JobError JobModel :=
  if m.values.isFinished then .error .alreadyTerminated
  else
    -- push the job back to the queue while retries are left
    let m := if m.values.retryMax > m.values.retryCount then
        (m.setState .pending).setWorkerId none
      else m.finishEntry .fail now
    .ok (m.setFinishMessage reason)

/-- `UPDATE queued_jobs SET <changed columns> WHERE id = ...` on the stored row. -/
def saveChanges (m : JobModel) (row : QueuedJob) : QueuedJob :=
  { row with
    state := if .state ∈ m.changed then m.values.state else row.state
    workerId := if .workerId ∈ m.changed then m.values.workerId else row.workerId
    retryMax := if .retryMax ∈ m.changed then m.values.retryMax else row.retryMax
    retryCount := if .retryCount ∈ m.changed then m.values.retryCount else row.retryCount
    finishStatus := if .finishStatus ∈ m.changed then m.values.finishStatus else row.finishStatus
    finishMessage :=
      if .finishMessage ∈ m.changed then m.values.finishMessage else row.finishMessage
    startedAt := if .startedAt ∈ m.changed then m.values.startedAt else row.startedAt
    finishedAt := if .finishedAt ∈ m.changed then m.values.finishedAt else row.finishedAt }

/-- `save_changes`: validate the object, then write its changed columns over
whatever the row holds by now. -/
def store (t : JobTable) (m : JobModel) : Except JobError JobTable :=
  if m.changed = [] then .ok t
  else if m.values.validate = [] then
    .ok (t.update (fun row => if row.id = m.values.id then m.saveChanges row else row) fun row => by
      by_cases h : row.id = m.values.id <;> simp [h, Row.pk, saveChanges])
  else .error (.validationFailed m.values.validate)

end JobModel

/-- The three operations that read a job by its uuid and save it later. -/
inductive FinishOp
  | cancel
  | finishSuccess (msg : Option FinishReason)
  | finishFail (reason : Option FinishReason)
  deriving DecidableEq, Repr

def FinishOp.run (now : Nat) (m : JobModel) : FinishOp → Except JobError JobModel
  | .cancel => m.finishCancel now
  | .finishSuccess msg => m.finishSuccess msg now
  | .finishFail reason => m.finishFail reason now

namespace QueuedJob

structure SubmitOpts where
  retryMax : Option Int
  parentId : Option Nat
  deriving DecidableEq, Repr

/-- The row `submit` inserts; `{:retry_max=>0}.merge(opts || {})`. -/
def submitted (queueName resourceId params : String) (opts : Option SubmitOpts) (id : Nat) :
    QueuedJob where
  id := id
  parentId := none
  queueName := queueName
  resourceId := resourceId
  params := params
  state := .pending
  workerId := none
  retryMax := ((opts.bind SubmitOpts.retryMax).getD 0)
  retryCount := 0
  finishStatus := none
  finishMessage := none
  startedAt := none
  finishedAt := none

def submit (t : JobTable) (queueName resourceId params : String) (opts : Option SubmitOpts) :
    JobTable × QueuedJob :=
  (t.create (submitted queueName resourceId params opts) fun _ => rfl,
    submitted queueName resourceId params opts t.next)

/-- The rows `pop` chooses from. -/
def poppable (queueName : String) (job : QueuedJob) : Bool :=
  job.queueName == queueName && job.state == .pending && job.workerId.isNone

/-- The object `pop` saves. -/
def popped (workerId : Option String) (retryMaxIfZero : Option Int) (now : Nat)
    (job : QueuedJob) : JobModel :=
  let m := ((JobModel.load job).setWorkerId workerId).setState .running
  let m := if m.values.startedAt.isNone then
      let m := m.setStartedAt now
      if m.values.retryMax = 0 ∧ retryMaxIfZero.getD 0 > 0 then
        m.setRetryMax (retryMaxIfZero.getD 0)
      else m
    else m
  m.setRetryCount (m.values.retryCount + 1)

def pop (t : JobTable) (queueName : String) (workerId : Option String)
    (retryMaxIfZero : Option Int) (now : Nat) : Except JobError (JobTable × Option QueuedJob) :=
  match t.first (poppable queueName) with
  | none => .ok (t, none)
  | some job => do
    let m := popped workerId retryMaxIfZero now job
    let t ← m.store t
    return (t, some m.values)

/-- `self[job_uuid]`, the operation, `save_changes`, with nothing in between. -/
def finish (t : JobTable) (op : FinishOp) (jobId now : Nat) : Except JobError (JobTable × QueuedJob) :=
  match t.find jobId with
  | none => .error (.unknownJob jobId)
  | some job => do
    let m ← op.run now (JobModel.load job)
    let t ← m.store t
    return (t, m.values)

end QueuedJob

end WakameVdc
