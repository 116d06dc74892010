import WakameVdc.QueuedJobRun

/-!
# The two job queue backends

`messaging/job_queue.rb` and `node_modules/job_queue_proxy.rb`. `Sequel` works
on the table itself, `AMQPClient` hands every call to the `JobQueueProxy` of
another process. Either answers with the hash of the job, which holds the
columns of its row.
-/

namespace WakameVdc

open Lib

namespace JobQueue

structure PopOpts where
  retryMaxIfZero : Option Int
  deriving DecidableEq, Repr

/-- A call of the `JobQueue` interface; options left out are the empty hash,
`nil` is `none`. -/
inductive Call
  | submit (queueName resourceId params : String) (opts : Option QueuedJob.SubmitOpts)
  | pop (queueName : String) (workerId : Option String) (opts : Option PopOpts) (now : Nat)
  | cancel (jobId now : Nat)
  | finishSuccess (jobId : Nat) (finishMessage : Option FinishReason) (now : Nat)
  | finishFail (jobId : Nat) (failureReason : Option FinishReason) (now : Nat)
  deriving DecidableEq, Repr

abbrev Answer := Except JobError (JobTable × Option QueuedJob)

/-- `{...}.merge(opts)` raises on nil. -/
def mergeOpts {α : Type} (opts : Option α) : Except JobError α :=
  match opts with
  | some o => .ok o
  | none => .error .typeError

namespace Sequel

/-- The job id of the parent stands where `QueuedJob.submit` takes its options:
nil there means no options, anything else is no hash to merge. -/
def submit (t : JobTable) (queueName resourceId params : String)
    (opts : Option QueuedJob.SubmitOpts) : Answer := do
  let opts ← mergeOpts opts
  match opts.parentId with
  | none => (JobCall.submit queueName resourceId params none).run t
  | some _ => .error .typeError

def pop (t : JobTable) (queueName : String) (workerId : Option String) (opts : Option PopOpts)
    (now : Nat) : Answer := do
  let opts ← mergeOpts opts
  (JobCall.pop queueName workerId opts.retryMaxIfZero now).run t

def cancel (t : JobTable) (jobId now : Nat) : Answer := (JobCall.finish .cancel jobId now).run t

def finishSuccess (t : JobTable) (jobId : Nat) (finishMessage : Option FinishReason) (now : Nat) :
    Answer :=
  (JobCall.finish (.finishSuccess finishMessage) jobId now).run t

def finishFail (t : JobTable) (jobId : Nat) (failureReason : Option FinishReason) (now : Nat) :
    Answer :=
  (JobCall.finish (.finishFail failureReason) jobId now).run t

def run (t : JobTable) : Call → Answer
  | .submit queueName resourceId params opts => submit t queueName resourceId params opts
  | .pop queueName workerId opts now => pop t queueName workerId opts now
  | .cancel jobId now => cancel t jobId now
  | .finishSuccess jobId finishMessage now => finishSuccess t jobId finishMessage now
  | .finishFail jobId failureReason now => finishFail t jobId failureReason now

end Sequel

namespace JobQueueProxy

def submit (t : JobTable) (queueName resourceId params : String)
    (opts : Option QueuedJob.SubmitOpts) : Answer :=
  (JobCall.submit queueName resourceId params (some (opts.getD ⟨none, none⟩))).run t

def pop (t : JobTable) (queueName : String) (workerId : Option String) (opts : PopOpts)
    (now : Nat) : Answer :=
  (JobCall.pop queueName workerId opts.retryMaxIfZero now).run t

def cancel (t : JobTable) (jobId now : Nat) : Answer := (JobCall.finish .cancel jobId now).run t

def finishSuccess (t : JobTable) (jobId : Nat) (finishMessage : Option FinishReason) (now : Nat) :
    Answer :=
  (JobCall.finish (.finishSuccess finishMessage) jobId now).run t

def finishFail (t : JobTable) (jobId : Nat) (failureReason : Option FinishReason) (now : Nat) :
    Answer :=
  (JobCall.finish (.finishFail failureReason) jobId now).run t

end JobQueueProxy

namespace AMQPClient

/-- `rpc.request('jobqueue-proxy', ...)` for every call; the proxy's hash comes
back, or its exception is raised again. -/
def run (t : JobTable) : Call → Answer
  | .submit queueName resourceId params opts =>
    JobQueueProxy.submit t queueName resourceId params opts
  | .pop queueName workerId opts now => do
    let opts ← mergeOpts opts
    JobQueueProxy.pop t queueName workerId opts now
  | .cancel jobId now => JobQueueProxy.cancel t jobId now
  | .finishSuccess jobId finishMessage now => JobQueueProxy.finishSuccess t jobId finishMessage now
  | .finishFail jobId failureReason now => JobQueueProxy.finishFail t jobId failureReason now

end AMQPClient

abbrev Backend := JobTable → Call → Answer

def Backend.step (b : Backend) (t : JobTable) (c : Call) : JobTable :=
  match b t c with
  | .ok (t, _) => t
  | .error _ => t

/-- The hash returned, or `none` for any exception. -/
def Backend.returns (b : Backend) (t : JobTable) (c : Call) : Option (Option QueuedJob) :=
  match b t c with
  | .ok (_, job) => some job
  | .error _ => none

/-- The two backends, run over the same calls, keep the same table and return
the same hash or both raise, at every call. -/
def Interchangeable (calls : List Call) : Prop :=
  ∀ pre post, calls = pre ++ post →
    let s := pre.foldl (Backend.step Sequel.run) Table.empty
    let a := pre.foldl (Backend.step AMQPClient.run) Table.empty
    s = a ∧ ∀ c post', post = c :: post' →
      Backend.returns Sequel.run s c = Backend.returns AMQPClient.run a c

/-- A submit both backends answer alike: its options ask for no parent and no
retries of its own. -/
def Call.PlainOpts : Call → Prop
  | .submit _ _ _ opts => ∃ o, opts = some o ∧ o.parentId = none ∧ o.retryMax.getD 0 = 0
  | _ => True

/-! ## Where they agree -/

theorem run_eq_of_plain (t : JobTable) {c : Call} (h : c.PlainOpts) :
    Sequel.run t c = AMQPClient.run t c := by
  cases c with
  | submit queueName resourceId params opts =>
    obtain ⟨⟨retryMax, parentId⟩, rfl, rfl, hr⟩ := h
    have hrow : QueuedJob.submitted queueName resourceId params none =
        QueuedJob.submitted queueName resourceId params (some ⟨retryMax, none⟩) := by
      funext k
      simp only [QueuedJob.submitted, Option.bind_none, Option.bind_some, Option.getD_none]
      rw [hr]
    show (JobCall.submit queueName resourceId params none).run t =
      (JobCall.submit queueName resourceId params (some ⟨retryMax, none⟩)).run t
    simp only [JobCall.run, QueuedJob.submit, hrow]
  | pop queueName w opts now => cases opts <;> rfl
  | cancel jobId now => rfl
  | finishSuccess jobId msg now => rfl
  | finishFail jobId reason now => rfl

/-- A submit with other options shows at once: only one backend raises, or the
new rows differ in `retry_max`. -/
theorem plain_of_returns {t : JobTable} {c : Call}
    (h : Backend.returns Sequel.run t c = Backend.returns AMQPClient.run t c) : c.PlainOpts := by
  cases c with
  | submit queueName resourceId params opts =>
    cases opts with
    | none => cases h
    | some o =>
      obtain ⟨retryMax, parentId⟩ := o
      cases parentId with
      | some p => cases h
      | none =>
        refine ⟨_, rfl, rfl, ?_⟩
        have hjob : some (some (QueuedJob.submitted queueName resourceId params none t.next)) =
            some (some (QueuedJob.submitted queueName resourceId params
              (some ⟨retryMax, none⟩) t.next)) := h
        have hmax := congrArg QueuedJob.retryMax (Option.some.inj (Option.some.inj hjob))
        exact hmax.symm
  | pop queueName w opts now => trivial
  | cancel jobId now => trivial
  | finishSuccess jobId msg now => trivial
  | finishFail jobId reason now => trivial

theorem step_eq_of_plain (t : JobTable) {c : Call} (h : c.PlainOpts) :
    Backend.step Sequel.run t c = Backend.step AMQPClient.run t c := by
  unfold Backend.step; rw [run_eq_of_plain t h]

theorem foldl_eq_of_plain (t : JobTable) {calls : List Call} (h : ∀ c ∈ calls, c.PlainOpts) :
    calls.foldl (Backend.step Sequel.run) t = calls.foldl (Backend.step AMQPClient.run) t := by
  induction calls generalizing t with
  | nil => rfl
  | cons c calls ih =>
    rw [List.foldl_cons, List.foldl_cons, step_eq_of_plain t (h c (List.mem_cons_self ..))]
    exact ih _ fun d hd => h d (List.mem_cons_of_mem _ hd)

theorem interchangeable_iff (calls : List Call) :
    Interchangeable calls ↔ ∀ c ∈ calls, c.PlainOpts := by
  constructor
  · intro h c hc
    obtain ⟨pre, post, rfl⟩ := List.append_of_mem hc
    obtain ⟨htable, hret⟩ := h pre (c :: post) rfl
    have hc := hret c post rfl
    rw [htable] at hc
    exact plain_of_returns hc
  · rintro h pre post rfl
    have htable := foldl_eq_of_plain Table.empty fun c hc => h c (List.mem_append_left _ hc)
    refine ⟨htable, ?_⟩
    rintro c post' rfl
    have hc := h c (List.mem_append_right _ (List.mem_cons_self ..))
    rw [htable]
    unfold Backend.returns
    rw [run_eq_of_plain _ hc]

/-- `Sequel` drops the retry limit of a submit. -/
theorem retry_max_dropped :
    ¬ Interchangeable [.submit "q1" "i-xxx" "" (some ⟨some 3, none⟩)] := by
  intro h
  have := (h [] _ rfl).2 _ [] rfl
  exact absurd this (by decide)

end JobQueue

end WakameVdc
