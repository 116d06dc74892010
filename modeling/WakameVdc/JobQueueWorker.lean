import WakameVdc.QueuedJobRun

/-!
# Workers of the job queue

`node_modules/job_queue_worker.rb`: the pollers of any number of nodes pop jobs, run the block of
their queue on each and report how it ended. Every call of the queue, of a worker or of anyone else,
is a step of its own.
-/

namespace WakameVdc

open Lib

namespace JobQueueWorker

/-- What `subscribe` was given for a queue. -/
structure Poller where
  queueName : String
  nodeId : String
  defaultRetryMax : Int
  failureBlock : Bool
  deriving DecidableEq, Repr

namespace JobContext

def retryMax (job : QueuedJob) : Int := job.retryMax

def retry (job : QueuedJob) : Bool := job.retryCount < retryMax job

end JobContext

/-- How far a thread has come with its job. It calls `finish_fail` after the block raised, or after
`finish_success` was refused. -/
inductive Phase
  | running | returned | raised | refused | done
  deriving DecidableEq, Repr

/-- A job in the hands of a thread: the hash `pop` gave, and whether the failure block was run. -/
structure Flight where
  poller : Poller
  job : QueuedJob
  phase : Phase
  failureRun : Bool
  deriving DecidableEq, Repr

structure Workers where
  table : JobTable
  flights : List Flight

inductive Act
  | call (c : JobCall)
  | poll (p : Poller) (now : Nat)
  | blockReturns (k : Nat)
  | blockRaises (k : Nat)
  | finishSuccess (k : Nat) (finishMessage : Option FinishReason) (now : Nat)
  | finishFail (k : Nat) (message : String) (now : Nat)
  deriving DecidableEq, Repr

namespace Workers

def start : Workers := ⟨Table.empty, []⟩

/-- The flight with number `k` goes on. -/
def advance (w : Workers) (k : Nat) (f : Flight → Flight) : Workers :=
  { w with flights := w.flights.modify k f }

def popJob (w : Workers) (p : Poller) (now : Nat) : Workers :=
  match (JobCall.pop p.queueName (some p.nodeId) (some p.defaultRetryMax) now).run w.table with
  | .ok (t, some job) => ⟨t, w.flights ++ [⟨p, job, .running, false⟩]⟩
  | .ok (t, none) => { w with table := t }
  | .error _ => w

/-- The rescue part of `run`: the failure block is called unless the job is to be tried again. -/
def rescue (f : Flight) : Flight :=
  { f with phase := .raised, failureRun := !JobContext.retry f.job && f.poller.failureBlock }

def success (w : Workers) (k : Nat) (f : Flight) (finishMessage : Option FinishReason) (now : Nat) :
    Workers :=
  match (JobCall.finish (.finishSuccess finishMessage) f.job.id now).run w.table with
  | .ok (t, _) => { w with table := t }.advance k fun f => { f with phase := .done }
  | .error _ => w.advance k fun f => { f with phase := .refused }

def fail (w : Workers) (k : Nat) (f : Flight) (message : String) (now : Nat) : Workers :=
  { w with table := (JobCall.finish (.finishFail (some (.text message))) f.job.id now).step w.table
    }.advance k fun f => { f with phase := .done }

/-- A step of a thread that is not at that point does nothing. -/
def step (w : Workers) : Act → Workers
  | .call c => { w with table := c.step w.table }
  | .poll p now => w.popJob p now
  | .blockReturns k =>
    match w.flights[k]? with
    | none => w
    | some f => if f.phase = .running then w.advance k fun f => { f with phase := .returned } else w
  | .blockRaises k =>
    match w.flights[k]? with
    | none => w
    | some f => if f.phase = .running then w.advance k rescue else w
  | .finishSuccess k finishMessage now =>
    match w.flights[k]? with
    | none => w
    | some f => if f.phase = .returned then w.success k f finishMessage now else w
  | .finishFail k message now =>
    match w.flights[k]? with
    | none => w
    | some f => if f.phase = .raised ∨ f.phase = .refused then w.fail k f message now else w

end Workers

end JobQueueWorker

end WakameVdc
