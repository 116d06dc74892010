import WakameVdc.QueuedJobSound

/-!
# The job queue over whole runs

One call changes one row at most, and in one of three ways (`RowStep`). The
invariant of a row and its retry bound follow from these by induction on the
calls.
-/

namespace WakameVdc

open Lib

inductive RowStep (c : JobCall) (t : JobTable) (job : QueuedJob) : QueuedJob → Prop
  | same (h : c.handedOut t ≠ some job.id) : RowStep c t job job
  | taken (queueName : String) (w : String) (r : Option Int) (now : Nat)
      (hc : c = .pop queueName (some w) r now) (hp : job.state = .pending)
      (h : c.handedOut t = some job.id) : RowStep c t job (job.taken (some w) r now)
  | finished (op : FinishOp) (now : Nat) (m : JobModel) (hc : c = .finish op job.id now)
      (h : FinishStep op job m) : RowStep c t job m.values

namespace JobCall

theorem handedOut_pop {t t' : JobTable} {queueName : String} {w : Option String} {r : Option Int}
    {now : Nat} {res : Option QueuedJob}
    (h : (JobCall.pop queueName w r now).run t = .ok (t', res)) :
    (JobCall.pop queueName w r now).handedOut t = res.map QueuedJob.id := by
  simp only [handedOut, answer_of_ok h]
  cases res <;> rfl

theorem handedOut_pop_error {t : JobTable} {queueName : String} {w : Option String} {r : Option Int}
    {now : Nat} {e : JobError} (h : (JobCall.pop queueName w r now).run t = .error e) :
    (JobCall.pop queueName w r now).handedOut t = none := by
  simp only [handedOut, answer_of_error h]

theorem row_step {c : JobCall} {t : JobTable} {k : Nat} {job : QueuedJob}
    (hk : t.find k = some job) : ∃ job', (c.step t).find k = some job' ∧ RowStep c t job job' := by
  have hid : job.id = k := t.pk_of_find hk
  cases c with
  | submit queueName resourceId params opts =>
    refine ⟨job, ?_, .same (by simp [handedOut])⟩
    have hne : k ≠ t.next := by
      rintro rfl
      rw [t.find_next (Nat.le_refl _)] at hk; cases hk
    rw [find_submit, if_neg hne, hk]
  | pop queueName w r now =>
    rcases pop_cases t queueName w r now with
      ⟨h, -⟩ | ⟨top, hmem, hp, -, ⟨-, e, h⟩ | ⟨hw, t', h, -, hfind⟩⟩
    · refine ⟨job, by rw [step_of_ok h, hk], .same ?_⟩
      rw [handedOut_pop h]; simp
    · refine ⟨job, by rw [step_of_error h, hk], .same ?_⟩
      rw [handedOut_pop_error h]; simp
    · obtain ⟨w, rfl⟩ := Option.ne_none_iff_exists'.mp hw
      rw [step_of_ok h, hfind]
      have hout := handedOut_pop h
      by_cases he : k = top.id
      · have htop : top = job := by
          rw [he] at hk
          exact Option.some.inj ((t.find_of_mem hmem).symm.trans hk)
        subst htop
        exact ⟨_, if_pos he, .taken queueName w r now rfl (QueuedJob.poppable_iff.mp hp).2.1 hout⟩
      · refine ⟨job, by rw [if_neg he, hk], .same ?_⟩
        rw [hout, hid]
        simpa [QueuedJob.taken] using fun h => he h.symm
  | finish op jobId now =>
    rcases finish_cases t op jobId now with ⟨e, h⟩ | ⟨row, m, hrow, hm, t', h, -, hfind⟩
    · exact ⟨job, by rw [step_of_error h, hk], .same (by simp [handedOut])⟩
    · rw [step_of_ok h, hfind]
      by_cases he : k = jobId
      · subst he
        obtain rfl := Option.some.inj (hrow.symm.trans hk)
        exact ⟨_, if_pos rfl, .finished op now m (by rw [hid]) hm⟩
      · exact ⟨job, by rw [if_neg he, hk], .same (by simp [handedOut])⟩

/-- A stored job was stored before the call, or the call submitted it. -/
theorem row_origin {c : JobCall} {t : JobTable} {k : Nat} {job' : QueuedJob}
    (h : (c.step t).find k = some job') :
    (∃ job, t.find k = some job ∧ RowStep c t job job') ∨
      ∃ queueName resourceId params opts, c = .submit queueName resourceId params opts ∧
        k = t.next ∧ job' = QueuedJob.submitted queueName resourceId params opts k := by
  cases hk : t.find k with
  | some job =>
    obtain ⟨x, hx, hs⟩ := row_step (c := c) hk
    rw [hx] at h
    obtain rfl := Option.some.inj h
    exact Or.inl ⟨job, rfl, hs⟩
  | none =>
    cases c with
    | submit queueName resourceId params opts =>
      refine Or.inr ⟨queueName, resourceId, params, opts, rfl, ?_⟩
      rw [find_submit, hk] at h
      by_cases he : k = t.next
      · rw [if_pos he] at h
        exact ⟨he, (Option.some.inj h).symm⟩
      · rw [if_neg he] at h; cases h
    | pop queueName w r now =>
      rcases pop_cases t queueName w r now with
        ⟨hr, -⟩ | ⟨top, hmem, -, -, ⟨-, e, hr⟩ | ⟨-, t', hr, -, hfind⟩⟩
      · rw [step_of_ok hr, hk] at h; cases h
      · rw [step_of_error hr, hk] at h; cases h
      · rw [step_of_ok hr, hfind, hk] at h
        by_cases he : k = top.id
        · have := t.find_of_mem hmem
          rw [he] at hk
          exact absurd (hk.symm.trans this) (by simp)
        · rw [if_neg he] at h; cases h
    | finish op jobId now =>
      rcases finish_cases t op jobId now with ⟨e, hr⟩ | ⟨row, m, hrow, -, t', hr, -, hfind⟩
      · rw [step_of_error hr, hk] at h; cases h
      · rw [step_of_ok hr, hfind, hk] at h
        by_cases he : k = jobId
        · rw [he, hrow] at hk; cases hk
        · rw [if_neg he] at h; cases h

end JobCall

/-! ## The invariant of a row -/

/-- What `validate` says of a stored row. -/
def WellFormed (job : QueuedJob) : Prop :=
  match job.state with
  | .pending => job.workerId = none
  | .running => job.workerId ≠ none
  | .finished => job.finishStatus ≠ none ∧ job.finishedAt ≠ none

theorem wellFormed_iff {job : QueuedJob} : WellFormed job ↔ job.validate = [] := by
  unfold WellFormed QueuedJob.validate
  cases job.state <;> simp

/-- The counters: a job nobody took is at zero, the counter stays within the
retry limit, and a job is put back only below it. -/
structure JobInv (job : QueuedJob) : Prop where
  wellFormed : WellFormed job
  untaken : job.startedAt = none → job.retryCount = 0
  bounded : job.retryCount ≤ max 1 job.retryMax
  retried : job.state = .pending → job.startedAt ≠ none → job.retryCount < job.retryMax

theorem jobInv_submitted (queueName resourceId params : String)
    (opts : Option QueuedJob.SubmitOpts) (id : Nat) :
    JobInv (QueuedJob.submitted queueName resourceId params opts id) where
  wellFormed := rfl
  untaken _ := rfl
  bounded := by simp [QueuedJob.submitted]
  retried _ h := absurd rfl h

theorem JobInv.taken {job : QueuedJob} (h : JobInv job) (hp : job.state = .pending)
    {w : String} (r : Option Int) (now : Nat) : JobInv (job.taken (some w) r now) where
  wellFormed := by simp [WellFormed, QueuedJob.taken]
  untaken hs := by simp [QueuedJob.taken] at hs
  bounded := by
    cases hs : job.startedAt with
    | none =>
      have h0 := h.untaken hs
      simp only [QueuedJob.taken, h0]
      omega
    | some s =>
      have hlt := h.retried hp (by simp [hs])
      simp only [QueuedJob.taken, hs]
      simp only [reduceCtorEq, false_and, if_false]
      omega
  retried hp' := by simp [QueuedJob.taken] at hp'

theorem JobInv.finished {job : QueuedJob} (h : JobInv job) {op : FinishOp} {m : JobModel}
    (hm : FinishStep op job m) : JobInv m.values where
  wellFormed := wellFormed_iff.mpr hm.valid
  untaken hs := by
    rw [hm.retryCount]; exact h.untaken (hm.startedAt ▸ hs)
  bounded := by rw [hm.retryCount, hm.retryMax]; exact h.bounded
  retried hp _ := by
    rcases hm.outcome with hf | ⟨-, -, -, hlt⟩
    · rw [hf] at hp; cases hp
    · rw [hm.retryCount, hm.retryMax]; exact hlt

theorem JobInv.step {c : JobCall} {t : JobTable} {job job' : QueuedJob} (h : JobInv job)
    (hs : RowStep c t job job') : JobInv job' := by
  cases hs with
  | same => exact h
  | taken queueName w r now hc hp ho => exact h.taken hp r now
  | finished op now m hc hm => exact h.finished hm

def TableInv (t : JobTable) : Prop := ∀ k job, t.find k = some job → JobInv job

theorem tableInv_empty : TableInv Table.empty := by
  intro k job h
  cases h

theorem TableInv.step {t : JobTable} (h : TableInv t) (c : JobCall) : TableInv (c.step t) := by
  intro k job' hk
  rcases JobCall.row_origin hk with ⟨job, hj, hs⟩ | ⟨queueName, resourceId, params, opts, -, -, rfl⟩
  · exact (h k job hj).step hs
  · exact jobInv_submitted queueName resourceId params opts k

def stored (calls : List JobCall) : JobTable := calls.foldl JobCall.step Table.empty

theorem tableInv_stored (calls : List JobCall) : TableInv (stored calls) :=
  Lib.invariant TableInv (fun _ c h => h.step c) calls tableInv_empty

/-! ## A finished job -/

theorem RowStep.finished_same {c : JobCall} {t : JobTable} {job job' : QueuedJob}
    (h : RowStep c t job job') (hf : job.state = .finished) :
    job' = job ∧ c.handedOut t ≠ some job.id := by
  cases h with
  | same ho => exact ⟨rfl, ho⟩
  | taken queueName w r now hc hp ho => rw [hf] at hp; cases hp
  | finished op now m hc hm => exact absurd hf hm.unfinished

theorem finished_frozen {t : JobTable} {k : Nat} {job : QueuedJob} (hk : t.find k = some job)
    (hf : job.state = .finished) (calls : List JobCall) :
    (calls.foldl JobCall.step t).find k = some job := by
  refine Lib.invariant (fun t : JobTable => t.find k = some job) (fun t c h => ?_) calls hk
  obtain ⟨job', hj, hs⟩ := JobCall.row_step (c := c) h
  rw [hj, (hs.finished_same hf).1]

/-! ## Handing out -/

/-- How often the calls hand job `k` to a worker. -/
def handouts (k : Nat) (t : JobTable) (calls : List JobCall) : Nat :=
  (trace JobCall.step (fun t c => c.handedOut t) t calls).count (some k)

def JobCall.retryMaxIfZero : JobCall → Int
  | .pop _ _ r _ => r.getD 0
  | _ => 0

/-- The `retry_max_if_zero` of the first pop that hands out job `k`. -/
def firstPop (k : Nat) : JobTable → List JobCall → Int
  | _, [] => 0
  | t, c :: calls =>
    if c.handedOut t = some k then c.retryMaxIfZero else firstPop k (c.step t) calls

/-- The effective value of a submitted `retry_max`. -/
def effectiveRetryMax (m : Int) (retryMaxIfZero : Int) : Int := if m > 0 then m else retryMaxIfZero

/-- The limit of a stored job: fixed once it was taken. -/
def QueuedJob.limit (job : QueuedJob) (retryMaxIfZero : Int) : Int :=
  if job.startedAt = none ∧ job.retryMax = 0 ∧ retryMaxIfZero > 0 then retryMaxIfZero
  else job.retryMax

theorem limit_taken (job : QueuedJob) (w : Option String) (r : Option Int) (now : Nat) (d : Int) :
    (job.taken w r now).limit d = job.limit (r.getD 0) := by
  simp [QueuedJob.limit, QueuedJob.taken]

theorem limit_le (job : QueuedJob) (d : Int) (hs : job.startedAt = none) :
    max 1 (job.limit d) ≤ max 1 (effectiveRetryMax job.retryMax d) := by
  unfold QueuedJob.limit effectiveRetryMax
  simp only [hs, true_and]
  split_ifs <;> omega

theorem handouts_cons (k : Nat) (t : JobTable) (c : JobCall) (calls : List JobCall) :
    handouts k t (c :: calls) =
      handouts k (c.step t) calls + if c.handedOut t = some k then 1 else 0 := by
  simp [handouts, trace, List.count_cons]

/-- The retry bound from any table: the counter of the job and the handouts
still to come fit below its limit. -/
theorem handouts_bound {k : Nat} {t : JobTable} {job : QueuedJob} (hk : t.find k = some job)
    (hi : JobInv job) (calls : List JobCall) :
    handouts k t calls + job.retryCount ≤ max 1 (job.limit (firstPop k t calls)) := by
  induction calls generalizing t job with
  | nil =>
    have hb := hi.bounded
    simp only [handouts, trace, List.count_nil, Nat.cast_zero, zero_add]
    cases hs : job.startedAt with
    | none => rw [hi.untaken hs]; omega
    | some s => simpa [QueuedJob.limit, hs] using hb
  | cons c calls ih =>
    have hid : job.id = k := t.pk_of_find hk
    obtain ⟨job', hk', hs⟩ := JobCall.row_step (c := c) hk
    have ih' := ih hk' (hi.step hs)
    rw [handouts_cons]
    cases hs with
    | same ho =>
      rw [hid] at ho
      simpa [firstPop, ho] using ih'
    | taken queueName w r now hc hp ho =>
      rw [hid] at ho
      rw [limit_taken] at ih'
      simp only [firstPop, ho, if_true]
      subst hc
      simp only [QueuedJob.taken, JobCall.retryMaxIfZero] at ih' ⊢
      omega
    | finished op now m hc hm =>
      have ho : c.handedOut t = none := by rw [hc]; rfl
      simpa [firstPop, ho, hm.retryCount, QueuedJob.limit, hm.startedAt, hm.retryMax] using ih'

theorem handedOut_lt {t : JobTable} {c : JobCall} {k : Nat} (h : c.handedOut t = some k) :
    ∃ job, t.find k = some job ∧ job.state = .pending := by
  cases c with
  | submit queueName resourceId params opts => cases h
  | finish op jobId now => cases h
  | pop queueName w r now =>
    rcases JobCall.pop_cases t queueName w r now with
      ⟨hr, -⟩ | ⟨top, hmem, hp, -, ⟨-, e, hr⟩ | ⟨-, t', hr, -, -⟩⟩
    · rw [JobCall.handedOut_pop hr] at h; cases h
    · rw [JobCall.handedOut_pop_error hr] at h; cases h
    · rw [JobCall.handedOut_pop hr] at h
      obtain rfl : top.id = k := Option.some.inj h
      exact ⟨top, t.find_of_mem hmem, (QueuedJob.poppable_iff.mp hp).2.1⟩

theorem next_le_step (t : JobTable) (c : JobCall) : t.next ≤ (c.step t).next := by
  cases c with
  | submit queueName resourceId params opts => exact Nat.le_succ _
  | pop queueName w r now =>
    rcases JobCall.pop_cases t queueName w r now with
      ⟨hr, -⟩ | ⟨top, -, -, -, ⟨-, e, hr⟩ | ⟨-, t', hr, hn, -⟩⟩
    · rw [JobCall.step_of_ok hr]
    · rw [JobCall.step_of_error hr]
    · rw [JobCall.step_of_ok hr, hn]
  | finish op jobId now =>
    rcases JobCall.finish_cases t op jobId now with ⟨e, hr⟩ | ⟨row, m, -, -, t', hr, hn, -⟩
    · rw [JobCall.step_of_error hr]
    · rw [JobCall.step_of_ok hr, hn]

theorem handouts_unsubmitted {k : Nat} {t : JobTable} (calls : List JobCall)
    (hk : (calls.foldl JobCall.step t).next ≤ k) :
    handouts k t calls = 0 ∧
      ∀ more, firstPop k t (calls ++ more) = firstPop k (calls.foldl JobCall.step t) more := by
  induction calls generalizing t with
  | nil => exact ⟨rfl, fun _ => rfl⟩
  | cons c calls ih =>
    obtain ⟨h1, h2⟩ := ih hk
    have hlt : t.next ≤ k :=
      (Lib.invariant (fun s : JobTable => t.next ≤ s.next)
        (fun s c h => h.trans (next_le_step s c)) (c :: calls) (Nat.le_refl _)).trans hk
    have ho : c.handedOut t ≠ some k := by
      intro h
      obtain ⟨job, hj, -⟩ := handedOut_lt h
      rw [t.find_next hlt] at hj; cases hj
    refine ⟨by rw [handouts_cons, if_neg ho, h1], fun more => ?_⟩
    rw [List.cons_append, firstPop, if_neg ho, h2]
    rfl

theorem handouts_append (k : Nat) (t : JobTable) (as bs : List JobCall) :
    handouts k t (as ++ bs) = handouts k t as + handouts k (as.foldl JobCall.step t) bs := by
  rw [handouts, trace_append, List.count_append]; rfl

/-- Between two moments a running job and a pending job, some call put it back. -/
theorem put_back {k : Nat} {t : JobTable} {job : QueuedJob} (hk : t.find k = some job)
    (hr : job.state = .running) (calls : List JobCall) {job' : QueuedJob}
    (hk' : (calls.foldl JobCall.step t).find k = some job') (hp : job'.state = .pending) :
    ∃ pre reason now post, calls = pre ++ .finish (.finishFail reason) k now :: post ∧
      (∃ x, (pre.foldl JobCall.step t).find k = some x ∧ x.state = .running) ∧
      ∃ x, ((pre ++ [.finish (.finishFail reason) k now]).foldl JobCall.step t).find k = some x ∧
        x.state = .pending := by
  induction calls generalizing t job with
  | nil =>
    rw [List.foldl_nil, hk] at hk'
    obtain rfl := Option.some.inj hk'
    rw [hr] at hp; cases hp
  | cons c calls ih =>
    have hid : job.id = k := t.pk_of_find hk
    obtain ⟨x, hx, hs⟩ := JobCall.row_step (c := c) hk
    cases hxs : x.state with
    | running =>
      obtain ⟨pre, reason, now, post, rfl, h1, h2⟩ := ih hx hxs hk'
      exact ⟨c :: pre, reason, now, post, rfl, h1, h2⟩
    | finished =>
      have hkeep := finished_frozen hx hxs calls
      rw [List.foldl_cons, hkeep] at hk'
      obtain rfl := Option.some.inj hk'
      rw [hxs] at hp; cases hp
    | pending =>
      cases hs with
      | same ho => rw [hr] at hxs; cases hxs
      | taken queueName w r now hc hp' ho => rw [hr] at hp'; cases hp'
      | finished op now m hc hm =>
        rcases hm.outcome with hf | ⟨⟨reason, hop⟩, -, -, -⟩
        · rw [hf] at hxs; cases hxs
        · rw [hop, hid] at hc
          subst hc
          exact ⟨[], reason, now, calls, rfl, ⟨job, hk, hr⟩, m.values, hx, hxs⟩

/-! ## The queue is correct -/

def LowestPending (t : JobTable) (queueName : String) (job : QueuedJob) : Prop :=
  job ∈ t.rows ∧ job.queueName = queueName ∧ job.state = .pending ∧
    ∀ x ∈ t.rows, x.queueName = queueName → x.state = .pending → job.id ≤ x.id

/-- What a run of the queue's calls from the empty table guarantees. -/
structure QueueCorrect (calls : List JobCall) : Prop where
  wellFormed : ∀ job ∈ (stored calls).rows, WellFormed job
  finishedFrozen : ∀ pre post, calls = pre ++ post → ∀ job ∈ (stored pre).rows,
    job.state = .finished → job ∈ (stored calls).rows
  popLowest : ∀ pre queueName w r now post,
    calls = pre ++ JobCall.pop queueName (some w) r now :: post →
    (JobCall.pop queueName (some w) r now).answer (stored pre) = .ok none ∧
        (∀ x ∈ (stored pre).rows, x.queueName = queueName → x.state ≠ .pending) ∨
      ∃ job, LowestPending (stored pre) queueName job ∧
        (JobCall.pop queueName (some w) r now).answer (stored pre) =
          .ok (some (job.taken (some w) r now)) ∧
        job.taken (some w) r now ∈ (stored (pre ++ [JobCall.pop queueName (some w) r now])).rows
  popNoWorker : ∀ pre queueName r now post,
    calls = pre ++ JobCall.pop queueName none r now :: post →
    (JobCall.pop queueName none r now).handedOut (stored pre) = none
  onceAPeriod : ∀ pre c mid d post k, calls = pre ++ c :: (mid ++ d :: post) →
    c.handedOut (stored pre) = some k → d.handedOut (stored (pre ++ c :: mid)) = some k →
    ∃ mid₁ reason now mid₂, mid = mid₁ ++ JobCall.finish (.finishFail reason) k now :: mid₂ ∧
      (∃ x, (stored (pre ++ c :: mid₁)).find k = some x ∧ x.state = .running) ∧
      ∃ x, (stored (pre ++ c :: (mid₁ ++ [JobCall.finish (.finishFail reason) k now]))).find k =
          some x ∧ x.state = .pending
  retryBound : ∀ pre queueName resourceId params opts post,
    calls = pre ++ JobCall.submit queueName resourceId params opts :: post →
    (handouts (stored pre).next Table.empty calls : Int) ≤
      max 1 (effectiveRetryMax ((opts.bind QueuedJob.SubmitOpts.retryMax).getD 0)
        (firstPop (stored pre).next Table.empty calls))

theorem stored_append (as bs : List JobCall) :
    stored (as ++ bs) = bs.foldl JobCall.step (stored as) := List.foldl_append

theorem stored_wellFormed (calls : List JobCall) : ∀ job ∈ (stored calls).rows, WellFormed job :=
  fun job hj => (tableInv_stored calls job.id job ((stored calls).find_of_mem hj)).wellFormed

theorem poppable_stored {calls : List JobCall} {queueName : String} {job : QueuedJob}
    (hj : job ∈ (stored calls).rows) :
    QueuedJob.poppable queueName job = true ↔ job.queueName = queueName ∧ job.state = .pending := by
  rw [QueuedJob.poppable_iff]
  refine and_congr_right fun _ => and_iff_left_of_imp fun hp => ?_
  have hw := stored_wellFormed calls job hj
  rwa [WellFormed, hp] at hw

theorem pop_lowest (pre : List JobCall) (queueName w : String) (r : Option Int) (now : Nat) :
    (JobCall.pop queueName (some w) r now).answer (stored pre) = .ok none ∧
        (∀ x ∈ (stored pre).rows, x.queueName = queueName → x.state ≠ .pending) ∨
      ∃ job, LowestPending (stored pre) queueName job ∧
        (JobCall.pop queueName (some w) r now).answer (stored pre) =
          .ok (some (job.taken (some w) r now)) ∧
        job.taken (some w) r now ∈ (stored (pre ++ [JobCall.pop queueName (some w) r now])).rows := by
  rcases JobCall.pop_cases (stored pre) queueName (some w) r now with
    ⟨hr, hno⟩ | ⟨job, hmem, hp, hmin, ⟨hw, -⟩ | ⟨-, t', hr, -, hfind⟩⟩
  · refine Or.inl ⟨JobCall.answer_of_ok hr, fun x hx hq hs => ?_⟩
    have := (poppable_stored hx).mpr ⟨hq, hs⟩
    rw [hno x hx] at this; cases this
  · cases hw
  · refine Or.inr ⟨job, ?_, JobCall.answer_of_ok hr, ?_⟩
    · obtain ⟨hq, hs⟩ := (poppable_stored hmem).mp hp
      exact ⟨hmem, hq, hs, fun x hx hxq hxs => hmin x hx ((poppable_stored hx).mpr ⟨hxq, hxs⟩)⟩
    · rw [stored_append, List.foldl_cons, List.foldl_nil, JobCall.step_of_ok hr]
      exact t'.mem_of_find (k := job.id) (by rw [hfind, if_pos rfl])

theorem once_a_period {pre mid : List JobCall} {c d : JobCall} {k : Nat}
    (hc : c.handedOut (stored pre) = some k)
    (hd : d.handedOut (stored (pre ++ c :: mid)) = some k) :
    ∃ mid₁ reason now mid₂, mid = mid₁ ++ JobCall.finish (.finishFail reason) k now :: mid₂ ∧
      (∃ x, (stored (pre ++ c :: mid₁)).find k = some x ∧ x.state = .running) ∧
      ∃ x, (stored (pre ++ c :: (mid₁ ++ [JobCall.finish (.finishFail reason) k now]))).find k = some x ∧
        x.state = .pending := by
  obtain ⟨job, hk, hp⟩ := handedOut_lt hc
  have hid : job.id = k := (stored pre).pk_of_find hk
  obtain ⟨job₁, hk₁, hs⟩ := JobCall.row_step (c := c) hk
  have hrun : job₁.state = .running := by
    cases hs with
    | same ho => rw [hid] at ho; exact absurd hc ho
    | taken queueName w r now he hp' ho => rfl
    | finished op now m he hm => rw [he] at hc; cases hc
  obtain ⟨job₂, hk₂, hp₂⟩ := handedOut_lt hd
  rw [stored_append, List.foldl_cons] at hk₂
  obtain ⟨mid₁, reason, now, mid₂, rfl, h1, h2⟩ := put_back hk₁ hrun mid hk₂ hp₂
  refine ⟨mid₁, reason, now, mid₂, rfl, ?_, ?_⟩
  · rw [stored_append, List.foldl_cons]; exact h1
  · rw [stored_append, List.foldl_cons]; exact h2

theorem retry_bound (pre post : List JobCall) (queueName resourceId params : String)
    (opts : Option QueuedJob.SubmitOpts) :
    (handouts (stored pre).next Table.empty
        (pre ++ .submit queueName resourceId params opts :: post) : Int) ≤
      max 1 (effectiveRetryMax ((opts.bind QueuedJob.SubmitOpts.retryMax).getD 0)
        (firstPop (stored pre).next Table.empty
          (pre ++ .submit queueName resourceId params opts :: post))) := by
  obtain ⟨hpre, hfirst⟩ := handouts_unsubmitted (t := Table.empty) pre (Nat.le_refl _)
  have hjob : ((JobCall.submit queueName resourceId params opts).step (stored pre)).find
      (stored pre).next =
        some (QueuedJob.submitted queueName resourceId params opts (stored pre).next) := by
    rw [JobCall.find_submit, if_pos rfl]
  have hb := handouts_bound hjob (jobInv_submitted _ _ _ _ _) post
  have hle := limit_le (QueuedJob.submitted queueName resourceId params opts (stored pre).next)
    (firstPop (stored pre).next
      ((JobCall.submit queueName resourceId params opts).step (stored pre)) post) rfl
  have hz : handouts (stored pre).next (stored pre)
      (.submit queueName resourceId params opts :: post) =
        handouts (stored pre).next
          ((JobCall.submit queueName resourceId params opts).step (stored pre)) post := by
    rw [handouts_cons]; rfl
  have hsum : handouts (stored pre).next Table.empty
      (pre ++ .submit queueName resourceId params opts :: post) =
        handouts (stored pre).next
          ((JobCall.submit queueName resourceId params opts).step (stored pre)) post := by
    rw [handouts_append]
    exact (congrArg₂ (· + ·) hpre hz).trans (Nat.zero_add _)
  have hlater : firstPop (stored pre).next Table.empty
      (pre ++ .submit queueName resourceId params opts :: post) =
        firstPop (stored pre).next
          ((JobCall.submit queueName resourceId params opts).step (stored pre)) post :=
    hfirst (.submit queueName resourceId params opts :: post)
  rw [hsum, hlater]
  have hb' := hb.trans hle
  simpa [QueuedJob.submitted] using hb'

theorem queue_correct (calls : List JobCall) : QueueCorrect calls where
  wellFormed := stored_wellFormed calls
  finishedFrozen := by
    rintro pre post rfl job hj hf
    rw [stored_append]
    exact Table.mem_of_find _ (finished_frozen ((stored pre).find_of_mem hj) hf post)
  popLowest := fun pre queueName w r now _ _ => pop_lowest pre queueName w r now
  popNoWorker := by
    intro pre queueName r now post _
    rcases JobCall.pop_cases (stored pre) queueName none r now with
      ⟨hr, -⟩ | ⟨-, -, -, -, ⟨-, e, hr⟩ | ⟨hw, -⟩⟩
    · rw [JobCall.handedOut_pop hr]; rfl
    · exact JobCall.handedOut_pop_error hr
    · exact absurd rfl hw
  onceAPeriod := fun _ _ _ _ _ _ _ hc hd => once_a_period hc hd
  retryBound := by
    rintro pre queueName resourceId params opts post rfl
    exact retry_bound pre post queueName resourceId params opts

end WakameVdc
