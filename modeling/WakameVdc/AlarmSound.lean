import WakameVdc.Alarm
import WakameVdc.Lib.Run

/-!
# What an alarm on readings says

An alarm on a resource is fed readings and evaluated at any moments. Against all that has
been fed: the state after an evaluation is to tell how the mean of the readings in the last
periods compares with the threshold, and to say so when there were too few for too long.
-/

namespace WakameVdc

open Lib

namespace MetricLibs

inductive AlarmStep (N : Type)
  | feed (value : Value N) (time : Int)
  | evaluate (now : Int)

/-- An alarm with its history: what it was fed, what its evaluations have dropped since,
and how many evaluations in a row have had too few readings. -/
structure Watched (N F : Type) where
  alarm : Alarm N F
  fed : List (MetricValue N)
  discarded : List (MetricValue N)
  short : Nat

structure Setting (N : Type) where
  metric : Text
  comparison : Comparison
  threshold : N
  periods : Int

variable {N F : Type}

/-- What falls into the last periods, up to the end of the current second. -/
def window (periods now : Int) (mvs : List (MetricValue N)) : List (MetricValue N) :=
  mvs.filter fun mv => InRange (timeAt (seconds now - periods)) (timeAt (seconds now)) mv.timestamp

/-- What `delete_first` takes out. -/
def TimeSeries.discards (set : SortedSet N) (ts : TimeSeries N) : List (MetricValue N) :=
  match (ts.each set).head? with
  | none => []
  | some first => ts.stored.filter fun mv => mv.timestamp = first.timestamp

/-- The alarm an evaluation leaves, raised or not. -/
def Alarm.evaluated (set : SortedSet N) (ar : Arithmetic N F) (now : Int) (a : Alarm N F) : Alarm N F :=
  match a.evaluate set ar now with
  | .ok a => a
  | .error a => a

namespace Setting

variable (st : Setting N) (set : SortedSet N) (ar : Arithmetic N F)

def start (a : Alarm N F) : Watched N F where
  alarm := { a with
    metricName := some st.metric
    params := some ⟨some st.comparison.name, some st.threshold⟩
    evaluationPeriods := some st.periods
    timeseries := TimeSeries.new
    errorCount := 0 }
  fed := []
  discarded := []
  short := 0

def step (s : Watched N F) : AlarmStep N → Watched N F
  | .feed value time => { s with
      alarm := s.alarm.feed value time
      fed := s.fed ++ [⟨value, time⟩] }
  | .evaluate now => { s with
      alarm := s.alarm.evaluated set ar now
      discarded := s.discarded ++ s.alarm.timeseries.discards set
      short := if (window st.periods now s.fed).length < 2 then s.short + 1 else 0 }

/-- What an evaluation is to do, with `limit` evaluations in a row for too few readings. -/
def Says (limit : Nat) (s : Watched N F) : AlarmStep N → Prop
  | .feed _ _ => True
  | .evaluate now => ∃ a, s.alarm.evaluate set ar now = .ok a ∧
      (2 ≤ (window st.periods now s.fed).length →
        ∃ l x, Arranged MetricValue.timestamp (window st.periods now s.fed) l ∧
          Alarm.mean ar (l.map MetricValue.value) = some x ∧
          a.state = some (if ar.compare st.comparison x st.threshold then alarmState else okState)) ∧
      ((window st.periods now s.fed).length < 2 →
        a.state = if limit ≤ s.short + 1 then some insufficientDataState else s.alarm.state)

/-- A reading that has a mean with others, at a time no range cuts off in its second. -/
def Reading (value : Value N) (time : Int) : Prop :=
  (ar.toF value).isSome ∧ value.truthy ∧ Rounded time

/-- What keeps the alarm right: an evaluation of enough readings is one of `cpu.usage`, and
no earlier one has dropped any of them. -/
def Clear (s : Watched N F) : AlarmStep N → Prop
  | .feed value time => Reading ar value time
  | .evaluate now => (window st.periods now s.fed).length < 2 ∨
      st.metric = "cpu.usage".toList ∧ window st.periods now s.discarded = []

structure Invariant (s : Watched N F) : Prop where
  metric : s.alarm.metricName = some st.metric
  params : s.alarm.params = some ⟨some st.comparison.name, some st.threshold⟩
  periods : s.alarm.evaluationPeriods = some st.periods
  errors : s.alarm.errorCount = s.short
  held : (s.alarm.timeseries.stored ++ s.discarded).Perm s.fed
  readings : ∀ mv ∈ s.fed, Reading ar mv.value mv.timestamp

end Setting

/-! ## The values of a window -/

theorem Alarm.exists_sumFrom (ar : Arithmetic N F) {vs : List (Value N)}
    (h : ∀ v ∈ vs, (ar.toF v).isSome) (sum : F) : ∃ x, sumFrom ar sum vs = some x := by
  induction vs generalizing sum with
  | nil => exact ⟨sum, rfl⟩
  | cons v vs ih =>
    obtain ⟨y, hy⟩ := Option.isSome_iff_exists.mp (h v List.mem_cons_self)
    obtain ⟨x, hx⟩ := ih (fun w hw => h w (List.mem_cons_of_mem v hw)) (ar.add sum y)
    refine ⟨x, ?_⟩
    unfold sumFrom at hx ⊢
    rw [List.foldlM_cons, hy]
    exact hx

theorem Alarm.exists_mean (ar : Arithmetic N F) {vs : List (Value N)}
    (h : ∀ v ∈ vs, (ar.toF v).isSome) (hne : vs ≠ []) : ∃ x, Alarm.mean ar vs = some x := by
  cases vs with
  | nil => exact absurd rfl hne
  | cons v vs =>
    obtain ⟨y, hy⟩ := Option.isSome_iff_exists.mp (h v List.mem_cons_self)
    obtain ⟨x, hx⟩ := exists_sumFrom ar (fun w hw => h w (List.mem_cons_of_mem v hw)) y
    refine ⟨ar.div x (vs.length + 1), ?_⟩
    show (ar.toF v).bind (fun y => (sumFrom ar y vs).bind fun sum => some (ar.div sum (vs.length + 1))) = _
    rw [hy, Option.bind_some, hx]
    rfl

theorem TimeSeries.deleteFirst_append_discards (set : SortedSet N) (ts : TimeSeries N) :
    ((ts.deleteFirst set).stored ++ ts.discards set).Perm ts.stored := by
  unfold TimeSeries.deleteFirst TimeSeries.discards
  cases (ts.each set).head? with
  | none => rw [List.append_nil]
  | some first =>
    refine List.perm_append_comm.trans ?_
    have hp := List.filter_append_perm (fun mv => decide (mv.timestamp = first.timestamp)) ts.stored
    simpa only [ne_eq, decide_not] using hp

/-- What is found in the window is what the series holds of it, in order. -/
theorem arranged_find (set : SortedSet N) (ar : Arithmetic N F) {ts : TimeSeries N}
    (h : ∀ mv ∈ ts.stored, Setting.Reading ar mv.value mv.timestamp) (periods now : Int) :
    Arranged MetricValue.timestamp (window periods now ts.stored)
      (ts.find set (timeAt (seconds now - periods)) (timeAt (seconds now))) := by
  have hfind : ts.find set (timeAt (seconds now - periods)) (timeAt (seconds now)) =
      window periods now (ts.each set) := by
    rw [TimeSeries.find_eq]
    refine List.filter_congr fun mv hmv => ?_
    obtain ⟨-, htruthy, hround⟩ := h mv ((set.arranged ts.stored).perm.mem_iff.mp hmv)
    rw [decide_eq_decide, le_endOf_iff hround]
    unfold InRange
    rw [and_iff_left htruthy]
  rw [hfind]
  exact {
    perm := (set.arranged ts.stored).perm.filter _
    sorted := (set.arranged ts.stored).sorted.filter _ }

/-! ## One evaluation -/

namespace Alarm

variable (set : SortedSet N) (ar : Arithmetic N F) {now : Int} {a : Alarm N F} {st : Setting N}

/-- What an evaluation leaves of an alarm, with its count of errors and its state. -/
structure Left (a b : Alarm N F) (errorCount : Nat) (state : Option Text) : Prop where
  metricName : b.metricName = a.metricName
  params : b.params = a.params
  evaluationPeriods : b.evaluationPeriods = a.evaluationPeriods
  timeseries : b.timeseries = a.timeseries.deleteFirst set
  errorCount : b.errorCount = errorCount
  state : b.state = state

/-- An evaluation that raises leaves the state until the limit of errors is reached. -/
theorem evaluate_of_error {limit : Nat}
    (h : evaluateMetric set ar now { a with beforeState := a.state } =
      .error { a with beforeState := a.state })
    (hlimit : a.metricName.bind metricsErrorCount = some limit) :
    ∃ b, evaluate set ar now a = .ok b ∧ Left set a b (a.errorCount + 1)
      (if limit ≤ a.errorCount + 1 then some insufficientDataState else a.state) := by
  unfold evaluate
  rw [h]
  simp only [hlimit]
  by_cases hl : limit ≤ a.errorCount + 1
  · rw [if_pos hl, if_pos hl]
    exact ⟨_, rfl, rfl, rfl, rfl, rfl, rfl, rfl⟩
  · rw [if_neg hl, if_neg hl]
    exact ⟨_, rfl, rfl, rfl, rfl, rfl, rfl, rfl⟩

theorem evaluateReadings_of_mean
    (hparams : a.params = some ⟨some st.comparison.name, some st.threshold⟩)
    (hperiods : a.evaluationPeriods = some st.periods) {l : List (MetricValue N)}
    (hl : a.timeseries.find set (timeAt (seconds now - st.periods)) (timeAt (seconds now)) = l)
    (hlen : 2 ≤ l.length) {x : F} (hx : mean ar (l.map MetricValue.value) = some x) :
    evaluateReadings set ar now a = .ok (updateState { a with lastEvaluatedValue := .mean x }
      (if ar.compare st.comparison x st.threshold then alarmState else okState) now) := by
  have hshort : ¬ (l.map MetricValue.value).length ≤ 1 := by
    rw [List.length_map]
    omega
  unfold evaluateReadings
  simp only [hperiods, hl, if_neg hshort, hx, hparams, Option.bind_some,
    supportComparisonOperator_name]

/-- The metric of the memory has no case: whatever was fed, its evaluation is an error. -/
theorem state_of_memory {b : Alarm N F} (h : a.metricName = some "memory.usage".toList)
    (hb : evaluate set ar now a = .ok b) :
    b.state = if 5 ≤ a.errorCount + 1 then some insufficientDataState else a.state := by
  have herror : evaluateMetric set ar now { a with beforeState := a.state } =
      .error { a with beforeState := a.state } := by
    unfold evaluateMetric
    rw [h, if_neg (by decide), if_neg (by decide)]
  obtain ⟨c, hc, hleft⟩ := evaluate_of_error set ar herror (by rw [h]; rfl)
  rw [hc] at hb
  cases hb
  exact hleft.state

/-- An evaluation of `cpu.usage` with readings enough compares their mean. -/
theorem evaluate_of_mean (hcpu : a.metricName = some "cpu.usage".toList)
    (hparams : a.params = some ⟨some st.comparison.name, some st.threshold⟩)
    (hperiods : a.evaluationPeriods = some st.periods) {l : List (MetricValue N)}
    (hl : a.timeseries.find set (timeAt (seconds now - st.periods)) (timeAt (seconds now)) = l)
    (hlen : 2 ≤ l.length) {x : F} (hx : mean ar (l.map MetricValue.value) = some x) :
    ∃ b, evaluate set ar now a = .ok b ∧ Left set a b 0
      (some (if ar.compare st.comparison x st.threshold then alarmState else okState)) := by
  have hok := evaluateMetric_cpu set ar (a := { a with beforeState := a.state }) hcpu now
  rw [evaluateReadings_of_mean set ar (a := { a with beforeState := a.state }) hparams hperiods hl
    hlen hx] at hok
  exact ⟨_, evaluate_of_ok set ar hok, rfl, rfl, rfl, rfl, rfl, rfl⟩

theorem evaluateMetric_of_short (hmetric : a.metricName = some st.metric)
    (hlog : st.metric ≠ "log".toList) (hperiods : a.evaluationPeriods = some st.periods)
    (hlen : (a.timeseries.find set (timeAt (seconds now - st.periods)) (timeAt (seconds now))).length ≤ 1) :
    evaluateMetric set ar now a = .error a := by
  unfold evaluateMetric
  split
  · unfold evaluateReadings
    simp only [hperiods, List.length_map, if_pos hlen]
  · rw [hmetric, if_neg (by simpa using hlog)]

end Alarm

namespace Setting

variable {st : Setting N} {set : SortedSet N} {ar : Arithmetic N F} {s : Watched N F}

theorem Invariant.start (a : Alarm N F) : st.Invariant ar (st.start a) where
  metric := rfl
  params := rfl
  periods := rfl
  errors := rfl
  held := List.Perm.refl _
  readings := fun _ hmv => absurd hmv List.not_mem_nil

theorem Invariant.feed (h : st.Invariant ar s) {value : Value N} {time : Int}
    (hr : Reading ar value time) : st.Invariant ar (st.step set ar s (.feed value time)) where
  metric := h.metric
  params := h.params
  periods := h.periods
  errors := h.errors
  held := by
    show ((s.alarm.timeseries.stored ++ [MetricValue.mk value time]) ++ s.discarded).Perm
      (s.fed ++ [MetricValue.mk value time])
    refine (List.Perm.append_right _ List.perm_append_comm).trans ?_
    rw [List.append_assoc]
    exact (h.held.append_left _).trans List.perm_append_comm
  readings := by
    intro mv hmv
    rcases List.mem_append.mp hmv with hmv | hmv
    · exact h.readings mv hmv
    · rw [List.mem_singleton.mp hmv]
      exact hr

theorem Invariant.evaluated (h : st.Invariant ar s) {now : Int} {b : Alarm N F} {n : Nat}
    {state : Option Text} (hb : s.alarm.evaluate set ar now = .ok b) (hleft : Alarm.Left set s.alarm b n state)
    (hn : n = if (window st.periods now s.fed).length < 2 then s.short + 1 else 0) :
    st.Invariant ar (st.step set ar s (.evaluate now)) := by
  have hev : s.alarm.evaluated set ar now = b := by
    unfold Alarm.evaluated
    rw [hb]
  refine ⟨?_, ?_, ?_, ?_, ?_, h.readings⟩
  · exact (congrArg _ hev).trans (hleft.metricName.trans h.metric)
  · exact (congrArg _ hev).trans (hleft.params.trans h.params)
  · exact (congrArg _ hev).trans (hleft.evaluationPeriods.trans h.periods)
  · exact (congrArg _ hev).trans (hleft.errorCount.trans hn)
  · -- what is dropped from the series goes to what is discarded
    show ((s.alarm.evaluated set ar now).timeseries.stored ++
      (s.discarded ++ s.alarm.timeseries.discards set)).Perm s.fed
    rw [hev, hleft.timeseries]
    refine (List.Perm.append_left _ List.perm_append_comm).trans ?_
    rw [← List.append_assoc]
    exact ((s.alarm.timeseries.deleteFirst_append_discards set).append_right _).trans h.held

theorem Invariant.window_perm (h : st.Invariant ar s) (now : Int) :
    (window st.periods now s.alarm.timeseries.stored ++ window st.periods now s.discarded).Perm
      (window st.periods now s.fed) := by
  unfold window
  rw [← List.filter_append]
  exact h.held.filter _

theorem Invariant.arranged (h : st.Invariant ar s) (set : SortedSet N) (now : Int) :
    Arranged MetricValue.timestamp (window st.periods now s.alarm.timeseries.stored)
      (s.alarm.timeseries.find set (timeAt (seconds now - st.periods)) (timeAt (seconds now))) := by
  refine arranged_find set ar (fun mv hmv => h.readings mv ?_) st.periods now
  exact h.held.mem_iff.mp (List.mem_append_left _ hmv)

theorem Invariant.evaluate_short (h : st.Invariant ar s) {limit : Nat} {now : Int}
    (hlimit : metricsErrorCount st.metric = some limit) (hlog : st.metric ≠ "log".toList)
    (hlen : (window st.periods now s.fed).length < 2) :
    st.Invariant ar (st.step set ar s (.evaluate now)) ∧ st.Says set ar limit s (.evaluate now) := by
  have hfound := (h.arranged set now).perm.length_eq
  have hwin := (h.window_perm now).length_eq
  rw [List.length_append] at hwin
  have herror : Alarm.evaluateMetric set ar now { s.alarm with beforeState := s.alarm.state } =
      .error { s.alarm with beforeState := s.alarm.state } :=
    Alarm.evaluateMetric_of_short set ar h.metric hlog h.periods (by dsimp only; omega)
  obtain ⟨b, hb, hleft⟩ := Alarm.evaluate_of_error set ar herror (by rw [h.metric]; exact hlimit)
  refine ⟨h.evaluated hb hleft ?_, b, hb, fun h2 => absurd hlen (by omega), fun _ => ?_⟩
  · rw [if_pos hlen, h.errors]
  · rw [hleft.state, h.errors]

theorem Invariant.evaluate_enough (h : st.Invariant ar s) {limit : Nat} {now : Int}
    (hcpu : st.metric = "cpu.usage".toList) (hdrop : window st.periods now s.discarded = [])
    (hlen : ¬ (window st.periods now s.fed).length < 2) :
    st.Invariant ar (st.step set ar s (.evaluate now)) ∧ st.Says set ar limit s (.evaluate now) := by
  have hp := h.window_perm now
  rw [hdrop, List.append_nil] at hp
  have harr := (h.arranged set now).of_perm hp
  have hfound := harr.perm.length_eq
  have hne : s.alarm.timeseries.find set (timeAt (seconds now - st.periods)) (timeAt (seconds now)) ≠ [] := by
    intro hnil
    rw [hnil, List.length_nil] at hfound
    omega
  have hreadings : ∀ v ∈ (s.alarm.timeseries.find set (timeAt (seconds now - st.periods))
      (timeAt (seconds now))).map MetricValue.value, (ar.toF v).isSome := by
    intro v hv
    obtain ⟨mv, hmv, rfl⟩ := List.mem_map.mp hv
    have hmem := harr.perm.mem_iff.mp hmv
    exact (h.readings mv (List.mem_filter.mp hmem).1).1
  obtain ⟨x, hx⟩ := Alarm.exists_mean ar hreadings (by rwa [ne_eq, List.map_eq_nil_iff])
  obtain ⟨b, hb, hleft⟩ := Alarm.evaluate_of_mean set ar (h.metric.trans (congrArg some hcpu)) h.params
    h.periods rfl (by omega) hx
  refine ⟨h.evaluated hb hleft ?_, b, hb, fun _ => ⟨_, x, harr, hx, hleft.state⟩,
    fun h2 => absurd h2 hlen⟩
  rw [if_neg hlen]

theorem Invariant.step (h : st.Invariant ar s) {limit : Nat}
    (hlimit : metricsErrorCount st.metric = some limit) (hlog : st.metric ≠ "log".toList)
    (x : AlarmStep N) (hc : st.Clear ar s x) :
    st.Invariant ar (st.step set ar s x) ∧ st.Says set ar limit s x := by
  cases x with
  | feed value time => exact ⟨h.feed hc, trivial⟩
  | evaluate now =>
    by_cases hlen : (window st.periods now s.fed).length < 2
    · exact h.evaluate_short hlimit hlog hlen
    · rcases hc with hc | ⟨hcpu, hdrop⟩
      · exact absurd hc hlen
      · exact h.evaluate_enough hcpu hdrop hlen

/-- The state of an alarm on readings is right after every evaluation of a run whose steps
are clear. -/
theorem each_says (set : SortedSet N) (ar : Arithmetic N F) (hmetric : st.metric ∈ resourceMetrics)
    {limit : Nat} (hlimit : metricsErrorCount st.metric = some limit) (a : Alarm N F)
    (steps : List (AlarmStep N)) (hc : Each (st.step set ar) (st.Clear ar) (st.start a) steps) :
    Each (st.step set ar) (st.Says set ar limit) (st.start a) steps := by
  have hlog : st.metric ≠ "log".toList := by
    intro he
    rw [he] at hmetric
    revert hmetric
    decide
  exact hc.of_invariant (st.Invariant ar) (fun s x h hx => h.step hlimit hlog x hx) (Invariant.start a)

def wholeNumbers : Arithmetic Int Int where
  ofNumber := id
  ofText := Text.toI
  zero := 0
  add := (· + ·)
  div := fun x n => x / n
  compare
    | .ge => (decide <| · ≥ ·)
    | .gt => (decide <| · > ·)
    | .le => (decide <| · ≤ ·)
    | .lt => (decide <| · < ·)

/-- Two readings of a metric, and an evaluation in the second of the later one. -/
def twoReadings : List (AlarmStep Int) :=
  [.feed (.number 80) (timeAt 1), .feed (.number 90) (timeAt 2), .evaluate (timeAt 2)]

def over50 (metric : Text) : Setting Int := ⟨metric, .ge, 50, 60⟩

theorem each_says_cpu : Each ((over50 "cpu.usage".toList).step default wholeNumbers)
    ((over50 "cpu.usage".toList).Says default wholeNumbers 5)
    ((over50 "cpu.usage".toList).start Alarm.blank) twoReadings :=
  each_says default wholeNumbers (by decide) rfl Alarm.blank twoReadings
    ⟨⟨rfl, rfl, by decide⟩, ⟨rfl, rfl, by decide⟩, .inr ⟨rfl, rfl⟩, trivial⟩

/-- The memory of the same machine: the case that is there goes by another name. -/
theorem not_says_memory : ¬ Each ((over50 "memory.usage".toList).step default wholeNumbers)
    ((over50 "memory.usage".toList).Says default wholeNumbers 5)
    ((over50 "memory.usage".toList).start Alarm.blank) twoReadings := by
  rintro ⟨-, -, ⟨a, ha, hmean, -⟩, -⟩
  obtain ⟨l, x, -, -, hstate⟩ := hmean (by decide)
  rw [Alarm.state_of_memory default wholeNumbers rfl ha] at hstate
  cases hstate

end Setting

end MetricLibs

end WakameVdc
