import WakameVdc.TimeSeries

/-!
# Alarms on metrics

`Alarm` of `metric_libs`, with the constants it goes by. An alarm is fed values, which it
evaluates when asked: readings against a threshold, lines of a log against a pattern.
-/

namespace WakameVdc

open Lib

namespace MetricLibs

/-! ## Constants -/

inductive Comparison
  | ge
  | gt
  | le
  | lt
  deriving DecidableEq

def Comparison.name : Comparison → Text
  | ge => "ge".toList
  | gt => "gt".toList
  | le => "le".toList
  | lt => "lt".toList

def resourceMetrics : List Text := ["cpu.usage".toList, "disk.usage".toList, "memory.usage".toList]

def supportComparisonOperator (t : Text) : Option Comparison :=
  if t = "ge".toList then some .ge
  else if t = "gt".toList then some .gt
  else if t = "le".toList then some .le
  else if t = "lt".toList then some .lt
  else none

def insufficientDataState : Text := "insufficient_data".toList

def okState : Text := "ok".toList

def alarmState : Text := "alarm".toList

def metricsErrorCount (metric : Text) : Option Nat :=
  if metric = "cpu.usage".toList then some 5
  else if metric = "memory.usage".toList then some 5
  else if metric = "log".toList then some 5
  else none

theorem supportComparisonOperator_name (op : Comparison) :
    supportComparisonOperator op.name = some op := by cases op <;> decide

/-! ## What an alarm computes with -/

/-- The arithmetic of readings: how they are read as floats, and how those are added,
divided and compared with a threshold. -/
structure Arithmetic (N F : Type) where
  ofNumber : N → F
  /-- `String#to_f` -/
  ofText : Text → F
  /-- `nil.to_f` -/
  zero : F
  add : F → F → F
  div : F → Nat → F
  compare : Comparison → F → N → Bool

/-- `to_f`, which `true` and `false` do not have. -/
def Arithmetic.toF {N F : Type} (ar : Arithmetic N F) : Value N → Option F
  | .nil => some ar.zero
  | .bool _ => none
  | .number n => some (ar.ofNumber n)
  | .string t => some (ar.ofText t)

def textIndex (pattern t : Text) : Option Nat :=
  (List.range (t.length + 1)).find? fun i => pattern.isPrefixOf (t.drop i)

/-- A text, or a regular expression with the place where it first matches. -/
inductive MatchPattern
  | string (pattern : Text)
  | regexp (index : Text → Option Nat)

def MatchPattern.index : MatchPattern → Text → Option Nat
  | .string pattern, line => textIndex pattern line
  | .regexp f, line => f line

structure Match (N : Type) where
  matchLine : Value N
  matchRanges : List (Value N)

/-- `last_evaluated_value` -/
inductive Evaluated (N F : Type)
  | nil
  | mean (x : F)
  | matched (ms : List (Match N))

structure Params (N : Type) where
  comparisonOperator : Option Text
  threshold : Option N

/-- The fields an alarm is given from outside are `nil` until they are. -/
structure Alarm (N F : Type) where
  uuid : Option Text
  resourceId : Option Text
  metricName : Option Text
  state : Option Text
  evaluationPeriods : Option Int
  capturePeriods : Option Int
  evaluationTriggerCount : Option Int
  params : Option (Params N)
  matchPattern : Option MatchPattern
  maxMatchCount : Option Int
  timeseries : TimeSeries N
  errorCount : Nat
  matchCount : Option Nat
  lastEvaluatedValue : Evaluated N F
  lastEvaluatedAt : Option Int
  beforeState : Option Text
  stateTimestamp : Option Int

/-! ## Lines of a log -/

structure LogScan (N : Type) where
  tmp : List (Value N)
  matchCount : Nat
  matchIndexes : List Nat
  lineNo : Nat

variable {N F : Type}

def scanLine (matchPattern : Option MatchPattern) (maxMatchCount : Option Int) (s : LogScan N)
    (value : Value N) : Except (LogScan N) (LogScan N) :=
  let s := { s with tmp := s.tmp ++ [value] }
  match value with
  | .string line =>
    match matchPattern with
    | none => .error s
    | some pattern =>
      match pattern.index line with
      | none => .ok { s with lineNo := s.lineNo + 1 }
      | some _ =>
        let s := { s with matchCount := s.matchCount + 1 }
        match maxMatchCount with
        | none => .error s
        | some m =>
          if s.matchCount ≤ m ∨ m = -1 then
            .ok { s with matchIndexes := s.matchIndexes ++ [s.lineNo], lineNo := s.lineNo + 1 }
          else
            .ok { s with lineNo := s.lineNo + 1 }
  | _ => .ok { s with lineNo := s.lineNo + 1 }

/-- `l[first..last]`, for a first index that is not past the end. -/
def slice {α : Type} (l : List α) (first last : Nat) : List α := (l.drop first).take (last + 1 - first)

def preReadSize : Nat := 3

def postReadSize : Nat := 3

def matchAt (tmp : List (Value N)) (matchedLine : Nat) : Match N where
  matchLine := tmp[matchedLine]?.getD .nil
  matchRanges :=
    if (0 : Int) > matchedLine - preReadSize then slice tmp 0 (matchedLine + postReadSize)
    else slice tmp (matchedLine - preReadSize) (matchedLine + postReadSize)

namespace Alarm

def blank : Alarm N F where
  uuid := none
  resourceId := none
  metricName := none
  state := none
  evaluationPeriods := none
  capturePeriods := none
  evaluationTriggerCount := none
  params := none
  matchPattern := none
  maxMatchCount := none
  timeseries := TimeSeries.new
  errorCount := 0
  matchCount := none
  lastEvaluatedValue := .nil
  lastEvaluatedAt := none
  beforeState := none
  stateTimestamp := none

variable (set : SortedSet N) (ar : Arithmetic N F)

/-! ## Feeding and evaluating -/

/-- The value a feed has for the metric of the alarm, at the time it gives. -/
def feed (a : Alarm N F) (value : Value N) (time : Int) : Alarm N F :=
  { a with timeseries := a.timeseries.push value time }

def updateState (a : Alarm N F) (state : Text) (now : Int) : Alarm N F :=
  { a with state := some state, stateTimestamp := some now }

/-- `inject` over the values, each read by `to_f`. -/
def sumFrom (sum : F) (values : List (Value N)) : Option F :=
  values.foldlM (fun sum n => (ar.toF n).map (ar.add sum)) sum

def mean : List (Value N) → Option F
  | [] => none
  | v :: vs => do
    let sum ← sumFrom ar (← ar.toF v) vs
    return ar.div sum (vs.length + 1)

/-- The case of the readings: what is raised leaves the alarm as it is by then. -/
def evaluateReadings (now : Int) (a : Alarm N F) : Except (Alarm N F) (Alarm N F) :=
  match a.evaluationPeriods with
  | none => .error a
  | some periods =>
    let endTime := seconds now
    let startTime := endTime - periods
    let values := (a.timeseries.find set (timeAt startTime) (timeAt endTime)).map MetricValue.value
    if values.length ≤ 1 then .error a
    else
      match mean ar values with
      | none => .error a
      | some evaluatedValue =>
        let a := { a with lastEvaluatedValue := .mean evaluatedValue }
        match a.params with
        | none => .error a
        | some params =>
          match params.comparisonOperator.bind supportComparisonOperator, params.threshold with
          | some op, some threshold =>
            .ok (a.updateState (if ar.compare op evaluatedValue threshold then alarmState else okState) now)
          | _, _ => .error a

def evaluateLog (a : Alarm N F) : Except (Alarm N F) (Alarm N F) :=
  let scan := (a.timeseries.each set).foldlM
    (fun s t => scanLine a.matchPattern a.maxMatchCount s t.value) ⟨[], 0, [], 0⟩
  match scan with
  | .error s => .error { a with matchCount := some s.matchCount }
  | .ok s => .ok { a with
      matchCount := some s.matchCount
      lastEvaluatedValue := .matched (s.matchIndexes.map (matchAt s.tmp)) }

def evaluateMetric (now : Int) (a : Alarm N F) : Except (Alarm N F) (Alarm N F) :=
  if a.metricName = some "cpu.usage".toList ∨ a.metricName = some "memory_usage".toList then
    evaluateReadings set ar now a
  else if a.metricName = some "log".toList then
    evaluateLog set a
  else
    .error a

/-- `ensure`, whatever has been raised. -/
def finish (now : Int) (a : Alarm N F) : Alarm N F :=
  { a with lastEvaluatedAt := some now, timeseries := a.timeseries.deleteFirst set }

/-- A metric without a limit for its errors has nothing to compare their number with, which
raises again. -/
def evaluate (now : Int) (a : Alarm N F) : Except (Alarm N F) (Alarm N F) :=
  match evaluateMetric set ar now { a with beforeState := a.state } with
  | .ok a => .ok (finish set now { a with errorCount := 0 })
  | .error a =>
    let a := { a with errorCount := a.errorCount + 1 }
    match a.metricName.bind metricsErrorCount with
    | none => .error (finish set now a)
    | some limit =>
      .ok (finish set now (if limit ≤ a.errorCount then a.updateState insufficientDataState now else a))

end Alarm

/-! ## What a log alarm is to report -/

def MatchPattern.Matches : MatchPattern → Value N → Prop
  | .string pattern, .string line => pattern <:+: line
  | .regexp f, .string line => (f line).isSome
  | _, _ => False

instance (pattern : MatchPattern) : DecidablePred (pattern.Matches (N := N)) := fun v =>
  match pattern, v with
  | .string p, .string line => inferInstanceAs (Decidable (p <:+: line))
  | .regexp f, .string line => inferInstanceAs (Decidable ((f line).isSome = true))
  | .string _, .nil | .string _, .bool _ | .string _, .number _ => isFalse id
  | .regexp _, .nil | .regexp _, .bool _ | .regexp _, .number _ => isFalse id

/-- The first of the matches, as many as `max_match_count` allows. -/
def firstMatches {α : Type} (m : Int) (l : List α) : List α := if m = -1 then l else l.take m.toNat

/-- The lines around line `i`, up to three on either side. -/
def context (lines : List (Value N)) (i : Nat) : List (Value N) :=
  (lines.zipIdx.filter fun e => i ≤ e.2 + 3 ∧ e.2 ≤ i + 3).map Prod.fst

def matchesOf (pattern : MatchPattern) (lines : List (Value N)) : List (Value N × Nat) :=
  lines.zipIdx.filter fun e => pattern.Matches e.1

def report (pattern : MatchPattern) (m : Int) (lines : List (Value N)) : List (Match N) :=
  (firstMatches m (matchesOf pattern lines)).map fun e => ⟨e.1, context lines e.2⟩

theorem isSome_textIndex (pattern t : Text) : (textIndex pattern t).isSome ↔ pattern <:+: t := by
  unfold textIndex
  rw [List.find?_isSome]
  constructor
  · rintro ⟨i, -, hi⟩
    exact (List.isPrefixOf_iff_prefix.mp hi).isInfix.trans (List.drop_suffix i t).isInfix
  · rintro ⟨s, u, rfl⟩
    refine ⟨s.length, List.mem_range.mpr (by simp only [List.length_append]; omega), ?_⟩
    rw [List.append_assoc, List.drop_left, List.isPrefixOf_iff_prefix]
    exact List.prefix_append pattern u

theorem MatchPattern.matches_string_iff (pattern : MatchPattern) (line : Text) :
    pattern.Matches (.string line : Value N) ↔ (pattern.index line).isSome := by
  cases pattern with
  | string p => exact (isSome_textIndex p line).symm
  | regexp f => exact Iff.rfl

/-! ### The lines around a match -/

theorem map_filter_zipIdx {α : Type} (l : List α) (n a b : Nat) :
    ((l.zipIdx n).filter fun e => a ≤ e.2 ∧ e.2 ≤ b).map Prod.fst =
      (l.drop (a - n)).take (b + 1 - max a n) := by
  induction l generalizing n with
  | nil => simp
  | cons x l ih =>
    rw [List.zipIdx_cons, List.filter_cons]
    by_cases ha : a ≤ n
    · have hdrop : a - n = 0 := by omega
      have hdrop' : a - (n + 1) = 0 := by omega
      by_cases hb : n ≤ b
      · have htake : b + 1 - max a n = (b + 1 - max a (n + 1)) + 1 := by omega
        rw [if_pos (by simp [ha, hb]), List.map_cons, ih, hdrop, hdrop', htake]
        rfl
      · have htake : b + 1 - max a n = 0 := by omega
        have htake' : b + 1 - max a (n + 1) = 0 := by omega
        rw [if_neg (by simp [hb]), ih, htake, htake']
        rfl
    · have hdrop : a - n = (a - (n + 1)) + 1 := by omega
      have hmax : max a (n + 1) = max a n := by omega
      rw [if_neg (by simp [ha]), ih, hdrop, hmax]
      rfl

theorem slice_eq {α : Type} (l : List α) (a b : Nat) :
    slice l a b = (l.zipIdx.filter fun e => a ≤ e.2 ∧ e.2 ≤ b).map Prod.fst := by
  rw [map_filter_zipIdx, Nat.sub_zero, Nat.max_zero]
  rfl

theorem matchRanges_matchAt (lines : List (Value N)) (i : Nat) :
    (matchAt lines i).matchRanges = context lines i := by
  unfold matchAt context preReadSize postReadSize
  dsimp only
  split
  · -- the first line is within reach
    rw [slice_eq]
    congr 1
    refine List.filter_congr fun e _ => ?_
    rw [decide_eq_decide]
    omega
  · rw [slice_eq]
    congr 1
    refine List.filter_congr fun e _ => ?_
    rw [decide_eq_decide]
    omega

theorem matchAt_of_mem {lines : List (Value N)} {e : Value N × Nat} (he : e ∈ lines.zipIdx) :
    matchAt lines e.2 = ⟨e.1, context lines e.2⟩ := by
  have hline : (matchAt lines e.2).matchLine = e.1 := by
    show lines[e.2]?.getD .nil = e.1
    rw [List.mem_zipIdx_iff_getElem?.mp he]
    rfl
  rw [← hline, ← matchRanges_matchAt]

/-! ### The loop over the lines -/

theorem firstMatches_concat {α : Type} (m : Int) (l : List α) (x : α) :
    firstMatches m (l ++ [x]) =
      if ((l.length + 1 : Nat) : Int) ≤ m ∨ m = -1 then firstMatches m l ++ [x] else firstMatches m l := by
  unfold firstMatches
  by_cases hm : m = -1
  · rw [if_pos hm, if_pos hm, if_pos (.inr hm)]
  · rw [if_neg hm, if_neg hm]
    by_cases hl : ((l.length + 1 : Nat) : Int) ≤ m
    · rw [if_pos (.inl hl), List.take_of_length_le (by simp; omega), List.take_of_length_le (by omega)]
    · rw [if_neg (by simp only [hl, hm, or_self, not_false_eq_true]),
        List.take_append_of_le_length (by omega)]

section
variable (pattern : MatchPattern) (m : Int)

def scanned (lines : List (Value N)) : LogScan N where
  tmp := lines
  matchCount := (matchesOf pattern lines).length
  matchIndexes := (firstMatches m (matchesOf pattern lines)).map Prod.snd
  lineNo := lines.length

theorem matchesOf_concat (lines : List (Value N)) (v : Value N) :
    matchesOf pattern (lines ++ [v]) =
      matchesOf pattern lines ++ if pattern.Matches v then [(v, lines.length)] else [] := by
  unfold matchesOf
  rw [List.zipIdx_append, List.filter_append, Nat.zero_add, List.zipIdx_cons, List.zipIdx_nil,
    List.filter_singleton]
  by_cases hv : pattern.Matches v
  · simp [hv]
  · simp [hv]

theorem scanned_concat_of_not {v : Value N} (hv : ¬ pattern.Matches v) (lines : List (Value N)) :
    scanned pattern m (lines ++ [v]) =
      { scanned pattern m lines with tmp := lines ++ [v], lineNo := lines.length + 1 } := by
  unfold scanned
  rw [matchesOf_concat, if_neg hv, List.append_nil, List.length_append]
  rfl

theorem scanLine_scanned (lines : List (Value N)) (v : Value N) :
    scanLine (some pattern) (some m) (scanned pattern m lines) v =
      .ok (scanned pattern m (lines ++ [v])) := by
  cases v with
  | nil => rw [scanned_concat_of_not pattern m (v := .nil) (by cases pattern <;> exact id)]; rfl
  | bool b => rw [scanned_concat_of_not pattern m (v := .bool b) (by cases pattern <;> exact id)]; rfl
  | number n => rw [scanned_concat_of_not pattern m (v := .number n) (by cases pattern <;> exact id)]; rfl
  | string line =>
    have hmatch := pattern.matches_string_iff (N := N) line
    cases hi : pattern.index line with
    | none =>
      rw [hi] at hmatch
      rw [scanned_concat_of_not pattern m (by simpa using hmatch)]
      unfold scanLine
      simp only [hi]
      rfl
    | some i =>
      rw [hi] at hmatch
      have hmatch : pattern.Matches (.string line : Value N) := hmatch.mpr rfl
      have hconcat := matchesOf_concat pattern lines (.string line)
      rw [if_pos hmatch] at hconcat
      unfold scanLine
      simp only [hi]
      unfold scanned
      rw [hconcat, firstMatches_concat]
      dsimp only
      split
      · simp
      · simp

theorem foldlM_scanLine (lines : List (Value N)) :
    lines.foldlM (scanLine (some pattern) (some m)) ⟨[], 0, [], 0⟩ = .ok (scanned pattern m lines) := by
  induction lines using List.reverseRecOn with
  | nil =>
    unfold scanned matchesOf firstMatches
    simp
    rfl
  | append_singleton lines v ih =>
    rw [List.foldlM_append, ih]
    show scanLine (some pattern) (some m) (scanned pattern m lines) v >>= pure = _
    rw [scanLine_scanned]
    rfl

theorem length_matchesOf (lines : List (Value N)) :
    (matchesOf pattern lines).length = lines.countP (fun v => pattern.Matches v) := by
  unfold matchesOf
  conv_rhs => rw [← List.zipIdx_map_fst 0 lines]
  rw [← List.countP_eq_length_filter, List.countP_map]
  rfl

theorem map_matchAt_scanned (lines : List (Value N)) :
    (scanned pattern m lines).matchIndexes.map (matchAt lines) = report pattern m lines := by
  unfold scanned report
  rw [List.map_map]
  refine List.map_congr_left fun e he => ?_
  have hmem : e ∈ matchesOf pattern lines := by
    unfold firstMatches at he
    split at he
    · exact he
    · exact List.mem_of_mem_take he
  exact matchAt_of_mem (List.mem_filter.mp hmem).1

end

namespace Alarm

variable (set : SortedSet N) (ar : Arithmetic N F)

theorem evaluateMetric_cpu {a : Alarm N F} (h : a.metricName = some "cpu.usage".toList) (now : Int) :
    evaluateMetric set ar now a = evaluateReadings set ar now a := by
  unfold evaluateMetric
  rw [h, if_pos (.inl rfl)]

theorem evaluateMetric_log {a : Alarm N F} (h : a.metricName = some "log".toList) (now : Int) :
    evaluateMetric set ar now a = evaluateLog set a := by
  unfold evaluateMetric
  rw [h, if_neg (by simp), if_pos rfl]

theorem evaluateLog_eq (a : Alarm N F) (pattern : MatchPattern) (m : Int)
    (hp : a.matchPattern = some pattern) (hm : a.maxMatchCount = some m) :
    evaluateLog set a = .ok { a with
      matchCount := some (((a.timeseries.each set).map MetricValue.value).countP (fun v => pattern.Matches v))
      lastEvaluatedValue := .matched (report pattern m ((a.timeseries.each set).map MetricValue.value)) } := by
  have hscan := foldlM_scanLine pattern m ((a.timeseries.each set).map MetricValue.value)
  rw [List.foldlM_map] at hscan
  unfold evaluateLog
  rw [hp, hm]
  simp only [hscan]
  rw [← length_matchesOf, ← map_matchAt_scanned]
  rfl

def onLog (a : Alarm N F) (pattern : MatchPattern) (m : Int) : Alarm N F :=
  { a with metricName := some "log".toList, matchPattern := some pattern, maxMatchCount := some m }

def lines (a : Alarm N F) : List (Value N) := (a.timeseries.each set).map MetricValue.value

theorem evaluate_of_ok {now : Int} {a b : Alarm N F}
    (h : evaluateMetric set ar now { a with beforeState := a.state } = .ok b) :
    evaluate set ar now a = .ok (finish set now { b with errorCount := 0 }) := by
  unfold evaluate
  rw [h]

/-- A log alarm reports how many lines match, and the first matches with the lines around them. -/
theorem evaluate_log (now : Int) (a : Alarm N F) (pattern : MatchPattern) (m : Int) :
    ∃ a', evaluate set ar now (a.onLog pattern m) = .ok a' ∧
      a'.matchCount = some ((a.lines set).countP fun v => pattern.Matches v) ∧
      a'.lastEvaluatedValue = .matched (report pattern m (a.lines set)) := by
  have hlog := evaluateMetric_log set ar (a := { a.onLog pattern m with beforeState := a.state }) rfl now
  rw [evaluateLog_eq set _ pattern m rfl rfl] at hlog
  exact ⟨_, evaluate_of_ok set ar hlog, rfl, rfl⟩

end Alarm

end MetricLibs

end WakameVdc
