import WakameVdc.LogAlarm

/-!
# What the log alarms notify of

The matches of every batch are pushed in the order of the batches. Those that are pushed
while no message is being posted are notified of once, in that order; those that come in
between are deleted with the logs that have been sent.
-/

namespace WakameVdc

open Lib

namespace LogAlarm

open MetricLibs (SortedSet TimeSeries Evaluated MatchPattern MetricValue settle timeAt report)

/-! ## What a batch is to report -/

def bytesOf : List Text → Nat
  | [] => 0
  | m :: messages => m.utf8.length + bytesOf messages

/-- Whether some messages and the bytes read before them are below the limit. -/
def Below (maxBytes bytes : Int) (messages : List Text) : Prop :=
  maxBytes > bytes + bytesOf messages ∨ maxBytes = -1

instance (maxBytes bytes : Int) : DecidablePred (Below maxBytes bytes) := fun _ =>
  inferInstanceAs (Decidable (_ ∨ _))

def readable (maxBytes bytes : Int) (messages : List Text) : Nat :=
  (List.range messages.length).countP fun j => Below maxBytes bytes (messages.take (j + 1))

def Config.readable (c : Config) (es : List LogRecord) : Nat :=
  LogAlarm.readable c.maxReadMessageBytes es.length (es.map LogRecord.message)

def LogRecord.value (r : LogRecord) : MetricValue Empty := ⟨.string r.message, timeAt r.time⟩

def Config.readLines (c : Config) (set : SortedSet Empty) (es : List LogRecord) :
    List (MetricLibs.Value Empty) :=
  ((TimeSeries.feed ((es.take (c.readable es)).map LogRecord.value)).each set).map MetricValue.value

def Config.matches (c : Config) (set : SortedSet Empty) (es : List LogRecord) (now : Int) :
    List NotificationLog :=
  (report (.string c.matchPattern) c.hash.maxMatchCount (c.readLines set es)).map fun v =>
    ⟨Alarm.joined v.matchRanges, some now⟩

/-! ## The loop over the messages -/

section
variable {maxBytes bytes : Int} {m : Text} {ms : List Text}

theorem below_cons :
    Below maxBytes bytes (m :: ms) ↔ Below maxBytes (bytes + m.utf8.length) ms := by
  unfold Below
  rw [bytesOf]
  omega

theorem below_nil_of_below (h : Below maxBytes bytes ms) : Below maxBytes bytes [] := by
  unfold Below at *
  have hnil : bytesOf [] = 0 := rfl
  omega

theorem readable_cons :
    readable maxBytes bytes (m :: ms) =
      if Below maxBytes bytes [m] then readable maxBytes (bytes + m.utf8.length) ms + 1 else 0 := by
  have hone : ∀ us, Below maxBytes (bytes + m.utf8.length) us → Below maxBytes bytes [m] :=
    fun us hus => below_cons.mpr (below_nil_of_below hus)
  unfold readable
  rw [List.length_cons, List.range_succ_eq_map, List.countP_cons, List.countP_map]
  by_cases hm : Below maxBytes bytes [m]
  · simp [hm, below_cons, Function.comp_def]
  · have hnone : ∀ us, ¬ Below maxBytes bytes (m :: us) := fun us hus => hm (hone us (below_cons.mp hus))
    simp [hnone, Function.comp_def]

/-- The messages that are read are the longest part from the start that is below the limit. -/
theorem le_readable_iff {k : Nat} (hpos : 0 < k) (hk : k ≤ ms.length) :
    k ≤ readable maxBytes bytes ms ↔ Below maxBytes bytes (ms.take k) := by
  induction ms generalizing bytes k with
  | nil => exact absurd (hpos.trans_le hk) (by simp)
  | cons m ms ih =>
    obtain ⟨j, rfl⟩ := Nat.exists_eq_succ_of_ne_zero hpos.ne'
    rw [readable_cons, List.take_succ_cons, @below_cons maxBytes bytes m (ms.take j)]
    by_cases hm : Below maxBytes bytes [m]
    · rw [if_pos hm, Nat.succ_le_succ_iff]
      cases j with
      | zero => exact iff_of_true (Nat.zero_le _) (below_cons.mp hm)
      | succ j => exact ih (Nat.succ_pos j) (Nat.le_of_succ_le_succ hk)
    · rw [if_neg hm]
      exact iff_of_false (by simp) fun hj => hm (below_cons.mpr (below_nil_of_below hj))

end

namespace Alarm

def feeds (a : Alarm) (messages : List (Int × Text)) : Alarm :=
  messages.foldl (fun a m => a.feed m.2 m.1) a

theorem feedMessages_eq (now bytes : Int) (a : Alarm) (messages : List (Int × Text)) :
    feedMessages now bytes a messages =
      let k := readable a.config.maxReadMessageBytes bytes (messages.map Prod.snd)
      if k = messages.length then a.feeds messages
      else (a.feeds (messages.take k)).addErrors readAlarmLogsOverTheLimit now := by
  induction messages generalizing a bytes with
  | nil => rfl
  | cons m messages ih =>
    obtain ⟨time, message⟩ := m
    have hbelow : (a.config.maxReadMessageBytes > bytes + message.utf8.length ∨
        a.config.maxReadMessageBytes = -1) ↔ Below a.config.maxReadMessageBytes bytes [message] := by
      unfold Below
      rfl
    dsimp only
    rw [List.map_cons, readable_cons]
    unfold feedMessages
    simp only [hbelow]
    by_cases hm : Below a.config.maxReadMessageBytes bytes [message]
    · rw [if_pos hm, if_pos hm, ih]
      simp only [List.length_cons, Nat.add_right_cancel_iff, List.take_succ_cons]
      rfl
    · rw [if_neg hm, if_neg hm, if_neg (by simp)]
      rfl

theorem alarm_feeds (a : Alarm) (messages : List (Int × Text)) :
    a.feeds messages = { a with alarm := { a.alarm with timeseries :=
      ⟨a.alarm.timeseries.stored ++ messages.map fun m => ⟨.string m.2, timeAt m.1⟩⟩ } } := by
  unfold feeds
  induction messages generalizing a with
  | nil => simp
  | cons m messages ih =>
    rw [List.foldl_cons, ih]
    simp [feed, MetricLibs.Alarm.feed, TimeSeries.push]

/-- The variables of an alarm on a log, between two batches. -/
structure Ready (a : Alarm) : Prop where
  metricName : a.alarm.metricName = some "log".toList
  matchPattern : a.alarm.matchPattern = some (.string a.config.matchPattern)
  maxMatchCount : a.alarm.maxMatchCount = some a.config.hash.maxMatchCount
  timeseries : a.alarm.timeseries = TimeSeries.new

theorem ready_new (config : Config) : (new config).Ready where
  metricName := congrArg some config.onLog
  matchPattern := by
    show config.hash.matchPattern.map MatchPattern.string = _
    rw [config.given]
    rfl
  maxMatchCount := rfl
  timeseries := rfl

end Alarm

/-! ## A batch -/

section
variable (set : SortedSet Empty) (c : Config) (es : List LogRecord) (now : Int)

def Config.matchCount : Nat :=
  (c.readLines set es).countP fun v => (MatchPattern.string c.matchPattern).Matches v

def Config.overruns : List (Nat × Int) :=
  (if c.readable es = es.length then [] else [(readAlarmLogsOverTheLimit, now)]) ++
    if c.hash.maxMatchCount ≠ -1 ∧ c.hash.maxMatchCount < c.matchCount set es then
      [(textMatchCountOverTheLimit, now)] else []

end

namespace Alarm

variable (set : SortedSet Empty) {a : Alarm}

theorem evaluate_of_log {m : MetricLibs.Alarm Empty Unit} {pattern : MatchPattern} {k : Int} (now : Int)
    (hm : m.metricName = some "log".toList) (hp : m.matchPattern = some pattern)
    (hk : m.maxMatchCount = some k) :
    let lines := (m.timeseries.each set).map MetricValue.value
    settle (m.evaluate set noArithmetic now) = { m with
      beforeState := m.state
      matchCount := some (lines.countP fun v => pattern.Matches v)
      lastEvaluatedValue := .matched (report pattern k lines)
      errorCount := 0
      lastEvaluatedAt := some now
      timeseries := m.timeseries.deleteFirst set } := by
  have hlog := MetricLibs.Alarm.evaluateLog_eq set { m with beforeState := m.state } pattern k hp hk
  rw [← MetricLibs.Alarm.evaluateMetric_log set noArithmetic
    (a := { m with beforeState := m.state }) hm now] at hlog
  dsimp only
  rw [MetricLibs.Alarm.evaluate_of_ok set noArithmetic hlog]
  rfl

theorem feedMessages_batch (h : a.alarm.timeseries = TimeSeries.new) (es : List LogRecord) (now : Int) :
    feedMessages now es.length a (es.map fun r => (r.time, r.message)) = { a with
      alarm := { a.alarm with timeseries := .feed ((es.take (a.config.readable es)).map LogRecord.value) }
      errors := a.errors ++ if a.config.readable es = es.length then []
        else [(readAlarmLogsOverTheLimit, now)] } := by
  have hk : LogAlarm.readable a.config.maxReadMessageBytes es.length
      ((es.map fun r => (r.time, r.message)).map Prod.snd) = a.config.readable es := by
    rw [List.map_map]
    rfl
  have hstored : ∀ l : List LogRecord, (⟨a.alarm.timeseries.stored ++
      (l.map fun r => (r.time, r.message)).map fun m => ⟨.string m.2, timeAt m.1⟩⟩ : TimeSeries Empty) =
        .feed (l.map LogRecord.value) := by
    intro l
    rw [h, List.map_map]
    exact congrArg TimeSeries.mk (TimeSeries.stored_feed (l.map LogRecord.value)).symm
  rw [feedMessages_eq]
  dsimp only
  rw [hk, List.length_map]
  by_cases hall : a.config.readable es = es.length
  · rw [if_pos hall, if_pos hall, hall, List.take_length, alarm_feeds, hstored, List.append_nil]
  · rw [if_neg hall, if_neg hall, ← List.map_take, alarm_feeds, hstored]
    rfl

theorem evaluate_eq {b : Alarm} (hm : b.alarm.metricName = some "log".toList)
    (hp : b.alarm.matchPattern = some (.string b.config.matchPattern))
    (hk : b.alarm.maxMatchCount = some b.config.hash.maxMatchCount)
    {lines : List (MetricLibs.Value Empty)}
    (hlines : (b.alarm.timeseries.each set).map MetricValue.value = lines) (now : Int) :
    (b.evaluate set now).config = b.config ∧
      (b.evaluate set now).notificationLogs = b.notificationLogs ∧
      (b.evaluate set now).errors = b.errors ++
        (if b.config.hash.maxMatchCount ≠ -1 ∧ b.config.hash.maxMatchCount <
            (lines.countP fun v => (MatchPattern.string b.config.matchPattern).Matches v : Nat) then
          [(textMatchCountOverTheLimit, now)] else []) ∧
      (b.evaluate set now).evaluatedLogs =
        (report (.string b.config.matchPattern) b.config.hash.maxMatchCount lines).map
          (fun v => ⟨joined v.matchRanges, some now⟩) ∧
      (b.evaluate set now).clearAlarmLogs.Ready := by
  have heval := evaluate_of_log set now hm hp hk
  dsimp only at heval
  rw [hlines] at heval
  unfold evaluate
  rw [heval]
  dsimp only [Option.getD_some]
  split
  · exact ⟨rfl, rfl, rfl, rfl, hm, hp, hk, rfl⟩
  · exact ⟨rfl, rfl, (List.append_nil _).symm, rfl, hm, hp, hk, rfl⟩

/-- A batch leaves the alarm with its matches, and with an error for each limit that it
goes beyond. -/
theorem emitTo_eq (h : a.Ready) (sample : LogRecord) (es : List LogRecord) (now : Int) :
    (a.emitTo set sample es now).config = a.config ∧
      (a.emitTo set sample es now).notificationLogs = a.notificationLogs ∧
      (a.emitTo set sample es now).errors = a.errors ++ a.config.overruns set es now ∧
      (a.emitTo set sample es now).evaluatedLogs = a.config.matches set es now ∧
      (a.emitTo set sample es now).clearAlarmLogs.Ready := by
  have hfed := feedMessages_batch (a := { a with ipaddr := a.ipaddr <|> sample.ipaddr }) h.timeseries es now
  unfold emitTo
  dsimp only
  rw [hfed]
  obtain ⟨h1, h2, h3, h4, h5⟩ := evaluate_eq set (b := { a with
      ipaddr := a.ipaddr <|> sample.ipaddr
      alarm := { a.alarm with timeseries := .feed ((es.take (a.config.readable es)).map LogRecord.value) }
      errors := a.errors ++ if a.config.readable es = es.length then []
        else [(readAlarmLogsOverTheLimit, now)] })
    h.metricName h.matchPattern h.maxMatchCount rfl now
  refine ⟨h1, h2, ?_, h4, h5⟩
  rw [h3]
  exact List.append_assoc _ _ _

end Alarm

/-! ## The texts of the matches -/

theorem intercalate_ne_nil {t : Text} (ht : t ≠ []) {l : List Text} (h : t ∈ l) (sep : Text) :
    sep.intercalate l ≠ [] := by
  induction l with
  | nil => cases h
  | cons u l ih =>
    cases l with
    | nil =>
      rw [List.intercalate_singleton]
      exact List.mem_singleton.mp h ▸ ht
    | cons v l =>
      rw [List.intercalate_cons_cons]
      rcases List.mem_cons.mp h with rfl | h
      · simp [ht]
      · simp [ih h]

theorem joined_ne_nil {pattern : Text} (hp : pattern ≠ []) {m : Int}
    {lines : List (MetricLibs.Value Empty)} {v : MetricLibs.Match Empty}
    (hv : v ∈ report (.string pattern) m lines) : Alarm.joined v.matchRanges ≠ [] := by
  obtain ⟨e, he, rfl⟩ := List.mem_map.mp hv
  have hmem : e ∈ MetricLibs.matchesOf (.string pattern) lines := by
    unfold MetricLibs.firstMatches at he
    split at he
    · exact he
    · exact List.mem_of_mem_take he
  obtain ⟨hzip, hmatch⟩ := List.mem_filter.mp hmem
  obtain ⟨line, i⟩ := e
  cases line with
  | nil => exact absurd (of_decide_eq_true hmatch) id
  | bool b => exact absurd (of_decide_eq_true hmatch) id
  | number n => exact n.elim
  | string t =>
    have ht : t ≠ [] := by
      rintro rfl
      exact hp (List.eq_nil_of_infix_nil (of_decide_eq_true hmatch))
    have hcontext : MetricLibs.Value.string t ∈ MetricLibs.context lines i := by
      refine List.mem_map.mpr ⟨(.string t, i), List.mem_filter.mpr ⟨hzip, ?_⟩, rfl⟩
      simp
    exact intercalate_ne_nil ht (List.mem_map.mpr ⟨_, hcontext, rfl⟩) _

theorem matches_ne_nil {c : Config} {set : SortedSet Empty} {es : List LogRecord} {now : Int} :
    ∀ l ∈ c.matches set es now, l.evaluatedValue ≠ [] := by
  intro l hl
  obtain ⟨v, hv, rfl⟩ := List.mem_map.mp hl
  exact joined_ne_nil c.notEmpty hv

/-! ## Runs -/

def reported (set : SortedSet Empty) (s : State) (act : Int × Action) : List NotificationLog :=
  match act.2 with
  | .emit es =>
    match es.head? with
    | none => []
    | some sample =>
      if s.alarm.isFound sample then s.alarm.config.matches set es act.1 else []
  | .save | .collect | .clear | .restart _ _ => []

def saved (s : State) (act : Int × Action) : List NotificationLog :=
  match act.2 with
  | .save => s.saving.head?.toList
  | .emit _ | .collect | .clear | .restart _ _ => []

/-- A message tells of all of its matches, and there is a match or a limit to tell of. -/
structure Message.Right (m : Message) : Prop where
  state : m.state = MetricLibs.alarmState
  matchCount : m.matchCount = m.logs.length
  cause : m.logs ≠ [] ∨ m.limitLog.exceeded = 1 ∨ m.limitMatchCount.exceeded = 1

namespace State

structure Inv (s : State) : Prop where
  ready : s.alarm.Ready
  increasing : s.alarm.notificationLogs.Pairwise fun a b => a.2 < b.2
  upToNow : ∀ l ∈ s.alarm.notificationLogs, l.2 ≤ s.clock
  texts : ∀ l ∈ s.alarm.notificationLogs, l.1.evaluatedValue ≠ []
  saving : ∀ l ∈ s.saving, l.evaluatedValue ≠ []
  errors : ∀ e ∈ s.alarm.errors, e.1 = readAlarmLogsOverTheLimit ∨ e.1 = textMatchCountOverTheLimit
  posted : ∀ m ∈ s.posted, m.Right

section
variable {set : SortedSet Empty} {order : LogSet} {s : State} (h : s.Inv) {now : Int} (hnow : s.clock < now)

include h

theorem Inv.toA_eq : order.toA s.alarm.notificationLogs = s.alarm.notificationLogs :=
  (order.arranged _).eq_of_lt h.increasing

theorem Inv.totalMatchCount : s.alarm.totalMatchCount = s.alarm.notificationLogs.length :=
  List.countP_eq_length.mpr fun l hl => decide_eq_true (h.texts l hl)

theorem Inv.logs : (s.alarm.message order now).logs = s.alarm.notificationLogs.map fun l => l.1.shown := by
  show (order.toA s.alarm.notificationLogs).map _ = _
  rw [h.toA_eq]

theorem Inv.logs_of_not_notified (hn : ¬ s.alarm.isNotified = true) : s.alarm.notificationLogs = [] := by
  unfold Alarm.isNotified at hn
  rw [h.totalMatchCount] at hn
  simp only [Bool.or_eq_true, decide_eq_true_eq, not_or, not_lt, Nat.le_zero_eq, List.length_eq_zero_iff] at hn
  exact hn.2

theorem Inv.right_message (hn : s.alarm.isNotified = true) : (s.alarm.message order now).Right where
  state := if_pos hn
  matchCount := by
    rw [h.logs, List.length_map]
    exact h.totalMatchCount
  cause := by
    rw [h.logs]
    by_cases hlogs : s.alarm.notificationLogs = []
    · -- without a match there is an error
      have herrors : s.alarm.errors ≠ [] := by
        intro he
        unfold Alarm.isNotified at hn
        rw [h.totalMatchCount, hlogs, he] at hn
        cases hn
      obtain ⟨e, errors, he⟩ := List.exists_cons_of_ne_nil herrors
      have hlimit : ∀ no, e.1 = no → (s.alarm.limit no).exceeded = 1 := by
        intro no hno
        unfold Alarm.limit
        simp [he, hno]
      rcases h.errors e (he ▸ List.mem_cons_self) with hno | hno
      · exact .inr (.inl (hlimit _ hno))
      · exact .inr (.inr (hlimit _ hno))
    · exact .inl (by simpa using hlogs)

include hnow

theorem Inv.emit (es : List LogRecord) : ({ s.emit set es now with clock := now } : State).Inv := by
  unfold State.emit
  split
  · exact { h with upToNow := fun l hl => (h.upToNow l hl).trans hnow.le }
  · rename_i sample _
    split
    · obtain ⟨-, hlogs, herrors, hsaving, hready⟩ := Alarm.emitTo_eq set h.ready sample es now
      refine {
        ready := hready
        increasing := hlogs ▸ h.increasing
        upToNow := fun l hl => (h.upToNow l (hlogs ▸ hl)).trans hnow.le
        texts := fun l hl => h.texts l (hlogs ▸ hl)
        saving := fun l hl => ?_
        errors := fun e he => ?_
        posted := h.posted }
      · have hl : l ∈ (s.alarm.emitTo set sample es now).evaluatedLogs := hl
        rw [hsaving] at hl
        exact matches_ne_nil l hl
      have he : e ∈ (s.alarm.emitTo set sample es now).errors := he
      rw [herrors] at he
      rcases List.mem_append.mp he with he | he
      · exact h.errors e he
      · unfold Config.overruns at he
        rcases List.mem_append.mp he with he | he
        · split at he
          · cases he
          · exact .inl (List.mem_singleton.mp he ▸ rfl)
        · split at he
          · exact .inr (List.mem_singleton.mp he ▸ rfl)
          · cases he
    · exact { h with upToNow := fun l hl => (h.upToNow l hl).trans hnow.le }

theorem Inv.save : ({ s.save now with clock := now } : State).Inv := by
  unfold State.save
  split
  · exact { h with upToNow := fun l hl => (h.upToNow l hl).trans hnow.le }
  · rename_i log saving hsaving
    have hmem : ∀ l ∈ (s.alarm.push log now).notificationLogs,
        l ∈ s.alarm.notificationLogs ∨ l = (log, now) := fun l hl => by simpa [Alarm.push] using hl
    refine {
      ready := ⟨h.ready.metricName, h.ready.matchPattern, h.ready.maxMatchCount, h.ready.timeseries⟩
      increasing := List.pairwise_append.mpr ⟨h.increasing, List.pairwise_singleton _ _, ?_⟩
      upToNow := fun l hl => ?_
      texts := fun l hl => ?_
      saving := fun l hl => h.saving l (hsaving ▸ List.mem_cons_of_mem log hl)
      errors := h.errors
      posted := h.posted }
    · intro l hl l' hl'
      rw [List.mem_singleton.mp hl']
      exact Int.lt_of_le_of_lt (h.upToNow l hl) hnow
    · rcases hmem l hl with hl | rfl
      · exact (h.upToNow l hl).trans hnow.le
      · exact le_rfl
    · rcases hmem l hl with hl | rfl
      · exact h.texts l hl
      · exact h.saving log (hsaving ▸ List.mem_cons_self)

theorem Inv.collect : ({ s.collect order now with clock := now } : State).Inv := by
  unfold State.collect
  by_cases hn : s.alarm.isNotified = true
  · simp only [if_pos hn]
    refine { h with
      ready := ⟨h.ready.metricName, h.ready.matchPattern, h.ready.maxMatchCount, h.ready.timeseries⟩
      upToNow := fun l hl => (h.upToNow l hl).trans hnow.le
      posted := fun m hm => ?_ }
    rcases List.mem_append.mp hm with hm | hm
    · exact h.posted m hm
    · rw [List.mem_singleton.mp hm]
      exact h.right_message hn
  · simp only [if_neg hn]
    exact { h with upToNow := fun l hl => (h.upToNow l hl).trans hnow.le }

theorem Inv.clearNotificationLogs : (s.alarm.clearNotificationLogs now).notificationLogs = [] := by
  refine List.filter_eq_nil_iff.mpr fun l hl => ?_
  simpa using Int.lt_of_le_of_lt (h.upToNow l hl) hnow

theorem Inv.clear : ({ s.clear now with clock := now } : State).Inv := by
  have hnil : (s.alarm.resetAlarm.clearNotificationLogs now).notificationLogs = [] :=
    h.clearNotificationLogs hnow
  have hnone : ∀ l, l ∉ (s.alarm.resetAlarm.clearNotificationLogs now).notificationLogs := by
    rw [hnil]
    exact fun l => List.not_mem_nil
  exact {
    ready := ⟨h.ready.metricName, h.ready.matchPattern, h.ready.maxMatchCount, h.ready.timeseries⟩
    increasing := hnil ▸ List.Pairwise.nil
    upToNow := fun l hl => absurd hl (hnone l)
    texts := fun l hl => absurd hl (hnone l)
    saving := h.saving
    errors := fun e he => absurd he List.not_mem_nil
    posted := h.posted }

omit hnow in
theorem Inv.restart (config : Config) {times : List Int} (hsaving : s.saving = [])
    (hlength : times.length = s.alarm.notificationLogs.length)
    (htimes : (s.clock :: times ++ [now]).Pairwise (· < ·)) :
    ({ s.restart order config times with clock := now } : State).Inv := by
  obtain ⟨hpair, -, hlast⟩ := List.pairwise_append.mp htimes
  have hlogs : (order.toA s.alarm.notificationLogs).map Prod.fst = s.alarm.notificationLogs.map Prod.fst := by
    rw [h.toA_eq]
  have hsnd : (((order.toA s.alarm.notificationLogs).map Prod.fst).zip times).map Prod.snd = times :=
    List.map_snd_zip (by rw [hlogs, List.length_map, hlength])
  have hincreasing : ((((order.toA s.alarm.notificationLogs).map Prod.fst).zip times).map Prod.snd).Pairwise
      (· < ·) := by
    rw [hsnd]
    exact (List.pairwise_cons.mp hpair).2
  refine {
    ready := ?_
    increasing := List.pairwise_map.mp hincreasing
    upToNow := fun l hl => ?_
    texts := fun l hl => ?_
    saving := fun l hl => absurd (hsaving ▸ hl) List.not_mem_nil
    errors := fun e he => absurd he List.not_mem_nil
    posted := h.posted }
  · have hnew := Alarm.ready_new config
    exact ⟨hnew.metricName, hnew.matchPattern, hnew.maxMatchCount, hnew.timeseries⟩
  · have ht : l.2 ∈ times := hsnd ▸ List.mem_map_of_mem hl
    exact (hlast l.2 (List.mem_cons_of_mem _ ht) now List.mem_cons_self).le
  · have hfst : l.1 ∈ (order.toA s.alarm.notificationLogs).map Prod.fst := (List.of_mem_zip hl).1
    rw [hlogs] at hfst
    obtain ⟨l', hl', he⟩ := List.mem_map.mp hfst
    exact he ▸ h.texts l' hl'

end

section
variable {set : SortedSet Empty} {order : LogSet} {s : State} {act : Int × Action}

theorem Inv.step (h : s.Inv) (he : s.Enabled act) : (s.step set order act).Inv := by
  obtain ⟨now, act⟩ := act
  obtain ⟨hnow, he⟩ := he
  cases act with
  | emit es => exact h.emit hnow es
  | save => exact h.save hnow
  | collect => exact h.collect hnow
  | clear => exact h.clear hnow
  | restart config times => exact h.restart config he.1 he.2.2.1 he.2.2.2

/-! ### The outbox of an alarm -/

def outbox (s : State) : Outbox (Text × Option Int) where
  pending := s.alarm.notificationLogs.map fun l => l.1.shown
  sending := s.notifying
  sent := s.posted.flatMap Message.logs

def outboxAct (s : State) (act : Int × Action) : Option (Outbox.Act (Text × Option Int)) :=
  match act.2 with
  | .save => s.saving.head?.map fun log => .put log.shown
  | .collect => some .send
  | .clear => some .clear
  | .emit _ | .restart _ _ => none

theorem outbox_emit (h : s.Inv) (es : List LogRecord) (now : Int) : outbox (s.emit set es now) = outbox s := by
  unfold State.emit
  split
  · rfl
  · rename_i sample _
    split
    · obtain ⟨-, hlogs, -⟩ := Alarm.emitTo_eq set h.ready sample es now
      unfold outbox
      show Outbox.mk ((Alarm.emitTo set s.alarm sample es now).notificationLogs.map _) _ _ = _
      rw [hlogs]
    · rfl

theorem outbox_collect (h : s.Inv) (now : Int) : outbox (s.collect order now) = (outbox s).step .send := by
  unfold State.collect outbox Outbox.step
  by_cases hn : s.alarm.isNotified = true
  · simp [hn, h.logs]
  · simp [hn, h.logs_of_not_notified hn]

theorem Inv.follows (h : s.Inv) (he : s.Enabled act) :
    Outbox.Follows outbox outboxAct s act (s.step set order act) := by
  obtain ⟨now, act⟩ := act
  obtain ⟨hnow, he⟩ := he
  cases act with
  | emit es => exact outbox_emit h es now
  | save =>
    obtain ⟨log, saving, hs⟩ := List.exists_cons_of_ne_nil he
    unfold Outbox.Follows outboxAct
    dsimp only
    rw [hs, List.head?_cons, Option.map_some]
    refine ⟨trivial, ?_⟩
    unfold State.step State.save
    dsimp only
    rw [hs]
    simp [outbox, Outbox.step, Alarm.push]
  | collect => exact ⟨he, outbox_collect h now⟩
  | clear =>
    refine ⟨he, ?_⟩
    have hnil : (s.alarm.resetAlarm.clearNotificationLogs now).notificationLogs = [] :=
      h.clearNotificationLogs hnow
    simp [outbox, State.step, State.clear, Outbox.step, hnil]
  | restart config times =>
    have hfst : (((order.toA s.alarm.notificationLogs).map Prod.fst).zip times).map Prod.fst =
        s.alarm.notificationLogs.map Prod.fst := by
      rw [h.toA_eq]
      exact List.map_fst_zip (by rw [List.length_map, he.2.2.1])
    have hshown := congrArg (List.map NotificationLog.shown) hfst
    rw [List.map_map, List.map_map] at hshown
    show Outbox.mk _ _ _ = Outbox.mk _ _ _
    rw [Outbox.mk.injEq]
    exact ⟨hshown, rfl, rfl⟩

end

theorem inv_start (config : Config) (now : Int) : (start config now).Inv where
  ready := Alarm.ready_new config
  increasing := List.Pairwise.nil
  upToNow := fun _ hl => absurd hl List.not_mem_nil
  texts := fun _ hl => absurd hl List.not_mem_nil
  saving := fun _ hl => absurd hl List.not_mem_nil
  errors := fun _ he => absurd he List.not_mem_nil
  posted := fun _ hm => absurd hm List.not_mem_nil

/-- What a step pushes comes from what is left of a batch, to which a batch adds. -/
theorem saved_append {set : SortedSet Empty} {order : LogSet} {s : State} {act : Int × Action} (h : s.Inv)
    (he : s.Enabled act) :
    saved s act ++ (s.step set order act).saving = s.saving ++ reported set s act := by
  obtain ⟨now, act⟩ := act
  obtain ⟨-, he⟩ := he
  cases act with
  | emit es =>
    have hsaving : s.saving = [] := he
    unfold saved reported State.step State.emit
    dsimp only
    rw [hsaving]
    cases es.head? with
    | none => exact hsaving
    | some sample =>
      dsimp only
      split
      · exact (Alarm.emitTo_eq set h.ready sample es now).2.2.2.1
      · exact hsaving
  | save =>
    obtain ⟨log, saving, hs⟩ := List.exists_cons_of_ne_nil he
    unfold saved reported State.step State.save
    dsimp only
    rw [hs]
    simp
  | collect => exact (List.append_nil _).symm
  | clear => exact (List.append_nil _).symm
  | restart config times => exact (List.append_nil _).symm

end State

section
variable {set : SortedSet Empty} {order : LogSet}

theorem saved_run {s : State} {acts : List (Int × Action)} (h : s.Inv)
    (hrun : Each (State.step set order) State.Enabled s acts) :
    (trace (State.step set order) saved s acts).flatten ++ (acts.foldl (State.step set order) s).saving =
      s.saving ++ (trace (State.step set order) (reported set) s acts).flatten := by
  induction acts generalizing s with
  | nil => simp [trace]
  | cons act acts ih =>
    rw [List.foldl_cons, trace, trace, List.flatten_cons, List.flatten_cons, List.append_assoc,
      ih (h.step hrun.1) hrun.2, ← List.append_assoc, State.saved_append h hrun.1, List.append_assoc]

/-- What is pushed while no message is being posted. -/
def keptLogs (s : State) (act : Int × Action) : List NotificationLog :=
  if s.notifying then [] else saved s act

theorem kept_eq (s : State) (act : Int × Action) :
    (State.outboxAct s act).elim [] s.outbox.kept = (keptLogs s act).map NotificationLog.shown := by
  obtain ⟨now, act⟩ := act
  unfold keptLogs saved State.outboxAct State.outbox
  cases act with
  | emit es => simp
  | save =>
    cases s.saving with
    | nil => simp
    | cons log saving =>
      by_cases hn : s.notifying = true
      · simp [hn, Outbox.kept]
      · simp [hn, Outbox.kept]
  | collect => simp [Outbox.kept]
  | clear => simp [Outbox.kept]
  | restart config times => simp

theorem trace_kept (s : State) (acts : List (Int × Action)) :
    (trace (State.step set order) (fun s act => (State.outboxAct s act).elim [] s.outbox.kept) s acts).flatten =
      (trace (State.step set order) keptLogs s acts).flatten.map NotificationLog.shown := by
  induction acts generalizing s with
  | nil => rfl
  | cons act acts ih =>
    rw [trace, trace, List.flatten_cons, List.flatten_cons, List.map_append, ih, kept_eq]

/-- In every run the matches of the batches are pushed in their order. Those pushed while no
message is being posted have been notified of once, in that order, or are still kept for the
next message; the others are in none. A message counts its matches, and is posted only for
a match or an overrun. -/
theorem notified_once (config : Config) (now : Int) {acts : List (Int × Action)}
    (h : Each (State.step set order) State.Enabled (State.start config now) acts) :
    let s := acts.foldl (State.step set order) (State.start config now)
    (trace (State.step set order) saved (State.start config now) acts).flatten ++ s.saving =
        (trace (State.step set order) (reported set) (State.start config now) acts).flatten ∧
      s.posted.flatMap Message.logs ++
          (if s.notifying then [] else s.alarm.notificationLogs.map fun l => l.1.shown) =
        (trace (State.step set order) keptLogs (State.start config now) acts).flatten.map
          NotificationLog.shown ∧
      ∀ m ∈ s.posted, m.Right := by
  have hinv := State.inv_start config now
  refine ⟨?_, ?_, ?_⟩
  · rw [saved_run hinv h]
    rfl
  · have hrun := Outbox.run_kept State.Inv State.outbox State.outboxAct
      (fun s act hs he => ⟨hs.step he, hs.follows he⟩) h hinv
    rw [trace_kept] at hrun
    exact hrun
  · exact (h.invariant State.Inv (fun s act hs he => hs.step he) hinv).posted

/-- A batch for the alarm is read as far as it is below the limit of the bytes. What matches
there is to be pushed, as many as are allowed, and each limit that the batch goes beyond is
noted for the next message. Nothing that waits is touched. -/
theorem batch_read (config : Config) (start : Int) {acts : List (Int × Action)}
    (h : Each (State.step set order) State.Enabled (State.start config start) acts) {es : List LogRecord}
    {sample : LogRecord} (hes : es.head? = some sample) (now : Int) :
    let s := acts.foldl (State.step set order) (State.start config start)
    let s' := s.step set order (now, .emit es)
    let c := s.alarm.config
    s.alarm.isFound sample →
      s'.saving = c.matches set es now ∧
      s'.alarm.errors = s.alarm.errors ++ c.overruns set es now ∧
      s'.alarm.notificationLogs = s.alarm.notificationLogs ∧ s'.posted = s.posted ∧
      ∀ k, 0 < k → k ≤ es.length →
        (k ≤ c.readable es ↔ Below c.maxReadMessageBytes es.length ((es.take k).map LogRecord.message)) := by
  intro s s' c hfound
  have hinv : s.Inv := h.invariant State.Inv (fun s act hs he => hs.step he) (State.inv_start config start)
  obtain ⟨-, hlogs, herrors, hsaving, -⟩ := Alarm.emitTo_eq set hinv.ready sample es now
  have hs' : s' = { s with
      alarm := (s.alarm.emitTo set sample es now).clearAlarmLogs
      saving := (s.alarm.emitTo set sample es now).evaluatedLogs
      clock := now } := by
    show State.step set order s (now, .emit es) = _
    unfold State.step State.emit
    dsimp only
    rw [hes]
    dsimp only
    rw [if_pos hfound]
  rw [hs']
  refine ⟨hsaving, herrors, hlogs, rfl, fun k hpos hk => ?_⟩
  rw [List.map_take]
  exact le_readable_iff hpos (by rw [List.length_map]; exact hk)

end

/-- An alarm on lines with `err`, without limits. -/
def errAlarm : Config where
  hash := {
    uuid := some "alm-1".toList
    resourceId := some "i-1".toList
    tag := some "syslog".toList
    matchPattern := some "err".toList
    matchValue := some "err".toList
    notificationPeriods := 60
    enabled := true
    notificationId := some "9".toList
    messageType := some "alert".toList
    metricName := "log".toList
    displayName := none
    maxMatchCount := -1 }
  maxReadMessageBytes := -1
  matchPattern := "err".toList
  given := rfl
  onLog := rfl
  notEmpty := by decide

def errRecord (message : String) : LogRecord :=
  ⟨0, message.toList, some "i-1".toList, some "syslog".toList, none⟩

def overlapping : List (Int × Action) :=
  [(1, .emit [errRecord "ok", errRecord "err a"]), (2, .save), (3, .collect), (4, .emit [errRecord "err b"]),
    (5, .save), (6, .clear)]

theorem notified_once_overlapping :
    let s := overlapping.foldl (State.step default ⟨arrange Prod.snd, arranged_arrange⟩)
      (State.start errAlarm 0)
    s.posted.flatMap Message.logs ++
        (if s.notifying then [] else s.alarm.notificationLogs.map fun l => l.1.shown) =
      [("ok%0Aerr+a".toList, some 1)] :=
  (@notified_once default ⟨arrange Prod.snd, arranged_arrange⟩ errAlarm 0
    overlapping ⟨⟨by decide, rfl⟩, ⟨by decide, nofun⟩, ⟨by decide, rfl⟩, ⟨by decide, rfl⟩,
      ⟨by decide, nofun⟩, ⟨by decide, rfl⟩, trivial⟩).2.1.trans (by decide)

/-- Of three messages the first two are within 12 bytes, with one for each line of the batch. -/
theorem batch_read_limited :
    let c : Config := { errAlarm with maxReadMessageBytes := 12 }
    let es := [errRecord "err", errRecord "ok", errRecord "err a"]
    ((State.start c 0).step default ⟨arrange Prod.snd, arranged_arrange⟩ (1, .emit es)).saving =
      [⟨"err\nok".toList, some 1⟩] :=
  (@batch_read default ⟨arrange Prod.snd, arranged_arrange⟩
    { errAlarm with maxReadMessageBytes := 12 } 0 [] trivial
    [errRecord "err", errRecord "ok", errRecord "err a"] (errRecord "err") rfl 1 rfl).1.trans
    (congrArg (fun v => [(⟨v, some 1⟩ : NotificationLog)]) (show _ = "err\nok".toList by decide))

end LogAlarm

end WakameVdc
