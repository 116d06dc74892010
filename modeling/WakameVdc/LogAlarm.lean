import WakameVdc.Lib.Outbox
import WakameVdc.LogAlarmConfig

/-!
# The log alarms of a host

The output plugin `text_matcher` of the guest log service. Each batch of log records of an
instance is fed to its alarms, which are evaluated at once; the matches wait until the timer
of the alarm sends them to the notification server. The batches and the timers run in
threads of their own, and what waits is kept over a restart of the service.
-/

namespace WakameVdc

open Lib

namespace LogAlarm

open MetricLibs (SortedSet TimeSeries Evaluated MatchPattern Arithmetic settle second timeAt report)

/-! ## What the plugin adds to an alarm -/

structure NotificationLog where
  evaluatedValue : Text
  evaluatedAt : Option Int

/-- How the set of the notification logs is enumerated. -/
structure LogSet where
  toA : List (NotificationLog × Int) → List (NotificationLog × Int)
  arranged : ∀ stored, Arranged Prod.snd stored (toA stored)

/-- The settings of an alarm and of the plugin. The pattern of an alarm that has been
validated is not blank. -/
structure Config where
  hash : AlarmHash
  maxReadMessageBytes : Int
  matchPattern : Text
  given : hash.matchPattern = some matchPattern
  onLog : hash.metricName = "log".toList
  notEmpty : matchPattern ≠ []

/-- An alarm without a reading that would be a number. -/
structure Alarm where
  config : Config
  alarm : MetricLibs.Alarm Empty Unit
  ipaddr : Option Text
  errors : List (Nat × Int)
  notificationLogs : List (NotificationLog × Int)
  lastNotifiedAt : Option Int

def readAlarmLogsOverTheLimit : Nat := 100

def textMatchCountOverTheLimit : Nat := 101

def noArithmetic : Arithmetic Empty Unit where
  ofNumber _ := ()
  ofText _ := ()
  zero := ()
  add _ _ := ()
  div _ _ := ()
  compare _ _ n := n.elim

structure LogRecord where
  time : Int
  message : Text
  instanceId : Option Text
  label : Option Text
  ipaddr : Option Text

structure Limit where
  exceeded : Nat
  errorsAt : List Int

structure Message where
  notificationId : Option Text
  messageType : Option Text
  state : Text
  alarmId : Option Text
  metricName : Text
  resourceId : Option Text
  ipaddr : Option Text
  matchValue : Text
  tag : Option Text
  logs : List (Text × Option Int)
  displayName : Text
  matchCount : Nat
  limitLog : Limit
  limitMatchCount : Limit
  notificationPeriods : Int
  notifiedAt : Int

def AlarmHash.keys (hash : AlarmHash) : MetricLibs.AlarmHash Empty where
  uuid := hash.uuid
  enabled := hash.enabled
  resourceId := some hash.resourceId
  metricName := some (some hash.metricName)
  state := none
  evaluationPeriods := none
  capturePeriods := none
  params := none
  matchPattern := some (hash.matchPattern.map MatchPattern.string)
  maxMatchCount := some (some hash.maxMatchCount)

def encodeStr (t : Option Text) : Text := Text.encodeWwwFormComponent (t.getD [])

def NotificationLog.shown (log : NotificationLog) : Text × Option Int :=
  (encodeStr (some log.evaluatedValue), log.evaluatedAt)

namespace Alarm

def new (config : Config) : Alarm where
  config := config
  alarm := settle (MetricLibs.Alarm.blank.setVariable config.hash.keys)
  ipaddr := none
  errors := []
  notificationLogs := []
  lastNotifiedAt := none

def addErrors (a : Alarm) (no : Nat) (now : Int) : Alarm :=
  { a with errors := a.errors ++ [(no, now)] }

def feed (a : Alarm) (message : Text) (time : Int) : Alarm :=
  { a with alarm := a.alarm.feed (.string message) (timeAt time) }

/-- The loop over the messages of a batch, with the bytes that have been read before. -/
def feedMessages (now : Int) : Int → Alarm → List (Int × Text) → Alarm
  | _, a, [] => a
  | readMessageBytes, a, (time, message) :: messages =>
    let readMessageBytes := readMessageBytes + message.utf8.length
    if a.config.maxReadMessageBytes > readMessageBytes ∨ a.config.maxReadMessageBytes = -1 then
      feedMessages now readMessageBytes (a.feed message time) messages
    else
      a.addErrors readAlarmLogsOverTheLimit now

def evaluate (set : SortedSet Empty) (a : Alarm) (now : Int) : Alarm :=
  let a := { a with alarm := settle (a.alarm.evaluate set noArithmetic now) }
  if a.config.hash.maxMatchCount ≠ -1 ∧ a.config.hash.maxMatchCount < a.alarm.matchCount.getD 0 then
    a.addErrors textMatchCountOverTheLimit now
  else
    a

/-- `v[:match_ranges].join("\n")` of lines of a log. -/
def joined (lines : List (MetricLibs.Value Empty)) : Text :=
  ['\n'].intercalate (lines.map fun
    | .string t => t
    | .nil | .bool _ => []
    | .number n => n.elim)

/-- What `save_notification_logs` is to push. -/
def evaluatedLogs (a : Alarm) : List NotificationLog :=
  match a.alarm.lastEvaluatedValue with
  | .nil | .mean _ => []
  | .matched ms => ms.map fun v => ⟨joined v.matchRanges, a.alarm.lastEvaluatedAt⟩

def clearAlarmLogs (a : Alarm) : Alarm := { a with alarm := { a.alarm with timeseries := TimeSeries.new } }

def push (a : Alarm) (log : NotificationLog) (now : Int) : Alarm :=
  { a with notificationLogs := a.notificationLogs ++ [(log, now)] }

def limit (a : Alarm) (no : Nat) : Limit :=
  let times := (a.errors.filter fun e => e.1 = no).map Prod.snd
  ⟨if times = [] then 0 else 1, times⟩

def totalMatchCount (a : Alarm) : Nat :=
  a.notificationLogs.countP fun l => l.1.evaluatedValue ≠ []

def isNotified (a : Alarm) : Bool := a.errors.length > 0 || a.totalMatchCount > 0

def message (order : LogSet) (a : Alarm) (now : Int) : Message where
  notificationId := a.config.hash.notificationId
  messageType := a.config.hash.messageType
  state := if a.isNotified then MetricLibs.alarmState else MetricLibs.okState
  alarmId := a.config.hash.uuid
  metricName := a.config.hash.metricName
  resourceId := a.config.hash.resourceId
  ipaddr := a.ipaddr
  matchValue := encodeStr a.config.hash.matchValue
  tag := a.config.hash.tag
  logs := (order.toA a.notificationLogs).map fun l => l.1.shown
  displayName := encodeStr a.config.hash.displayName
  matchCount := a.totalMatchCount
  limitLog := a.limit readAlarmLogsOverTheLimit
  limitMatchCount := a.limit textMatchCountOverTheLimit
  notificationPeriods := a.config.hash.notificationPeriods
  notifiedAt := now

/-- `delete_all_since_at` -/
def clearNotificationLogs (a : Alarm) (now : Int) : Alarm :=
  { a with notificationLogs := a.notificationLogs.filter fun l => ¬ now > l.2 }

def resetAlarm (a : Alarm) : Alarm := { a with errors := [] }

/-- `find_log_alarm` with the instance and the label of a batch. -/
def isFound (a : Alarm) (sample : LogRecord) : Bool :=
  match sample.instanceId with
  | none => true
  | some resourceId =>
    a.config.hash.resourceId == some resourceId &&
      match sample.label with
      | none => true
      | some tag => a.config.hash.tag == some tag

def emitTo (set : SortedSet Empty) (a : Alarm) (sample : LogRecord) (es : List LogRecord) (now : Int) :
    Alarm :=
  let a := { a with ipaddr := a.ipaddr <|> sample.ipaddr }
  (feedMessages now es.length a (es.map fun r => (r.time, r.message))).evaluate set now

end Alarm

/-! ## The two threads -/

/-- The alarm with the matches of a batch that are still to be pushed, and whether a message
is being posted. -/
structure State where
  alarm : Alarm
  saving : List NotificationLog
  notifying : Bool
  posted : List Message
  clock : Int

inductive Action
  | emit (es : List LogRecord)
  | save
  | collect
  | clear
  /-- The service is stopped and started with these settings; the logs are pushed again. -/
  | restart (config : Config) (times : List Int)

namespace State

def start (config : Config) (now : Int) : State where
  alarm := .new config
  saving := []
  notifying := false
  posted := []
  clock := now

variable (set : SortedSet Empty) (order : LogSet)

/-- A batch without records raises at its sample. -/
def emit (s : State) (es : List LogRecord) (now : Int) : State :=
  match es.head? with
  | none => s
  | some sample =>
    if s.alarm.isFound sample then
      let a := s.alarm.emitTo set sample es now
      { s with alarm := a.clearAlarmLogs, saving := a.evaluatedLogs }
    else s

def save (s : State) (now : Int) : State :=
  match s.saving with
  | [] => s
  | log :: saving => { s with alarm := s.alarm.push log now, saving := saving }

/-- `send_alarm_notification` until it has the answer of the server. -/
def collect (s : State) (now : Int) : State :=
  { s with
    alarm := if s.alarm.isNotified then { s.alarm with lastNotifiedAt := some now } else s.alarm
    notifying := true
    posted := if s.alarm.isNotified then s.posted ++ [s.alarm.message order now] else s.posted }

def clear (s : State) (now : Int) : State :=
  { s with alarm := s.alarm.resetAlarm.clearNotificationLogs now, notifying := false }

/-- `shutdown` writes the logs of the alarm to a file, and `start` pushes them again. -/
def restart (s : State) (config : Config) (times : List Int) : State :=
  let logs := (order.toA s.alarm.notificationLogs).map Prod.fst
  { s with alarm := { Alarm.new config with
      ipaddr := s.alarm.ipaddr
      notificationLogs := logs.zip times } }

def step (s : State) (act : Int × Action) : State :=
  let s := match act.2 with
    | .emit es => s.emit set es act.1
    | .save => s.save act.1
    | .collect => s.collect order act.1
    | .clear => s.clear act.1
    | .restart config times => s.restart order config times
  { s with clock := act.1 }

/-- The next batch comes when the matches of the last have been pushed, the timer of an alarm
does one thing at a time, and both have come to rest when the service is stopped. No two
readings of the clock are the same. -/
def Enabled (s : State) (act : Int × Action) : Prop :=
  s.clock < act.1 ∧
    match act.2 with
    | .emit _ => s.saving = []
    | .save => s.saving ≠ []
    | .collect => s.notifying = false
    | .clear => s.notifying = true
    | .restart _ times => s.saving = [] ∧ s.notifying = false ∧
        times.length = s.alarm.notificationLogs.length ∧ (s.clock :: times ++ [act.1]).Pairwise (· < ·)

end State

end LogAlarm

end WakameVdc
