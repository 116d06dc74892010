import WakameVdc.Lib.Csv
import WakameVdc.Lib.Hash
import WakameVdc.Lib.Percent
import WakameVdc.AlarmManager
import WakameVdc.Taggable

/-!
# The settings of the log alarms on their way to a host

`AlarmCollector` reads the alarms of the instances on a host from the database,
`AlarmConfigUpdater` hands them to the `Fluent` driver, which writes one parameter for each
to the configuration of the guest log service, and the output plugin `text_matcher` makes
its alarms from them. A second line for each alarm is a comment, with the raw row in it.
-/

namespace WakameVdc

open Lib

namespace LogAlarm

/-! ## The database -/

/-- The value of `alarm_actions`; a key that is not given is `nil`. -/
structure Actions where
  notificationId : Option Text
  notificationMessageType : Option Text

structure Record where
  uuid : Text
  resourceId : Text
  metricName : Text
  tag : Text
  matchPattern : Text
  notificationPeriods : Int
  enabled : Bool
  alarmActions : Option Actions
  displayName : Option Text
  deleted : Bool

def Record.canonicalUuid (a : Record) : Text := Taggable.canonicalUuid "alm".toList a.uuid

structure HostNode where
  id : Nat
  nodeId : Text
  online : Bool
  schedulingEnabled : Bool

structure Instance where
  uuid : Text
  hostNode : Option Nat

def Instance.canonicalUuid (i : Instance) : Text := Taggable.canonicalUuid "i".toList i.uuid

structure Db where
  hostNodes : List HostNode
  instances : List Instance
  alarms : List Record

namespace Db

variable (db : Db) (nodeId : Text)

def onlineNode : Option HostNode :=
  db.hostNodes.find? fun hn => hn.online && hn.schedulingEnabled && hn.nodeId == nodeId

def instanceUuids (hn : HostNode) : List Text :=
  (db.instances.filter fun i => i.hostNode = some hn.id).map Instance.canonicalUuid

/-- There is nothing to read for a host that is not online. -/
def getLogAlarms : Option (List Record) :=
  (db.onlineNode nodeId).map fun hn => db.alarms.filter fun a =>
    a.metricName = "log".toList ∧ a.resourceId ∈ db.instanceUuids hn ∧ a.deleted = false

end Db

/-! ## The configuration -/

structure Setting where
  resourceId : Text
  alarmId : Text
  tag : Text
  matchPattern : Text
  notificationPeriods : Int
  enabled : Bool
  alarmAction : Text
  displayName : Option Text

def formatNotificationAction (id messageType : Option Text) : Text :=
  id.getD [] ++ ':' :: messageType.getD []

def Record.alarmAction (a : Record) : Text :=
  match a.alarmActions with
  | none => []
  | some actions => formatNotificationAction actions.notificationId actions.notificationMessageType

def writeConfig (alarms : List Record) : List Setting :=
  alarms.map fun a => {
    resourceId := a.resourceId
    alarmId := a.canonicalUuid
    tag := a.tag
    matchPattern := a.matchPattern
    notificationPeriods := a.notificationPeriods
    enabled := a.enabled
    alarmAction := a.alarmAction
    displayName := a.displayName }

/-- The driver, with what it has from the configuration of the agent. -/
structure Fluent where
  dolphinServerUri : Text
  maxReadMessageBytes : Int
  maxMatchCount : Int

def Setting.values (a : Setting) : List (Option Text) :=
  [some a.resourceId, some a.alarmId, some a.tag, some a.matchPattern,
    some (Text.ofInt a.notificationPeriods),
    some (if a.enabled then "true".toList else "false".toList), some a.alarmAction, a.displayName]

def setAlarms (alm : List Setting) : List Text := alm.map fun a => (Csv.toCsv a.values).strip

def alarmKey (n : Nat) : Text := "alarm".toList ++ Text.ofNat n

def paramLine (p : Text × Text) : Text := ' ' :: ' ' :: (p.1 ++ ' ' :: p.2)

def commentLine (n : Nat) (alarm : Text) : Text := ' ' :: ' ' :: '#' :: (alarmKey n ++ ' ' :: alarm)

def headParams (f : Fluent) : List (Text × Text) :=
  [("type".toList, "text_matcher".toList), ("dolphin_server_uri".toList, f.dolphinServerUri),
    ("max_read_message_bytes".toList, Text.ofInt f.maxReadMessageBytes),
    ("max_match_count".toList, Text.ofInt f.maxMatchCount)]

def alarmParams (alarms : List Text) : List (Text × Text) :=
  alarms.zipIdx.map fun e => (alarmKey (e.2 + 1), Text.encodeWwwFormComponent e.1)

def commentLines (alarms : List Text) : List Text :=
  alarms.zipIdx.map fun e => commentLine (e.2 + 1) e.1

def tagParam : Text × Text := ("tag".toList, "textmatch".toList)

/-- What the template writes within the section for the plugin; without alarms there is
none. -/
def generateConfig (f : Fluent) (alarms : List Text) : Option Text :=
  if alarms = [] then none
  else some (Text.unlines ((headParams f).map paramLine ++ commentLines alarms ++
    (alarmParams alarms ++ [tagParam]).map paramLine))

/-! ## How fluentd reads the section -/

/-- What is before a comment, without the blanks at its end. -/
def uncomment (line : Text) : Text :=
  ((line.dropWhile Text.isSpace).takeWhile (· != '#')).rdropWhile Text.isSpace

/-- A line says nothing, or sets a parameter. What is neither ends or opens a section, or
raises. -/
def readLine (line : Text) : Option (Option (Text × Text)) :=
  let t := uncomment line
  match t with
  | [] => some none
  | c :: _ =>
    if c.isAlpha ∨ c = '_' then
      some (some (t.takeWhile Text.isWord, (t.dropWhile Text.isWord).dropWhile Text.isSpace))
    else none

abbrev Conf := List (Text × Text)

def Conf.set (conf : Conf) (p : Text × Text) : Conf :=
  if conf.any fun q => q.1 == p.1 then conf.map fun q => if q.1 = p.1 then p else q
  else conf ++ [p]

def readConf (file : Text) : Option Conf :=
  ((file.splitOn '\n').mapM readLine).map fun lines => (lines.filterMap id).foldl Conf.set []

/-! ## The plugin -/

/-- The hash of an alarm; what a row does not have is `nil`. -/
structure AlarmHash where
  uuid : Option Text
  resourceId : Option Text
  tag : Option Text
  matchPattern : Option Text
  matchValue : Option Text
  notificationPeriods : Int
  enabled : Bool
  notificationId : Option Text
  messageType : Option Text
  metricName : Text
  displayName : Option Text
  maxMatchCount : Int
  deriving DecidableEq

/-- `/^alarm([0-9]+)$/` -/
def isAlarmKey (k : Text) : Bool :=
  "alarm".toList.isPrefixOf k && (Text.nat? (k.drop "alarm".toList.length)).isSome

/-- A value that does not read raises, and so does one without an action. -/
def alarmOf (maxMatchCount : Int) (v : Text) : Option AlarmHash := do
  let values ← Csv.parseLine (← Text.decodeWwwFormComponent v)
  let action ← values[6]?.join
  return {
    uuid := values[1]?.join
    resourceId := values[0]?.join
    tag := values[2]?.join
    matchPattern := values[3]?.join
    matchValue := values[3]?.join
    notificationPeriods := Text.toI ((values[4]?.join).getD [])
    enabled := values[5]?.join == some "true".toList
    notificationId := (Text.split ':' action)[0]?
    messageType := (Text.split ':' action)[1]?
    metricName := "log".toList
    displayName := values[7]?.join
    maxMatchCount := maxMatchCount }

def configure (conf : Conf) : Option (List AlarmHash) := do
  let maxMatchCount := ((conf.lookup "max_match_count".toList).map Text.toI).getD (-1)
  let alarms ← (conf.filter fun p => isAlarmKey p.1).mapM fun p => alarmOf maxMatchCount p.2
  return alarms.filter AlarmHash.enabled

/-- What the plugin sets once the configuration of some alarms has been read. -/
def updateAlarm (f : Fluent) (alarms : List Record) : Option (List AlarmHash) :=
  match generateConfig f (setAlarms (writeConfig alarms)) with
  | none => some []
  | some file => (readConf file).bind configure

/-! ## What arrives -/

/-- The alarm as it is registered, but for blanks at the end of its name, and with what is
before and behind the first colon of its action. -/
def Record.hash (maxMatchCount : Int) (a : Record) : AlarmHash where
  uuid := some a.canonicalUuid
  resourceId := some a.resourceId
  tag := some a.tag
  matchPattern := some a.matchPattern
  matchValue := some a.matchPattern
  notificationPeriods := a.notificationPeriods
  enabled := a.enabled
  notificationId := (Text.split ':' a.alarmAction)[0]?
  messageType := (Text.split ':' a.alarmAction)[1]?
  metricName := "log".toList
  displayName := Csv.stripped a.displayName
  maxMatchCount := maxMatchCount

theorem isAlarmKey_alarmKey (n : Nat) : isAlarmKey (alarmKey n) = true := by
  have hdrop : (alarmKey n).drop "alarm".toList.length = Text.ofNat n := rfl
  have hprefix : "alarm".toList.isPrefixOf (alarmKey n) = true :=
    List.isPrefixOf_iff_prefix.mpr (List.prefix_append _ _)
  unfold isAlarmKey
  rw [hdrop, hprefix, Text.nat?_ofNat]
  rfl

section
variable {a : Record}

/-- The first value is the uuid of an instance, so that nothing is stripped from it. -/
theorem alarmOf_toCsv (h : ∀ c, a.resourceId.head? = some c → Text.isSpace c = false) (m : Int) :
    alarmOf m (Text.encodeWwwFormComponent (Csv.toCsv [some a.resourceId, some a.canonicalUuid,
      some a.tag, some a.matchPattern, some (Text.ofInt a.notificationPeriods),
      some (if a.enabled then "true".toList else "false".toList), some a.alarmAction,
      a.displayName]).strip) = some (a.hash m) := by
  have hparse := Csv.parseLine_strip a.resourceId [some a.canonicalUuid, some a.tag,
    some a.matchPattern, some (Text.ofInt a.notificationPeriods),
    some (if a.enabled then "true".toList else "false".toList), some a.alarmAction] a.displayName h
  simp only [List.cons_append, List.nil_append] at hparse
  have henabled : (some (if a.enabled then "true".toList else "false".toList) == some "true".toList) =
      a.enabled := by
    cases a.enabled with
    | true => rfl
    | false => rfl
  unfold alarmOf
  rw [Text.decodeWwwFormComponent_encode]
  simp only [Option.bind_eq_bind, Option.bind_some, hparse, List.getElem?_cons_zero,
    List.getElem?_cons_succ, Option.join_some, Option.getD_some, Text.toI_ofInt]
  rw [henabled]
  rfl

end

def Record.OneLine (a : Record) : Prop :=
  ∀ t ∈ [a.resourceId, a.canonicalUuid, a.tag, a.matchPattern, a.alarmAction] ++
    a.displayName.toList, '\n' ∉ t

instance (a : Record) : Decidable a.OneLine := inferInstanceAs (Decidable (∀ t ∈ _ ++ _, _))

/-! ## Lines that are read -/

theorem not_isSpace_of_isWord {c : Char} (h : Text.isWord c = true) : Text.isSpace c = false := by
  by_contra hs
  rw [Bool.not_eq_false] at hs
  simp only [Text.isSpace, Bool.or_eq_true, beq_iff_eq] at hs
  rcases hs with ((((h' | h') | h') | h') | h') | h'
  all_goals
    rw [h'] at h
    exact absurd h (by decide)

/-- The name stays, with the value behind a blank if it has neither blanks nor a comment
sign. -/
theorem uncomment_paramLine {key : Text} (hne : key ≠ []) (hk : ∀ d ∈ key, Text.isWord d = true)
    (value : Text) :
    ∃ r, uncomment (paramLine (key, value)) = key ++ r ∧
      (∀ d ∈ r.head?, Text.isWord d = false) ∧
      (value ≠ [] → (∀ d ∈ value, d ≠ '#' ∧ Text.isSpace d = false) → r = ' ' :: value) := by
  have hspace : ∀ d ∈ key, Text.isSpace d = false := fun d hd => not_isSpace_of_isWord (hk d hd)
  have hsharp : ∀ d ∈ key ++ [' '], (d != '#') = true := by
    intro d hd
    rw [bne_iff_ne]
    rintro rfl
    rcases List.mem_append.mp hd with hd | hd
    · exact absurd (hk _ hd) (by decide)
    · exact absurd (List.mem_singleton.mp hd) (by decide)
  -- the indent goes, and what is behind a comment sign
  have hdrop : (paramLine (key, value)).dropWhile Text.isSpace = key ++ ' ' :: value := by
    obtain ⟨c, k, rfl⟩ := List.exists_cons_of_ne_nil hne
    have hc : Text.isSpace c = false := hspace c List.mem_cons_self
    show ((c :: k) ++ ' ' :: value).dropWhile Text.isSpace = _
    rw [List.cons_append, List.dropWhile_cons_of_neg (by simp [hc])]
  have htake : (key ++ ' ' :: value).takeWhile (· != '#') =
      key ++ ' ' :: value.takeWhile (· != '#') := by
    rw [List.append_cons, List.takeWhile_append_of_pos hsharp, ← List.append_cons]
  have hlast : ¬ Text.isSpace (key.getLast hne) = true := by
    rw [hspace _ (List.getLast_mem hne)]
    exact Bool.false_ne_true
  unfold uncomment
  rw [hdrop, htake]
  obtain ⟨r, hr⟩ := Text.prefix_rdropWhile (r := ' ' :: value.takeWhile (· != '#')) hne hlast
  have hpre : r <+: ' ' :: value.takeWhile (· != '#') := by
    apply (List.prefix_append_right_inj key).mp
    rw [hr]
    exact List.rdropWhile_prefix _ _
  refine ⟨r, hr.symm, ?_, ?_⟩
  · intro d hd
    cases r with
    | nil => cases hd
    | cons e r =>
      obtain rfl : e = ' ' := (List.cons_prefix_cons.mp hpre).1
      cases hd
      decide
  · intro hv hall
    have hvalue : value.takeWhile (· != '#') = value :=
      List.takeWhile_eq_self_iff.mpr fun d hd => bne_iff_ne.mpr (hall d hd).1
    rw [hvalue] at hr
    have hself : (key ++ ' ' :: value).rdropWhile Text.isSpace = key ++ ' ' :: value := by
      rw [List.rdropWhile_eq_self_iff]
      intro hnil
      rw [List.getLast_append_of_ne_nil _ (by simp), List.getLast_cons hv,
        (hall _ (List.getLast_mem hv)).2]
      exact Bool.false_ne_true
    rw [hself] at hr
    exact List.append_cancel_left hr

theorem readLine_param {c : Char} {k : Text} (hc : c.isAlpha = true)
    (hk : ∀ d ∈ c :: k, Text.isWord d = true) (value : Text) :
    ∃ v, readLine (paramLine (c :: k, value)) = some (some (c :: k, v)) ∧
      (value ≠ [] → (∀ d ∈ value, d ≠ '#' ∧ Text.isSpace d = false) → v = value) := by
  obtain ⟨r, hr, hhead, hvalue⟩ := uncomment_paramLine (List.cons_ne_nil c k) hk value
  have htake : (c :: k ++ r).takeWhile Text.isWord = c :: k := by
    rw [List.takeWhile_append_of_pos hk]
    cases r with
    | nil => simp
    | cons d r => simp [hhead d rfl]
  have hdrop : (c :: k ++ r).dropWhile Text.isWord = r := by
    rw [List.dropWhile_append_of_pos hk]
    cases r with
    | nil => rfl
    | cons d r => simp [hhead d rfl]
  refine ⟨r.dropWhile Text.isSpace, ?_, ?_⟩
  · unfold readLine
    rw [hr]
    show (if c.isAlpha = true ∨ c = '_' then _ else none) = _
    rw [if_pos (.inl hc), htake, hdrop]
  · intro hne hall
    obtain ⟨d, v, rfl⟩ := List.exists_cons_of_ne_nil hne
    rw [hvalue hne hall, List.dropWhile_cons_of_pos (by decide),
      List.dropWhile_cons_of_neg (by simp [(hall d List.mem_cons_self).2])]

theorem isForm_plain {c : Char} (h : Text.isForm c = true) : c ≠ '#' ∧ Text.isSpace c = false := by
  constructor
  · rintro rfl
    exact absurd h (by decide)
  · by_contra hs
    rw [Bool.not_eq_false] at hs
    simp only [Text.isSpace, Bool.or_eq_true, beq_iff_eq] at hs
    rcases hs with ((((rfl | rfl) | rfl) | rfl) | rfl) | rfl
    all_goals exact absurd h (by decide)

theorem ofInt_plain (n : Int) : ∀ c ∈ Text.ofInt n, c ≠ '#' ∧ Text.isSpace c = false := by
  intro c hc
  constructor
  · rintro rfl
    exact Text.not_mem_ofInt rfl (by decide) n hc
  · by_contra hs
    rw [Bool.not_eq_false] at hs
    simp only [Text.isSpace, Bool.or_eq_true, beq_iff_eq] at hs
    rcases hs with ((((rfl | rfl) | rfl) | rfl) | rfl) | rfl
    all_goals exact Text.not_mem_ofInt rfl (by decide) n hc

theorem ofInt_ne_nil (n : Int) : Text.ofInt n ≠ [] := by
  cases n with
  | ofNat n => exact Text.ofNat_ne_nil n
  | negSucc n => exact List.cons_ne_nil _ _

theorem isWord_alarmKey (n : Nat) : ∀ c ∈ alarmKey n, Text.isWord c = true := by
  intro c hc
  have halarm : ∀ c ∈ "alarm".toList, Text.isWord c = true := List.all_eq_true.mp (by decide)
  rcases List.mem_append.mp hc with hc | hc
  · exact halarm c hc
  · simp [Text.isWord, Char.isAlphanum, Text.isDigit_of_mem_ofNat hc]

theorem readLine_alarm (n : Nat) {alarm : Text} (hne : alarm ≠ []) :
    readLine (paramLine (alarmKey n, Text.encodeWwwFormComponent alarm)) =
      some (some (alarmKey n, Text.encodeWwwFormComponent alarm)) := by
  obtain ⟨v, hv, hplain⟩ := readLine_param (c := 'a') (by decide) (isWord_alarmKey n)
    (Text.encodeWwwFormComponent alarm)
  have hvalue := hplain (Text.encode_ne_nil hne) fun d hd => isForm_plain (Text.isForm_encode alarm d hd)
  rw [hvalue] at hv
  exact hv

theorem readLine_ofInt {c : Char} {k : Text} (hc : c.isAlpha = true)
    (hk : ∀ d ∈ c :: k, Text.isWord d = true) (n : Int) :
    readLine (paramLine (c :: k, Text.ofInt n)) = some (some (c :: k, Text.ofInt n)) := by
  obtain ⟨v, hv, hplain⟩ := readLine_param hc hk (Text.ofInt n)
  rwa [hplain (ofInt_ne_nil n) (ofInt_plain n)] at hv

/-! ## The section that is read -/

theorem foldl_set {ps : List (Text × Text)} (h : (ps.map Prod.fst).Nodup) :
    ps.foldl Conf.set [] = ps := by
  induction ps using List.reverseRecOn with
  | nil => rfl
  | append_singleton ps p ih =>
    rw [List.map_append, List.nodup_append] at h
    obtain ⟨hps, -, hdisj⟩ := h
    rw [List.foldl_append, ih hps]
    show Conf.set ps p = _
    have hnew : (ps.any fun q => q.1 == p.1) = false := by
      rw [List.any_eq_false]
      intro q hq
      rw [beq_iff_eq]
      exact hdisj q.1 (List.mem_map_of_mem hq) p.1 (List.mem_singleton_self _)
    unfold Conf.set
    rw [hnew, if_neg Bool.false_ne_true]

theorem alarmKey_injective : Function.Injective alarmKey := by
  intro m n h
  exact Text.ofNat_injective (List.append_cancel_left h)

theorem nodup_keys (f : Fluent) (uri : Text) (alarms : List Text) :
    ((headParams { f with dolphinServerUri := uri } ++ alarmParams alarms ++ [tagParam]).map
      Prod.fst).Nodup := by
  have hkeys : (alarmParams alarms).map Prod.fst =
      (List.range' 0 alarms.length).map fun n => alarmKey (n + 1) := by
    rw [alarmParams, List.map_map, ← List.zipIdx_map_snd, List.map_map]
    rfl
  have hnodup : ((alarmParams alarms).map Prod.fst).Nodup := by
    rw [hkeys]
    refine List.Nodup.map (fun m n h => ?_) List.nodup_range'
    exact Nat.succ.inj (alarmKey_injective h)
  have hother (k : Text) (hk : isAlarmKey k = false) : k ∉ (alarmParams alarms).map Prod.fst := by
    rw [hkeys]
    intro hmem
    obtain ⟨n, -, rfl⟩ := List.mem_map.mp hmem
    rw [isAlarmKey_alarmKey] at hk
    cases hk
  have hhead : (headParams { f with dolphinServerUri := uri }).map Prod.fst =
      ["type".toList, "dolphin_server_uri".toList, "max_read_message_bytes".toList,
        "max_match_count".toList] := rfl
  have hheads : ∀ k ∈ ["type".toList, "dolphin_server_uri".toList,
      "max_read_message_bytes".toList, "max_match_count".toList],
      isAlarmKey k = false ∧ k ≠ "tag".toList := by decide
  rw [List.map_append, List.map_append, List.nodup_append, List.nodup_append, hhead]
  refine ⟨⟨by decide, hnodup, ?_⟩, List.nodup_singleton _, ?_⟩
  · intro k hk k' hk' he
    exact hother k (hheads k hk).1 (he ▸ hk')
  · intro k hk k' hk' he
    obtain rfl : k' = "tag".toList := List.mem_singleton.mp hk'
    rcases List.mem_append.mp hk with hk | hk
    · exact (hheads k hk).2 he
    · exact hother _ (by decide) (he ▸ hk)

section
variable (f : Fluent)

theorem readLine_headParams : ∃ uri, ((headParams f).map paramLine).map readLine =
    ((headParams { f with dolphinServerUri := uri }).map some).map some := by
  obtain ⟨uri, huri, -⟩ := readLine_param (c := 'd') (k := "olphin_server_uri".toList) (by decide)
    (List.all_eq_true.mp (by decide)) f.dolphinServerUri
  have hbytes := readLine_ofInt (c := 'm') (k := "ax_read_message_bytes".toList) (by decide)
    (List.all_eq_true.mp (by decide)) f.maxReadMessageBytes
  have hcount := readLine_ofInt (c := 'm') (k := "ax_match_count".toList) (by decide)
    (List.all_eq_true.mp (by decide)) f.maxMatchCount
  have htype : readLine (paramLine ("type".toList, "text_matcher".toList)) =
      some (some ("type".toList, "text_matcher".toList)) := by decide
  refine ⟨uri, ?_⟩
  exact congrArg₂ List.cons htype (congrArg₂ List.cons huri (congrArg₂ List.cons hbytes
    (congrArg₂ List.cons hcount rfl)))

theorem readLine_params {texts : List Text} (h : ∀ t ∈ texts, t ≠ []) :
    ((alarmParams texts ++ [tagParam]).map paramLine).map readLine =
      ((alarmParams texts ++ [tagParam]).map some).map some := by
  rw [List.map_map, List.map_map]
  apply List.map_congr_left
  intro p hp
  rcases List.mem_append.mp hp with hp | hp
  · obtain ⟨e, he, rfl⟩ := List.mem_map.mp hp
    exact readLine_alarm (e.2 + 1) (h e.1 (List.fst_mem_of_mem_zipIdx he))
  · obtain rfl := List.mem_singleton.mp hp
    decide

theorem not_mem_alarmKey (n : Nat) : '\n' ∉ alarmKey n := by
  intro h
  exact absurd (isWord_alarmKey n _ h) (by decide)

theorem not_mem_headLine {f : Fluent} (h : '\n' ∉ f.dolphinServerUri) :
    ∀ l ∈ (headParams f).map paramLine, '\n' ∉ l := by
  have hint (n : Int) : '\n' ∉ Text.ofInt n := Text.not_mem_ofInt rfl (by decide) n
  simp [headParams, paramLine, h, hint]

theorem not_mem_alarmLine (texts : List Text) :
    ∀ l ∈ (alarmParams texts ++ [tagParam]).map paramLine, '\n' ∉ l := by
  intro l hl
  obtain ⟨p, hp, rfl⟩ := List.mem_map.mp hl
  rcases List.mem_append.mp hp with hp | hp
  · obtain ⟨e, -, rfl⟩ := List.mem_map.mp hp
    have hform : '\n' ∉ Text.encodeWwwFormComponent e.1 := by
      intro h
      exact absurd (Text.isForm_encode e.1 _ h) (by decide)
    simp [paramLine, not_mem_alarmKey, hform]
  · obtain rfl := List.mem_singleton.mp hp
    decide

theorem readConf_generateConfig {texts : List Text} {file : Text}
    (hfile : generateConfig f texts = some file) (huri : '\n' ∉ f.dolphinServerUri)
    (htexts : ∀ t ∈ texts, t ≠ [] ∧ '\n' ∉ t) :
    ∃ uri, readConf file =
      some (headParams { f with dolphinServerUri := uri } ++ alarmParams texts ++ [tagParam]) := by
  unfold generateConfig at hfile
  split at hfile
  · cases hfile
  cases hfile
  obtain ⟨uri, hhead⟩ := readLine_headParams f
  have hparams := readLine_params fun t ht => (htexts t ht).1
  refine ⟨uri, ?_⟩
  have hlines : ∀ l ∈ (headParams f).map paramLine ++ commentLines texts ++
      (alarmParams texts ++ [tagParam]).map paramLine, '\n' ∉ l := by
    intro l hl
    rw [List.mem_append, List.mem_append] at hl
    rcases hl with (hl | hl) | hl
    · exact not_mem_headLine huri l hl
    · obtain ⟨e, he, rfl⟩ := List.mem_map.mp hl
      have ht : '\n' ∉ e.1 := (htexts e.1 (List.fst_mem_of_mem_zipIdx he)).2
      simp [commentLine, not_mem_alarmKey, ht]
    · exact not_mem_alarmLine texts l hl
  have hcomments : (commentLines texts).map readLine =
      (texts.zipIdx.map fun _ => none).map some := by
    rw [commentLines, List.map_map, List.map_map]
    rfl
  have hread : ((headParams f).map paramLine ++ commentLines texts ++
      (alarmParams texts ++ [tagParam]).map paramLine ++ [[]]).map readLine =
        ((headParams { f with dolphinServerUri := uri }).map some ++
          (texts.zipIdx.map fun _ => none) ++
          (alarmParams texts ++ [tagParam]).map some ++ [none]).map some := by
    rw [List.map_append, List.map_append, List.map_append, hhead, hcomments, hparams]
    simp only [List.map_append]
    rfl
  unfold readConf
  rw [Text.splitOn_unlines hlines, (MetricLibs.mapM_eq_some_iff ..).mpr hread, Option.map_some,
    ← foldl_set (nodup_keys f uri texts)]
  congr 2
  have hnone : (texts.zipIdx.map fun _ => (none : Option (Text × Text))).filterMap id = [] := by
    rw [List.filterMap_map]
    exact List.filterMap_eq_nil_iff.mpr fun _ _ => rfl
  have hsome (ps : List (Text × Text)) : (ps.map some).filterMap id = ps := by
    rw [List.filterMap_map]
    exact List.filterMap_some
  rw [List.filterMap_append, List.filterMap_append, List.filterMap_append, hnone, hsome, hsome,
    List.append_nil, ← List.append_assoc]
  exact List.append_nil _

end

section
variable (f : Fluent) {alarms : List Record}
  (h : ∀ a ∈ alarms, ∀ c, a.resourceId.head? = some c → Text.isSpace c = false)

/-- The parameters that are those of the alarms, and the one that limits the matches. -/
theorem filter_params (texts : List Text) :
    (headParams f ++ alarmParams texts ++ [tagParam]).filter (fun p => isAlarmKey p.1) =
        alarmParams texts ∧
      (headParams f ++ alarmParams texts ++ [tagParam]).lookup "max_match_count".toList =
        some (Text.ofInt f.maxMatchCount) := by
  constructor
  · have hkeys : (alarmParams texts).filter (fun p => isAlarmKey p.1) = alarmParams texts := by
      rw [List.filter_eq_self]
      intro p hp
      obtain ⟨e, -, rfl⟩ := List.mem_map.mp hp
      exact isAlarmKey_alarmKey (e.2 + 1)
    rw [List.filter_append, List.filter_append, hkeys]
    simp [headParams, tagParam, isAlarmKey]
  · rfl

include h

theorem mapM_alarmOf (m : Int) :
    (alarmParams (setAlarms (writeConfig alarms))).mapM (fun p => alarmOf m p.2) =
      some (alarms.map (Record.hash m)) := by
  have hfst : (alarmParams (setAlarms (writeConfig alarms))).map (fun p => alarmOf m p.2) =
      ((setAlarms (writeConfig alarms)).zipIdx.map Prod.fst).map fun t =>
        alarmOf m (Text.encodeWwwFormComponent t) := by
    rw [alarmParams, List.map_map, List.map_map]
    rfl
  rw [MetricLibs.mapM_eq_some_iff]
  refine hfst.trans ?_
  unfold setAlarms writeConfig
  rw [List.zipIdx_map_fst, List.map_map, List.map_map, List.map_map]
  exact List.map_congr_left fun a ha => alarmOf_toCsv (h a ha) m

theorem setAlarms_lines (hlines : ∀ a ∈ alarms, a.OneLine) :
    ∀ t ∈ setAlarms (writeConfig alarms), t ≠ [] ∧ '\n' ∉ t := by
  intro t ht
  obtain ⟨s, hs, rfl⟩ := List.mem_map.mp ht
  obtain ⟨a, ha, rfl⟩ := List.mem_map.mp hs
  have hspace := h a ha
  constructor
  · have hstrip := Csv.strip_toCsv a.resourceId [some a.canonicalUuid, some a.tag,
      some a.matchPattern, some (Text.ofInt a.notificationPeriods),
      some (if a.enabled then "true".toList else "false".toList), some a.alarmAction]
      a.displayName hspace
    intro hnil
    have hrow : Csv.writeRow (some a.resourceId :: some a.canonicalUuid :: _) = [] :=
      hstrip.symm.trans hnil
    rw [Csv.writeRow_cons_cons] at hrow
    exact absurd hrow (by simp)
  · have hrow := Csv.not_mem_strip_toCsv a.resourceId [some a.canonicalUuid, some a.tag,
      some a.matchPattern, some (Text.ofInt a.notificationPeriods),
      some (if a.enabled then "true".toList else "false".toList), some a.alarmAction]
      a.displayName hspace
    apply hrow
    have hone := hlines a ha
    have hint : '\n' ∉ Text.ofInt a.notificationPeriods := Text.not_mem_ofInt rfl (by decide) _
    have hbool : '\n' ∉ (if a.enabled then "true".toList else "false".toList) := by
      cases a.enabled with
      | true => decide
      | false => decide
    simp only [Record.OneLine, List.cons_append, List.nil_append, List.forall_mem_cons] at hone
    simp only [List.cons_append, List.nil_append, List.forall_mem_cons, Option.mem_def,
      Option.some.injEq, forall_eq']
    obtain ⟨h1, h2, h3, h4, h5, h6⟩ := hone
    exact ⟨h1, h2, h3, h4, hint, hbool, h5, fun t ht => h6 t (Option.mem_toList.mpr ht),
      fun _ hm => nomatch hm⟩

theorem updateAlarm_eq (huri : '\n' ∉ f.dolphinServerUri) (hlines : ∀ a ∈ alarms, a.OneLine) :
    updateAlarm f alarms =
      some ((alarms.filter Record.enabled).map (Record.hash f.maxMatchCount)) := by
  unfold updateAlarm
  cases hfile : generateConfig f (setAlarms (writeConfig alarms)) with
  | none =>
    have hnil : alarms = [] := by
      simpa [generateConfig, setAlarms, writeConfig] using hfile
    rw [hnil]
    rfl
  | some file =>
    obtain ⟨uri, hconf⟩ := readConf_generateConfig f hfile huri (setAlarms_lines h hlines)
    obtain ⟨hfilter, hlookup⟩ := filter_params { f with dolphinServerUri := uri }
      (setAlarms (writeConfig alarms))
    have henabled : (alarms.map (Record.hash f.maxMatchCount)).filter AlarmHash.enabled =
        (alarms.filter Record.enabled).map (Record.hash f.maxMatchCount) := by
      rw [List.filter_map]
      rfl
    show (readConf file).bind configure = _
    rw [hconf, Option.bind_some]
    unfold configure
    rw [hfilter, hlookup, Option.map_some, Text.toI_ofInt, Option.getD_some]
    dsimp only
    rw [mapM_alarmOf h, ← henabled]
    rfl

end

theorem not_space_of_mem {db : Db} {hn : HostNode} {uuid : Text} (h : uuid ∈ db.instanceUuids hn) :
    ∀ c, uuid.head? = some c → Text.isSpace c = false := by
  obtain ⟨i, -, rfl⟩ := List.mem_map.mp h
  intro c hc
  have hi : 'i' = c := Option.some.inj hc
  rw [← hi]
  rfl

theorem hash_of_action {a : Record} {id messageType : Text}
    (h : a.alarmActions = some ⟨some id, some messageType⟩) (hid : ':' ∉ id) (ht : ':' ∉ messageType)
    (hne : messageType ≠ []) (m : Int) :
    (a.hash m).notificationId = some id ∧ (a.hash m).messageType = some messageType := by
  have haction : a.alarmAction = id ++ ':' :: messageType := by
    unfold Record.alarmAction
    rw [h]
    rfl
  have hsplit : Text.split ':' a.alarmAction = [id, messageType] := by
    rw [haction]
    refine Text.split_of_splitOn (l := [id]) ?_ hne
    rw [Text.splitOn_append hid, Text.splitOn_of_not_mem ht]
    rfl
  unfold Record.hash
  rw [hsplit]
  exact ⟨rfl, rfl⟩

def oneHost : Db :=
  let alarm : Record := {
    uuid := "a1".toList
    resourceId := "i-1".toList
    metricName := "log".toList
    tag := "var.log.messages".toList
    matchPattern := "a, \"b\"".toList
    notificationPeriods := 300
    enabled := true
    alarmActions := some ⟨some "9".toList, some "alert".toList⟩
    displayName := some "errors ".toList
    deleted := false }
  { hostNodes := [⟨1, "hva.host1".toList, true, true⟩]
    instances := [⟨"1".toList, some 1⟩]
    alarms := [alarm, { alarm with uuid := "a2".toList, enabled := false }] }

end LogAlarm

end WakameVdc
