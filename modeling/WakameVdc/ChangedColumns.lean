import WakameVdc.Lib.Hash
import WakameVdc.Lib.Text
import WakameVdc.Lib.Timeline

/-!
# Changed columns

A save of a model object runs the hooks of two plugins before the row is written.
`ArchiveChangedColumn` keeps the columns of the save in the table of histories,
`ChangedColumnEvent` calls back for those of them that are tracked, and the call
records them in the accounting log.
-/

namespace WakameVdc

open Lib

namespace ChangedColumns

inductive Value
  | nil
  | bool (b : Bool)
  | int (i : Int)
  | text (t : Text)
  | time (t : Nat)
  deriving DecidableEq, Repr

namespace Value

def truthy : Value → Bool
  | nil => false
  | bool b => b
  | _ => true

/-- `v || default` -/
def orDefault (v default : Value) : Value := if v.truthy then v else default

end Value

/-- `coldef[:type]`: a MySQL `text` column is a string to Sequel. -/
inductive ColumnType
  | string | integer | float | boolean | datetime | text | blob
  deriving DecidableEq, Repr

structure ColumnSchema where
  type : ColumnType
  default : Value
  allowNull : Bool
  deriving DecidableEq, Repr

structure Model where
  name : Text
  dbSchema : List (Text × ColumnSchema)
  serializedColumns : List Text
  /-- The columns tracked under `:accounting_log`. -/
  accountingLog : List Text
  nodup : accountingLog.Nodup
  tracked : ∀ c ∈ accountingLog, c ∈ dbSchema.map Prod.fst

namespace Model

def columns (m : Model) : List Text := m.dbSchema.map Prod.fst

def coldef (m : Model) (c : Text) : ColumnSchema :=
  match m.dbSchema.find? (·.1 = c) with
  | some e => e.2
  | none => ⟨.string, .nil, true⟩

end Model

def column (name : String) (type : ColumnType) (default : Value) (allowNull : Bool) :
    Text × ColumnSchema :=
  (name.toList, ⟨type, default, allowNull⟩)

def instanceModel : Model where
  name := "Instance".toList
  dbSchema := [
    column "id" .integer .nil false,
    column "account_id" .string .nil false,
    column "uuid" .string .nil false,
    column "host_node_id" .integer .nil true,
    column "image_id" .integer .nil false,
    column "state" .string (.text "init".toList) false,
    column "status" .string (.text "init".toList) false,
    column "hostname" .string .nil false,
    column "ssh_key_pair_id" .integer .nil true,
    column "ha_enabled" .integer (.text "0".toList) false,
    column "quota_weight" .float (.text "0".toList) false,
    column "cpu_cores" .integer .nil false,
    column "memory_size" .integer .nil false,
    column "user_data" .string .nil false,
    column "runtime_config" .string .nil false,
    column "request_params" .string .nil false,
    column "terminated_at" .datetime .nil true,
    column "created_at" .datetime .nil false,
    column "updated_at" .datetime .nil false,
    column "service_type" .string .nil false,
    column "display_name" .string .nil false,
    column "hypervisor" .string .nil false,
    column "boot_volume_id" .string .nil false,
    column "encrypted_password" .string .nil true,
    column "password_will_be_deleted_at" .datetime .nil true]
  serializedColumns := ["runtime_config".toList, "request_params".toList]
  accountingLog := ["state".toList, "cpu_cores".toList, "memory_size".toList]
  nodup := by decide
  tracked := by decide

def volumeModel : Model where
  name := "Volume".toList
  dbSchema := [
    column "id" .integer .nil false,
    column "account_id" .string .nil false,
    column "uuid" .string .nil false,
    column "status" .string (.text "initialized".toList) false,
    column "state" .string (.text "initialized".toList) false,
    column "size" .integer .nil false,
    column "instance_id" .integer .nil true,
    column "guest_device_name" .string .nil true,
    column "request_params" .string .nil false,
    column "deleted_at" .datetime .nil true,
    column "attached_at" .datetime .nil true,
    column "detached_at" .datetime .nil true,
    column "created_at" .datetime .nil false,
    column "updated_at" .datetime .nil false,
    column "service_type" .string .nil false,
    column "display_name" .string .nil false,
    column "backup_object_id" .string .nil true,
    column "volume_type" .string .nil true]
  serializedColumns := ["request_params".toList]
  accountingLog := ["state".toList, "size".toList]
  nodup := by decide
  tracked := by decide

/-- A saved object: its row, and beside it what it was created with and the columns
saved since. -/
structure Object where
  model : Model
  row : Text → Value
  created : Text → Value
  saved : List Text

structure History where
  uuid : Text
  createdAt : Nat
  attr : Text
  vcharValue : Value
  blobValue : Value

structure AccountingLog where
  uuid : Text
  accountId : Value
  resourceType : Text
  eventType : Text
  createdAt : Nat
  blobValue : Value
  intValue : Value
  vcharValue : Value

structure Db where
  clock : Nat
  objects : Hash Text Object
  histories : List History
  accountingLogs : List AccountingLog

/-- A `create`, with what the database fills in for the columns left nil, and a later
save, with its `changed_columns` and their values; `dt` is the time since the save before. -/
inductive Op
  | create (uuid : Text) (model : Model) (attrs filled : Text → Value) (dt : Nat)
  | save (uuid : Text) (changed : List Text) (values : Text → Value) (dt : Nat)

def Op.dt : Op → Nat
  | create _ _ _ _ dt => dt
  | save _ _ _ dt => dt

/-- A save when its hooks are called: `self`, the columns they are called with, and
the object that it stores. -/
structure Save where
  uuid : Text
  model : Model
  isNew : Bool
  self : Text → Value
  columns : List Text
  object : Object

namespace Save

/-- `new? ? (self[c] || coldef[:default]) : self[c]` -/
def value (v : Save) (c : Text) : Value :=
  if v.isNew then (v.self c).orDefault (v.model.coldef c).default else v.self c

def history (v : Save) (now : Nat) (c : Text) : History :=
  match (v.model.coldef c).type with
  | .text | .blob => ⟨v.uuid, now, c, .nil, v.value c⟩
  | _ => ⟨v.uuid, now, c, v.value c, .nil⟩

def storeChanges (v : Save) (now : Nat) : List History := v.columns.map (v.history now)

end Save

/-! ## The plugin `ChangedColumnEvent` -/

/-- `a - b` of arrays -/
def arrayDiff (a b : List Text) : List Text := a.filter fun c => c ∉ b

/-- `configure`: every event is given the whole hash. -/
def configure (trackColumns : List (Text × List Text)) : List (Text × List (Text × List Text)) :=
  trackColumns.map fun e => (e.1, trackColumns)

/-- The calls `on_changed_<event>(column)`. -/
def applyChangedEvent (trackColumns : List (Text × List (Text × List Text)))
    (changedColumns : List Text) : List (Text × Text) :=
  trackColumns.flatMap fun e => e.2.filterMap fun t =>
    (arrayDiff t.2 (arrayDiff t.2 changedColumns)).head?.map fun c => (e.1, c)

def accountingLogEvent : Text := "accounting_log".toList

def Model.trackColumns (m : Model) : List (Text × List (Text × List Text)) :=
  configure [(accountingLogEvent, m.accountingLog)]

namespace Save

def record (v : Save) (now : Nat) (changedColumn : Text) : AccountingLog :=
  let hist : AccountingLog :=
    { uuid := v.uuid
      accountId := v.self "account_id".toList
      resourceType := v.model.name
      eventType := changedColumn
      createdAt := now
      blobValue := .nil
      intValue := .nil
      vcharValue := .nil }
  match (v.model.coldef changedColumn).type with
  | .text | .blob => { hist with blobValue := v.value changedColumn }
  | .integer => { hist with intValue := v.value changedColumn }
  | _ => { hist with vcharValue := v.value changedColumn }

def accountingLogs (v : Save) (now : Nat) : List AccountingLog :=
  (applyChangedEvent v.model.trackColumns v.columns).map fun call => v.record now call.2

end Save

/-! ## Saves -/

namespace Db

def empty : Db := ⟨0, ∅, [], []⟩

/-- The save the call gets to: none for a UUID that is taken, or for a column that
the table does not have. -/
def saveOf (s : Db) : Op → Option Save
  | .create uuid model attrs filled _ =>
    if (s.objects.lookup uuid).isSome then none
    else
      let row := fun c => if attrs c = .nil then filled c else attrs c
      some ⟨uuid, model, true, attrs, model.columns, ⟨model, row, attrs, []⟩⟩
  | .save uuid changed values _ =>
    match s.objects.lookup uuid with
    | none => none
    | some o =>
      if ∀ c ∈ changed, c ∈ o.model.columns then
        let row := fun c => if c ∈ changed then values c else o.row c
        some ⟨uuid, o.model, false, row, changed, ⟨o.model, row, o.created, o.saved ++ changed⟩⟩
      else none

def perform (s : Db) (op : Op) : Db :=
  let now := s.clock + op.dt
  match s.saveOf op with
  | none => { s with clock := now }
  | some v =>
    { clock := now
      objects := s.objects.insert v.uuid v.object
      histories := s.histories ++ v.storeChanges now
      accountingLogs := s.accountingLogs ++ v.accountingLogs now }

def run (ops : List Op) : Db := ops.foldl perform empty

/-- The database at the time `t` of a run. -/
def runUpTo (t : Nat) (ops : List Op) : Db := run (stepsUpTo perform Db.clock t empty ops)

theorem perform_of_none {s : Db} {op : Op} (h : s.saveOf op = none) :
    s.perform op = { s with clock := s.clock + op.dt } := by
  simp only [perform, h]

theorem perform_of_some {s : Db} {op : Op} {v : Save} (h : s.saveOf op = some v) :
    s.perform op =
      { clock := s.clock + op.dt
        objects := s.objects.insert v.uuid v.object
        histories := s.histories ++ v.storeChanges (s.clock + op.dt)
        accountingLogs := s.accountingLogs ++ v.accountingLogs (s.clock + op.dt) } := by
  simp only [perform, h]

theorem clock_perform (s : Db) (op : Op) : (s.perform op).clock = s.clock + op.dt := by
  cases h : s.saveOf op with
  | none => rw [perform_of_none h]
  | some v => rw [perform_of_some h]

/-- What a save is: the creation of an object, or a later one with columns of the table. -/
theorem saveOf_cases {s : Db} {op : Op} {v : Save} (h : s.saveOf op = some v) :
    (v.isNew = true ∧ s.objects.lookup v.uuid = none ∧ v.columns = v.model.columns ∧
      v.object.saved = [] ∧ v.object.created = v.self ∧ v.object.model = v.model ∧
      (∀ c, v.self c ≠ .nil → v.object.row c = v.self c)) ∨
    (v.isNew = false ∧ v.object.model = v.model ∧ v.object.row = v.self ∧
      (∀ c ∈ v.columns, c ∈ v.model.columns) ∧
      ∃ o, s.objects.lookup v.uuid = some o ∧ o.model = v.model ∧ v.object.created = o.created ∧
        v.object.saved = o.saved ++ v.columns ∧ ∀ c, c ∉ v.columns → v.self c = o.row c) := by
  cases op with
  | create uuid model attrs filled dt =>
    simp only [saveOf] at h
    split at h
    · cases h
    · rename_i hnew
      cases h
      refine .inl ⟨rfl, Option.not_isSome_iff_eq_none.mp hnew, rfl, rfl, rfl, rfl, ?_⟩
      intro c hc
      exact if_neg hc
  | save uuid changed values dt =>
    simp only [saveOf] at h
    split at h
    · cases h
    · rename_i o ho
      split at h
      · rename_i hcols
        cases h
        refine .inr ⟨rfl, rfl, rfl, hcols, o, ho, rfl, rfl, rfl, ?_⟩
        intro c hc
        exact if_neg hc
      · cases h

end Db

theorem mem_arrayDiff {a b : List Text} {c : Text} : c ∈ arrayDiff a b ↔ c ∈ a ∧ c ∉ b := by
  simp [arrayDiff]

/-- What is left of `a` without the elements of `b` taken away is common to both. -/
theorem arrayDiff_arrayDiff (a b : List Text) :
    arrayDiff a (arrayDiff a b) = a.filter fun c => c ∈ b := by
  refine List.filter_congr fun c hc => ?_
  rw [decide_eq_decide, mem_arrayDiff]
  exact ⟨fun h => by_contra fun hb => h ⟨hc, hb⟩, fun hb h => h.2 hb⟩

namespace Save

def tracked (v : Save) : List Text := v.model.accountingLog.filter fun c => c ∈ v.columns

theorem accountingLogs_eq (v : Save) (now : Nat) :
    v.accountingLogs now = (v.tracked.head?.map (v.record now)).toList := by
  unfold accountingLogs Model.trackColumns configure applyChangedEvent tracked
  simp only [List.map_cons, List.map_nil, List.flatMap_cons, List.flatMap_nil, List.append_nil,
    List.filterMap_cons, List.filterMap_nil, arrayDiff_arrayDiff]
  cases (v.model.accountingLog.filter fun c => c ∈ v.columns).head? <;> rfl

theorem record_uuid (v : Save) (now : Nat) (c : Text) : (v.record now c).uuid = v.uuid := by
  unfold record
  split <;> rfl

theorem record_eventType (v : Save) (now : Nat) (c : Text) : (v.record now c).eventType = c := by
  unfold record
  split <;> rfl

theorem record_createdAt (v : Save) (now : Nat) (c : Text) : (v.record now c).createdAt = now := by
  unfold record
  split <;> rfl

theorem createdAt_of_mem_accountingLogs {v : Save} {now : Nat} {r : AccountingLog}
    (h : r ∈ v.accountingLogs now) : r.createdAt = now := by
  rw [accountingLogs_eq, Option.mem_toList, Option.map_eq_some_iff] at h
  obtain ⟨c, -, rfl⟩ := h
  exact v.record_createdAt now c

theorem history_uuid (v : Save) (now : Nat) (c : Text) : (v.history now c).uuid = v.uuid := by
  unfold history
  split <;> rfl

theorem history_attr (v : Save) (now : Nat) (c : Text) : (v.history now c).attr = c := by
  unfold history
  split <;> rfl

theorem history_createdAt (v : Save) (now : Nat) (c : Text) :
    (v.history now c).createdAt = now := by
  unfold history
  split <;> rfl

theorem mem_storeChanges {v : Save} {now : Nat} {h : History} :
    h ∈ v.storeChanges now ↔ h.attr ∈ v.columns ∧ h = v.history now h.attr := by
  unfold storeChanges
  rw [List.mem_map]
  constructor
  · rintro ⟨c, hc, rfl⟩
    rw [history_attr]
    exact ⟨hc, rfl⟩
  · rintro ⟨hc, he⟩
    exact ⟨h.attr, hc, he.symm⟩

end Save

namespace Db

theorem timed_accountingLogs : Timed perform clock accountingLogs AccountingLog.createdAt where
  clock_le s op := by
    rw [clock_perform]
    exact Nat.le_add_right _ _
  append s op := by
    cases h : s.saveOf op with
    | none =>
      refine ⟨[], ?_, fun _ hr => (List.not_mem_nil hr).elim⟩
      rw [perform_of_none h, List.append_nil]
    | some v =>
      rw [perform_of_some h]
      exact ⟨_, rfl, fun _ hr => Save.createdAt_of_mem_accountingLogs hr⟩

theorem timed_histories : Timed perform clock histories History.createdAt where
  clock_le := timed_accountingLogs.clock_le
  append s op := by
    cases h : s.saveOf op with
    | none =>
      refine ⟨[], ?_, fun _ hr => (List.not_mem_nil hr).elim⟩
      rw [perform_of_none h, List.append_nil]
    | some v =>
      rw [perform_of_some h]
      refine ⟨_, rfl, fun r hr => ?_⟩
      rw [(Save.mem_storeChanges.mp hr).2, v.history_createdAt]

end Db

end ChangedColumns
end WakameVdc
