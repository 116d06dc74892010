import WakameVdc.ChangedColumns

/-!
# The accounting log

`ChangedColumnEvent` calls back for the first of the tracked columns that a save
changes. The log tells the values of all of them as long as no save changes two.
-/

namespace WakameVdc

open Lib

namespace ChangedColumns

/-! ## Reading the log -/

def AccountingLog.value (r : AccountingLog) : ColumnType → Value
  | .text | .blob => r.blobValue
  | .integer => r.intValue
  | _ => r.vcharValue

/-- The value `Report#generate` shows. -/
def AccountingLog.reportValue (r : AccountingLog) : Value :=
  if r.eventType = "state".toList then r.vcharValue
  else if r.eventType ∈ ["memory_size".toList, "cpu_cores".toList, "size".toList] then r.intValue
  else .nil

def AccountingLog.About (uuid c : Text) (r : AccountingLog) : Prop :=
  r.uuid = uuid ∧ r.eventType = c

instance (uuid c : Text) : DecidablePred (AccountingLog.About uuid c) :=
  fun r => inferInstanceAs (Decidable (r.uuid = uuid ∧ r.eventType = c))

def readLog (rows : List AccountingLog) (uuid c : Text) (type : ColumnType) : Option Value :=
  (rows.filter (AccountingLog.About uuid c)).getLast?.map fun r => r.value type

namespace Save

def note (v : Save) (r : AccountingLog) : Text × Text × Value :=
  (r.uuid, r.eventType, r.value (v.model.coldef r.eventType).type)

/-- The rows are one for each tracked column the save changes, with its new value. -/
def LoggedBy (v : Save) (rows : List AccountingLog) : Prop :=
  (rows.map v.note).Perm (v.tracked.map fun c => (v.uuid, c, v.object.row c))

/-- The save changes one tracked column at most; one that is created nil or false
is given the default of the schema by the database. -/
structure OneColumn (v : Save) : Prop where
  length : v.tracked.length ≤ 1
  default : v.isNew → ∀ c ∈ v.tracked,
    (v.self c).truthy ∨ v.object.row c = (v.model.coldef c).default

theorem record_value (v : Save) (now : Nat) (c : Text) :
    (v.record now c).value (v.model.coldef c).type = v.value c := by
  unfold record AccountingLog.value
  cases (v.model.coldef c).type <;> rfl

theorem note_record (v : Save) (now : Nat) (c : Text) :
    v.note (v.record now c) = (v.uuid, c, v.value c) := by
  unfold note
  rw [v.record_uuid, v.record_eventType, v.record_value]

end Save

namespace Db

/-- The rows that the call writes are those of its save. -/
def Logged (s : Db) (op : Op) : Prop :=
  match s.saveOf op with
  | none => (s.perform op).accountingLogs = s.accountingLogs
  | some v => v.LoggedBy ((s.perform op).accountingLogs.drop s.accountingLogs.length)

def OneColumn (s : Db) (op : Op) : Prop := ∀ v, s.saveOf op = some v → v.OneColumn

/-- At any time of the run the values of the tracked columns are read from the rows
up to that time. -/
def Readable (ops : List Op) : Prop :=
  ∀ t uuid o, (runUpTo t ops).objects.lookup uuid = some o → ∀ c ∈ o.model.accountingLog,
    readLog ((run ops).accountingLogs.filter fun r => r.createdAt ≤ t) uuid c
      (o.model.coldef c).type = some (o.row c)

end Db

/-! ## One save -/

section
variable {s : Db} {op : Op} {v : Save}

theorem Save.value_eq_row_iff (h : s.saveOf op = some v) (c : Text) :
    v.value c = v.object.row c ↔
      (v.isNew → (v.self c).truthy ∨ v.object.row c = (v.model.coldef c).default) := by
  unfold Save.value
  rcases Db.saveOf_cases h with ⟨hnew, -, -, -, -, -, hrow⟩ | ⟨hnew, -, hrow, -⟩
  · rw [if_pos hnew, Value.orDefault]
    by_cases ht : (v.self c).truthy
    · have hne : v.self c ≠ .nil := by
        intro hnil
        rw [hnil] at ht
        cases ht
      rw [if_pos ht]
      exact ⟨fun _ _ => .inl ht, fun _ => (hrow c hne).symm⟩
    · rw [if_neg ht]
      exact ⟨fun he _ => .inr he.symm, fun hd => ((hd hnew).resolve_left ht).symm⟩
  · rw [hnew, hrow]
    exact ⟨fun _ hf => absurd hf (by decide), fun _ => rfl⟩

theorem Save.loggedBy_iff (h : s.saveOf op = some v) (now : Nat) :
    v.LoggedBy (v.accountingLogs now) ↔ v.OneColumn := by
  unfold Save.LoggedBy
  rw [Save.accountingLogs_eq]
  have hvalue : ∀ c ∈ v.tracked, v.value c = v.object.row c ↔ _ :=
    fun c _ => Save.value_eq_row_iff h c
  cases ht : v.tracked with
  | nil =>
    refine ⟨fun _ => ⟨by rw [ht]; decide, fun _ c hc => ?_⟩, fun _ => .refl _⟩
    rw [ht] at hc
    exact (List.not_mem_nil hc).elim
  | cons c rest =>
    have hc : c ∈ v.tracked := by
      rw [ht]
      exact List.mem_cons_self
    change List.Perm [v.note (v.record now c)] _ ↔ _
    rw [v.note_record, List.perm_comm, List.perm_singleton]
    constructor
    · intro he
      obtain ⟨hhead, hrest⟩ := List.cons_eq_cons.mp he
      have hnil : rest = [] := List.map_eq_nil_iff.mp hrest
      have hv : v.value c = v.object.row c := (congrArg (·.2.2) hhead).symm
      refine ⟨by rw [ht, hnil, List.length_singleton], fun hnew d hd => ?_⟩
      rw [ht, hnil, List.mem_singleton] at hd
      subst hd
      exact (hvalue d hc).mp hv hnew
    · intro hone
      have hlen := hone.length
      rw [ht, List.length_cons] at hlen
      have hnil : rest = [] := List.eq_nil_of_length_eq_zero (by omega)
      have hv := (hvalue c hc).mpr fun hnew => hone.default hnew c hc
      rw [hnil, hv]
      rfl

theorem Db.logged_iff : s.Logged op ↔ s.OneColumn op := by
  unfold Db.Logged Db.OneColumn
  cases h : s.saveOf op with
  | none =>
    rw [Db.perform_of_none h]
    constructor
    · intro _ v hv
      cases hv
    · intro _
      rfl
  | some v =>
    rw [Db.perform_of_some h]
    change v.LoggedBy (List.drop _ (_ ++ _)) ↔ _
    rw [List.drop_left, Save.loggedBy_iff h]
    constructor
    · rintro hone w hw
      cases hw
      exact hone
    · intro hall
      exact hall v rfl

theorem Save.OneColumn.head_tracked (hv : v.OneColumn) {c : Text} (hc : c ∈ v.tracked) :
    v.tracked.head? = some c := by
  have hlen := hv.length
  cases ht : v.tracked with
  | nil =>
    rw [ht] at hc
    cases hc
  | cons d rest =>
    rw [ht, List.length_cons] at hlen
    have hnil : rest = [] := List.eq_nil_of_length_eq_zero (by omega)
    rw [ht, hnil, List.mem_singleton] at hc
    rw [hc]
    rfl

theorem Save.filter_accountingLogs (v : Save) (now : Nat) (uuid c : Text) :
    (v.accountingLogs now).filter (AccountingLog.About uuid c) =
      if v.uuid = uuid ∧ v.tracked.head? = some c then [v.record now c] else [] := by
  rw [Save.accountingLogs_eq]
  cases ht : v.tracked.head? with
  | none => simp
  | some d =>
    have habout : AccountingLog.About uuid c (v.record now d) ↔ v.uuid = uuid ∧ d = c := by
      unfold AccountingLog.About
      rw [v.record_uuid, v.record_eventType]
    change List.filter _ [v.record now d] = _
    rw [List.filter_cons, List.filter_nil]
    by_cases hd : v.uuid = uuid ∧ d = c
    · rw [if_pos (decide_eq_true (habout.mpr hd)), hd.2, if_pos ⟨hd.1, rfl⟩]
    · rw [if_neg fun h => hd (habout.mp (of_decide_eq_true h)),
        if_neg fun h => hd ⟨h.1, Option.some.inj h.2⟩]

/-! ## Runs -/

/-- The last row about a tracked column has its value. -/
def Db.Recorded (s : Db) : Prop :=
  ∀ uuid o, s.objects.lookup uuid = some o → ∀ c ∈ o.model.accountingLog,
    readLog s.accountingLogs uuid c (o.model.coldef c).type = some (o.row c)

theorem Db.recorded_perform (hs : s.Recorded) (hone : s.OneColumn op) :
    (s.perform op).Recorded := by
  cases h : s.saveOf op with
  | none =>
    rw [Db.perform_of_none h]
    exact hs
  | some v =>
    rw [Db.perform_of_some h]
    intro uuid o ho c hc
    have hv := hone v h
    unfold readLog
    change Option.map _ (List.getLast? (List.filter _ (_ ++ _))) = _
    rw [List.filter_append, Save.filter_accountingLogs]
    change (AList.insert v.uuid v.object s.objects).lookup uuid = some o at ho
    rw [Hash.lookup_insert] at ho
    split at ho
    · rename_i huuid
      cases ho
      by_cases hcols : c ∈ v.columns
      · have hmodel : v.object.model = v.model := by
          rcases Db.saveOf_cases h with ⟨-, -, -, -, -, hm, -⟩ | ⟨-, hm, -⟩ <;> exact hm
        rw [hmodel] at hc ⊢
        have htracked : c ∈ v.tracked := List.mem_filter.mpr ⟨hc, decide_eq_true hcols⟩
        rw [if_pos ⟨huuid.symm, hv.head_tracked htracked⟩, List.getLast?_concat,
          Option.map_some, v.record_value]
        exact congrArg some ((Save.value_eq_row_iff h c).mpr fun hnew =>
          hv.default hnew c htracked)
      · have hhead : v.tracked.head? ≠ some c := fun he =>
          hcols (of_decide_eq_true (List.mem_filter.mp (List.mem_of_head? he)).2)
        rw [if_neg fun h' => hhead h'.2, List.append_nil]
        rcases Db.saveOf_cases h with ⟨-, -, hall, -, -, hm, -⟩ |
          ⟨-, hm, hrow, -, o, ho, hom, -, -, hkeep⟩
        · exact absurd (hall ▸ v.model.tracked c (hm ▸ hc)) hcols
        · rw [hm, ← hom, hrow, hkeep c hcols, huuid]
          exact hs v.uuid o ho c (hom ▸ hm ▸ hc)
    · rename_i huuid
      rw [if_neg fun h' => huuid h'.1.symm, List.append_nil]
      exact hs uuid o ho c hc

theorem Db.recorded_run {ops : List Op} (h : Each Db.perform Db.OneColumn Db.empty ops) :
    (Db.run ops).Recorded :=
  h.invariant Db.Recorded (fun _ _ => Db.recorded_perform) fun _ _ ho => by cases ho

theorem Db.readable_of_oneColumn {ops : List Op}
    (h : Each Db.perform Db.OneColumn Db.empty ops) : Db.Readable ops := by
  intro t uuid o ho c hc
  obtain ⟨later, hlater⟩ : stepsUpTo Db.perform Db.clock t Db.empty ops <+: ops :=
    stepsUpTo_isPrefix t Db.empty ops
  rw [← hlater] at h
  have hrecorded := Db.recorded_run (each_append.mp h).1
  have hlog := Db.timed_accountingLogs.filter_log t (s := Db.empty)
    (fun _ hr => (List.not_mem_nil hr).elim) ops
  exact (congrArg (readLog · uuid c (o.model.coldef c).type) hlog).trans
    (hrecorded uuid o ho c hc)

/-- The log has one row for each tracked column of each save, and tells the value of
every tracked column at any time, if and only if every save changes one at most; an
object is created with all of them. -/
theorem Db.logs_columns_iff (ops : List Op) :
    (Each Db.perform Db.Logged Db.empty ops ∧ Db.Readable ops) ↔
      Each Db.perform Db.OneColumn Db.empty ops := by
  have hiff : Each Db.perform Db.Logged Db.empty ops ↔ Each Db.perform Db.OneColumn Db.empty ops :=
    each_congr (fun _ => True) (fun _ _ _ => trivial) (fun _ _ _ => Db.logged_iff) trivial
  exact ⟨fun h => hiff.mp h.1, fun h => ⟨hiff.mpr h, Db.readable_of_oneColumn h⟩⟩

/-- An object of a model that tracks more columns is not created with all of them. -/
theorem Save.not_oneColumn_of_new (h : s.saveOf op = some v) (hnew : v.isNew = true)
    (hmany : 1 < v.model.accountingLog.length) : ¬ v.OneColumn := by
  intro hone
  rcases Db.saveOf_cases h with ⟨-, -, hall, -⟩ | ⟨hold, -⟩
  · have hlen := hone.length
    unfold Save.tracked at hlen
    rw [List.filter_eq_self.mpr] at hlen
    · omega
    · intro c hc
      rw [hall]
      exact decide_eq_true (v.model.tracked c hc)
  · rw [hnew] at hold
    cases hold

end

/-! ## Instances and volumes -/

theorem report_record (v : Save) (now : Nat) (hm : v.model = instanceModel ∨ v.model = volumeModel)
    {c : Text} (hc : c ∈ v.model.accountingLog) :
    (v.record now c).reportValue = v.value c := by
  have htype : c = "state".toList ∧ (v.model.coldef c).type = .string ∨
      c ≠ "state".toList ∧ c ∈ ["memory_size".toList, "cpu_cores".toList, "size".toList] ∧
        (v.model.coldef c).type = .integer := by
    revert c
    rcases hm with hm | hm <;>
    · rw [hm]
      decide
  unfold AccountingLog.reportValue
  rw [v.record_eventType]
  unfold Save.record
  rcases htype with ⟨he, ht⟩ | ⟨hne, hmem, ht⟩
  · rw [if_pos he, ht]
  · rw [if_neg hne, if_pos hmem, ht]

def resized : List Op :=
  [.create "i-1".toList instanceModel (fun _ => .nil) (fun _ => .int 1) 0,
    .save "i-1".toList ["cpu_cores".toList, "memory_size".toList] (fun _ => .int 2) 1]

theorem not_logs_columns :
    ¬ Each Db.perform Db.Logged Db.empty resized ∧ ¬ Db.Readable resized := by
  constructor
  · intro h
    have hone := Db.logged_iff.mp h.1
    obtain ⟨v, hv, hnew, hm⟩ : ∃ v, Db.empty.saveOf (.create "i-1".toList instanceModel
        (fun _ => .nil) (fun _ => .int 1) 0) = some v ∧ v.isNew = true ∧
        v.model = instanceModel := ⟨_, rfl, rfl, rfl⟩
    exact Save.not_oneColumn_of_new hv hnew (by rw [hm]; decide) (hone v hv)
  · intro h
    have hobject : ((Db.runUpTo 1 resized).objects.lookup "i-1".toList).map
        (fun o => (o.model.accountingLog, o.model.coldef "memory_size".toList |>.type)) =
        some (instanceModel.accountingLog, .integer) := by decide +kernel
    have hnone : readLog ((Db.run resized).accountingLogs.filter fun r => r.createdAt ≤ 1)
        "i-1".toList "memory_size".toList .integer = none := by decide +kernel
    obtain ⟨o, ho, he⟩ := Option.map_eq_some_iff.mp hobject
    have hread := h 1 _ o ho "memory_size".toList (by rw [(Prod.mk.inj he).1]; decide)
    rw [(Prod.mk.inj he).2, hnone] at hread
    cases hread

end ChangedColumns
end WakameVdc
