import Mathlib.Data.List.Dedup
import Mathlib.Data.List.Sort
import WakameVdc.ChangedColumns

/-!
# Snapshots of an object's history

`history_snapshot` lays the kept values of the columns over the current row. What the
database keeps and gives back is that of the server; the snapshot is right where
every column's value comes back as it was.
-/

namespace WakameVdc

open Lib

namespace ChangedColumns

structure Server where
  /-- What `blob_value`, or else `vchar_value`, keeps of a value. -/
  keep : Bool → Value → Value
  /-- `typecast_value` of the setter of a column; none raises. -/
  typecast : ColumnType → Value → Option Value
  /-- The row that is taken of a group. -/
  groupRow : List History → Option History
  keep_nil : ∀ blob, keep blob .nil = .nil
  typecast_nil : ∀ type, typecast type .nil = some .nil

/-- The first row of a group is taken, as the query expects. -/
def Server.TakesFirst (S : Server) : Prop := ∀ h rest, S.groupRow (h :: rest) = some h

def createdAtColumn : Text := "created_at".toList

def terminatedAtColumn : Text := "terminated_at".toList

namespace Object

/-- The check of the life span; without a column `terminated_at` it raises, too. -/
def inRange (o : Object) (t : Nat) : Bool :=
  match o.row createdAtColumn with
  | .time created => created ≤ t && decide (terminatedAtColumn ∈ o.model.columns) &&
    match o.row terminatedAtColumn with
    | .nil => true
    | .time terminated => t ≤ terminated
    | _ => false
  | _ => false

/-- `t` is in the life of the object, whether the model has a `terminated_at` or not. -/
structure InLife (o : Object) (t : Nat) : Prop where
  created : ∃ created, o.row createdAtColumn = .time created ∧ created ≤ t
  terminated : terminatedAtColumn ∈ o.model.columns →
    o.row terminatedAtColumn = .nil ∨
      ∃ terminated, o.row terminatedAtColumn = .time terminated ∧ t ≤ terminated

theorem inRange_iff {o : Object} {t : Nat} (h : o.InLife t) :
    o.inRange t = true ↔ terminatedAtColumn ∈ o.model.columns := by
  obtain ⟨created, hc, hle⟩ := h.created
  unfold inRange
  rw [hc]
  constructor
  · intro hr
    rw [Bool.and_eq_true, Bool.and_eq_true] at hr
    exact of_decide_eq_true hr.1.2
  · intro hcol
    rcases h.terminated hcol with ht | ⟨terminated, ht, hle'⟩
    · rw [ht]
      simp [hle, hcol]
    · rw [ht]
      simp [hle, hle', hcol]

end Object

/-- `order(:created_at.desc)` -/
def History.Before (a b : History) : Prop := b.createdAt ≤ a.createdAt

instance : DecidableRel History.Before :=
  fun a b => inferInstanceAs (Decidable (b.createdAt ≤ a.createdAt))

instance : Std.Total History.Before := ⟨fun a b => Nat.le_total b.createdAt a.createdAt⟩

instance : IsTrans History History.Before := ⟨fun _ _ _ hab hbc => Nat.le_trans hbc hab⟩

def History.About (uuid c : Text) (h : History) : Prop := h.uuid = uuid ∧ h.attr = c

/-- The rows of the object up to `t`, the newest first. -/
def historyDataset (histories : List History) (uuid : Text) (t : Nat) : List History :=
  ((histories.filter fun h => h.createdAt ≤ t).filter fun h => h.uuid = uuid).insertionSort
    History.Before

namespace Server

def value (S : Server) (h : History) : Value :=
  if S.keep true h.blobValue ≠ .nil then S.keep true h.blobValue else S.keep false h.vcharValue

/-- What a column is set to: nil is refused where NULL is not allowed. -/
def cast (S : Server) (coldef : ColumnSchema) (v : Value) : Option Value :=
  match S.typecast coldef.type v with
  | none => none
  | some w => if w = .nil ∧ ¬ coldef.allowNull then none else some w

/-- `ss.send("#{attr}=", value)`; a serialized column is set in `deserialized_values`
only, which the snapshot clears. -/
def assign (S : Server) (m : Model) (ss : Text → Value) (c : Text) (v : Value) :
    Option (Text → Value) :=
  if c ∈ m.serializedColumns then some ss
  else (S.cast (m.coldef c) v).map fun w => Function.update ss c w

def overlay (S : Server) (m : Model) (rows : List History) (row : Text → Value) :
    Option (Text → Value) :=
  (rows.map History.attr).dedup.foldlM (fun ss c =>
    match S.groupRow (rows.filter fun h => h.attr = c) with
    | none => some ss
    | some h => S.assign m ss c (S.value h)) row

/-- `history_snapshot`; none when it raises. -/
def historySnapshot (S : Server) (s : Db) (uuid : Text) (o : Object) (t : Nat) :
    Option (Text → Value) :=
  if o.inRange t then S.overlay o.model (historyDataset s.histories uuid t) o.row else none

end Server

/-! ## What the history keeps -/

/-- The value that the save of a column kept last: that of the last save of it, or
what it was created with, or else the default of the schema. -/
def Object.recorded (o : Object) (c : Text) : Value :=
  if c ∈ o.saved then o.row c else (o.created c).orDefault (o.model.coldef c).default

/-- The column of the row that the type uses has the value. -/
def History.Holds (h : History) (type : ColumnType) (v : Value) : Prop :=
  match type with
  | .text | .blob => h.blobValue = v ∧ h.vcharValue = .nil
  | _ => h.vcharValue = v ∧ h.blobValue = .nil

/-- Every row is of a column of an object, and the newest row of every column has
the value kept last. -/
structure Db.Archived (s : Db) : Prop where
  clock : ∀ h ∈ s.histories, h.createdAt ≤ s.clock
  attr : ∀ h ∈ s.histories, ∃ o, s.objects.lookup h.uuid = some o ∧ h.attr ∈ o.model.columns
  newest : ∀ uuid o, s.objects.lookup uuid = some o → ∀ c ∈ o.model.columns,
    ∃ h ∈ s.histories, h.About uuid c ∧ h.Holds (o.model.coldef c).type (o.recorded c) ∧
      ∀ h' ∈ s.histories, h'.About uuid c → h'.createdAt < h.createdAt ∨ h' = h

section
variable {s : Db} {op : Op} {v : Save}

theorem Save.history_holds (v : Save) (now : Nat) (c : Text) :
    (v.history now c).Holds (v.model.coldef c).type (v.value c) := by
  unfold Save.history History.Holds
  cases (v.model.coldef c).type <;> exact ⟨rfl, rfl⟩

theorem Save.object_model (h : s.saveOf op = some v) : v.object.model = v.model := by
  rcases Db.saveOf_cases h with ⟨-, -, -, -, -, hm, -⟩ | ⟨-, hm, -⟩ <;> exact hm

theorem Save.value_eq_recorded (h : s.saveOf op = some v) {c : Text} (hc : c ∈ v.columns) :
    v.value c = v.object.recorded c := by
  unfold Save.value Object.recorded
  rcases Db.saveOf_cases h with ⟨hnew, -, -, hsaved, hcreated, hm, -⟩ |
    ⟨hnew, hm, hrow, -, o, -, -, -, hsaved, -⟩
  · rw [if_pos hnew, hsaved, if_neg List.not_mem_nil, hcreated, hm]
  · rw [hnew, if_neg Bool.false_ne_true, hsaved, if_pos (List.mem_append_right _ hc), hrow]

/-- A save keeps nothing of the columns it leaves alone, and they are as they were. -/
theorem Save.kept_of_not_mem (h : s.saveOf op = some v) {c : Text} (hc : c ∈ v.model.columns)
    (hout : c ∉ v.columns) :
    ∃ o, s.objects.lookup v.uuid = some o ∧ o.model = v.model ∧
      o.recorded c = v.object.recorded c := by
  rcases Db.saveOf_cases h with ⟨-, -, hall, -⟩ |
    ⟨-, hm, hrow, -, o, ho, hom, hcreated, hsaved, hkeep⟩
  · exact absurd (hall ▸ hc) hout
  · refine ⟨o, ho, hom, ?_⟩
    have hmem : c ∈ v.object.saved ↔ c ∈ o.saved := by
      rw [hsaved, List.mem_append]
      exact or_iff_left hout
    unfold Object.recorded
    rw [hm, hom, hcreated, hrow, hkeep c hout]
    by_cases hs : c ∈ o.saved
    · rw [if_pos hs, if_pos (hmem.mpr hs)]
    · rw [if_neg hs, if_neg fun h' => hs (hmem.mp h')]

/-- The newest row of a column is the one just kept, or the one from before. -/
theorem Db.newest_append (hs : s.Archived) (h : s.saveOf op = some v) {now : Nat}
    (hnow : s.clock < now) {uuid c : Text} {o : Object}
    (ho : (s.objects.insert v.uuid v.object).lookup uuid = some o) (hc : c ∈ o.model.columns) :
    ∃ h ∈ s.histories ++ v.storeChanges now, h.About uuid c ∧
      h.Holds (o.model.coldef c).type (o.recorded c) ∧
      ∀ h' ∈ s.histories ++ v.storeChanges now, h'.About uuid c →
        h'.createdAt < h.createdAt ∨ h' = h := by
  -- A row kept now is the newest one; what keeps an old row is that no new one is about it.
  have hold : ∀ k ∈ s.histories, (∀ h' ∈ v.storeChanges now, ¬ h'.About uuid c) →
      (∀ h' ∈ s.histories, h'.About uuid c → h'.createdAt < k.createdAt ∨ h' = k) →
      ∀ h' ∈ s.histories ++ v.storeChanges now, h'.About uuid c →
        h'.createdAt < k.createdAt ∨ h' = k := by
    intro k _ hnone hk h' hh ha
    rcases List.mem_append.mp hh with hh | hh
    · exact hk h' hh ha
    · exact absurd ha (hnone h' hh)
  rw [Hash.lookup_insert] at ho
  split at ho
  · rename_i huuid
    cases ho
    rw [Save.object_model h] at hc ⊢
    by_cases hcols : c ∈ v.columns
    · refine ⟨v.history now c, List.mem_append_right _ (Save.mem_storeChanges.mpr ?_), ?_, ?_, ?_⟩
      · rw [v.history_attr]
        exact ⟨hcols, rfl⟩
      · exact ⟨(v.history_uuid now c).trans huuid.symm, v.history_attr now c⟩
      · rw [← Save.value_eq_recorded h hcols]
        exact v.history_holds now c
      · intro h' hh ha
        rcases List.mem_append.mp hh with hh | hh
        · left
          rw [v.history_createdAt]
          exact (hs.clock h' hh).trans_lt hnow
        · right
          rw [(Save.mem_storeChanges.mp hh).2, ha.2]
    · obtain ⟨o, ho, hom, hrecorded⟩ := Save.kept_of_not_mem h hc hcols
      obtain ⟨k, hk, hka, hkv, hknew⟩ := hs.newest v.uuid o ho c (hom ▸ hc)
      rw [huuid] at hold ⊢
      rw [hom, hrecorded] at hkv
      refine ⟨k, List.mem_append_left _ hk, hka, hkv, hold k hk (fun h' hh ha => ?_) hknew⟩
      exact hcols (ha.2 ▸ (Save.mem_storeChanges.mp hh).1)
  · rename_i huuid
    obtain ⟨k, hk, hka, hkv, hknew⟩ := hs.newest uuid o ho c hc
    refine ⟨k, List.mem_append_left _ hk, hka, hkv, hold k hk (fun h' hh ha => ?_) hknew⟩
    apply huuid
    rw [← ha.1, (Save.mem_storeChanges.mp hh).2, v.history_uuid]

theorem Db.archived_perform (hs : s.Archived) (hdt : 0 < op.dt) : (s.perform op).Archived := by
  cases h : s.saveOf op with
  | none =>
    rw [Db.perform_of_none h]
    exact ⟨fun h' hh => (hs.clock h' hh).trans (Nat.le_add_right _ _), hs.attr, hs.newest⟩
  | some v =>
    rw [Db.perform_of_some h]
    have hm := Save.object_model h
    refine ⟨?_, ?_, ?_⟩
    · intro h' hh
      rcases List.mem_append.mp hh with hold | hnew
      · exact (hs.clock h' hold).trans (Nat.le_add_right _ _)
      · rw [(Save.mem_storeChanges.mp hnew).2, v.history_createdAt]
    · intro h' hh
      change ∃ o, (AList.insert v.uuid v.object s.objects).lookup h'.uuid = some o ∧ _
      rw [Hash.lookup_insert]
      rcases List.mem_append.mp hh with hold | hnew
      · obtain ⟨o, ho, hattr⟩ := hs.attr h' hold
        split
        · rename_i huuid
          refine ⟨v.object, rfl, ?_⟩
          rcases Db.saveOf_cases h with ⟨-, hnone, -⟩ | ⟨-, -, -, -, o', ho', hom, -⟩
          · rw [huuid, hnone] at ho
            cases ho
          · rw [huuid, ho'] at ho
            cases ho
            rw [hm, ← hom]
            exact hattr
        · exact ⟨o, ho, hattr⟩
      · obtain ⟨hattr, he⟩ := Save.mem_storeChanges.mp hnew
        have huuid : h'.uuid = v.uuid := by rw [he, v.history_uuid]
        rw [if_pos huuid]
        refine ⟨v.object, rfl, ?_⟩
        rw [hm]
        rcases Db.saveOf_cases h with ⟨-, -, hall, -⟩ | ⟨-, -, -, hcols, -⟩
        · exact hall ▸ hattr
        · exact hcols _ hattr
    · intro uuid o ho c hc
      exact Db.newest_append hs h (Nat.lt_add_of_pos_right hdt) ho hc

theorem Db.model_perform {uuid : Text} {m : Model}
    (hs : ∃ o, s.objects.lookup uuid = some o ∧ o.model = m) :
    ∃ o, (s.perform op).objects.lookup uuid = some o ∧ o.model = m := by
  obtain ⟨o, ho, hm⟩ := hs
  cases h : s.saveOf op with
  | none =>
    rw [Db.perform_of_none h]
    exact ⟨o, ho, hm⟩
  | some v =>
    rw [Db.perform_of_some h]
    change ∃ o, (AList.insert v.uuid v.object s.objects).lookup uuid = some o ∧ _
    rw [Hash.lookup_insert]
    split
    · rename_i huuid
      refine ⟨v.object, rfl, ?_⟩
      rcases Db.saveOf_cases h with ⟨-, hnone, -⟩ | ⟨-, hvm, -, -, o', ho', hom, -⟩
      · rw [huuid, hnone] at ho
        cases ho
      · rw [huuid, ho'] at ho
        cases ho
        rw [hvm, ← hom, hm]
    · exact ⟨o, ho, hm⟩

end

theorem Db.archived_run {ops : List Op} (hdt : ∀ op ∈ ops, 0 < op.dt) : (Db.run ops).Archived := by
  have heach : Each Db.perform (fun _ op => 0 < op.dt) Db.empty ops := each_forall.mpr hdt
  refine heach.invariant Db.Archived (fun _ _ => Db.archived_perform) ⟨?_, ?_, ?_⟩
  · intro _ hh
    cases hh
  · intro _ hh
    cases hh
  · intro _ _ ho
    cases ho

theorem Db.archived_runUpTo {ops : List Op} (hdt : ∀ op ∈ ops, 0 < op.dt) (t : Nat) :
    (Db.runUpTo t ops).Archived := by
  refine Db.archived_run fun op hop => hdt op ?_
  exact (stepsUpTo_isPrefix t Db.empty ops).subset hop

theorem Db.model_runUpTo {ops : List Op} {t : Nat} {uuid : Text} {o p : Object}
    (ho : (Db.run ops).objects.lookup uuid = some o)
    (hp : (Db.runUpTo t ops).objects.lookup uuid = some p) : o.model = p.model := by
  obtain ⟨later, hlater⟩ : stepsUpTo Db.perform Db.clock t Db.empty ops <+: ops :=
    stepsUpTo_isPrefix t Db.empty ops
  have hkeep : ∃ q, (later.foldl Db.perform (Db.runUpTo t ops)).objects.lookup uuid = some q ∧
      q.model = p.model :=
    invariant (fun s : Db => ∃ q, s.objects.lookup uuid = some q ∧ q.model = p.model)
      (fun _ _ => Db.model_perform) later ⟨p, hp, rfl⟩
  unfold Db.runUpTo Db.run at hkeep
  rw [← List.foldl_append, hlater] at hkeep
  obtain ⟨q, hq, hm⟩ := hkeep
  have he := ho.symm.trans hq
  cases he
  exact hm

/-! ## The overlay -/

namespace Server

variable {S : Server} {m : Model}

/-- What the setter makes of a value that was kept in the column its type uses. -/
def reread (S : Server) (coldef : ColumnSchema) (v : Value) : Option Value :=
  S.cast coldef (match coldef.type with
    | .text | .blob => S.keep true v
    | _ => S.keep false v)

theorem cast_value {h : History} {coldef : ColumnSchema} {v : Value}
    (hh : h.Holds coldef.type v) : S.cast coldef (S.value h) = S.reread coldef v := by
  unfold History.Holds at hh
  unfold reread value
  cases ht : coldef.type <;> rw [ht] at hh <;> obtain ⟨hv, hn⟩ := hh <;>
    simp only [hv, hn, S.keep_nil, ne_eq, not_true_eq_false, if_false]
  all_goals
    split
    · rfl
    · rename_i hnil
      rw [not_not.mp hnil]

/-- The columns `cs` are set to their values in `row`, serialized ones apart. -/
def Assigned (S : Server) (m : Model) (val : Text → Value) (cs : List Text)
    (ss row : Text → Value) : Prop :=
  (∀ c ∈ cs, c ∉ m.serializedColumns → S.cast (m.coldef c) (val c) = some (ss c)) ∧
  ∀ c, (c ∈ cs → c ∈ m.serializedColumns) → ss c = row c

section
variable {val : Text → Value} {d : Text} {cs : List Text} {ss row : Text → Value}

theorem assigned_nil : S.Assigned m val [] ss row ↔ row = ss := by
  constructor
  · rintro ⟨-, hrest⟩
    exact funext fun c => (hrest c fun hc => (List.not_mem_nil hc).elim).symm
  · rintro rfl
    exact ⟨fun _ hc => (List.not_mem_nil hc).elim, fun _ _ => rfl⟩

theorem assigned_cons_serialized (hd : d ∈ m.serializedColumns) :
    S.Assigned m val (d :: cs) ss row ↔ S.Assigned m val cs ss row := by
  constructor
  · rintro ⟨hset, hrest⟩
    refine ⟨fun c hc => hset c (List.mem_cons_of_mem d hc), fun c hc => hrest c fun hcs => ?_⟩
    rcases List.mem_cons.mp hcs with hcd | hcs
    · exact hcd ▸ hd
    · exact hc hcs
  · rintro ⟨hset, hrest⟩
    refine ⟨fun c hc hser => ?_, fun c hc => hrest c fun hcs => hc (List.mem_cons_of_mem d hcs)⟩
    rcases List.mem_cons.mp hc with hcd | hcs
    · exact absurd (hcd ▸ hd) hser
    · exact hset c hcs hser

theorem assigned_cons_set (hd : d ∉ m.serializedColumns) {w : Value}
    (hw : S.cast (m.coldef d) (val d) = some w) :
    S.Assigned m val (d :: cs) ss row ↔ S.Assigned m val cs ss (Function.update row d w) := by
  constructor
  · rintro ⟨hset, hrest⟩
    refine ⟨fun c hc => hset c (List.mem_cons_of_mem d hc), fun c hc => ?_⟩
    by_cases hcd : c = d
    · subst hcd
      have he := hset c List.mem_cons_self hd
      rw [hw] at he
      rw [Function.update_self]
      exact (Option.some.inj he).symm
    · rw [Function.update_of_ne hcd]
      refine hrest c fun hcs => ?_
      rcases List.mem_cons.mp hcs with h | hcs
      · exact absurd h hcd
      · exact hc hcs
  · rintro ⟨hset, hrest⟩
    constructor
    · intro c hc hser
      by_cases hcs : c ∈ cs
      · exact hset c hcs hser
      · rcases List.mem_cons.mp hc with rfl | hcs'
        · rw [hrest c fun h => absurd h hcs, Function.update_self, hw]
        · exact absurd hcs' hcs
    · intro c hc
      have hcd : c ≠ d := by
        rintro rfl
        exact hd (hc List.mem_cons_self)
      rw [hrest c fun hcs => hc (List.mem_cons_of_mem d hcs), Function.update_of_ne hcd]

/-- The values of the columns are set one by one, whatever is set twice. -/
theorem foldlM_assign :
    cs.foldlM (fun ss c => S.assign m ss c (val c)) row = some ss ↔
      S.Assigned m val cs ss row := by
  induction cs generalizing row with
  | nil =>
    rw [assigned_nil]
    exact Option.some_inj
  | cons d cs ih =>
    rw [List.foldlM_cons]
    by_cases hd : d ∈ m.serializedColumns
    · rw [assign, if_pos hd, assigned_cons_serialized hd]
      exact ih
    · rw [assign, if_neg hd]
      cases hw : S.cast (m.coldef d) (val d) with
      | none =>
        constructor
        · intro h
          cases h
        · rintro ⟨hset, -⟩
          have := hset d List.mem_cons_self hd
          rw [hw] at this
          cases this
      | some w =>
        rw [assigned_cons_set hd hw]
        exact ih

end

end Server

/-! ## The snapshot -/

/-- What the snapshot at `t` needs of a column: a serialized one has not changed since,
any other is read again as it was from what was kept of it. -/
def Server.Restores (S : Server) (o p : Object) (c : Text) : Prop :=
  if c ∈ o.model.serializedColumns then o.row c = p.row c
  else S.reread (p.model.coldef c) (p.recorded c) = some (p.row c)

instance (S : Server) (o p : Object) (c : Text) : Decidable (S.Restores o p c) :=
  inferInstanceAs (Decidable (if c ∈ o.model.serializedColumns then o.row c = p.row c
    else S.reread (p.model.coldef c) (p.recorded c) = some (p.row c)))

/-- A column the database fills in by itself, as it does the `id`, is kept as nil. -/
theorem Server.not_restores_filled (S : Server) {o p : Object} {c : Text}
    (hser : c ∉ o.model.serializedColumns) (hsaved : c ∉ p.saved) (hcreated : p.created c = .nil)
    (hdefault : (p.model.coldef c).default = .nil)
    (hnull : (p.model.coldef c).allowNull = false) : ¬ S.Restores o p c := by
  have hrecorded : p.recorded c = .nil := by
    unfold Object.recorded
    rw [if_neg hsaved, hcreated, hdefault]
    rfl
  have hkeep : (match (p.model.coldef c).type with
      | .text | .blob => S.keep true .nil
      | _ => S.keep false .nil) = .nil := by
    split <;> exact S.keep_nil _
  unfold Server.Restores
  rw [if_neg hser, hrecorded, Server.reread, hkeep, Server.cast, S.typecast_nil]
  simp [hnull]

/-- The snapshot is returned with the values of the row at the time. -/
def Server.Right (S : Server) (s : Db) (uuid : Text) (o p : Object) (t : Nat) : Prop :=
  ∃ ss, S.historySnapshot s uuid o t = some ss ∧ ∀ c ∈ o.model.columns, ss c = p.row c

theorem foldlM_congr_mem {α β : Type} {f g : β → α → Option β} {l : List α}
    (h : ∀ a ∈ l, ∀ b, f b a = g b a) (b : β) : l.foldlM f b = l.foldlM g b := by
  induction l generalizing b with
  | nil => rfl
  | cons a l ih =>
    rw [List.foldlM_cons, List.foldlM_cons, h a List.mem_cons_self]
    congr 1
    funext b'
    exact ih (fun a ha => h a (List.mem_cons_of_mem _ ha)) b'

section
variable {S : Server} {past : Db} {uuid : Text} {p : Object}

def Db.rowsOf (s : Db) (uuid : Text) : List History :=
  (s.histories.filter fun h => h.uuid = uuid).insertionSort History.Before

theorem Db.mem_rowsOf {h : History} :
    h ∈ past.rowsOf uuid ↔ h ∈ past.histories ∧ h.uuid = uuid := by
  unfold Db.rowsOf
  rw [List.mem_insertionSort, List.mem_filter, decide_eq_true_eq]

theorem groupRow_of_archived (hfirst : S.TakesFirst) (hpast : past.Archived)
    (hp : past.objects.lookup uuid = some p) {c : Text} (hc : c ∈ p.model.columns) :
    ∃ h, S.groupRow ((past.rowsOf uuid).filter fun h => h.attr = c) = some h ∧
      h.attr = c ∧ h.Holds (p.model.coldef c).type (p.recorded c) := by
  obtain ⟨h, hh, ha, hv, hnew⟩ := hpast.newest uuid p hp c hc
  have hsorted : ((past.rowsOf uuid).filter fun h => h.attr = c).Pairwise History.Before :=
    (List.pairwise_insertionSort History.Before _).filter _
  have hmem : h ∈ (past.rowsOf uuid).filter fun h => h.attr = c :=
    List.mem_filter.mpr ⟨Db.mem_rowsOf.mpr ⟨hh, ha.1⟩, decide_eq_true ha.2⟩
  cases hrows : (past.rowsOf uuid).filter fun h => h.attr = c with
  | nil =>
    rw [hrows] at hmem
    cases hmem
  | cons k rest =>
    have hk : k ∈ (past.rowsOf uuid).filter fun h => h.attr = c := hrows ▸ List.mem_cons_self
    obtain ⟨hk', hkattr⟩ := List.mem_filter.mp hk
    obtain ⟨hkold, hkuuid⟩ := Db.mem_rowsOf.mp hk'
    have hattr : k.attr = c := of_decide_eq_true hkattr
    rw [hrows] at hsorted hmem
    have hle : h.createdAt ≤ k.createdAt := by
      rcases List.mem_cons.mp hmem with rfl | hrest
      · exact Nat.le_refl _
      · exact List.rel_of_pairwise_cons hsorted hrest
    rcases hnew k hkold ⟨hkuuid, hattr⟩ with hlt | rfl
    · omega
    · exact ⟨k, hfirst k rest, hattr, hv⟩

theorem mem_attrs_of_archived (hpast : past.Archived) (hp : past.objects.lookup uuid = some p)
    (c : Text) : c ∈ ((past.rowsOf uuid).map History.attr).dedup ↔ c ∈ p.model.columns := by
  rw [List.mem_dedup, List.mem_map]
  constructor
  · rintro ⟨h, hh, rfl⟩
    obtain ⟨hh, huuid⟩ := Db.mem_rowsOf.mp hh
    obtain ⟨q, hq, hattr⟩ := hpast.attr h hh
    rw [huuid, hp] at hq
    cases hq
    exact hattr
  · intro hc
    obtain ⟨h, hh, ha, -⟩ := hpast.newest uuid p hp c hc
    exact ⟨h, Db.mem_rowsOf.mpr ⟨hh, ha.1⟩, ha.2⟩

theorem overlay_of_archived (hfirst : S.TakesFirst) (hpast : past.Archived)
    (hp : past.objects.lookup uuid = some p) {ss row : Text → Value} :
    S.overlay p.model (past.rowsOf uuid) row = some ss ↔
      (∀ c ∈ p.model.columns, c ∉ p.model.serializedColumns →
        S.reread (p.model.coldef c) (p.recorded c) = some (ss c)) ∧
      ∀ c, (c ∈ p.model.columns → c ∈ p.model.serializedColumns) → ss c = row c := by
  have hattrs := mem_attrs_of_archived hpast hp
  have hval : ∀ c ∈ p.model.columns, ∃ h,
      S.groupRow ((past.rowsOf uuid).filter fun h => h.attr = c) = some h ∧
      S.cast (p.model.coldef c) (S.value h) = S.reread (p.model.coldef c) (p.recorded c) := by
    intro c hc
    obtain ⟨h, hh, -, hv⟩ := groupRow_of_archived hfirst hpast hp hc
    exact ⟨h, hh, Server.cast_value hv⟩
  let val : Text → Value := fun c =>
    ((S.groupRow ((past.rowsOf uuid).filter fun h => h.attr = c)).map S.value).getD .nil
  have hcast : ∀ c ∈ p.model.columns,
      S.cast (p.model.coldef c) (val c) = S.reread (p.model.coldef c) (p.recorded c) := by
    intro c hc
    obtain ⟨h, hh, hv⟩ := hval c hc
    simp only [val, hh]
    exact hv
  unfold Server.overlay
  rw [foldlM_congr_mem (g := fun ss c => S.assign p.model ss c (val c))]
  · rw [Server.foldlM_assign]
    refine and_congr (forall_congr' fun c => ?_) (forall_congr' fun c => ?_)
    · rw [hattrs]
      exact forall_congr' fun hc => by rw [hcast c hc]
    · rw [hattrs]
  · intro c hc ss
    obtain ⟨h, hh, -⟩ := hval c ((hattrs c).mp hc)
    simp only [val, hh]
    rfl

end

theorem Db.historyDataset_run (ops : List Op) (uuid : Text) (t : Nat) :
    historyDataset (Db.run ops).histories uuid t = (Db.runUpTo t ops).rowsOf uuid := by
  unfold historyDataset Db.rowsOf
  congr 2
  exact Db.timed_histories.filter_log t (s := Db.empty) (fun _ hr => by cases hr) ops

/-- The values that are set make up the row of the time if every column is restored. -/
theorem restoredRow_iff {S : Server} {o p : Object} (hm : o.model = p.model) :
    (∃ ss : Text → Value, ((∀ c ∈ p.model.columns, c ∉ p.model.serializedColumns →
        S.reread (p.model.coldef c) (p.recorded c) = some (ss c)) ∧
      ∀ c, (c ∈ p.model.columns → c ∈ p.model.serializedColumns) → ss c = o.row c) ∧
      ∀ c ∈ p.model.columns, ss c = p.row c) ↔
    ∀ c ∈ p.model.columns, S.Restores o p c := by
  constructor
  · rintro ⟨ss, ⟨hset, hrest⟩, hss⟩ c hc
    unfold Server.Restores
    rw [hm]
    split
    · rename_i hser
      rw [← hss c hc, hrest c fun _ => hser]
    · rename_i hser
      rw [← hss c hc]
      exact hset c hc hser
  · intro hall
    refine ⟨fun c => if c ∈ p.model.columns then p.row c else o.row c, ⟨?_, ?_⟩, ?_⟩
    · intro c hc hser
      have hr := hall c hc
      unfold Server.Restores at hr
      rw [hm, if_neg hser] at hr
      exact hr.trans (congrArg some (if_pos hc).symm)
    · intro c hc
      change (if c ∈ p.model.columns then p.row c else o.row c) = o.row c
      split
      · rename_i hcol'
        have hr := hall c hcol'
        unfold Server.Restores at hr
        rw [hm, if_pos (hc hcol')] at hr
        exact hr.symm
      · rfl
    · intro c hc
      exact if_pos hc

theorem snapshot_right_iff (S : Server) (hfirst : S.TakesFirst) (ops : List Op)
    (hdt : ∀ op ∈ ops, 0 < op.dt) (uuid : Text) (t : Nat) (o p : Object)
    (ho : (Db.run ops).objects.lookup uuid = some o)
    (hp : (Db.runUpTo t ops).objects.lookup uuid = some p) (hlife : o.InLife t) :
    S.Right (Db.run ops) uuid o p t ↔
      terminatedAtColumn ∈ o.model.columns ∧ ∀ c ∈ o.model.columns, S.Restores o p c := by
  have hm := Db.model_runUpTo ho hp
  have hpast := Db.archived_runUpTo hdt t
  have hrows := Db.historyDataset_run ops uuid t
  unfold Server.Right Server.historySnapshot
  rw [hrows]
  by_cases hcol : terminatedAtColumn ∈ o.model.columns
  · rw [if_pos ((Object.inRange_iff hlife).mpr hcol), hm]
    simp only [overlay_of_archived hfirst hpast hp]
    rw [restoredRow_iff hm]
    exact ⟨fun hall => ⟨hm ▸ hcol, hall⟩, And.right⟩
  · rw [if_neg fun h => hcol ((Object.inRange_iff hlife).mp h)]
    constructor
    · rintro ⟨ss, hss, -⟩
      cases hss
    · rintro ⟨h, -⟩
      exact absurd h hcol

/-- A value as it is written for a text column; the seconds stand for the date of a time. -/
def written : Value → Option Text
  | .nil => none
  | .bool b => some (if b then ['1'] else ['0'])
  | .int i => some (Text.ofInt i)
  | .text t => some t
  | .time t => some (Text.ofNat t)

/-- A server that keeps texts, 255 characters of one in `vchar_value`. -/
def plainServer : Server where
  keep blob v := match written v with
    | none => .nil
    | some t => .text (if blob then t else t.take 255)
  typecast type v := match type, v with
    | .integer, .text t => some (.int (Text.toI t))
    | .float, .text t => some (.int (Text.toI t))
    | .boolean, .text t => some (.bool (t != ['0']))
    | .datetime, .text t => (Text.nat? t).map .time
    | _, v => some v
  groupRow := List.head?
  keep_nil blob := rfl
  typecast_nil type := by cases type <;> rfl

def sampleRow (c : Text) : Value :=
  match (instanceModel.coldef c).type with
  | .datetime =>
    if c ∈ [createdAtColumn, "updated_at".toList] then .time 1 else .nil
  | .integer =>
    if (instanceModel.coldef c).allowNull then .nil else .int 1
  | .float => .int 1
  | _ => .text "x".toList

def idColumn : Text := "id".toList

def startedSample : List Op :=
  [.create "i-1".toList instanceModel sampleRow (fun _ => .nil) 1,
    .save "i-1".toList ["state".toList] (fun _ => .text "running".toList) 1]

/-- Created as `create` does it, with the id of the database. -/
def createdSample : List Op :=
  [.create "i-1".toList instanceModel (Function.update sampleRow idColumn .nil)
    (fun c => if c = idColumn then .int 7 else .nil) 1]

theorem snapshot_right_sample : ∃ o p,
    (Db.run startedSample).objects.lookup "i-1".toList = some o ∧
    (Db.runUpTo 1 startedSample).objects.lookup "i-1".toList = some p ∧
    o.row "state".toList = .text "running".toList ∧ p.row "state".toList = .text "x".toList ∧
    plainServer.Right (Db.run startedSample) "i-1".toList o p 1 := by
  let created : Object :=
    ⟨instanceModel, fun c => if sampleRow c = .nil then .nil else sampleRow c, sampleRow, []⟩
  let started : Object :=
    ⟨instanceModel, fun c => if c ∈ ["state".toList] then .text "running".toList else created.row c,
      sampleRow, ["state".toList]⟩
  have hrestores : ∀ c ∈ instanceModel.columns, plainServer.Restores started created c := by
    decide +kernel
  refine ⟨started, created, rfl, rfl, by decide, by decide, ?_⟩
  exact (snapshot_right_iff plainServer (fun _ _ => rfl) startedSample (by decide) "i-1".toList 1
    started created rfl rfl ⟨⟨1, by decide, by decide⟩, fun _ => .inl (by decide)⟩).mpr
    ⟨by decide, hrestores⟩

/-- The snapshot of a new instance raises. -/
theorem not_snapshot_right : ∃ o,
    (Db.run createdSample).objects.lookup "i-1".toList = some o ∧
    (Db.runUpTo 1 createdSample).objects.lookup "i-1".toList = some o ∧ o.InLife 1 ∧
    plainServer.historySnapshot (Db.run createdSample) "i-1".toList o 1 = none ∧
    ¬ plainServer.Right (Db.run createdSample) "i-1".toList o o 1 := by
  let created : Object :=
    ⟨instanceModel, fun c => if Function.update sampleRow idColumn .nil c = .nil then
        if c = idColumn then .int 7 else .nil
      else Function.update sampleRow idColumn .nil c, Function.update sampleRow idColumn .nil, []⟩
  have hnone :
      (plainServer.historySnapshot (Db.run createdSample) "i-1".toList created 1).isNone := by
    decide +kernel
  refine ⟨created, rfl, rfl, ⟨⟨1, by decide, by decide⟩, fun _ => .inl (by decide)⟩,
    Option.isNone_iff_eq_none.mp hnone, ?_⟩
  rintro ⟨ss, hss, -⟩
  rw [Option.isNone_iff_eq_none.mp hnone] at hss
  cases hss

end ChangedColumns
end WakameVdc
