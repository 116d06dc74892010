import WakameVdc.Lib.Table
import WakameVdc.Taggable

/-!
# Labels of resources

The `ResourceLabel` plugin of `models/base_new.rb` and the model of the same name. A value
of up to 255 bytes goes to `string_value`, a longer one to `blob_value`, and `value_type`
tells which of the two is read.
-/

namespace WakameVdc

open Lib

namespace ResourceLabel

abbrev Bytes := List UInt8

/-! ## The database -/

/-- What the columns of the table keep. `name` and `resource_uuid` are `varchar(255)` of the
collation `utf8_general_ci`, which compares texts by the weights of their characters and
without the blanks at the end; `blob_value` is a `text`. A value that does not fit is
refused or cut, as the database is set up. -/
structure Engine where
  weight : Char → Nat
  sameValue : Bytes → Bytes → Bool
  inCharset : Char → Bool
  isText : Bytes → Prop
  storeVarchar : Text → Option Text
  storeString : Bytes → Option Bytes
  storeBlob : Bytes → Option Bytes
  weight_dash : ∀ c, Text.isWord c → weight c ≠ weight '-'
  storeVarchar_of_fits : ∀ t : Text, t.length ≤ 255 → (∀ c ∈ t, inCharset c) → storeVarchar t = some t
  storeString_of_fits : ∀ v, isText v → v.length ≤ 255 → storeString v = some v
  storeBlob_of_fits : ∀ v, isText v → v.length ≤ 65535 → storeBlob v = some v

namespace Engine

variable (e : Engine)

def collate (t : Text) : List Nat := (t.rdropWhile (· = ' ')).map e.weight

/-- `a = b` in a query. -/
def same (a b : Text) : Bool := e.collate a == e.collate b

/-- The text begins with the head, or with what a `=` takes for it. -/
def beginsAlike (head t : Text) : Bool := (t.take head.length).map e.weight == head.map e.weight

/-- `SUBSTRING(t, pos)`, where the first character is at 1. -/
def substring (t : Text) (pos : Nat) : Text := t.drop (pos - 1)

end Engine

/-! ## Labels -/

structure Columns where
  valueType : Int
  stringValue : Option Bytes
  blobValue : Option Bytes
  deriving DecidableEq

structure LabelRow where
  id : Nat
  resourceUuid : Text
  name : Text
  columns : Columns
  deriving DecidableEq

instance : Row LabelRow := ⟨LabelRow.id⟩

inductive ValueType
  | string
  | blob

/-- `typecast_const` of a string. -/
def typecastConst (v : Bytes) : ValueType := if v.length ≤ 255 then .string else .blob

/-- `typecast_value_column`, whose column is set by its own setter. -/
def typecastValueColumn (v : Bytes) : Columns :=
  match typecastConst v with
  | .string => ⟨1, some v, none⟩
  | .blob => ⟨2, none, some v⟩

namespace LabelRow

def value (l : LabelRow) : Option Bytes :=
  if l.columns.valueType = 1 then l.columns.stringValue
  else if l.columns.valueType = 2 then l.columns.blobValue
  else l.columns.stringValue

/-- `value=`. The column of the other type stays as it is. -/
def setValue (l : LabelRow) (v : Bytes) : Columns :=
  match typecastConst v with
  | .string => { l.columns with valueType := 1, stringValue := some v }
  | .blob => { l.columns with valueType := 2, blobValue := some v }

def isOf (e : Engine) (uuid name : Text) (l : LabelRow) : Bool :=
  e.same l.resourceUuid uuid && e.same l.name name

end LabelRow

/-- The table, with its unique index on `resource_uuid` and `name`. -/
structure ResourceLabels (e : Engine) where
  table : Table LabelRow
  unique : table.rows.Pairwise fun a b => LabelRow.isOf e b.resourceUuid b.name a = false

namespace ResourceLabels

variable {e : Engine} (t : ResourceLabels e)

def label (uuid name : Text) : Option LabelRow := t.table.first (LabelRow.isOf e uuid name)

/-- `save_changes` of a row whose columns have been set. -/
def setColumns (id : Nat) (c : Columns) : ResourceLabels e where
  table := t.table.modify id (fun l => { l with columns := c }) fun _ => rfl
  unique := by
    refine List.pairwise_map.mpr (t.unique.imp fun {a b} h => ?_)
    split <;> split <;> exact h

def insert (uuid name : Text) (c : Columns) : Option (ResourceLabels e) :=
  if h : t.label uuid name = none then
    some {
      table := t.table.create (fun id => ⟨id, uuid, name, c⟩) fun _ => rfl
      unique := by
        refine List.pairwise_append.mpr ⟨t.unique, List.pairwise_singleton _ _, ?_⟩
        intro a ha b hb
        rw [List.mem_singleton.mp hb]
        exact t.table.first_none h a ha }
  else none

/-- A column that has not changed is not written. -/
def storeColumn (store : Bytes → Option Bytes) (old new : Option Bytes) : Option (Option Bytes) :=
  if new = old then some old
  else
    match new with
    | none => some none
    | some v => (store v).map some

def storeColumns (e : Engine) (old new : Columns) : Option Columns := do
  let s ← storeColumn e.storeString old.stringValue new.stringValue
  let b ← storeColumn e.storeBlob old.blobValue new.blobValue
  return ⟨new.valueType, s, b⟩

/-- `set_label` without a value type; what the database refuses raises. -/
def setLabel (uuid name : Text) (v : Bytes) : Option (ResourceLabels e) :=
  match t.label uuid name with
  | some l => do
    let c ← storeColumns e l.columns (l.setValue v)
    return t.setColumns l.id c
  | none => do
    let uuid ← e.storeVarchar uuid
    let name ← e.storeVarchar name
    let c ← storeColumns e ⟨0, none, none⟩ (typecastValueColumn v)
    t.insert uuid name c

/-! ## A label that is set is read back -/

section
variable {uuid name : Text} {l : LabelRow} {v : Bytes}

theorem isOf_iff {u n : Text} : LabelRow.isOf e u n l = true ↔
    e.collate l.resourceUuid = e.collate u ∧ e.collate l.name = e.collate n := by
  unfold LabelRow.isOf Engine.same
  rw [Bool.and_eq_true, beq_iff_eq, beq_iff_eq]

theorem isOf_of_label (h : t.label uuid name = some l) : LabelRow.isOf e uuid name l = true :=
  List.find?_some h

theorem countP_of_label (h : t.label uuid name = some l) :
    t.table.rows.countP (LabelRow.isOf e uuid name) = 1 := by
  obtain ⟨hl, as, bs, hrows, has⟩ := List.find?_eq_some_iff_append.mp h
  have hu := t.unique
  rw [hrows] at hu ⊢
  have ha : as.countP (LabelRow.isOf e uuid name) = 0 :=
    List.countP_eq_zero.mpr fun a ha => by simpa using has a ha
  have hb : bs.countP (LabelRow.isOf e uuid name) = 0 := by
    refine List.countP_eq_zero.mpr fun b hb hbit => ?_
    have hne := List.rel_of_pairwise_cons (List.pairwise_append.mp hu).2.1 hb
    rw [isOf_iff] at hl hbit
    have hit : LabelRow.isOf e b.resourceUuid b.name l = true :=
      isOf_iff.mpr ⟨hl.1.trans hbit.1.symm, hl.2.trans hbit.2.symm⟩
    rw [hit] at hne
    cases hne
  rw [List.countP_append, ha, List.countP_cons_of_pos hl, hb]

theorem label_setColumns (id : Nat) (c : Columns) (u n : Text) :
    (t.setColumns id c).label u n =
      (t.label u n).map fun l => if l.id = id then { l with columns := c } else l := by
  show List.find? _ (t.table.rows.map _) = _
  rw [List.find?_map]
  have hcomp : LabelRow.isOf e u n ∘ (fun l => if Row.pk l = id then { l with columns := c } else l) =
      LabelRow.isOf e u n := by
    funext l
    show LabelRow.isOf e u n (if Row.pk l = id then _ else l) = _
    split <;> rfl
  rw [hcomp]
  rfl

theorem label_insert {t' : ResourceLabels e} {u n : Text} {c : Columns} (h : t.insert u n c = some t')
    (u' n' : Text) : t'.label u' n' = (t.label u' n').or
      (if e.same u u' && e.same n n' then some ⟨t.table.next, u, n, c⟩ else none) := by
  unfold insert at h
  split at h
  · cases h
    show List.find? _ (t.table.rows ++ [_]) = _
    rw [List.find?_append, List.find?_singleton]
    rfl
  · cases h

theorem storeColumn_of_fits {store : Bytes → Option Bytes} (hs : store v = some v) (old : Option Bytes) :
    storeColumn store old (some v) = some (some v) := by
  unfold storeColumn
  split
  · rename_i h
    rw [← h]
  · dsimp only
    rw [hs, Option.map_some]

theorem storeColumn_self (store : Bytes → Option Bytes) (old : Option Bytes) :
    storeColumn store old old = some old := if_pos rfl

theorem storeColumns_setValue (hv : e.isText v) (hlen : v.length ≤ 65535) (l : LabelRow) :
    storeColumns e l.columns (l.setValue v) = some (l.setValue v) := by
  unfold storeColumns LabelRow.setValue typecastConst
  split
  · rename_i h
    split at h
    · dsimp only
      rw [storeColumn_of_fits (e.storeString_of_fits v hv ‹_›), storeColumn_self]
      rfl
    · cases h
  · dsimp only
    rw [storeColumn_of_fits (e.storeBlob_of_fits v hv hlen), storeColumn_self]
    rfl

theorem storeColumns_of_refused (hs : e.storeBlob v = none) :
    storeColumns e ⟨0, none, none⟩ ⟨2, none, some v⟩ = none := by
  have hcol : storeColumn e.storeBlob none (some v) = none := by
    unfold storeColumn
    rw [if_neg (Option.some_ne_none v)]
    dsimp only
    rw [hs, Option.map_none]
  unfold storeColumns
  rw [storeColumn_self, hcol]
  rfl

theorem typecastValueColumn_of_lt (h : 255 < v.length) : typecastValueColumn v = ⟨2, none, some v⟩ := by
  unfold typecastValueColumn typecastConst
  rw [if_neg (by omega)]

theorem typecastValueColumn_eq (v : Bytes) :
    typecastValueColumn v = (⟨0, [], [], ⟨0, none, none⟩⟩ : LabelRow).setValue v := by
  unfold typecastValueColumn LabelRow.setValue
  split <;> rfl

/-- The column that `value_type` names is the one that has just been set. -/
theorem value_setValue (l r : LabelRow) (h : r.columns = l.setValue v) : r.value = some v := by
  unfold LabelRow.value
  rw [h]
  unfold LabelRow.setValue
  split <;> rfl

/-- What setting a label is to do, where `other` says which names are others. -/
structure Sets (other : Text → Prop) (uuid name : Text) (v : Bytes) (t' : ResourceLabels e) : Prop where
  value : (t'.label uuid name).bind LabelRow.value = some v
  others : ∀ n, other n → t'.label uuid n = t.label uuid n
  one : t'.table.rows.countP (LabelRow.isOf e uuid name) = 1

theorem sets_setColumns (h : t.label uuid name = some l) :
    t.Sets (fun n => e.same n name = false) uuid name v (t.setColumns l.id (l.setValue v)) := by
  have hself : (t.setColumns l.id (l.setValue v)).label uuid name =
      some { l with columns := l.setValue v } := by
    rw [label_setColumns, h, Option.map_some, if_pos rfl]
  refine ⟨?_, fun n hn => ?_, countP_of_label _ hself⟩
  · rw [hself]
    exact value_setValue l _ rfl
  · rw [label_setColumns]
    cases hl' : t.label uuid n with
    | none => rfl
    | some l' =>
      have hne : l'.id ≠ l.id := by
        intro hid
        have heq := t.table.eq_of_pk (List.mem_of_find?_eq_some hl') (List.mem_of_find?_eq_some h) hid
        subst heq
        have h1 := isOf_iff.mp (t.isOf_of_label h)
        have h2 := isOf_iff.mp (t.isOf_of_label hl')
        unfold Engine.same at hn
        rw [beq_eq_false_iff_ne] at hn
        exact hn (h2.2.symm.trans h1.2)
      rw [Option.map_some, if_neg hne]

theorem sets_insert {t' : ResourceLabels e} (hnone : t.label uuid name = none)
    (h : t.insert uuid name (typecastValueColumn v) = some t') :
    t.Sets (fun n => e.same n name = false) uuid name v t' := by
  have hrefl : ∀ x : Text, e.same x x = true := fun x => beq_self_eq_true _
  have hself : t'.label uuid name = some ⟨t.table.next, uuid, name, typecastValueColumn v⟩ := by
    rw [t.label_insert h, hnone, hrefl, hrefl]
    rfl
  refine ⟨?_, fun n hn => ?_, countP_of_label _ hself⟩
  · rw [hself]
    exact value_setValue ⟨0, [], [], ⟨0, none, none⟩⟩ _ (typecastValueColumn_eq v)
  · have hn' : e.same name n = false := by
      unfold Engine.same at hn ⊢
      rw [beq_eq_false_iff_ne] at hn ⊢
      exact hn.symm
    rw [t.label_insert h, hn', Bool.and_false]
    exact Option.or_none

theorem setLabel_of_none (h : t.label uuid name = none) :
    t.setLabel uuid name v = (e.storeVarchar uuid).bind fun uuid => (e.storeVarchar name).bind fun name =>
      (storeColumns e ⟨0, none, none⟩ (typecastValueColumn v)).bind (t.insert uuid name) := by
  unfold setLabel
  rw [h]
  rfl

/-- A value of up to 65535 bytes is read back whatever was there before, and no other name
is touched that the database tells apart. -/
theorem setLabel_sets (hu : uuid.length ≤ 255 ∧ ∀ c ∈ uuid, e.inCharset c)
    (hn : name.length ≤ 255 ∧ ∀ c ∈ name, e.inCharset c) (hv : e.isText v) (hlen : v.length ≤ 65535) :
    ∃ t', t.setLabel uuid name v = some t' ∧ t.Sets (fun n => e.same n name = false) uuid name v t' := by
  cases h : t.label uuid name with
  | some l =>
    refine ⟨_, ?_, t.sets_setColumns h⟩
    unfold setLabel
    rw [h]
    simp only [storeColumns_setValue hv hlen]
    rfl
  | none =>
    have hcol := storeColumns_setValue hv hlen ⟨0, [], [], ⟨0, none, none⟩⟩
    rw [← typecastValueColumn_eq] at hcol
    have hins : ∃ t', t.insert uuid name (typecastValueColumn v) = some t' := by
      unfold insert
      rw [dif_pos h]
      exact ⟨_, rfl⟩
    obtain ⟨t', ht'⟩ := hins
    refine ⟨t', ?_, t.sets_insert h ht'⟩
    rw [t.setLabel_of_none h, e.storeVarchar_of_fits uuid hu.1 hu.2, e.storeVarchar_of_fits name hn.1 hn.2]
    exact (congrArg (fun c => c.bind (t.insert uuid name)) hcol).trans ht'

/-- A database that folds the case of letters and refuses what does not fit. -/
def strict : Engine where
  weight c := if 97 ≤ c.toNat ∧ c.toNat ≤ 122 then c.toNat - 32 else c.toNat
  sameValue := (· == ·)
  inCharset c := c.toNat < 65536
  isText v := ∀ b ∈ v, b < 0xF0
  storeVarchar t := if t.length ≤ 255 then some t else none
  storeString v := if v.length ≤ 255 then some v else none
  storeBlob v := if v.length ≤ 65535 then some v else none
  weight_dash c hc := by
    have hne : c.toNat ≠ 45 := by
      intro h
      have hcd : c = '-' := Char.toNat_inj.mp h
      subst hcd
      revert hc
      decide
    show (if 97 ≤ c.toNat ∧ c.toNat ≤ 122 then c.toNat - 32 else c.toNat) ≠ 45
    split
    · omega
    · exact hne
  storeVarchar_of_fits t ht _ := if_pos ht
  storeString_of_fits v _ hlen := if_pos hlen
  storeBlob_of_fits v _ hlen := if_pos hlen

theorem strict_storeBlob (h : 65535 < v.length) : strict.storeBlob v = none := if_neg (by omega)

theorem strict_storeVarchar (h : 255 < name.length) : strict.storeVarchar name = none := if_neg (by omega)

end

def unlabelled : ResourceLabels strict := ⟨Table.empty, List.Pairwise.nil⟩

theorem setLabel_sets_new : ∃ t', unlabelled.setLabel "i-abc12345".toList "k".toList [118] = some t' ∧
    unlabelled.Sets (fun n => strict.same n "k".toList = false) "i-abc12345".toList "k".toList [118] t' :=
  setLabel_sets unlabelled ⟨by decide, List.all_eq_true.mp (by decide)⟩
    ⟨by decide, List.all_eq_true.mp (by decide)⟩
    (fun b hb => by rw [List.mem_singleton.mp hb]; decide) (by decide)

/-- Whether setting a label does what it is to do to every other name. -/
def Set (t : ResourceLabels e) (uuid name : Text) (v : Bytes) : Prop :=
  ∃ t', t.setLabel uuid name v = some t' ∧ t.Sets (· ≠ name) uuid name v t'

def small : ResourceLabels strict :=
  ⟨⟨[⟨1, "i-abc12345".toList, "k".toList, ⟨1, some [118], none⟩⟩], 2, by decide, by decide⟩, by decide⟩

/-- A value longer than the column, a name longer than its own, and a name that is told
from another by the case alone. -/
theorem not_set : ¬ unlabelled.Set "i-abc12345".toList "k".toList (List.replicate 65536 118) ∧
    ¬ unlabelled.Set "i-abc12345".toList (List.replicate 256 'k') [118] ∧
    ¬ small.Set "i-abc12345".toList "K".toList [119] := by
  refine ⟨?_, ?_, ?_⟩
  · rintro ⟨t', h, -⟩
    rw [setLabel_of_none (t := unlabelled) rfl,
      typecastValueColumn_of_lt (by rw [List.length_replicate]; decide)] at h
    have hblob := strict_storeBlob (v := List.replicate 65536 118) (by rw [List.length_replicate]; decide)
    rw [storeColumns_of_refused hblob] at h
    cases h
  · rintro ⟨t', h, -⟩
    have hname : strict.storeVarchar (List.replicate 256 'k') = none :=
      strict_storeVarchar (by rw [List.length_replicate]; decide)
    rw [setLabel_of_none (t := unlabelled) rfl, hname] at h
    cases h
  · rintro ⟨t', h, hset⟩
    have hset' : small.setLabel "i-abc12345".toList "K".toList [119] =
        some (small.setColumns 1 ⟨1, some [119], none⟩) := rfl
    rw [hset'] at h
    cases h
    have hother := hset.others "k".toList (by decide)
    revert hother
    decide

end ResourceLabels

/-! ## Searching by a label -/

/-- A row of a model with labels: a `uuid` is generated from letters and digits, or given
as a word. -/
structure Resource where
  uuid : Text
  nonempty : uuid ≠ []
  word : ∀ c ∈ uuid, Text.isWord c

section
variable {e : Engine} (uuidPrefix : Text) (resources : List Resource) (t : ResourceLabels e)
  (name : Text) (v : Bytes)

def valueIs (e : Engine) (v : Bytes) (c : Columns) : Bool :=
  match typecastConst v with
  | .string => c.stringValue.any fun w => e.sameValue w v
  | .blob => c.blobValue.any fun w => e.sameValue w v

/-- Sequel writes a `like` for MySQL as `LIKE BINARY`, and no prefix has a sign that a pattern
reads. -/
def filterByLabel : List Resource :=
  let lbds := t.table.rows.filter fun l => e.same l.name name && valueIs e v l.columns &&
    (Taggable.uuidHead uuidPrefix).isPrefixOf l.resourceUuid
  resources.filter fun r =>
    lbds.any fun l => e.same r.uuid (Engine.substring l.resourceUuid (uuidPrefix.length + 1))

/-- The resource has a label with the name and the value. -/
def Carries (r : Resource) : Prop :=
  ∃ l ∈ t.table.rows, l.resourceUuid = Taggable.canonicalUuid uuidPrefix r.uuid ∧
    l.name = name ∧ l.value = some v

variable {uuidPrefix resources t name v}

theorem substring_of_prefix {u : Text} (h : (Taggable.uuidHead uuidPrefix).isPrefixOf u) :
    ∃ rest, Engine.substring u (uuidPrefix.length + 1) = '-' :: rest := by
  obtain ⟨rest, rfl⟩ := List.isPrefixOf_iff_prefix.mp h
  refine ⟨rest, ?_⟩
  simp [Engine.substring, Taggable.uuidHead]

/-- A uuid is never the same as a text that begins with a dash. -/
theorem not_same_of_dash (r : Resource) (rest : Text) : e.same r.uuid ('-' :: rest) = false := by
  unfold Engine.same
  rw [beq_eq_false_iff_ne]
  intro h
  obtain ⟨a, as, hr⟩ := List.exists_cons_of_ne_nil r.nonempty
  have hlast : r.uuid.rdropWhile (· = ' ') = r.uuid := by
    refine List.rdropWhile_eq_self_iff.mpr fun hne hspace => ?_
    rw [decide_eq_true_eq] at hspace
    have hword := r.word _ (List.getLast_mem hne)
    rw [hspace] at hword
    revert hword
    decide
  unfold Engine.collate at h
  rw [hlast, hr, List.map_cons] at h
  cases hd : ('-' :: rest).rdropWhile (· = ' ') with
  | nil => rw [hd] at h; cases h
  | cons d ds =>
    have hpre := List.rdropWhile_prefix (p := fun x => decide (x = ' ')) (l := '-' :: rest)
    rw [hd, List.cons_prefix_cons] at hpre
    rw [hd, List.map_cons, List.cons.injEq, hpre.1] at h
    have hword := r.word a (by rw [hr]; exact List.mem_cons_self)
    exact e.weight_dash a hword h.1

/-- The rest of the label's uuid is cut one character too early: nothing is found. -/
theorem filterByLabel_eq_nil : filterByLabel uuidPrefix resources t name v = [] := by
  refine List.filter_eq_nil_iff.mpr fun r _ h => ?_
  obtain ⟨l, hl, hsame⟩ := List.any_eq_true.mp h
  rw [List.mem_filter, Bool.and_eq_true] at hl
  obtain ⟨rest, hsub⟩ := substring_of_prefix hl.2.2
  rw [hsub, not_same_of_dash r rest] at hsame
  cases hsame

/-- The search finds the resources with the label just when there are none. -/
theorem filterByLabel_iff (uuidPrefix : Text) (resources : List Resource) (t : ResourceLabels e)
    (name : Text) (v : Bytes) :
    (∀ r, r ∈ filterByLabel uuidPrefix resources t name v ↔
      r ∈ resources ∧ Carries uuidPrefix t name v r) ↔
      ∀ r ∈ resources, ¬ Carries uuidPrefix t name v r := by
  rw [filterByLabel_eq_nil]
  constructor
  · intro h r hr hcarries
    exact absurd ((h r).mpr ⟨hr, hcarries⟩) List.not_mem_nil
  · intro h r
    exact iff_of_false List.not_mem_nil fun hr => h r hr.1 hr.2

def labelled : Resource where
  uuid := "abc12345".toList
  nonempty := by decide
  word := List.all_eq_true.mp (by decide)

/-- The one instance, whose label is there. -/
theorem not_filterByLabel : ¬ ∀ r,
    r ∈ filterByLabel "i".toList [labelled] ResourceLabels.small "k".toList [118] ↔
      r ∈ [labelled] ∧ Carries "i".toList ResourceLabels.small "k".toList [118] r := by
  rw [filterByLabel_eq_nil]
  intro h
  refine absurd ((h _).mpr ⟨List.mem_cons_self, _, List.mem_cons_self, ?_⟩) List.not_mem_nil
  exact ⟨by decide, rfl, rfl⟩

end

end ResourceLabel

end WakameVdc
