import Mathlib.Data.List.Find
import Mathlib.Data.List.Pairwise
import WakameVdc.ResourceLabel

/-!
# The labels of a resource as a map

What writing and removing a label does to the values that are held, by the exact texts of
the uuid and the name. The database finds a label by its collation, so the two agree where
it takes no other label for the one that is meant.
-/

namespace WakameVdc

open Lib

namespace ResourceLabel

namespace ResourceLabels

variable {e : Engine} (t : ResourceLabels e)

/-! ## Operations with their results -/

/-- `set_label` without a value type, with the label it returns: `save_changes` returns none
when no column changes. -/
def saveLabel (uuid name : Text) (v : Bytes) : Option (ResourceLabels e × Option LabelRow) :=
  (t.setLabel uuid name v).map fun t' => (t',
    match t.label uuid name with
    | some l => if l.setValue v = l.columns then none else some { l with columns := l.setValue v }
    | none => t'.table.rows.getLast?)

/-- The columns that `blob_value=` leaves, whatever the size of the value. -/
def blobColumns (c : Columns) (v : Bytes) : Columns := { c with valueType := 2, blobValue := some v }

/-- `set_label` with the value type `:blob_value` -/
def setBlobLabel (uuid name : Text) (v : Bytes) : Option (ResourceLabels e) :=
  match t.label uuid name with
  | some l => do
    let c ← storeColumns e l.columns (blobColumns l.columns v)
    return t.setColumns l.id c
  | none => do
    let uuid ← e.storeVarchar uuid
    let name ← e.storeVarchar name
    let c ← storeColumns e ⟨0, none, none⟩ (blobColumns ⟨0, none, none⟩ v)
    t.insert uuid name c

/-- `DELETE` of the rows that are selected -/
def destroy (p : LabelRow → Bool) : ResourceLabels e where
  table := t.table.delete p
  unique := t.unique.filter _

/-- `unset_label`. No row has a name that is none. -/
def unsetLabel (uuid : Text) (name : Option Text) : ResourceLabels e :=
  match name.bind (t.label uuid) with
  | some l => t.destroy fun x => x.id = l.id
  | none => t

/-! ## The map -/

def named (uuid name : Text) (l : LabelRow) : Bool := l.resourceUuid = uuid && l.name = name

def row (uuid name : Text) : Option LabelRow := t.table.first (named uuid name)

/-- The value under a name. A row may be there without one. -/
def held (uuid name : Text) : Option (Option Bytes) := (t.row uuid name).map LabelRow.value

/-- The database takes no other label for the one of this name. -/
def Told (uuid name : Text) : Prop :=
  ∀ l ∈ t.table.rows, LabelRow.isOf e uuid name l = true → l.resourceUuid = uuid ∧ l.name = name

/-- The label has the value in the column it belongs to. -/
def Stored (uuid name : Text) (v : Bytes) : Prop :=
  ∃ l, t.label uuid name = some l ∧ l.setValue v = l.columns

/-- The table has the value under the name, everything else stays. -/
structure Wrote (uuid name : Text) (v : Bytes) (t' : ResourceLabels e) : Prop where
  held : ∀ u n, t'.held u n = if u = uuid ∧ n = name then some (some v) else t.held u n
  fresh : ∀ l ∈ t'.table.rows, (∃ l₀ ∈ t.table.rows, l₀.id = l.id ∧ l₀.resourceUuid = l.resourceUuid ∧
    l₀.name = l.name) ∨ l.id = t.table.next ∧ l.resourceUuid = uuid ∧ l.name = name
  kept : ∀ l₀ ∈ t.table.rows, ∃ l ∈ t'.table.rows, l.id = l₀.id ∧ l.resourceUuid = l₀.resourceUuid ∧
    l.name = l₀.name
  next : t.table.next ≤ t'.table.next

section
variable {t} {uuid name : Text} {v : Bytes} {l : LabelRow} {t' : ResourceLabels e}

@[simp] theorem named_iff : named uuid name l = true ↔ l.resourceUuid = uuid ∧ l.name = name := by
  simp [named]

theorem isOf_of_named (h : named uuid name l = true) : LabelRow.isOf e uuid name l = true := by
  obtain ⟨hu, hn⟩ := named_iff.mp h
  rw [isOf_iff, hu, hn]
  exact ⟨rfl, rfl⟩

theorem named_of_row (h : t.row uuid name = some l) : l.resourceUuid = uuid ∧ l.name = name :=
  named_iff.mp (List.find?_some h)

theorem mem_of_row (h : t.row uuid name = some l) : l ∈ t.table.rows := List.mem_of_find?_eq_some h

theorem row_eq_none : t.row uuid name = none ↔ ∀ l ∈ t.table.rows, ¬ (l.resourceUuid = uuid ∧ l.name = name) := by
  unfold row Table.first
  rw [List.find?_eq_none]
  simp only [named_iff]

theorem label_eq_row (h : t.Told uuid name) : t.label uuid name = t.row uuid name := by
  refine List.find?_congr fun l hl => ?_
  by_cases hn : named uuid name l = true
  · rw [hn, isOf_of_named hn]
  · have hno : ¬ LabelRow.isOf e uuid name l = true := fun hit => hn (named_iff.mpr (h l hl hit))
    rw [Bool.not_eq_true] at hn hno
    rw [hn, hno]

/-! ## Rows -/

theorem row_setColumns (id : Nat) (c : Columns) (u n : Text) :
    (t.setColumns id c).row u n =
      (t.row u n).map fun l => if l.id = id then { l with columns := c } else l := by
  show List.find? _ (t.table.rows.map _) = _
  rw [List.find?_map]
  have hcomp : named u n ∘ (fun l => if Row.pk l = id then { l with columns := c } else l) = named u n := by
    funext l
    show named u n (if Row.pk l = id then _ else l) = _
    split <;> rfl
  rw [hcomp]
  rfl

theorem rows_insert {c : Columns} (h : t.insert uuid name c = some t') :
    t'.table.rows = t.table.rows ++ [⟨t.table.next, uuid, name, c⟩] := by
  unfold insert at h
  split at h
  · cases h
    rfl
  · cases h

theorem next_insert {c : Columns} (h : t.insert uuid name c = some t') : t.table.next ≤ t'.table.next := by
  unfold insert at h
  split at h
  · cases h
    exact Nat.le_succ _
  · cases h

theorem row_insert {c : Columns} (h : t.insert uuid name c = some t') (u n : Text) :
    t'.row u n = (t.row u n).or
      (if u = uuid ∧ n = name then some ⟨t.table.next, uuid, name, c⟩ else none) := by
  unfold row Table.first
  rw [rows_insert h, List.find?_append, List.find?_singleton]
  by_cases hn : u = uuid ∧ n = name
  · rw [if_pos hn, if_pos (named_iff.mpr ⟨hn.1.symm, hn.2.symm⟩)]
  · rw [if_neg hn, if_neg fun hit => hn ⟨(named_iff.mp hit).1.symm, (named_iff.mp hit).2.symm⟩]

theorem eq_of_named {l' : LabelRow} (hl : l ∈ t.table.rows) (hl' : l' ∈ t.table.rows)
    (h : named uuid name l = true) (h' : named uuid name l' = true) : l = l' := by
  have hsymm : Std.Symm fun a b : LabelRow => LabelRow.isOf e b.resourceUuid b.name a = false := by
    refine ⟨fun a b hab => ?_⟩
    rw [← Bool.not_eq_true, isOf_iff] at hab ⊢
    exact fun hba => hab ⟨hba.1.symm, hba.2.symm⟩
  by_contra hne
  have hfalse := t.unique.forall hl hl' hne
  obtain ⟨hu', hn'⟩ := named_iff.mp h'
  rw [hu', hn', isOf_of_named h] at hfalse
  cases hfalse

theorem row_eq_some : t.row uuid name = some l ↔ l ∈ t.table.rows ∧ named uuid name l = true := by
  constructor
  · intro h
    exact ⟨mem_of_row h, List.find?_some h⟩
  · rintro ⟨hl, hn⟩
    cases hr : t.row uuid name with
    | none => exact absurd (named_iff.mp hn) (row_eq_none.mp hr l hl)
    | some r => rw [eq_of_named (mem_of_row hr) hl (List.find?_some hr) hn]

theorem id_ne_of_row {r : LabelRow} {u n : Text} (h : t.row uuid name = some l) (hr : t.row u n = some r)
    (hne : ¬ (u = uuid ∧ n = name)) : r.id ≠ l.id := by
  intro hid
  have heq := t.table.eq_of_pk (mem_of_row hr) (mem_of_row h) hid
  obtain ⟨hru, hrn⟩ := named_of_row hr
  obtain ⟨hu, hn⟩ := named_of_row h
  exact hne ⟨hru.symm.trans (heq ▸ hu), hrn.symm.trans (heq ▸ hn)⟩

theorem row_destroy (p : LabelRow → Bool) (u n : Text) :
    (t.destroy p).row u n = (t.row u n).filter fun l => !p l := by
  refine Option.ext fun l => ?_
  rw [Option.filter_eq_some_iff, row_eq_some, row_eq_some, Bool.not_eq_true']
  show l ∈ (t.table.delete p).rows ∧ _ ↔ _
  rw [Table.mem_delete]
  exact and_right_comm

/-! ## Writing -/

theorem wrote_setColumns {c : Columns} (h : t.row uuid name = some l)
    (hv : LabelRow.value { l with columns := c } = some v) : t.Wrote uuid name v (t.setColumns l.id c) := by
  refine ⟨fun u n => ?_, fun x hx => ?_, fun x hx => ?_, Nat.le_refl _⟩
  · unfold held
    rw [row_setColumns]
    by_cases hsame : u = uuid ∧ n = name
    · rw [if_pos hsame, hsame.1, hsame.2, h, Option.map_some, if_pos rfl]
      exact congrArg some hv
    · rw [if_neg hsame]
      cases hr : t.row u n with
      | none => rfl
      | some r => rw [Option.map_some, if_neg (id_ne_of_row h hr hsame)]
  · obtain ⟨x₀, hx₀, rfl⟩ := List.mem_map.mp hx
    refine .inl ⟨x₀, hx₀, ?_⟩
    split <;> exact ⟨rfl, rfl, rfl⟩
  · refine ⟨_, List.mem_map.mpr ⟨x, hx, rfl⟩, ?_⟩
    split <;> exact ⟨rfl, rfl, rfl⟩

theorem wrote_insert {c : Columns} (hnone : t.row uuid name = none) (h : t.insert uuid name c = some t')
    (hv : LabelRow.value ⟨t.table.next, uuid, name, c⟩ = some v) : t.Wrote uuid name v t' := by
  have hrows := rows_insert h
  refine ⟨fun u n => ?_, fun x hx => ?_, fun x hx => ?_, next_insert h⟩
  · unfold held
    rw [row_insert h]
    by_cases hsame : u = uuid ∧ n = name
    · rw [if_pos hsame, if_pos hsame, hsame.1, hsame.2, hnone, Option.none_or]
      exact congrArg some hv
    · rw [if_neg hsame, if_neg hsame, Option.or_none]
  · rw [hrows, List.mem_append, List.mem_singleton] at hx
    rcases hx with hx | rfl
    · exact .inl ⟨x, hx, rfl, rfl, rfl⟩
    · exact .inr ⟨rfl, rfl, rfl⟩
  · rw [hrows]
    exact ⟨x, List.mem_append_left _ hx, rfl, rfl, rfl⟩

/-- Texts that the columns of a name and a value keep. -/
structure Fits (e : Engine) (uuid name : Text) (v : Bytes) : Prop where
  uuid : uuid.length ≤ 255 ∧ ∀ c ∈ uuid, e.inCharset c = true
  name : name.length ≤ 255 ∧ ∀ c ∈ name, e.inCharset c = true
  value : e.isText v ∧ v.length ≤ 65535

theorem exists_insert (h : t.label uuid name = none) (c : Columns) : ∃ t', t.insert uuid name c = some t' := by
  unfold insert
  rw [dif_pos h]
  exact ⟨_, rfl⟩

/-- A label that is set is held under its name, and nothing else is touched; a label comes
back unless its columns were the same. -/
theorem saveLabel_wrote (ht : t.Told uuid name) (hf : Fits e uuid name v) :
    ∃ t' l, t.saveLabel uuid name v = some (t', l) ∧ t.Wrote uuid name v t' ∧
      (l = none ↔ t.Stored uuid name v) := by
  have hlabel := label_eq_row ht
  cases h : t.label uuid name with
  | some l =>
    have hset : t.setLabel uuid name v = some (t.setColumns l.id (l.setValue v)) := by
      unfold setLabel
      rw [h]
      simp only [storeColumns_setValue hf.value.1 hf.value.2]
      rfl
    have hwrote := wrote_setColumns (hlabel.symm.trans h)
      (value_setValue l { l with columns := l.setValue v } rfl)
    refine ⟨_, _, by unfold saveLabel; rw [hset]; rfl, hwrote, ?_⟩
    rw [h]
    constructor
    · intro hl
      by_cases hsame : l.setValue v = l.columns
      · exact ⟨l, h, hsame⟩
      · simp [hsame] at hl
    · rintro ⟨l', hl', hsame⟩
      rw [h] at hl'
      cases hl'
      simp [hsame]
  | none =>
    obtain ⟨t', ht'⟩ := exists_insert h (typecastValueColumn v)
    have hcol := storeColumns_setValue hf.value.1 hf.value.2 ⟨0, [], [], ⟨0, none, none⟩⟩
    rw [← typecastValueColumn_eq] at hcol
    have hset : t.setLabel uuid name v = some t' := by
      rw [t.setLabel_of_none h, e.storeVarchar_of_fits uuid hf.uuid.1 hf.uuid.2,
        e.storeVarchar_of_fits name hf.name.1 hf.name.2]
      exact (congrArg (fun c => c.bind (t.insert uuid name)) hcol).trans ht'
    have hwrote := wrote_insert (hlabel.symm.trans h) ht'
      (value_setValue ⟨0, [], [], ⟨0, none, none⟩⟩ _ (typecastValueColumn_eq v))
    refine ⟨t', _, by unfold saveLabel; rw [hset]; rfl, hwrote, ?_⟩
    rw [h]
    have hlast : t'.table.rows.getLast? ≠ none := by
      rw [rows_insert ht']
      simp
    refine iff_of_false hlast ?_
    rintro ⟨l, hl, -⟩
    rw [h] at hl
    cases hl

theorem setLabel_wrote (ht : t.Told uuid name) (hf : Fits e uuid name v) :
    ∃ t', t.setLabel uuid name v = some t' ∧ t.Wrote uuid name v t' := by
  obtain ⟨t', l, hsave, hwrote, -⟩ := saveLabel_wrote ht hf
  obtain ⟨t'', hset, heq⟩ := Option.map_eq_some_iff.mp hsave
  obtain ⟨rfl, -⟩ := Prod.mk.inj heq
  exact ⟨t'', hset, hwrote⟩

theorem value_blobColumns (r : LabelRow) (c : Columns) (h : r.columns = blobColumns c v) : r.value = some v := by
  unfold LabelRow.value
  rw [h]
  rfl

theorem storeColumns_blobColumns (hv : e.isText v) (hlen : v.length ≤ 65535) (c : Columns) :
    storeColumns e c (blobColumns c v) = some (blobColumns c v) := by
  unfold storeColumns blobColumns
  dsimp only
  rw [storeColumn_of_fits (e.storeBlob_of_fits v hv hlen), storeColumn_self]
  rfl

theorem setBlobLabel_wrote (ht : t.Told uuid name) (hf : Fits e uuid name v) :
    ∃ t', t.setBlobLabel uuid name v = some t' ∧ t.Wrote uuid name v t' := by
  have hlabel := label_eq_row ht
  cases h : t.label uuid name with
  | some l =>
    refine ⟨t.setColumns l.id (blobColumns l.columns v), ?_,
      wrote_setColumns (hlabel.symm.trans h) (value_blobColumns _ l.columns rfl)⟩
    unfold setBlobLabel
    rw [h]
    simp only [storeColumns_blobColumns hf.value.1 hf.value.2]
    rfl
  | none =>
    obtain ⟨t', ht'⟩ := exists_insert h (blobColumns ⟨0, none, none⟩ v)
    refine ⟨t', ?_, wrote_insert (hlabel.symm.trans h) ht' (value_blobColumns _ _ rfl)⟩
    unfold setBlobLabel
    rw [h]
    simp only [e.storeVarchar_of_fits uuid hf.uuid.1 hf.uuid.2, e.storeVarchar_of_fits name hf.name.1 hf.name.2,
      storeColumns_blobColumns hf.value.1 hf.value.2]
    exact ht'

/-! ## Removing -/

theorem held_destroy (p : LabelRow → Bool) (u n : Text) :
    (t.destroy p).held u n = ((t.row u n).filter fun l => !p l).map LabelRow.value := by
  unfold held
  rw [row_destroy]

theorem held_unsetLabel (ht : t.Told uuid name) (u n : Text) :
    (t.unsetLabel uuid (some name)).held u n = if u = uuid ∧ n = name then none else t.held u n := by
  unfold unsetLabel
  rw [Option.bind_some, label_eq_row ht]
  cases h : t.row uuid name with
  | none =>
    show t.held u n = _
    split
    · rename_i hsame
      unfold held
      rw [hsame.1, hsame.2, h, Option.map_none]
    · rfl
  | some l =>
    show (t.destroy fun x => decide (x.id = l.id)).held u n = _
    rw [held_destroy]
    split
    · rename_i hsame
      rw [hsame.1, hsame.2, h]
      simp
    · rename_i hne
      unfold held
      cases hr : t.row u n with
      | none => rfl
      | some r =>
        have hid := id_ne_of_row h hr hne
        rw [Option.filter_some, if_pos (by simp [hid])]

end

end ResourceLabels

end ResourceLabel

end WakameVdc
