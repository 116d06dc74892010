import WakameVdc.NetworkVifMonitor

/-!
# All monitors of an interface at once

`bulk_update` of `endpoints/12.03/network_vifs.rb`. Monitors that the request does not
name are deleted, those it names are updated, and entries without a uuid are created; the
events go out when the transaction is committed.
-/

namespace WakameVdc

open Lib

namespace Monitor

/-- An entry of `params['monitors']`. -/
structure MonitorInput where
  uuid : Option Text
  enabled : Option String
  title : Option String
  params : Option String
  deriving DecidableEq

inductive EventName
  | deleted
  | updated
  | created
  deriving DecidableEq

/-- `vif.monitoring.*`, with the uuid of the monitor that it gives. -/
structure MonitorEvent where
  name : EventName
  vifId : Text
  monitorId : Option Text
  deriving DecidableEq

/-- What the columns `title` and `params` keep of a text, and `none` where the database refuses it. -/
structure Columns where
  title : String → Option String
  params : String → Option String

structure BulkResult (collate : Text → List Nat) where
  db : Db collate
  events : List MonitorEvent
  deleted : List Text
  updated : List MonitorRow
  created : List MonitorRow

def VifRow.canonicalUuid (vif : VifRow) : Text := Taggable.canonicalUuid vifPrefix vif.uuid

/-- An empty title counts for none. -/
def MonitorInput.givenTitle (i : MonitorInput) : Option String := i.title.filter (· ≠ "")

def MonitorRow.write (i : MonitorInput) (m : MonitorRow) : MonitorRow :=
  { m with
    enabled := (i.enabled.map (· == "true")).getD m.enabled
    title := i.givenTitle.getD m.title
    params := i.params.getD m.params }

/-- `save_changes` of one column, which is written if its text has changed. -/
def saveColumn (column : String → Option String) (old : String) (given : Option String) : Option String :=
  match given with
  | none => some old
  | some text => if text = old then some old else column text

/-- The row after `save_changes`. -/
def MonitorRow.store (columns : Columns) (i : MonitorInput) (m : MonitorRow) : Option MonitorRow := do
  let title ← saveColumn columns.title m.title i.givenTitle
  let params ← saveColumn columns.params m.params i.params
  return { m with
    enabled := (i.enabled.map (· == "true")).getD m.enabled
    title := title
    params := params }

def MonitorRow.set (stored m : MonitorRow) : MonitorRow :=
  { m with enabled := stored.enabled, title := stored.title, params := stored.params }

/-- `destroy` keeps the row. -/
def MonitorRow.destroyed (m : MonitorRow) : MonitorRow := { m with deleted := true }

/-- `before_validation`, as it is serialized. -/
def emptyParams : String := "--- {}\\n"

variable {collate : Text → List Nat}

namespace Db

def alives (db : Db collate) (vif : VifRow) : List MonitorRow :=
  db.monitors.rows.filter fun m => m.networkVifId = vif.id ∧ m.deleted = false

/-- `M::NetworkVifMonitor[uuid]`, passed over where there is none. -/
def destroyAt (db : Db collate) (uuid : Text) : Db collate :=
  match db.findMonitor uuid with
  | .error _ => db
  | .ok m => db.modifyMonitor m.id MonitorRow.destroyed (fun _ => rfl) fun _ => rfl

def updateAt (columns : Columns) (inputs : List MonitorInput) (s : Db collate × List MonitorRow)
    (uuid : Text) : Option (Db collate × List MonitorRow) :=
  match inputs.find? fun i => i.uuid = some uuid with
  | none => some s
  | some input =>
    match s.1.findMonitor uuid with
    | .error _ => some s
    | .ok m =>
      (m.store columns input).map fun stored =>
        (s.1.modifyMonitor m.id stored.set (fun _ => rfl) fun _ => rfl, s.2 ++ [m.write input])

/-- What the request raises rolls it back: a title that is not given and that the database
does not make up, a text that it refuses, or a generated uuid that is taken. -/
def createMonitor (columns : Columns) (db : Db collate) (vif : VifRow) (noTitle : Option String) (uuid : Text)
    (i : MonitorInput) : Option (Db collate × MonitorRow) :=
  match i.givenTitle.elim noTitle columns.title, i.params.elim (some emptyParams) columns.params with
  | some title, some params =>
    let row : Nat → MonitorRow := fun id =>
      ⟨id, uuid, vif.id, (i.enabled.map (· == "true")).getD true, title, params, false⟩
    if h : collate uuid ∈ db.monitors.rows.map fun m => collate m.uuid then none
    else
      some ({ db with
        monitors := db.monitors.create row fun _ => rfl
        uuids := by
          show ((db.monitors.rows ++ [row db.monitors.next]).map fun m => collate m.uuid).Nodup
          rw [List.map_append]
          refine List.nodup_append.mpr ⟨db.uuids, List.nodup_singleton _, ?_⟩
          intro a ha b hb hab
          have hau : a = collate uuid := hab.trans (List.mem_singleton.mp hb)
          exact h (hau ▸ ha) },
        row db.monitors.next)
  | _, _ => none

def createAll (columns : Columns) (vif : VifRow) (noTitle : Option String) (generate : Nat → Text) :
    Nat → Db collate → List MonitorInput → Option (Db collate × List MonitorRow)
  | _, db, [] => some (db, [])
  | k, db, i :: is => do
    let (db, m) ← createMonitor columns db vif noTitle (generate k) i
    let (db, ms) ← createAll columns vif noTitle generate (k + 1) db is
    return (db, m :: ms)

/-- `monitors` is the hash of the request without its keys. -/
def bulkUpdate (columns : Columns) (db : Db collate) (vif : VifRow) (noTitle : Option String)
    (generate : Nat → Text) (monitors : List MonitorInput) : Option (BulkResult collate) := do
  let inputUuids := monitors.filterMap MonitorInput.uuid
  let newItems := monitors.filter fun m => m.uuid.isNone
  let storedUuids := (db.alives vif).map MonitorRow.canonicalUuid
  let deletes := storedUuids.filter (· ∉ inputUuids)
  let updates := storedUuids.filter (· ∉ deletes)
  let db := deletes.foldl destroyAt db
  let (db, modifiedItems) ← updates.foldlM (updateAt columns monitors) (db, [])
  let (db, createdItems) ← createAll columns vif noTitle generate 0 db newItems
  return {
    db := db
    events := deletes.map (fun uuid => ⟨.deleted, vif.canonicalUuid, some uuid⟩) ++
      updates.map (fun uuid => ⟨.updated, vif.canonicalUuid, some uuid⟩) ++
      (newItems.map MonitorInput.uuid).map fun uuid => ⟨.created, vif.canonicalUuid, uuid⟩
    deleted := deletes
    updated := modifiedItems
    created := createdItems }

end Db

/-! ## What the request is for -/

/-- The entry that names the monitor; the first of them, if there are more. -/
def inputOf (monitors : List MonitorInput) (m : MonitorRow) : Option MonitorInput :=
  monitors.find? fun i => i.uuid = some m.canonicalUuid

structure MonitorInput.Makes (vif : VifRow) (i : MonitorInput) (m : MonitorRow) : Prop where
  vif : m.networkVifId = vif.id
  enabled : m.enabled = (i.enabled.map (· == "true")).getD true
  title : ∀ title ∈ i.givenTitle, m.title = title
  params : m.params = i.params.getD emptyParams

/-- The alive monitors are those requested, and the events name what has changed. -/
structure Applies (db : Db collate) (vif : VifRow) (monitors : List MonitorInput) (res : BulkResult collate)
    (created : List MonitorRow) : Prop where
  makes : List.Forall₂ (MonitorInput.Makes vif) (monitors.filter fun i => i.uuid.isNone) created
  alives : res.db.alives vif =
    (db.alives vif).filterMap (fun m => (inputOf monitors m).map fun i => m.write i) ++ created
  events : res.events.Perm
    (((db.alives vif).filter fun m => (inputOf monitors m).isNone).map
        (fun m => ⟨.deleted, vif.canonicalUuid, some m.canonicalUuid⟩) ++
      ((db.alives vif).filter fun m => (inputOf monitors m).isSome).map
        (fun m => ⟨.updated, vif.canonicalUuid, some m.canonicalUuid⟩) ++
      created.map fun m => ⟨.created, vif.canonicalUuid, some m.canonicalUuid⟩)

/-- The column keeps the text as it is, if it is not there already. -/
def Keeps (column : String → Option String) (old : String) (given : Option String) : Prop :=
  ∀ text ∈ given, text = old ∨ column text = some text

def MonitorInput.Kept (columns : Columns) (m : MonitorRow) (i : MonitorInput) : Prop :=
  Keeps columns.title m.title i.givenTitle ∧ Keeps columns.params m.params i.params

/-! ## What becomes of the rows -/

section
variable {columns : Columns} {db : Db collate} {vif : VifRow} {monitors : List MonitorInput}

theorem canonicalUuid_inj {m m' : MonitorRow} (h : m.canonicalUuid = m'.canonicalUuid) :
    m.uuid = m'.uuid := List.append_cancel_left h

theorem Db.eq_of_canonicalUuid {m m' : MonitorRow} (hm : m ∈ db.monitors.rows)
    (hm' : m' ∈ db.monitors.rows) (h : m.canonicalUuid = m'.canonicalUuid) : m = m' :=
  List.inj_on_of_nodup_map db.uuids hm hm' (congrArg collate (canonicalUuid_inj h))

theorem Db.findMonitor_canonicalUuid {m : MonitorRow} (hm : m ∈ db.monitors.rows) :
    db.findMonitor m.canonicalUuid = .ok m := by
  unfold findMonitor MonitorRow.canonicalUuid
  rw [Taggable.trimUuid_canonicalUuid]
  dsimp only
  cases hf : db.monitors.first fun x => collate x.uuid == collate m.uuid with
  | none =>
    have hne := db.monitors.first_none hf m hm
    rw [beq_eq_false_iff_ne] at hne
    exact absurd rfl hne
  | some found =>
    obtain ⟨hmem, hu, -⟩ := db.monitors.first_spec hf
    rw [List.inj_on_of_nodup_map db.uuids hmem hm (beq_iff_eq.mp hu)]

theorem Db.rows_modifyMonitor {m : MonitorRow} (hm : m ∈ db.monitors.rows) {f g : MonitorRow → MonitorRow}
    (hid : ∀ m, (f m).id = m.id) (huuid : ∀ m, (f m).uuid = m.uuid) (hfg : f m = g m) :
    (db.modifyMonitor m.id f hid huuid).monitors.rows =
      db.monitors.rows.map fun x => if x.canonicalUuid = m.canonicalUuid then g x else x := by
  show db.monitors.rows.map (fun x => if x.id = m.id then f x else x) = _
  refine List.map_congr_left fun x hx => ?_
  by_cases hxm : x = m
  · rw [hxm, if_pos rfl, if_pos rfl, hfg]
  · have hpk : x.id ≠ m.id := fun h => hxm (db.monitors.eq_of_pk hx hm h)
    rw [if_neg hpk, if_neg fun h => hxm (Db.eq_of_canonicalUuid hx hm h)]

section
variable {σ : Type} (step : σ → Text → Option σ) (rows : σ → List MonitorRow) (f : MonitorRow → MonitorRow)
  (hf : ∀ m, (f m).canonicalUuid = m.canonicalUuid)
  (hstep : ∀ s s', ∀ m ∈ rows s, step s m.canonicalUuid = some s' →
    rows s' = (rows s).map fun x => if x.canonicalUuid = m.canonicalUuid then f x else x)
  {us : List Text} (hn : us.Nodup)
include hstep hn

theorem exists_foldlM {P : MonitorRow → Prop}
    (hsome : ∀ s, ∀ m ∈ rows s, P m → ∃ s', step s m.canonicalUuid = some s')
    {s : σ} (hus : ∀ u ∈ us, ∃ m ∈ rows s, P m ∧ m.canonicalUuid = u) : ∃ s', us.foldlM step s = some s' := by
  induction us generalizing s with
  | nil => exact ⟨s, rfl⟩
  | cons u us ih =>
    obtain ⟨hu, hus'⟩ := List.nodup_cons.mp hn
    obtain ⟨m, hm, hp, rfl⟩ := hus u List.mem_cons_self
    obtain ⟨s₁, h₁⟩ := hsome s m hm hp
    obtain ⟨s', h'⟩ := ih hus' fun v hv => by
      obtain ⟨x, hx, hpx, rfl⟩ := hus v (List.mem_cons_of_mem _ hv)
      refine ⟨x, ?_, hpx, rfl⟩
      have hne : x.canonicalUuid ≠ m.canonicalUuid := by
        intro he
        rw [he] at hv
        exact hu hv
      rw [hstep s s₁ m hm h₁]
      exact List.mem_map.mpr ⟨x, hx, if_neg hne⟩
    exact ⟨s', by rw [List.foldlM_cons, h₁]; exact h'⟩

include hf

/-- A round over uuids that are all different rewrites each of their rows once. -/
theorem rows_foldlM {s s' : σ} (hus : ∀ u ∈ us, u ∈ (rows s).map MonitorRow.canonicalUuid)
    (h : us.foldlM step s = some s') :
    rows s' = (rows s).map fun m => if m.canonicalUuid ∈ us then f m else m := by
  induction us generalizing s with
  | nil =>
    cases h
    simp
  | cons u us ih =>
    obtain ⟨hu, hus'⟩ := List.nodup_cons.mp hn
    obtain ⟨s₁, h₁, hrest⟩ := Option.bind_eq_some_iff.mp h
    obtain ⟨m, hm, rfl⟩ := List.mem_map.mp (hus u List.mem_cons_self)
    have hrows := hstep s s₁ m hm h₁
    have hkeep : (rows s₁).map MonitorRow.canonicalUuid = (rows s).map MonitorRow.canonicalUuid := by
      rw [hrows, List.map_map]
      refine List.map_congr_left fun x _ => ?_
      rw [Function.comp_apply]
      split
      · exact hf x
      · rfl
    rw [ih hus' (fun v hv => by rw [hkeep]; exact hus v (List.mem_cons_of_mem _ hv)) hrest, hrows, List.map_map]
    refine List.map_congr_left fun x _ => ?_
    rw [Function.comp_apply]
    by_cases hx : x.canonicalUuid = m.canonicalUuid
    · rw [if_pos hx, hf, hx, if_neg hu, if_pos List.mem_cons_self]
    · have hiff : x.canonicalUuid ∈ m.canonicalUuid :: us ↔ x.canonicalUuid ∈ us := by
        rw [List.mem_cons, or_iff_right hx]
      rw [if_neg hx]
      simp only [hiff]

end

theorem rows_destroyAt (db : Db collate) {m : MonitorRow} (hm : m ∈ db.monitors.rows) :
    (db.destroyAt m.canonicalUuid).monitors.rows =
      db.monitors.rows.map fun x => if x.canonicalUuid = m.canonicalUuid then x.destroyed else x := by
  unfold Db.destroyAt
  rw [Db.findMonitor_canonicalUuid hm]
  exact Db.rows_modifyMonitor hm _ _ rfl

variable (columns) in
def applyInput (monitors : List MonitorInput) (m : MonitorRow) : MonitorRow :=
  ((inputOf monitors m).bind fun i => m.store columns i).getD m

theorem set_store {i : MonitorInput} {m stored : MonitorRow} (h : m.store columns i = some stored) :
    stored.set m = stored := by
  unfold MonitorRow.store at h
  obtain ⟨title, -, h⟩ := Option.bind_eq_some_iff.mp h
  obtain ⟨params, -, h⟩ := Option.bind_eq_some_iff.mp h
  cases h
  rfl

theorem saveColumn_of_keeps {column : String → Option String} {old : String} {given : Option String}
    (h : Keeps column old given) : saveColumn column old given = some (given.getD old) := by
  unfold saveColumn
  cases given with
  | none => rfl
  | some text =>
    dsimp only
    split
    · rename_i he
      exact congrArg some he.symm
    · rename_i hne
      exact (h text rfl).resolve_left hne

theorem keeps_of_saveColumn {column : String → Option String} {old : String} {given : Option String}
    (h : saveColumn column old given = some (given.getD old)) : Keeps column old given := by
  rintro text ht
  rw [Option.mem_def.mp ht] at h
  unfold saveColumn at h
  dsimp only at h
  split at h
  · rename_i he
    exact Or.inl he
  · exact Or.inr h

theorem store_of_kept {i : MonitorInput} {m : MonitorRow} (h : i.Kept columns m) :
    m.store columns i = some (m.write i) := by
  unfold MonitorRow.store
  rw [saveColumn_of_keeps h.1, saveColumn_of_keeps h.2]
  rfl

theorem canonicalUuid_applyInput (m : MonitorRow) :
    (applyInput columns monitors m).canonicalUuid = m.canonicalUuid := by
  unfold applyInput
  cases h : (inputOf monitors m).bind fun i => m.store columns i with
  | none => rfl
  | some stored =>
    obtain ⟨i, -, hs⟩ := Option.bind_eq_some_iff.mp h
    show stored.canonicalUuid = m.canonicalUuid
    rw [← set_store hs]
    rfl

theorem rows_updateAt {s s' : Db collate × List MonitorRow} {m : MonitorRow} (hm : m ∈ s.1.monitors.rows)
    (h : Db.updateAt columns monitors s m.canonicalUuid = some s') :
    s'.1.monitors.rows =
      s.1.monitors.rows.map fun x =>
        if x.canonicalUuid = m.canonicalUuid then applyInput columns monitors x else x := by
  unfold Db.updateAt at h
  rw [Db.findMonitor_canonicalUuid hm] at h
  split at h
  · rename_i hi
    cases h
    conv_lhs => rw [← List.map_id s.1.monitors.rows]
    refine List.map_congr_left fun x _ => ?_
    split
    · rename_i hx
      unfold applyInput inputOf
      rw [hx, hi]
      rfl
    · rfl
  · rename_i i hi
    obtain ⟨stored, hs, rfl⟩ := Option.map_eq_some_iff.mp h
    refine Db.rows_modifyMonitor (f := stored.set) hm (fun _ => rfl) (fun _ => rfl) ?_
    have happly : applyInput columns monitors m = stored := by
      unfold applyInput inputOf
      rw [hi, Option.bind_some, hs]
      rfl
    rw [happly]
    exact set_store hs

theorem Db.mem_alives {m : MonitorRow} :
    m ∈ db.alives vif ↔ m ∈ db.monitors.rows ∧ m.networkVifId = vif.id ∧ m.deleted = false := by
  unfold alives
  rw [List.mem_filter, decide_eq_true_eq]

theorem mem_map_canonicalUuid {p : MonitorRow → Bool} {m : MonitorRow} (hm : m ∈ db.monitors.rows) :
    m.canonicalUuid ∈ ((db.alives vif).filter p).map MonitorRow.canonicalUuid ↔
      m ∈ db.alives vif ∧ p m = true := by
  rw [List.mem_map]
  constructor
  · rintro ⟨m', hm', heq⟩
    rw [List.mem_filter] at hm'
    rw [← Db.eq_of_canonicalUuid (Db.mem_alives.mp hm'.1).1 hm heq]
    exact hm'
  · intro h
    exact ⟨m, List.mem_filter.mpr h, rfl⟩

theorem isSome_inputOf (m : MonitorRow) :
    (inputOf monitors m).isSome ↔ m.canonicalUuid ∈ monitors.filterMap MonitorInput.uuid := by
  unfold inputOf
  rw [List.find?_isSome, List.mem_filterMap]
  simp only [decide_eq_true_eq]

variable (db vif monitors)

def deletesOf : List Text :=
  ((db.alives vif).map MonitorRow.canonicalUuid).filter (· ∉ monitors.filterMap MonitorInput.uuid)

def updatesOf : List Text :=
  ((db.alives vif).map MonitorRow.canonicalUuid).filter (· ∉ deletesOf db vif monitors)

theorem deletesOf_eq : deletesOf db vif monitors =
    ((db.alives vif).filter fun m => (inputOf monitors m).isNone).map MonitorRow.canonicalUuid := by
  unfold deletesOf
  rw [List.filter_map]
  congr 1
  refine List.filter_congr fun m _ => ?_
  rw [Function.comp_apply, Bool.eq_iff_iff, decide_eq_true_eq, ← isSome_inputOf, Option.isNone_iff_eq_none,
    Bool.not_eq_true, Option.isSome_eq_false_iff, Option.isNone_iff_eq_none]

variable {db vif monitors}

theorem mem_deletesOf {m : MonitorRow} (hm : m ∈ db.monitors.rows) :
    m.canonicalUuid ∈ deletesOf db vif monitors ↔ m ∈ db.alives vif ∧ (inputOf monitors m).isNone := by
  rw [deletesOf_eq]
  exact mem_map_canonicalUuid hm

variable (db vif monitors)

theorem updatesOf_eq : updatesOf db vif monitors =
    ((db.alives vif).filter fun m => (inputOf monitors m).isSome).map MonitorRow.canonicalUuid := by
  unfold updatesOf
  rw [List.filter_map]
  congr 1
  refine List.filter_congr fun m hm => ?_
  rw [Function.comp_apply, Bool.eq_iff_iff, decide_eq_true_eq, mem_deletesOf (Db.mem_alives.mp hm).1,
    and_iff_right hm, Option.isNone_iff_eq_none, Option.isSome_iff_ne_none]

variable {db vif monitors}

theorem mem_updatesOf {m : MonitorRow} (hm : m ∈ db.monitors.rows) :
    m.canonicalUuid ∈ updatesOf db vif monitors ↔ m ∈ db.alives vif ∧ (inputOf monitors m).isSome := by
  rw [updatesOf_eq]
  exact mem_map_canonicalUuid hm

theorem nodup_storedUuids (db : Db collate) (vif : VifRow) :
    ((db.alives vif).map MonitorRow.canonicalUuid).Nodup := by
  have hrows : (db.monitors.rows.map MonitorRow.canonicalUuid).Nodup := by
    refine List.Nodup.of_map (fun u => collate (u.drop (Taggable.canonicalUuid monitorPrefix []).length)) ?_
    rw [List.map_map]
    convert db.uuids using 2
    funext m
    exact congrArg collate (List.drop_left' (by simp [Taggable.canonicalUuid]))
  exact hrows.sublist (List.filter_sublist.map _)

theorem mem_rows_of_stored {u : Text} (h : u ∈ (db.alives vif).map MonitorRow.canonicalUuid) :
    u ∈ db.monitors.rows.map MonitorRow.canonicalUuid :=
  List.map_subset _ (fun _ hm => (Db.mem_alives.mp hm).1) h

theorem rows_deletes (db : Db collate) (vif : VifRow) (monitors : List MonitorInput) :
    ((deletesOf db vif monitors).foldl Db.destroyAt db).monitors.rows =
      db.monitors.rows.map fun m => if m.canonicalUuid ∈ deletesOf db vif monitors then m.destroyed else m := by
  refine rows_foldlM (fun db u => some (Db.destroyAt db u)) (fun db => db.monitors.rows) MonitorRow.destroyed
    (fun _ => rfl) (fun db' _ m hm h => ?_) ((nodup_storedUuids db vif).filter _)
    (fun u hu => mem_rows_of_stored (List.mem_of_mem_filter hu)) List.foldlM_pure
  cases h
  exact rows_destroyAt db' hm

theorem rows_rounds {s : Db collate × List MonitorRow}
    (h : (updatesOf db vif monitors).foldlM (Db.updateAt columns monitors)
      ((deletesOf db vif monitors).foldl Db.destroyAt db, []) = some s) :
    s.1.monitors.rows =
      db.monitors.rows.map fun m =>
        if m.canonicalUuid ∈ deletesOf db vif monitors then m.destroyed
        else if m.canonicalUuid ∈ updatesOf db vif monitors then applyInput columns monitors m else m := by
  have hdelete := rows_deletes db vif monitors
  have hkeep : ((deletesOf db vif monitors).foldl Db.destroyAt db).monitors.rows.map MonitorRow.canonicalUuid =
      db.monitors.rows.map MonitorRow.canonicalUuid := by
    rw [hdelete, List.map_map]
    refine List.map_congr_left fun m _ => ?_
    rw [Function.comp_apply]
    split
    · rfl
    · rfl
  have hnodup : (updatesOf db vif monitors).Nodup := (nodup_storedUuids db vif).filter _
  rw [rows_foldlM (Db.updateAt columns monitors) (fun s => s.1.monitors.rows) (applyInput columns monitors)
    canonicalUuid_applyInput (fun _ _ _ hm => rows_updateAt hm) hnodup
    (fun u hu => by
      show u ∈ ((deletesOf db vif monitors).foldl Db.destroyAt db).monitors.rows.map MonitorRow.canonicalUuid
      rw [hkeep]
      exact mem_rows_of_stored (List.mem_of_mem_filter hu)) h]
  show List.map _ ((deletesOf db vif monitors).foldl Db.destroyAt db).monitors.rows = _
  rw [hdelete, List.map_map]
  refine List.map_congr_left fun m _ => ?_
  rw [Function.comp_apply]
  by_cases hd : m.canonicalUuid ∈ deletesOf db vif monitors
  · have hnot : m.destroyed.canonicalUuid ∉ updatesOf db vif monitors := by
      intro hu
      unfold updatesOf at hu
      rw [List.mem_filter, decide_eq_true_eq] at hu
      exact hu.2 hd
    rw [if_pos hd, if_pos hd, if_neg hnot]
  · rw [if_neg hd, if_neg hd]

theorem filter_map_eq {α : Type} {p : α → Bool} {g : α → α} {h : α → Option α} {l : List α}
    (hpos : ∀ a ∈ l, p a = true → ([g a].filter p) = (h a).toList)
    (hneg : ∀ a ∈ l, p a = false → p (g a) = false) :
    (l.map g).filter p = (l.filter p).filterMap h := by
  induction l with
  | nil => rfl
  | cons a l ih =>
    have ih := ih (fun b hb => hpos b (List.mem_cons_of_mem a hb)) fun b hb => hneg b (List.mem_cons_of_mem a hb)
    rw [List.map_cons, List.filter_cons, ih]
    cases ha : p a with
    | false => rw [hneg a List.mem_cons_self ha, List.filter_cons_of_neg (by simp [ha])]; rfl
    | true =>
      have hone := hpos a List.mem_cons_self ha
      rw [List.filter_cons_of_pos ha, List.filterMap_cons]
      cases hg : h a with
      | none =>
        rw [hg, List.filter_singleton] at hone
        cases hpg : p (g a) with
        | false => rfl
        | true => rw [hpg] at hone; cases hone
      | some b =>
        rw [hg, List.filter_singleton] at hone
        cases hpg : p (g a) with
        | false => rw [hpg] at hone; cases hone
        | true =>
          rw [hpg] at hone
          have hb : g a = b := by simpa using hone
          rw [hb]
          rfl

/-- The alive monitors after the two rounds: those with an entry, as it leaves them. -/
theorem alives_rounds {s : Db collate × List MonitorRow}
    (h : (updatesOf db vif monitors).foldlM (Db.updateAt columns monitors)
      ((deletesOf db vif monitors).foldl Db.destroyAt db, []) = some s) :
    s.1.alives vif =
      (db.alives vif).filterMap fun m => (inputOf monitors m).map fun _ => applyInput columns monitors m := by
  unfold Db.alives
  rw [rows_rounds h]
  refine filter_map_eq (fun m hm halive => ?_) fun m hm hdead => ?_
  · have hmem : m ∈ db.alives vif := Db.mem_alives.mpr ⟨hm, by simpa using halive⟩
    cases hi : inputOf monitors m with
    | none =>
      rw [if_pos ((mem_deletesOf hm).mpr ⟨hmem, by rw [hi]; rfl⟩)]
      simp [MonitorRow.destroyed]
    | some i =>
      rw [if_neg (fun h => by rw [mem_deletesOf hm, hi] at h; cases h.2),
        if_pos ((mem_updatesOf hm).mpr ⟨hmem, by rw [hi]; rfl⟩)]
      refine List.filter_cons_of_pos ?_
      unfold applyInput
      rw [hi, Option.bind_some]
      cases hs : m.store columns i with
      | none => exact halive
      | some stored =>
        show decide (stored.networkVifId = vif.id ∧ stored.deleted = false) = true
        rw [← set_store hs]
        exact halive
  · have hnot : m ∉ db.alives vif := fun h => by
      have := (Db.mem_alives.mp h).2
      simp [this] at hdead
    rw [if_neg fun h => hnot ((mem_deletesOf hm).mp h).1, if_neg fun h => hnot ((mem_updatesOf hm).mp h).1]
    exact hdead

/-- The updates are done when the columns keep the texts of their entries. -/
theorem exists_updates (hkept : ∀ m ∈ db.alives vif, ∀ i ∈ inputOf monitors m, i.Kept columns m) :
    ∃ s, (updatesOf db vif monitors).foldlM (Db.updateAt columns monitors)
      ((deletesOf db vif monitors).foldl Db.destroyAt db, []) = some s := by
  refine exists_foldlM (Db.updateAt columns monitors) (fun s => s.1.monitors.rows) (applyInput columns monitors)
    (fun _ _ _ hm => rows_updateAt hm) ((nodup_storedUuids db vif).filter _) (P := (· ∈ db.alives vif))
    (fun s m hm hp => ?_) fun u hu => ?_
  · unfold Db.updateAt
    rw [Db.findMonitor_canonicalUuid hm]
    split
    · exact ⟨s, rfl⟩
    · rename_i i hi
      have hs := store_of_kept (hkept m hp i hi)
      dsimp only
      rw [hs]
      exact ⟨_, rfl⟩
  · obtain ⟨hstored, hnot⟩ := List.mem_filter.mp hu
    obtain ⟨m, hm, rfl⟩ := List.mem_map.mp hstored
    refine ⟨m, ?_, hm, rfl⟩
    show m ∈ ((deletesOf db vif monitors).foldl Db.destroyAt db).monitors.rows
    rw [rows_deletes]
    exact List.mem_map.mpr ⟨m, (Db.mem_alives.mp hm).1, if_neg (of_decide_eq_true hnot)⟩

/-- The alive monitors are as their entries ask just when the columns kept the texts. -/
theorem kept_iff :
    (((db.alives vif).filterMap fun m =>
        (inputOf monitors m).map fun _ => applyInput columns monitors m) =
      (db.alives vif).filterMap fun m => (inputOf monitors m).map fun i => m.write i) ↔
    ∀ m ∈ db.alives vif, ∀ i ∈ inputOf monitors m, i.Kept columns m := by
  have hpoint : (∀ m ∈ db.alives vif, ((inputOf monitors m).map fun _ => applyInput columns monitors m) =
        (inputOf monitors m).map fun i => m.write i) ↔
      ∀ m ∈ db.alives vif, ∀ i ∈ inputOf monitors m, i.Kept columns m := by
    refine forall₂_congr fun m _ => ?_
    unfold applyInput
    cases inputOf monitors m with
    | none => simp
    | some i =>
      simp only [Option.map_some, Option.some.injEq, Option.bind_some, Option.mem_def, forall_eq']
      constructor
      · intro h
        cases hs : m.store columns i with
        | none =>
          -- nothing was written, and nothing was to be
          rw [hs] at h
          refine ⟨fun text ht => Or.inl ?_, fun text ht => Or.inl ?_⟩
          · have htitle := congrArg MonitorRow.title h
            rw [MonitorRow.write, Option.mem_def.mp ht] at htitle
            exact htitle.symm
          · have hparams := congrArg MonitorRow.params h
            rw [MonitorRow.write, Option.mem_def.mp ht] at hparams
            exact hparams.symm
        | some stored =>
          rw [hs] at h
          obtain rfl : stored = m.write i := h
          unfold MonitorRow.store at hs
          obtain ⟨title, htitle, hs⟩ := Option.bind_eq_some_iff.mp hs
          obtain ⟨params, hparams, hs⟩ := Option.bind_eq_some_iff.mp hs
          obtain ⟨-, -, -, -, rfl, rfl, -⟩ := MonitorRow.mk.inj (Option.some.inj hs)
          exact ⟨keeps_of_saveColumn htitle, keeps_of_saveColumn hparams⟩
      · intro h
        rw [store_of_kept h]
        rfl
  rw [← hpoint]
  constructor
  · intro h m hm
    have hmap : ∀ g : MonitorRow → MonitorInput → MonitorRow,
        ((db.alives vif).filterMap fun m => (inputOf monitors m).map (g m)) =
          ((db.alives vif).filter fun m => (inputOf monitors m).isSome).map
            fun m => ((inputOf monitors m).map (g m)).getD m := by
      intro g
      induction db.alives vif with
      | nil => rfl
      | cons x rows ih =>
        rw [List.filterMap_cons, List.filter_cons]
        cases hx : inputOf monitors x <;> simp [hx, ih]
    rw [hmap fun m _ => applyInput columns monitors m, hmap fun m i => m.write i] at h
    cases hi : inputOf monitors m with
    | none => rfl
    | some i =>
      have hm := List.map_inj_left.mp h m (List.mem_filter.mpr ⟨hm, by rw [hi]; rfl⟩)
      rw [hi] at hm
      exact congrArg some hm
  · intro h
    exact List.filterMap_congr h

end

/-! ## The whole request -/

section
variable (columns : Columns) (db : Db collate) (vif : VifRow) (noTitle : Option String) (generate : Nat → Text)
  (monitors : List MonitorInput)

theorem Db.bulkUpdate_eq : bulkUpdate columns db vif noTitle generate monitors =
      ((updatesOf db vif monitors).foldlM (updateAt columns monitors)
        ((deletesOf db vif monitors).foldl destroyAt db, [])).bind fun s =>
      (createAll columns vif noTitle generate 0 s.1 (monitors.filter fun m => m.uuid.isNone)).map fun made => {
        db := made.1
        events := (deletesOf db vif monitors).map (fun uuid => ⟨.deleted, vif.canonicalUuid, some uuid⟩) ++
          (updatesOf db vif monitors).map (fun uuid => ⟨.updated, vif.canonicalUuid, some uuid⟩) ++
          ((monitors.filter fun m => m.uuid.isNone).map MonitorInput.uuid).map
            fun uuid => ⟨.created, vif.canonicalUuid, uuid⟩
        deleted := deletesOf db vif monitors
        updated := s.2
        created := made.2 } := by
  unfold bulkUpdate updatesOf deletesOf
  refine Option.bind_congr fun s _ => ?_
  dsimp only
  cases createAll columns vif noTitle generate 0 s.1 _ with
  | none => rfl
  | some made => rfl

variable {columns db vif monitors}

theorem Applies.monitorId_isSome {res : BulkResult collate} {created : List MonitorRow}
    (h : Applies db vif monitors res created) {e : MonitorEvent} (he : e ∈ res.events) : e.monitorId.isSome := by
  have hmem := h.events.mem_iff.mp he
  rw [List.mem_append, List.mem_append, List.mem_map, List.mem_map, List.mem_map] at hmem
  rcases hmem with (⟨m, -, rfl⟩ | ⟨m, -, rfl⟩) | ⟨m, -, rfl⟩
  · rfl
  · rfl
  · rfl

variable (columns db vif monitors)

/-- The request does what it is for just when no entry is to be created, as the events of those
that are name no uuid, and the columns keep the texts of the others. -/
theorem applies_iff :
    (∃ res, Db.bulkUpdate columns db vif noTitle generate monitors = some res ∧
      ∃ created, Applies db vif monitors res created) ↔
    (∀ i ∈ monitors, i.uuid.isSome) ∧ ∀ m ∈ db.alives vif, ∀ i ∈ inputOf monitors m, i.Kept columns m := by
  have hfilter : (∀ i ∈ monitors, i.uuid.isSome) → monitors.filter (fun m => m.uuid.isNone) = [] := by
    refine fun hall => List.filter_eq_nil_iff.mpr fun i hi hnone => ?_
    have hsome := hall i hi
    rw [Option.isNone_iff_eq_none] at hnone
    rw [hnone] at hsome
    cases hsome
  rw [Db.bulkUpdate_eq]
  constructor
  · rintro ⟨res, hres, created, h⟩
    obtain ⟨s, hs, hres⟩ := Option.bind_eq_some_iff.mp hres
    obtain ⟨made, hmade, rfl⟩ := Option.map_eq_some_iff.mp hres
    have hall : ∀ i ∈ monitors, i.uuid.isSome := by
      intro i hi
      by_contra hnew
      have hnone : i.uuid = none := by simpa using hnew
      have hevent : (⟨.created, vif.canonicalUuid, none⟩ : MonitorEvent) ∈
          (deletesOf db vif monitors).map (fun uuid => (⟨.deleted, vif.canonicalUuid, some uuid⟩ : MonitorEvent)) ++
            (updatesOf db vif monitors).map (fun uuid => ⟨.updated, vif.canonicalUuid, some uuid⟩) ++
            ((monitors.filter fun m => m.uuid.isNone).map MonitorInput.uuid).map
              fun uuid => ⟨.created, vif.canonicalUuid, uuid⟩ := by
        refine List.mem_append_right _ (List.mem_map.mpr ⟨none, List.mem_map.mpr ⟨i, ?_, hnone⟩, rfl⟩)
        exact List.mem_filter.mpr ⟨hi, by rw [hnone]; rfl⟩
      cases h.monitorId_isSome hevent
    refine ⟨hall, kept_iff.mp ?_⟩
    rw [hfilter hall] at hmade
    cases hmade
    have hmakes := h.makes
    rw [hfilter hall] at hmakes
    cases hmakes
    rw [← alives_rounds hs]
    exact h.alives.trans (List.append_nil _)
  · rintro ⟨hall, hkept⟩
    obtain ⟨s, hs⟩ := exists_updates hkept
    rw [hs, Option.bind_some, hfilter hall]
    refine ⟨_, rfl, [], ?_, ?_, ?_⟩
    · rw [hfilter hall]
      exact .nil
    · rw [List.append_nil, ← kept_iff.mpr hkept]
      exact alives_rounds hs
    · dsimp only
      rw [deletesOf_eq, updatesOf_eq, List.map_map, List.map_map, List.map_nil, List.map_nil]
      exact List.Perm.refl _

end

/-- One interface without monitors, and the request for one. -/
def oneInterface : Db caseless where
  vifs := Table.empty.create (fun id => ⟨id, "a".toList, "a-one".toList⟩) fun _ => rfl
  monitors := Table.empty
  uuids := List.nodup_nil

theorem not_applies_new : ¬ ∃ res, Db.bulkUpdate ⟨some, some⟩ oneInterface ⟨1, "a".toList, "a-one".toList⟩ none
      (fun _ => "m".toList) [⟨none, some "true", some "ping", none⟩] = some res ∧
    ∃ created, Applies oneInterface ⟨1, "a".toList, "a-one".toList⟩
      [⟨none, some "true", some "ping", none⟩] res created := by
  rintro ⟨res, hres, created, h⟩
  have hevents : res.events = [⟨.created, "vif-a".toList, none⟩] := by
    cases hres
    rfl
  have hevent : (⟨.created, "vif-a".toList, none⟩ : MonitorEvent) ∈ res.events := by
    rw [hevents]
    exact List.mem_cons_self
  cases h.monitorId_isSome hevent

end Monitor

end WakameVdc
