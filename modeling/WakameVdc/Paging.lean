import Mathlib.Order.WithBot
import WakameVdc.Lib.Pages
import WakameVdc.Lib.Proc
import WakameVdc.Lib.Text

/-!
# Lists of resources, page by page

`dataset_filter`, `paging_params_filter` and `collection_respond_with` of
`endpoints/12.03/core_api.rb`: a list is filtered and sorted by the columns its request
names, and cut to one page by the database.
-/

namespace WakameVdc

open Lib

namespace CoreApi

/-! ## The database -/

inductive Direction
  | asc
  | desc
  deriving DecidableEq

namespace Direction

def Key (V : Type) : Direction → Type
  | asc => V
  | desc => Vᵒᵈ

instance {V : Type} [LinearOrder V] : (d : Direction) → LinearOrder (d.Key V)
  | asc => inferInstanceAs (LinearOrder V)
  | desc => inferInstanceAs (LinearOrder Vᵒᵈ)

def key {R V : Type} (column : R → V) : (d : Direction) → R → d.Key V
  | asc => column
  | desc => fun r => OrderDual.toDual (column r)

end Direction

inductive NilTest
  | nil
  | notNil

def NilTest.holds {V : Type} [DecidableEq V] : NilTest → WithBot V → Bool
  | nil, v => v = ⊥
  | notNil, v => v ≠ ⊥

inductive Parameter
  | filter
  | start
  | limit
  | sortBy

inductive ApiError
  | invalidParameter (p : Parameter)
  | noMethodError
  | sequelError
  | databaseError

/-- What an endpoint lists: the rows, and the columns its query knows by their names. `NULL`
comes before every value. A join can list a row several times. `largest` is the largest
number that `LIMIT` and `OFFSET` take. -/
structure Dataset (R V : Type) where
  rows : List R
  column : Text → Option (R → WithBot V)
  id : R → WithBot V
  column_id : column "id".toList = some id
  id_inj : ∀ r ∈ rows, ∀ s ∈ rows, id r = id s → r = s
  largest : Nat
  length_le : rows.length ≤ largest

/-- How the database sorts the rows of one query. It is free in the order of those whose
values are equal. -/
structure Sorter (R V : Type) [LinearOrder V] where
  orderBy : (d : Direction) → (R → WithBot V) → List R → List R
  arranged : ∀ d column rows, Arranged (d.key column) rows (orderBy d column rows)

structure Query where
  conditions : List (Text × NilTest)
  order : Text × Direction
  limit : Nat
  offset : Nat

variable {R V : Type} [LinearOrder V]

def Dataset.select (ds : Dataset R V) (conditions : List (Text × NilTest)) :
    Except ApiError (List R) :=
  conditions.foldlM (fun rows condition =>
    match ds.column condition.1 with
    | none => .error .databaseError
    | some column => .ok (rows.filter fun r => condition.2.holds (column r))) ds.rows

def Query.all (db : Sorter R V) (ds : Dataset R V) (q : Query) : Except ApiError (List R) := do
  let rows ← ds.select q.conditions
  match ds.column q.order.1 with
  | none => .error .databaseError
  | some column =>
    if q.limit ≤ ds.largest ∧ q.offset ≤ ds.largest then
      .ok (((db.orderBy q.order.2 column rows).drop q.offset).take q.limit)
    else
      .error .databaseError

/-! ## The parameters -/

structure Params where
  filter : List Text
  start : Option Text
  limit : Option Text
  sortBy : Option Text

/-- `/^(\w+)(suffix)?$/`, where `^` and `$` stand at the ends of any line. -/
def wordWith {σ : Type} (suffixes : List (Text × σ)) (t : Text) : Option (Text × Option σ) :=
  (t.splitOn '\n').findSome? fun line =>
    let word := line.takeWhile Text.isWord
    if word = [] then none
    else match line.dropWhile Text.isWord with
      | [] => some (word, none)
      | rest => (suffixes.lookup rest).map fun s => (word, some s)

def nilTests : List (Text × NilTest) := [(".nil".toList, .nil), (".not_nil".toList, .notNil)]

def directions : List (Text × Direction) := [(".desc".toList, .desc), (".asc".toList, .asc)]

def datasetFilter (filters : List Text) : Except ApiError (List (Text × NilTest)) :=
  filters.foldlM (fun conditions filter =>
    match wordWith nilTests filter with
    | none => .error (.invalidParameter .filter)
    | some (_, none) => .ok conditions
    | some (column, some test) => .ok (conditions ++ [(column, test)])) []

/-- `/^\d+$/` at any line, and `to_i` of the whole. -/
def number (p : Parameter) : Option Text → Except ApiError Int
  | none => .ok 0
  | some t =>
    if (t.splitOn '\n').any fun line => !line.isEmpty && line.all Char.isDigit then .ok t.toI
    else .error (.invalidParameter p)

def limitOf (t : Option Text) : Except ApiError Nat := do
  let limit ← number .limit t
  .ok (if limit < 1 then 250 else limit.toNat)

/-- The `case` has no branch for a column without a suffix: `ds` is `nil` then, and has no
`limit`. -/
def orderOf : Option Text → Except ApiError (Text × Direction)
  | none => .ok ("id".toList, .desc)
  | some t =>
    match wordWith directions t with
    | none => .error (.invalidParameter .sortBy)
    | some (column, some direction) => .ok (column, direction)
    | some (_, none) => .error .noMethodError

def pagingParamsFilter (ds : Dataset R V) (params : Params) : Except ApiError (Query × Nat) := do
  let conditions ← datasetFilter params.filter
  let rows ← ds.select conditions
  let start ← number .start params.start
  let limit ← limitOf params.limit
  let order ← orderOf params.sortBy
  if start < 0 then .error .sequelError
  else .ok (⟨conditions, order, limit, start.toNat⟩, rows.length)

structure Response (R : Type) where
  total : Nat
  start : Nat
  limit : Nat
  results : List R

def collectionRespondWith (db : Sorter R V) (ds : Dataset R V) (params : Params) :
    Except ApiError (Response R) := do
  let (q, total) ← pagingParamsFilter ds params
  let results ← q.all db ds
  .ok ⟨total, q.offset, q.limit, results⟩

/-! ## What a list should be -/

/-- The request of the page that `p` pages come before. -/
def Params.page (params : Params) (limit p : Nat) : Params :=
  { params with start := some (Text.ofNat (p * limit)) }

/-- `rows` are the rows that match the request, `limit` is the size of its pages, and the
column it sorts by, with or without a direction, is one of the query. -/
structure Accepts (ds : Dataset R V) (params : Params) (rows : List R) (limit : Nat) : Prop where
  select : datasetFilter params.filter >>= ds.select = .ok rows
  limitOf : limitOf params.limit = .ok limit
  limit_le : limit ≤ ds.largest
  sortBy : ∀ t, params.sortBy = some t →
    ∃ name d column, wordWith directions t = some (name, d) ∧ ds.column name = some column

/-- Values as a direction asks for them. Without a direction they ascend. -/
def InOrder : Option Direction → WithBot V → WithBot V → Prop
  | none, a, b => a ≤ b
  | some .asc, a, b => a ≤ b
  | some .desc, a, b => b ≤ a

def Sorted (ds : Dataset R V) (params : Params) (results : List R) : Prop :=
  ∀ t name d column, params.sortBy = some t → wordWith directions t = some (name, d) →
    ds.column name = some column →
    results.Pairwise fun r s => InOrder d (column r) (column s)

/-- Every response is sorted, and the pages of an unchanged table hold every matching row
once, in whatever way the database sorts for each of them. -/
structure Lists (ds : Dataset R V) (params : Params) (rows : List R) (limit : Nat) : Prop where
  sorted : ∀ (db : Sorter R V) start response,
    collectionRespondWith db ds { params with start := start } = .ok response →
      Sorted ds params response.results
  once : ∀ db : Nat → Sorter R V, ∃ pages : Nat → Response R,
    (∀ p ≤ rows.length / limit,
      collectionRespondWith (db p) ds (params.page limit p) = .ok (pages p)) ∧
    ((List.range (rows.length / limit + 1)).flatMap fun p => (pages p).results).Perm rows

/-- A column to sort by comes with a direction, and no page ends between two different rows
of the same value. -/
def Separated (ds : Dataset R V) (params : Params) (rows : List R) (limit : Nat) : Prop :=
  ∀ t, params.sortBy = some t → ∃ name d column, wordWith directions t = some (name, some d) ∧
    ds.column name = some column ∧ ∀ q, ¬ Cut (d.key column) rows (q * limit)

/-! ## One request -/

section
variable {ds : Dataset R V} {params : Params} {rows : List R} {limit : Nat}

theorem orderOf_none (ht : params.sortBy = none) :
    orderOf params.sortBy = .ok ("id".toList, .desc) := by
  rw [ht]
  rfl

section
variable {t name : Text} (ht : params.sortBy = some t)
include ht

theorem orderOf_eq_ok {d : Direction} (hw : wordWith directions t = some (name, some d)) :
    orderOf params.sortBy = .ok (name, d) := by
  rw [ht]
  simp only [orderOf, hw]

theorem orderOf_eq_error (hw : wordWith directions t = some (name, none)) :
    orderOf params.sortBy = .error .noMethodError := by
  rw [ht]
  simp only [orderOf, hw]

end

theorem select_sublist {conditions : List (Text × NilTest)} (h : ds.select conditions = .ok rows) :
    rows.Sublist ds.rows := by
  refine foldlM_invariant (fun kept => kept.Sublist ds.rows) (fun kept condition kept' hsub hstep => ?_) h
    (List.Sublist.refl _)
  split at hstep
  · cases hstep
  · cases hstep
    exact List.filter_sublist.trans hsub

theorem number_ofNat (p : Parameter) (n : Nat) : number p (some (Text.ofNat n)) = .ok (n : Int) := by
  have hline : '\n' ∉ Text.ofNat n := Text.not_mem_ofNat (by decide) n
  have hdigits : (Text.ofNat n).all Char.isDigit = true :=
    List.all_eq_true.mpr fun c hc => Text.isDigit_of_mem_ofNat hc
  have hany : ((Text.ofNat n).splitOn '\n').any
      (fun line => !line.isEmpty && line.all Char.isDigit) = true := by
    rw [Text.splitOn_of_not_mem hline]
    simpa [hdigits] using Text.ofNat_ne_nil n
  simp only [number, hany, if_true, Text.toI_ofNat]

theorem one_le_limitOf {t : Option Text} (h : limitOf t = .ok limit) : 1 ≤ limit := by
  obtain ⟨n, _, h⟩ := bind_ok h
  cases h
  split
  · omega
  · omega

theorem collectionRespondWith_page (h : Accepts ds params rows limit) {name : Text}
    {d : Direction} {column : R → WithBot V} (ho : orderOf params.sortBy = .ok (name, d))
    (hc : ds.column name = some column) (db : Sorter R V) {p : Nat} (hp : p ≤ rows.length / limit) :
    collectionRespondWith db ds (params.page limit p) =
      .ok ⟨rows.length, p * limit, limit, page limit p (db.orderBy d column rows)⟩ := by
  obtain ⟨conditions, hcond, hsel⟩ := bind_ok h.select
  have hquery : pagingParamsFilter ds (params.page limit p) =
      .ok (⟨conditions, (name, d), limit, p * limit⟩, rows.length) := by
    simp only [pagingParamsFilter, Params.page, hcond, hsel, number_ofNat, h.limitOf, ho, bind,
      Except.bind]
    rw [if_neg (by omega), Int.toNat_natCast]
  have hoffset : p * limit ≤ ds.largest :=
    ((Nat.mul_le_mul_right limit hp).trans (Nat.div_mul_le_self _ _)).trans
      ((select_sublist hsel).length_le.trans ds.length_le)
  have hall : Query.all db ds ⟨conditions, (name, d), limit, p * limit⟩ =
      .ok (page limit p (db.orderBy d column rows)) := by
    simp only [Query.all, hsel, hc, bind, Except.bind]
    rw [if_pos ⟨h.limit_le, hoffset⟩]
    rfl
  simp only [collectionRespondWith, hquery, hall, bind, Except.bind]

theorem collectionRespondWith_ok {db : Sorter R V} {response : Response R}
    (h : collectionRespondWith db ds params = .ok response) :
    ∃ name d column, orderOf params.sortBy = .ok (name, d) ∧ ds.column name = some column ∧
      response.results.Pairwise fun r s => d.key column r ≤ d.key column s := by
  obtain ⟨⟨q, total⟩, hq, h⟩ := bind_ok h
  obtain ⟨results, hall, h⟩ := bind_ok h
  cases h
  obtain ⟨conditions, _, hq⟩ := bind_ok hq
  obtain ⟨rows, _, hq⟩ := bind_ok hq
  obtain ⟨start, _, hq⟩ := bind_ok hq
  obtain ⟨limit, _, hq⟩ := bind_ok hq
  obtain ⟨order, ho, hq⟩ := bind_ok hq
  split at hq
  · cases hq
  · cases hq
    obtain ⟨rows, _, hall⟩ := bind_ok hall
    split at hall
    · cases hall
    · rename_i column hc
      split at hall
      · cases hall
        refine ⟨order.1, order.2, column, ho, hc, ?_⟩
        exact ((db.arranged _ _ _).sorted.sublist (List.drop_sublist _ _)).sublist
          (List.take_sublist _ _)
      · cases hall

theorem sorted_of_respond {db : Sorter R V} {response : Response R}
    (h : collectionRespondWith db ds params = .ok response) :
    Sorted ds params response.results := by
  obtain ⟨name, d, column, ho, hc, hs⟩ := collectionRespondWith_ok h
  intro t name' d' column' ht hw hc'
  cases d' with
  | none =>
    rw [orderOf_eq_error ht hw] at ho
    cases ho
  | some d' =>
    rw [orderOf_eq_ok ht hw] at ho
    cases ho
    rw [hc] at hc'
    cases hc'
    cases d with
    | asc => exact hs
    | desc => exact hs

/-! ## All pages -/

theorem exists_sorter {d : Direction} {column : R → WithBot V} {l : List R}
    (h : Arranged (d.key column) rows l) :
    ∃ db : Sorter R V, db.orderBy d column rows = l := by
  classical
  refine ⟨⟨fun d' column' rows' => if d' = d ∧ column' = column ∧ rows' = rows then l
    else arrange (d'.key column') rows', fun d' column' rows' => ?_⟩, ?_⟩
  · split
    · rename_i heq
      obtain ⟨rfl, rfl, rfl⟩ := heq
      exact h
    · exact arranged_arrange rows'
  · exact if_pos ⟨rfl, rfl, rfl⟩

/-- The pages hold each row once exactly if the sorting leaves nothing open at their ends. -/
theorem once_iff (h : Accepts ds params rows limit) {name : Text} {d : Direction}
    {column : R → WithBot V} (ho : orderOf params.sortBy = .ok (name, d))
    (hc : ds.column name = some column) :
    (∀ db : Nat → Sorter R V, ∃ pages : Nat → Response R,
      (∀ p ≤ rows.length / limit,
        collectionRespondWith (db p) ds (params.page limit p) = .ok (pages p)) ∧
      ((List.range (rows.length / limit + 1)).flatMap fun p => (pages p).results).Perm rows) ↔
    ∀ q, ¬ Cut (d.key column) rows (q * limit) := by
  classical
  have hlength : rows.length ≤ (rows.length / limit + 1) * limit := by
    rw [Nat.mul_comm]
    exact (Nat.lt_mul_div_succ _ (one_le_limitOf h.limitOf)).le
  rw [← perm_flatMap_page_iff hlength]
  constructor
  · intro honce ls hls
    choose db hdb using fun p => exists_sorter (hls p)
    obtain ⟨pages, hpages, hperm⟩ := honce db
    have heq : ((List.range (rows.length / limit + 1)).flatMap fun p => page limit p (ls p)) =
        (List.range (rows.length / limit + 1)).flatMap fun p => (pages p).results := by
      refine List.flatMap_congr fun p hp => ?_
      have hp : p ≤ rows.length / limit := Nat.lt_succ_iff.mp (List.mem_range.mp hp)
      have hpage := hpages p hp
      rw [collectionRespondWith_page h ho hc (db p) hp, hdb] at hpage
      rw [← Except.ok.inj hpage]
    rw [heq]
    exact hperm
  · intro hperm db
    refine ⟨fun p => ⟨rows.length, p * limit, limit,
      page limit p ((db p).orderBy d column rows)⟩, fun p hp => ?_, ?_⟩
    · exact collectionRespondWith_page h ho hc (db p) hp
    · exact hperm _ fun p => (db p).arranged d column rows

theorem not_cut_id (h : Accepts ds params rows limit) (d : Direction) (m : Nat) :
    ¬ Cut (d.key ds.id) rows m := by
  rintro ⟨r, hr, s, hs, hne, hk, -⟩
  obtain ⟨conditions, _, hsel⟩ := bind_ok h.select
  have hsub := (select_sublist hsel).subset
  cases d with
  | asc => exact hne (ds.id_inj r (hsub hr) s (hsub hs) hk)
  | desc => exact hne (ds.id_inj r (hsub hr) s (hsub hs) (OrderDual.toDual_inj.mp hk))

/-- The list endpoints give sorted pages that hold each row once exactly if a column to
sort by comes with a direction and its equal values lie within one page. -/
theorem lists_iff (h : Accepts ds params rows limit) :
    Lists ds params rows limit ↔ Separated ds params rows limit := by
  constructor
  · intro hl t ht
    obtain ⟨name, d, column, hw, hc⟩ := h.sortBy t ht
    cases d with
    | none =>
      -- the request of the first page raises
      have harranged : Arranged (Direction.asc.key column) rows _ := arranged_arrange rows
      obtain ⟨db, _⟩ := exists_sorter harranged
      obtain ⟨pages, hpages, -⟩ := hl.once fun _ => db
      obtain ⟨_, _, _, ho, -⟩ := collectionRespondWith_ok (hpages 0 (Nat.zero_le _))
      cases ho.symm.trans (orderOf_eq_error ht hw)
    | some d =>
      exact ⟨name, d, column, hw, hc, (once_iff h (orderOf_eq_ok ht hw) hc).mp hl.once⟩
  · intro hs
    refine ⟨fun db start response => sorted_of_respond, ?_⟩
    cases ht : params.sortBy with
    | none =>
      exact (once_iff h (orderOf_none ht) ds.column_id).mpr fun q => not_cut_id h _ _
    | some t =>
      obtain ⟨name, d, column, hw, hc, hcut⟩ := hs t ht
      exact (once_iff h (orderOf_eq_ok ht hw) hc).mpr hcut

end

def storageNodes : Dataset (Nat × Nat) Nat where
  rows := [(1, 0), (2, 0)]
  column name :=
    if name = "id".toList then some fun r => WithBot.some r.1
    else if name = "state".toList then some fun r => WithBot.some r.2
    else none
  id r := WithBot.some r.1
  column_id := rfl
  id_inj := by decide
  largest := 18446744073709551615
  length_le := by decide

def byState (sortBy limit : String) : Params := ⟨[], none, some limit.toList, some sortBy.toList⟩

theorem accepts_byState {sortBy limit : String} {n : Nat} {d : Option Direction}
    (hn : limitOf (some limit.toList) = .ok n) (hle : n ≤ 250)
    (hw : wordWith directions sortBy.toList = some ("state".toList, d)) :
    Accepts storageNodes (byState sortBy limit) storageNodes.rows n where
  select := rfl
  limitOf := hn
  limit_le := hle.trans (by decide)
  sortBy t ht := by
    cases ht
    exact ⟨_, _, _, hw, rfl⟩

theorem lists_iff_state :
    Lists storageNodes (byState "state.asc" "2") storageNodes.rows 2 := by
  refine (lists_iff (accepts_byState rfl (by decide) rfl)).mpr ?_
  intro t ht
  cases ht
  refine ⟨_, _, _, rfl, rfl, fun q hq => ?_⟩
  obtain ⟨_, _, _, _, _, _, hlow, hhigh⟩ := hq
  have hlen : _ ≤ 2 := (Nat.succ_le_of_lt hhigh).trans List.countP_le_length
  omega

/-- The list by `state` without a direction raises, and the list by `state.asc` in pages of
one can show the same node twice. -/
theorem not_lists_state :
    (Accepts storageNodes (byState "state" "250") storageNodes.rows 250 ∧
      ¬ Lists storageNodes (byState "state" "250") storageNodes.rows 250) ∧
    (Accepts storageNodes (byState "state.asc" "1") storageNodes.rows 1 ∧
      ¬ Lists storageNodes (byState "state.asc" "1") storageNodes.rows 1) := by
  refine ⟨⟨accepts_byState rfl le_rfl rfl, fun hl => ?_⟩, ?_⟩
  · let db : Sorter (Nat × Nat) Nat := ⟨fun d column => arrange (d.key column),
      fun _ _ => arranged_arrange⟩
    obtain ⟨pages, hpages, -⟩ := hl.once fun _ => db
    cases hpages 0 (Nat.zero_le _)
  · have ha : Accepts storageNodes (byState "state.asc" "1") storageNodes.rows 1 :=
      accepts_byState rfl (by decide) rfl
    refine ⟨ha, fun hl => (once_iff ha (orderOf_eq_ok rfl rfl) rfl).mp hl.once 1 ?_⟩
    exact ⟨(1, 0), by decide, (2, 0), by decide, by decide, rfl, by decide, by decide⟩

end CoreApi

end WakameVdc
