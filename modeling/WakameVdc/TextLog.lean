import WakameVdc.Lib.Pages
import WakameVdc.Lib.Text

/-!
# Reading a text log

`text_log.rb`, `models/log_storage/cassandra.rb` and `GET /text_logs`. The entries of an hour
are the columns of one row, under increasing ids. A client reads a first page by its time,
and each further one from the last id it has received.
-/

namespace WakameVdc

open Lib

namespace TextLog

/-- The columns of a row, in the order the storage keeps them in. -/
structure LogRow (ι : Type) [LinearOrder ι] where
  entries : List (ι × Text)
  sorted : entries.Pairwise fun a b => a.1 < b.1

section
variable {ι τ : Type} [LinearOrder ι]

def LogRow.empty : LogRow ι := ⟨[], .nil⟩

/-- `get` with `:start` and `:count` -/
def LogRow.get (row : LogRow ι) (start : ι) (count : Nat) : List (ι × Text) :=
  (row.entries.filter fun e => decide (start ≤ e.1)).take count

/-! ## The storage -/

/-- `LogStorage::Cassandra`: the rows of the column family by their keys, with the hour of a
time in UTC (`%Y%m%d%H`) and the least id of a time. An id stands for its guid. -/
structure Cassandra (ι τ : Type) [LinearOrder ι] where
  cf : Text → LogRow ι
  hour : τ → Text
  toTime : τ → ι

def pathSeparator : Text := ":".toList

namespace Cassandra

variable (storage : Cassandra ι τ)

def timedSlicePath (path : Text) (time : τ) : Text := path ++ pathSeparator ++ storage.hour time

def timeseriesSearch (path : Text) (time : τ) (limit : Nat) : List (ι × Text) :=
  (storage.cf (storage.timedSlicePath path time)).get (storage.toTime time) limit

def positionSearch (path : Text) (positionId : ι) (limit : Nat) (time : τ) : List (ι × Text) :=
  (storage.cf (storage.timedSlicePath path time)).get positionId limit

def path (accountId instanceId applicationId : Text) : Text :=
  accountId ++ pathSeparator ++ instanceId ++ pathSeparator ++ applicationId

end Cassandra

end

/-! ## The log -/

structure Log (ι τ : Type) [LinearOrder ι] where
  storage : Cassandra ι τ
  accountId : Text
  instanceId : Text
  applicationId : Text

section
variable {ι τ : Type} [LinearOrder ι]

namespace Log

variable (log : Log ι τ)

def path : Text := Cassandra.path log.accountId log.instanceId log.applicationId

def timeseriesSearch (time : τ) (limit : Nat) : List (ι × Text) :=
  log.storage.timeseriesSearch log.path time limit

/-- One entry more is asked for, since the first one is at the position itself. -/
def positionSearch (positionId : ι) (limit : Nat) (time : τ) : List (ι × Text) :=
  let limit := if 0 < limit then limit + 1 else limit
  let res := log.storage.positionSearch log.path positionId limit time
  if 1 < limit ∧ 1 < res.length then res.tail else res

/-- `GET /text_logs` of a start time, with or without an id. -/
def get (lastId : Option ι) (time : τ) (limit : Nat) : List (ι × Text) :=
  match lastId with
  | some id => log.positionSearch id limit time
  | none => log.timeseriesSearch time limit

/-! ## A client that reads page by page -/

def received (time : τ) (limit : Nat) : Nat → Option ι
  | 0 => none
  | n + 1 =>
    match (log.get (received time limit n) time limit).getLast? with
    | some e => some e.1
    | none => received time limit n

def nthPage (time : τ) (limit n : Nat) : List (ι × Text) := log.get (log.received time limit n) time limit

def row (time : τ) : LogRow ι := log.storage.cf (log.storage.timedSlicePath log.path time)

/-! ## What the pages are -/

section
variable {log} {time : τ} {limit : Nat}

theorem timeseriesSearch_eq (hstart : ∀ e ∈ (log.row time).entries, log.storage.toTime time ≤ e.1) :
    log.timeseriesSearch time limit = (log.row time).entries.take limit := by
  show ((log.row time).entries.filter _).take limit = _
  rw [List.filter_eq_self.mpr fun e he => decide_eq_true (hstart e he)]

/-- The entry at the position is dropped unless it comes alone. -/
theorem positionSearch_eq (hlimit : 1 ≤ limit) {m : Nat} (hm : m < (log.row time).entries.length) :
    log.positionSearch (log.row time).entries[m].1 limit time =
      if m + 1 < (log.row time).entries.length then ((log.row time).entries.drop (m + 1)).take limit
      else [(log.row time).entries[m]] := by
  have hres : log.storage.positionSearch log.path (log.row time).entries[m].1 (limit + 1) time =
      (log.row time).entries[m] :: ((log.row time).entries.drop (m + 1)).take limit := by
    show ((log.row time).entries.filter _).take (limit + 1) = _
    rw [filter_le_key (log.row time).sorted hm, List.drop_eq_getElem_cons hm, List.take_succ_cons]
  unfold positionSearch
  simp only [if_pos (show 0 < limit from hlimit), hres, List.length_cons, List.length_take,
    List.length_drop, List.tail_cons]
  by_cases hlast : m + 1 < (log.row time).entries.length
  · rw [if_pos hlast, if_pos (by omega)]
  · rw [if_neg hlast, if_neg (by omega), List.drop_eq_nil_of_le (by omega), List.take_nil]

/-- The page after the first `m` entries: those that come next, or the last one again. -/
theorem get_eq (hlimit : 1 ≤ limit)
    (hstart : ∀ e ∈ (log.row time).entries, log.storage.toTime time ≤ e.1) (m : Nat) :
    log.get (((log.row time).entries.take m).getLast?.map Prod.fst) time limit =
      if m < (log.row time).entries.length then ((log.row time).entries.drop m).take limit
      else (log.row time).entries.getLast?.toList := by
  generalize hl : (log.row time).entries = l
  by_cases hnone : l.take m = []
  · -- nothing is received yet
    rw [hnone]
    show log.timeseriesSearch time limit = _
    rw [timeseriesSearch_eq hstart, hl]
    rcases List.take_eq_nil_iff.mp hnone with rfl | rfl
    · split
      · rfl
      · rw [List.eq_nil_of_length_eq_zero (by omega : l.length = 0)]
        simp
    · simp
  · have hm : 0 < m := Nat.pos_of_ne_zero fun h => hnone (by rw [h, List.take_zero])
    have hlen : 0 < l.length := List.length_pos_iff.mpr fun h => hnone (by rw [h, List.take_nil])
    have hk : min m l.length - 1 < (log.row time).entries.length := by
      rw [hl]
      omega
    have hlast : (l.take m).getLast? = some ((log.row time).entries[min m l.length - 1]) := by
      simp only [hl]
      rw [List.getLast?_eq_getElem?, List.length_take, List.getElem?_take_of_lt (by omega),
        List.getElem?_eq_getElem]
    rw [hlast]
    show log.positionSearch _ limit time = _
    rw [positionSearch_eq hlimit hk]
    simp only [hl]
    by_cases hmore : m < l.length
    · rw [if_pos (by omega), if_pos hmore, show min m l.length - 1 + 1 = m by omega]
    · rw [if_neg (by omega), if_neg hmore, List.getLast?_eq_getElem?]
      simp only [show min m l.length - 1 = l.length - 1 by omega]
      rw [List.getElem?_eq_getElem (by omega)]
      rfl

theorem received_eq (hlimit : 1 ≤ limit)
    (hstart : ∀ e ∈ (log.row time).entries, log.storage.toTime time ≤ e.1) (n : Nat) :
    log.received time limit n = ((log.row time).entries.take (n * limit)).getLast?.map Prod.fst := by
  induction n with
  | zero => rw [Nat.zero_mul, List.take_zero]; rfl
  | succ n ih =>
    have hget := get_eq hlimit hstart (n * limit)
    rw [← ih] at hget
    unfold received
    rw [hget, Nat.succ_mul, List.take_add]
    by_cases hmore : n * limit < (log.row time).entries.length
    · have hne : ((log.row time).entries.drop (n * limit)).take limit ≠ [] := by
        intro h
        have hlen := congrArg List.length h
        rw [List.length_take, List.length_drop, List.length_nil] at hlen
        omega
      rw [if_pos hmore, List.getLast?_append_of_ne_nil _ hne]
      obtain ⟨e, he⟩ := Option.isSome_iff_exists.mp (List.getLast?_isSome.mpr hne)
      rw [he]
      rfl
    · rw [if_neg hmore, List.drop_eq_nil_of_le (by omega), List.take_nil, List.append_nil,
        List.take_of_length_le (by omega)]
      rw [ih, List.take_of_length_le (by omega)]
      cases (log.row time).entries.getLast? with
      | none => rfl
      | some e => rfl

theorem nthPage_eq (hlimit : 1 ≤ limit)
    (hstart : ∀ e ∈ (log.row time).entries, log.storage.toTime time ≤ e.1) (n : Nat) :
    log.nthPage time limit n =
      if n * limit < (log.row time).entries.length then page limit n (log.row time).entries
      else (log.row time).entries.getLast?.toList := by
  unfold nthPage
  rw [received_eq hlimit hstart]
  exact get_eq hlimit hstart (n * limit)

/-- Every entry comes once and in order, and then the last one comes alone, again and again. -/
theorem pages_row (log : Log ι τ) (time : τ) (limit : Nat) (hlimit : 1 ≤ limit)
    (hstart : ∀ e ∈ (log.row time).entries, log.storage.toTime time ≤ e.1) :
    ∃ n, (List.range n).flatMap (log.nthPage time limit) = (log.row time).entries ∧
      (∀ k < n, log.nthPage time limit k ≠ []) ∧
      ∀ k, n ≤ k → log.nthPage time limit k = (log.row time).entries.getLast?.toList := by
  -- the first page that begins at or behind the end
  have hex : ∃ n, (log.row time).entries.length ≤ n * limit := ⟨_, Nat.le_mul_of_pos_right _ hlimit⟩
  have hlt : ∀ k < Nat.find hex, k * limit < (log.row time).entries.length :=
    fun k hk => Nat.lt_of_not_le (Nat.find_min hex hk)
  have hge := Nat.find_spec hex
  refine ⟨Nat.find hex, ?_, fun k hk => ?_, fun k hk => ?_⟩
  · have hpages : (List.range (Nat.find hex)).flatMap (log.nthPage time limit) =
        (List.range (Nat.find hex)).flatMap (fun k => page limit k (log.row time).entries) := by
      refine List.flatMap_congr fun k hk => ?_
      rw [nthPage_eq hlimit hstart, if_pos (hlt k (List.mem_range.mp hk))]
    rw [hpages, flatMap_page, List.take_of_length_le hge]
  · have hlt := hlt k hk
    rw [nthPage_eq hlimit hstart, if_pos hlt]
    exact page_ne_nil hlimit hlt
  · have hle := Nat.mul_le_mul_right limit hk
    rw [nthPage_eq hlimit hstart, if_neg (by omega)]

def bootEntries : LogRow Nat where
  entries := [(10, "boot".toList), (12, "net up".toList), (15, "mount".toList), (16, "login".toList),
    (20, "halt".toList)]
  sorted := by decide

def booted : Log Nat Nat where
  storage := ⟨fun key =>
      if key = "a-00000000:none:syslog:2013010100".toList then bootEntries else .empty,
    fun _ => "2013010100".toList, fun time => time⟩
  accountId := "a-00000000".toList
  instanceId := "none".toList
  applicationId := "syslog".toList

theorem row_booted : (booted.row 10).entries = bootEntries.entries := by decide

/-- Three pages of at most two entries, and then the last entry alone. -/
theorem pages_booted :
    ∃ n, (List.range n).flatMap (booted.nthPage 10 2) = (booted.row 10).entries ∧
      (∀ k < n, booted.nthPage 10 2 k ≠ []) ∧
      ∀ k, n ≤ k → booted.nthPage 10 2 k = (booted.row 10).entries.getLast?.toList :=
  pages_row booted 10 2 (by decide) (by rw [row_booted]; decide)

example : (List.range 4).map (fun k => (booted.nthPage 10 2 k).map Prod.fst) =
    [[10, 12], [15, 16], [20], [20]] := by decide

def short : Log Nat Nat where
  storage := ⟨fun _ => ⟨[(7, "boot".toList)], List.pairwise_singleton _ _⟩, fun _ => "2013010100".toList,
    fun _ => 0⟩
  accountId := "a-00000000".toList
  instanceId := "none".toList
  applicationId := "syslog".toList

/-- Its entry comes again after the first page, and no page is ever empty. -/
theorem not_pages_short : ¬ ∃ n, (List.range n).flatMap (short.nthPage 0 1) = (short.row 0).entries ∧
    (∀ k < n, short.nthPage 0 1 k ≠ []) ∧ short.nthPage 0 1 n = [] := by
  rintro ⟨n, -, -, hn⟩
  rw [nthPage_eq (le_refl 1) (fun _ _ => Nat.zero_le _)] at hn
  split at hn
  · rename_i h
    exact page_ne_nil (le_refl 1) h hn
  · cases hn

end

end Log

end

end TextLog

end WakameVdc
