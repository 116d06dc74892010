import WakameVdc.Lib.Arrange
import WakameVdc.Lib.Text

/-!
# The time series of a metric

`TimeSeries` and `MetricValue` of `metric_libs`. The values sit in a sorted set whose
`<=>` is that of the timestamps: the order of equal timestamps is the set's own.
-/

namespace WakameVdc

open Lib

namespace MetricLibs

/-! ## Times and values -/

/-- Times are the nanoseconds since the epoch. -/
def second : Int := 1000000000

def tvNsec (t : Int) : Int := t % second

/-- `Time#to_i` -/
def seconds (t : Int) : Int := t / second

/-- `Time.at(seconds)` -/
def timeAt (s : Int) : Int := s * second

/-- `Time.at(time, microseconds)` -/
def timeAtUsec (t usec : Int) : Int := t + usec * 1000

/-- What a field of a feed holds: a reading, a line of a log, or nothing of use. -/
inductive Value (N : Type)
  | nil
  | bool (b : Bool)
  | number (n : N)
  | string (t : Text)

def Value.truthy {N : Type} : Value N → Bool
  | .nil => false
  | .bool b => b
  | .number _ => true
  | .string _ => true

structure MetricValue (N : Type) where
  value : Value N
  timestamp : Int

/-- What the set of the series holds, in the order of arrival. Values are told apart by
what object they are, so equal ones stay as many as they came. -/
structure TimeSeries (N : Type) where
  stored : List (MetricValue N)

/-- How a sorted set enumerates what it holds: in the order of `<=>`. -/
structure SortedSet (N : Type) where
  toA : List (MetricValue N) → List (MetricValue N)
  arranged : ∀ stored, Arranged MetricValue.timestamp stored (toA stored)

variable {N : Type}

instance : Inhabited (SortedSet N) := ⟨⟨arrange MetricValue.timestamp, arranged_arrange⟩⟩

namespace TimeSeries

def new : TimeSeries N := ⟨[]⟩

def push (ts : TimeSeries N) (value : Value N) (time : Int) : TimeSeries N :=
  ⟨ts.stored ++ [⟨value, time⟩]⟩

section
variable (set : SortedSet N) (ts : TimeSeries N)

def each : List (MetricValue N) := set.toA ts.stored

/-- The block of `select`, which moves the end of the range itself. -/
def selectFrom (startTime : Int) : Int → List (MetricValue N) → List (MetricValue N)
  | _, [] => []
  | endTime, mv :: mvs =>
    let endTime := if tvNsec endTime = 0 then timeAtUsec endTime 999999 else endTime
    if startTime ≤ mv.timestamp ∧ mv.timestamp ≤ endTime ∧ mv.value.truthy then
      mv :: selectFrom startTime endTime mvs
    else
      selectFrom startTime endTime mvs

def find (startTime endTime : Int) : List (MetricValue N) :=
  selectFrom startTime endTime (ts.each set)

/-- `delete_if` runs over the sorted keys it has at hand, and `first` is read from them. -/
def deleteFirst : TimeSeries N :=
  match (ts.each set).head? with
  | none => ts
  | some first => ⟨ts.stored.filter fun mv => mv.timestamp ≠ first.timestamp⟩

end

end TimeSeries

/-! ## What the operations select and drop -/

/-- The last moment `find` takes for the end of the range. -/
def endOf (endTime : Int) : Int :=
  if tvNsec endTime = 0 then timeAtUsec endTime 999999 else endTime

/-- The range as it is meant: an end without a part of a second takes in its whole second. -/
def InRange (startTime endTime t : Int) : Prop :=
  startTime ≤ t ∧ if tvNsec endTime = 0 then t < endTime + second else t ≤ endTime

instance (startTime endTime t : Int) : Decidable (InRange startTime endTime t) :=
  inferInstanceAs (Decidable (_ ∧ _))

theorem endOf_of_eq_zero {e : Int} (h : tvNsec e = 0) : endOf e = e + 999999000 := if_pos h

theorem endOf_endOf (e : Int) : endOf (endOf e) = endOf e := by
  by_cases h : tvNsec e = 0
  · have h' : tvNsec (endOf e) ≠ 0 := by
      rw [endOf_of_eq_zero h]
      unfold tvNsec second at *
      omega
    exact if_neg h'
  · have he : endOf e = e := if_neg h
    rw [he, he]

namespace TimeSeries

theorem selectFrom_eq (s e : Int) (mvs : List (MetricValue N)) :
    selectFrom s e mvs =
      mvs.filter fun mv => s ≤ mv.timestamp ∧ mv.timestamp ≤ endOf e ∧ mv.value.truthy := by
  induction mvs generalizing e with
  | nil => rfl
  | cons mv mvs ih =>
    have hrec : selectFrom s (endOf e) mvs = mvs.filter fun mv =>
        s ≤ mv.timestamp ∧ mv.timestamp ≤ endOf e ∧ mv.value.truthy := by
      rw [ih, endOf_endOf]
    by_cases hmv : s ≤ mv.timestamp ∧ mv.timestamp ≤ endOf e ∧ mv.value.truthy
    · rw [List.filter_cons_of_pos (by simpa using hmv), ← hrec]
      exact if_pos hmv
    · rw [List.filter_cons_of_neg (by simpa using hmv), ← hrec]
      exact if_neg hmv

theorem find_eq (set : SortedSet N) (ts : TimeSeries N) (s e : Int) :
    ts.find set s e = (ts.each set).filter fun mv =>
      s ≤ mv.timestamp ∧ mv.timestamp ≤ endOf e ∧ mv.value.truthy := selectFrom_eq s e _

end TimeSeries

/-- A moment that a range reaching to its second takes in. -/
def Rounded (t : Int) : Prop := tvNsec t ≤ 999999000

instance : DecidablePred Rounded := fun t => inferInstanceAs (Decidable (tvNsec t ≤ 999999000))

theorem le_endOf_iff {t : Int} (h : Rounded t) (e : Int) :
    t ≤ endOf e ↔ if tvNsec e = 0 then t < e + second else t ≤ e := by
  unfold Rounded at h
  by_cases he : tvNsec e = 0
  · rw [endOf_of_eq_zero he, if_pos he]
    unfold tvNsec second at *
    omega
  · rw [if_neg he, show endOf e = e from if_neg he]

/-! ## What a series is for -/

variable (fed : List (MetricValue N))

namespace TimeSeries

def feed : TimeSeries N := fed.foldl (fun ts mv => ts.push mv.value mv.timestamp) new

theorem stored_foldl_push (ts : TimeSeries N) :
    (fed.foldl (fun ts mv => ts.push mv.value mv.timestamp) ts).stored = ts.stored ++ fed := by
  induction fed generalizing ts with
  | nil => rw [List.foldl_nil, List.append_nil]
  | cons mv fed ih =>
    rw [List.foldl_cons, ih]
    show (ts.stored ++ [mv]) ++ fed = ts.stored ++ mv :: fed
    rw [List.append_assoc, List.singleton_append]

@[simp] theorem stored_feed : (feed fed).stored = fed := stored_foldl_push fed new

end TimeSeries

/-- The series keeps what was fed in the order of the timestamps, those of equal
timestamps in the order of arrival, finds what lies in a range, and drops the oldest. -/
structure Keeps (set : SortedSet N) : Prop where
  kept : ((TimeSeries.feed fed).each set).Perm fed
  sorted : ((TimeSeries.feed fed).each set).Pairwise fun a b => a.timestamp ≤ b.timestamp
  ties : ∀ t, ((TimeSeries.feed fed).each set).filter (·.timestamp = t) = fed.filter (·.timestamp = t)
  found : ∀ s e, (TimeSeries.feed fed).find set s e =
    ((TimeSeries.feed fed).each set).filter fun mv => InRange s e mv.timestamp
  dropped : ((TimeSeries.feed fed).deleteFirst set).stored.Perm ((TimeSeries.feed fed).each set).tail

/-- Values that a timestamp and a value tell apart as far as it matters, that Ruby takes
for true and no range cuts off in their second, with one that is the oldest. -/
structure Plain : Prop where
  ties : ∀ a ∈ fed, ∀ b ∈ fed, a.timestamp = b.timestamp → a = b
  truthy : ∀ a ∈ fed, a.value.truthy
  rounded : ∀ a ∈ fed, Rounded a.timestamp
  oldest : ∀ t, (∀ a ∈ fed, t ≤ a.timestamp) → (fed.filter (·.timestamp = t)).length ≤ 1

variable {fed}

section
variable (set : SortedSet N)

theorem arranged_each (fed : List (MetricValue N)) :
    Arranged MetricValue.timestamp fed ((TimeSeries.feed fed).each set) := by
  unfold TimeSeries.each
  rw [TimeSeries.stored_feed]
  exact set.arranged fed

theorem mem_each {mv : MetricValue N} : mv ∈ (TimeSeries.feed fed).each set ↔ mv ∈ fed :=
  (arranged_each set fed).perm.mem_iff

theorem le_of_each {first : MetricValue N} {rest : List (MetricValue N)}
    (h : (TimeSeries.feed fed).each set = first :: rest) : ∀ a ∈ fed, first.timestamp ≤ a.timestamp := by
  intro a ha
  have hs := (arranged_each set fed).sorted
  rw [← mem_each set, h] at ha
  rw [h] at hs
  rcases List.mem_cons.mp ha with rfl | ha
  · exact le_rfl
  · exact (List.pairwise_cons.mp hs).1 a ha

theorem stored_deleteFirst {first : MetricValue N} {rest : List (MetricValue N)}
    (h : (TimeSeries.feed fed).each set = first :: rest) :
    ((TimeSeries.feed fed).deleteFirst set).stored =
      fed.filter fun mv => mv.timestamp ≠ first.timestamp := by
  unfold TimeSeries.deleteFirst
  rw [h]
  show List.filter _ (TimeSeries.feed fed).stored = _
  rw [TimeSeries.stored_feed]

end

/-- Every arrangement of one series is what some sorted set enumerates. -/
theorem exists_set {l : List (MetricValue N)} (h : Arranged MetricValue.timestamp fed l) :
    ∃ set : SortedSet N, (TimeSeries.feed fed).each set = l := by
  classical
  refine ⟨⟨fun s => if s = fed then l else arrange MetricValue.timestamp s, fun s => ?_⟩, ?_⟩
  · by_cases hs : s = fed
    · rw [if_pos hs, hs]
      exact h
    · rw [if_neg hs]
      exact arranged_arrange s
  · show ite _ _ _ = l
    rw [if_pos (TimeSeries.stored_feed fed)]

/-! ## A series with nothing open -/

section
variable (set : SortedSet N) (h : Plain fed)

include h

theorem Plain.found (s e : Int) : (TimeSeries.feed fed).find set s e =
    ((TimeSeries.feed fed).each set).filter fun mv => InRange s e mv.timestamp := by
  rw [TimeSeries.find_eq]
  refine List.filter_congr fun mv hmv => ?_
  have hfed := (mem_each set).mp hmv
  rw [decide_eq_decide, le_endOf_iff (h.rounded mv hfed)]
  unfold InRange
  rw [and_iff_left (h.truthy mv hfed)]

theorem Plain.dropped :
    ((TimeSeries.feed fed).deleteFirst set).stored.Perm ((TimeSeries.feed fed).each set).tail := by
  cases heach : (TimeSeries.feed fed).each set with
  | nil =>
    have hnil : fed = [] := by simpa [heach] using (arranged_each set fed).perm
    unfold TimeSeries.deleteFirst
    rw [heach, hnil]
    exact List.Perm.refl _
  | cons first rest =>
    have hp := (arranged_each set fed).perm
    rw [heach] at hp
    have hone := h.oldest first.timestamp (le_of_each set heach)
    rw [← (hp.filter _).length_eq, List.filter_cons_of_pos (by simp), List.length_cons] at hone
    have hrest : rest.filter (·.timestamp = first.timestamp) = [] :=
      List.eq_nil_of_length_eq_zero (by omega)
    rw [stored_deleteFirst set heach]
    refine (hp.symm.filter _).trans ?_
    rw [List.filter_cons_of_neg (by simp), List.tail_cons, List.filter_eq_self.mpr]
    intro a ha
    simpa using List.filter_eq_nil_iff.mp hrest a ha

theorem Plain.keeps : Keeps fed set where
  kept := (arranged_each set fed).perm
  sorted := (arranged_each set fed).sorted
  ties t := by
    cases hf : fed.filter (·.timestamp = t) with
    | nil =>
      have hl := ((arranged_each set fed).perm.filter (·.timestamp = t)).length_eq
      rw [hf] at hl
      exact List.eq_nil_of_length_eq_zero hl
    | cons x xs =>
      have hx : x ∈ fed.filter (·.timestamp = t) := by rw [hf]; exact List.mem_cons_self
      rw [List.mem_filter, decide_eq_true_eq] at hx
      rw [← hf]
      exact (arranged_each set fed).filter_eq fun a ha hat => h.ties a ha x hx.1 (hat.trans hx.2.symm)
  found := h.found set
  dropped := h.dropped set

end

/-! ## What each of the conditions is for -/

section
variable {set : SortedSet N} (h : Keeps fed set) {mv : MetricValue N}

include h

theorem Keeps.mem_find (hmv : mv ∈ fed) {s e : Int} (hr : InRange s e mv.timestamp) :
    s ≤ mv.timestamp ∧ mv.timestamp ≤ endOf e ∧ mv.value.truthy := by
  have hmem : mv ∈ (TimeSeries.feed fed).find set s e := by
    rw [h.found, List.mem_filter]
    exact ⟨(mem_each set).mpr hmv, decide_eq_true hr⟩
  rw [TimeSeries.find_eq, List.mem_filter, decide_eq_true_eq] at hmem
  exact hmem.2

theorem Keeps.truthy (hmv : mv ∈ fed) : mv.value.truthy := by
  refine (h.mem_find hmv (s := mv.timestamp) (e := mv.timestamp) ⟨le_rfl, ?_⟩).2.2
  split
  · unfold second
    omega
  · exact le_rfl

theorem Keeps.rounded (hmv : mv ∈ fed) : Rounded mv.timestamp := by
  -- the range that is the second of the value
  have hsec : tvNsec (mv.timestamp - tvNsec mv.timestamp) = 0 := by
    unfold tvNsec second
    omega
  have hr : InRange (mv.timestamp - tvNsec mv.timestamp) (mv.timestamp - tvNsec mv.timestamp)
      mv.timestamp := by
    unfold InRange
    rw [if_pos hsec]
    unfold tvNsec second
    omega
  have hle := (h.mem_find hmv hr).2.1
  rw [endOf_of_eq_zero hsec] at hle
  unfold Rounded
  omega

theorem Keeps.oldest (t : Int) (ht : ∀ a ∈ fed, t ≤ a.timestamp) :
    (fed.filter (·.timestamp = t)).length ≤ 1 := by
  cases heach : (TimeSeries.feed fed).each set with
  | nil =>
    have hnil : fed = [] := by simpa [heach] using (arranged_each set fed).perm
    simp [hnil]
  | cons first rest =>
    have hp := (arranged_each set fed).perm.length_eq
    have hd := h.dropped.length_eq
    rw [stored_deleteFirst set heach, heach, List.tail_cons] at hd
    rw [heach, List.length_cons] at hp
    have hsum := List.length_eq_length_filter_add (l := fed) (fun mv => mv.timestamp = first.timestamp)
    by_cases hfirst : first.timestamp = t
    · subst hfirst
      simp only [ne_eq, decide_not] at hd
      omega
    · have hmem : first ∈ fed := by rw [← mem_each set, heach]; exact List.mem_cons_self
      have hlt := ht first hmem
      have hno : fed.filter (·.timestamp = t) = [] := by
        refine List.filter_eq_nil_iff.mpr fun a ha => ?_
        have := le_of_each set heach a ha
        rw [decide_eq_true_eq]
        omega
      rw [hno]
      exact Nat.zero_le 1

end

theorem eq_of_keeps (h : ∀ set : SortedSet N, Keeps fed set) {a b : MetricValue N} (ha : a ∈ fed)
    (hb : b ∈ fed) (hab : a.timestamp = b.timestamp) : a = b := by
  classical
  have hfirst : ∀ x ∈ fed, (fed.filter (·.timestamp = x.timestamp)).head? = some x := by
    intro x hx
    obtain ⟨l, hl, hf⟩ := exists_arranged_first MetricValue.timestamp hx
    obtain ⟨set, hset⟩ := exists_set hl
    rw [← (h set).ties, hset, hf, List.head?_cons]
  have hx := hfirst a ha
  rw [hab, hfirst b hb] at hx
  exact (Option.some.inj hx).symm

/-- A series does what it is for, whatever order the set has for equal timestamps, just
for the plain ones. -/
theorem keeps_iff_plain (fed : List (MetricValue N)) : (∀ set : SortedSet N, Keeps fed set) ↔ Plain fed := by
  constructor
  · intro h
    exact {
      ties := fun a ha b hb => eq_of_keeps h ha hb
      truthy := fun a ha => (h default).truthy ha
      rounded := fun a ha => (h default).rounded ha
      oldest := (h default).oldest }
  · exact fun h set => h.keeps set

/-- Two lines of one second: the first `delete_first` drops both. -/
theorem not_keeps_two_lines : ¬ ∀ set : SortedSet Nat,
    Keeps [⟨.string "a".toList, 0⟩, ⟨.string "b".toList, 0⟩] set := by
  intro h
  have hone := (h default).oldest 0 (by simp)
  simp at hone

end MetricLibs

end WakameVdc
