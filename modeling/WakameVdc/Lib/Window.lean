import Mathlib.Data.List.DropRight
import Mathlib.Tactic.Common

/-!
# The last elements of a history

`l.rtake k` are the last `k` elements of `l`. A buffer that drops its oldest
element to make room holds the last elements of everything pushed.
-/

namespace Lib

section
variable {α : Type*}

theorem length_rtake (l : List α) (k : Nat) : (l.rtake k).length = min k l.length := by
  rw [List.rtake, List.length_drop]
  omega

theorem rtake_suffix (l : List α) (k : Nat) : l.rtake k <:+ l := List.drop_suffix _ _

theorem rtake_of_length_le {l : List α} {k : Nat} (h : l.length ≤ k) : l.rtake k = l := by
  rw [List.rtake, Nat.sub_eq_zero_of_le h, List.drop_zero]

theorem rtake_suffix_rtake (l : List α) {j k : Nat} (h : j ≤ k) : l.rtake j <:+ l.rtake k := by
  refine List.suffix_of_suffix_length_le (rtake_suffix l j) (rtake_suffix l k) ?_
  rw [length_rtake, length_rtake]
  omega

/-- Two lists that end alike have the same last elements, as far as the shorter
one reaches. -/
theorem rtake_of_suffix {s l : List α} (h : s <:+ l) {n : Nat} (hn : n ≤ s.length) :
    s.rtake n = l.rtake n := by
  obtain ⟨p, rfl⟩ := h
  rw [List.rtake, List.rtake, List.length_append]
  rw [show p.length + s.length - n = p.length + (s.length - n) by omega, List.drop_append]
  simp

/-- Dropping the oldest of `k + 1` elements before a push keeps the last ones. -/
theorem rtake_concat (l : List α) (x : α) {k : Nat} (hk : 0 < k) :
    (l ++ [x]).rtake k = (if (l.rtake k).length = k then (l.rtake k).drop 1 else l.rtake k) ++ [x] := by
  obtain ⟨j, rfl⟩ : ∃ j, k = j + 1 := ⟨k - 1, by omega⟩
  rw [List.rtake_concat_succ]
  congr 1
  split
  · rename_i h
    rw [length_rtake] at h
    rw [List.rtake, List.rtake, List.drop_drop]
    congr 1
    omega
  · rename_i h
    rw [length_rtake] at h
    rw [rtake_of_length_le (by omega), rtake_of_length_le (by omega)]

/-- What a window keeps of the elements with `p` ends the list of all of them. -/
theorem filter_rtake_suffix (p : α → Bool) (l : List α) (k : Nat) :
    (l.rtake k).filter p <:+ l.filter p := (rtake_suffix l k).filter p

end

end Lib
