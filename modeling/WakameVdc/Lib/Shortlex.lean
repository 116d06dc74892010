import Mathlib.Data.List.Shortlex
import Mathlib.Order.Cover
import Mathlib.Order.Hom.Basic
import Mathlib.Order.Fin.Basic
import Mathlib.Tactic.Common
import Mathlib.Tactic.Ring

/-!
# Counting in words

The words over a finite alphabet in shortlex order are counted like numbers: the successor of a
word carries at the last letter and grows by a letter when all of them carry. The place of a word
in the order is its value as a numeral without zero.
-/

namespace Lib

namespace Shortlex

open List

variable {α : Type*} [LinearOrder α] {n : Nat} (e : α ≃o Fin (n + 1))

/-! ## The successor -/

def carry : List α → List α
  | [] => [e.symm 0]
  | a :: w => if e a = Fin.last n then e.symm 0 :: carry w else e.symm (e a + 1) :: w

def succ (w : List α) : List α := (carry e w.reverse).reverse

theorem succ_ne_nil (w : List α) : succ e w ≠ [] := by
  unfold succ
  cases w.reverse with
  | nil => simp [carry]
  | cons a w =>
    by_cases h : e a = Fin.last n
    · simp [carry, h]
    · simp [carry, h]

/-! ## The value -/

def valueFrom (k : Nat) (w : List α) : Nat := w.foldl (fun k a => k * (n + 1) + (e a + 1)) k

def value (w : List α) : Nat := valueFrom e 0 w

@[simp] theorem valueFrom_nil (k : Nat) : valueFrom e k [] = k := rfl

theorem valueFrom_cons (k : Nat) (a : α) (w : List α) :
    valueFrom e k (a :: w) = valueFrom e (k * (n + 1) + (e a + 1)) w := rfl

theorem value_append (v w : List α) : value e (v ++ w) = valueFrom e (value e v) w :=
  List.foldl_append

theorem value_concat (w : List α) (a : α) :
    value e (w ++ [a]) = value e w * (n + 1) + (e a + 1) := value_append e w [a]

theorem value_carry (w : List α) :
    value e (carry e w).reverse = value e w.reverse + 1 := by
  induction w with
  | nil => simp [carry, value, valueFrom]
  | cons a w ih =>
    by_cases h : e a = Fin.last n
    · simp only [carry, h, if_true, List.reverse_cons, value_concat, ih]
      simp
      ring
    · have hlt : (e a : Nat) < n := by
        have hne := Fin.val_ne_of_ne h
        have hle := (e a).isLt
        simp only [Fin.val_last] at hne
        omega
      have hsucc : ((e a + 1 : Fin (n + 1)) : Nat) = e a + 1 := Fin.val_add_one_of_lt' (by omega)
      simp only [carry, h, if_false, List.reverse_cons, value_concat, OrderIso.apply_symm_apply, hsucc]
      omega

theorem value_succ (w : List α) : value e (succ e w) = value e w + 1 := by
  unfold succ
  rw [value_carry, List.reverse_reverse]

/-! ## The order -/

theorem valueFrom_lt {j k : Nat} (h : j < k) {v w : List α} (hlen : v.length = w.length) :
    valueFrom e j v < valueFrom e k w := by
  induction v generalizing j k w with
  | nil =>
    have hw : w = [] := List.length_eq_zero_iff.mp hlen.symm
    simpa [hw] using h
  | cons a v ih =>
    cases w with
    | nil => simp at hlen
    | cons b w =>
      rw [valueFrom_cons, valueFrom_cons]
      refine ih ?_ (by simpa using hlen)
      have ha := (e a).isLt
      have hmul : (j + 1) * (n + 1) ≤ k * (n + 1) := Nat.mul_le_mul_right _ h
      have hexp : (j + 1) * (n + 1) = j * (n + 1) + (n + 1) := by ring
      omega

theorem valueFrom_lex {k : Nat} {v w : List α} (hlen : v.length = w.length)
    (h : List.Lex (· < ·) v w) : valueFrom e k v < valueFrom e k w := by
  induction h generalizing k with
  | nil => simp at hlen
  | cons _ ih => exact ih (by simpa using hlen)
  | rel hab =>
    rw [valueFrom_cons, valueFrom_cons]
    refine valueFrom_lt e ?_ (by simpa using hlen)
    have hlt : (e _ : Nat) < e _ := e.lt_iff_lt.mpr hab
    omega

theorem value_pos {w : List α} (h : w ≠ []) : 0 < value e w := by
  rw [← List.dropLast_append_getLast h, value_concat]
  omega

theorem value_lt_of_shortlex {v w : List α} (h : Shortlex (· < ·) v w) : value e v < value e w := by
  rcases shortlex_def.mp h with hlen | ⟨hlen, hlex⟩
  · -- the shorter word stands against the end of the longer one
    have hsplit := List.take_append_drop (w.length - v.length) w
    rw [← hsplit, value_append]
    refine valueFrom_lt e (value_pos e ?_) ?_
    · rw [← List.length_pos_iff, List.length_take]
      omega
    · rw [List.length_drop]
      omega
  · exact valueFrom_lex e hlen hlex

theorem value_lt_iff {v w : List α} : value e v < value e w ↔ Shortlex (· < ·) v w := by
  constructor
  · intro h
    rcases trichotomous_of (Shortlex (· < ·)) v w with hlt | heq | hgt
    · exact hlt
    · rw [heq] at h
      exact absurd h (lt_irrefl _)
    · exact absurd (value_lt_of_shortlex e hgt) (by omega)
  · exact value_lt_of_shortlex e

theorem value_injective : Function.Injective (value e) := by
  intro v w h
  rcases trichotomous_of (Shortlex (· < ·)) v w with hlt | heq | hgt
  · have := value_lt_of_shortlex e hlt
    omega
  · exact heq
  · have := value_lt_of_shortlex e hgt
    omega

end Shortlex

end Lib
