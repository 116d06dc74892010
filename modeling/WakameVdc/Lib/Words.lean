import Mathlib.Data.List.DropRight
import Mathlib.Tactic.Common

/-!
# The words of a text

A list is split at the elements that are separators, and the empty words at its
end are dropped. The first two words and the last one are found without
splitting.
-/

namespace Lib

namespace Words

section
variable {α : Type*} (p : α → Bool)

def words (l : List α) : List (List α) := (l.splitOnP p).rdropWhile List.isEmpty

def first (l : List α) : List α := l.takeWhile fun c => !p c

def second (l : List α) : List α := first p (l.dropWhile fun c => !p c).tail

def last (l : List α) : List α := (l.rdropWhile p).rtakeWhile fun c => !p c

variable {p}

theorem getD_rdropWhile_isEmpty (l : List (List α)) (i : Nat) :
    (l.rdropWhile List.isEmpty)[i]?.getD [] = l[i]?.getD [] := by
  induction l using List.reverseRecOn with
  | nil => rfl
  | append_singleton l x ih =>
    by_cases hx : x.isEmpty = true
    · rw [List.rdropWhile_concat_pos _ _ _ hx, ih]
      have hx : x = [] := by simpa using hx
      rcases Nat.lt_or_ge i l.length with h | h
      · rw [List.getElem?_append_left h]
      · rw [List.getElem?_append_right h, List.getElem?_eq_none h, hx]
        cases i - l.length with
        | zero => rfl
        | succ k => rfl
    · rw [List.rdropWhile_concat_neg _ _ _ hx]

theorem getD_splitOnP_zero (l : List α) : (l.splitOnP p)[0]?.getD [] = first p l := by
  induction l with
  | nil => simp [first]
  | cons c l ih =>
    rw [List.splitOnP_cons_eq_if_modifyHead]
    by_cases hc : p c = true
    · simp [first, hc]
    · obtain ⟨w, ws, hw⟩ := List.exists_cons_of_ne_nil (List.splitOnP_ne_nil p l)
      rw [hw] at ih ⊢
      simp only [Bool.not_eq_true] at hc
      simp only [hc, List.modifyHead_cons, first, List.takeWhile_cons, Bool.not_false, if_true]
      exact congrArg (c :: ·) ih

theorem getD_splitOnP_one (l : List α) : (l.splitOnP p)[1]?.getD [] = second p l := by
  induction l with
  | nil => simp [second, first]
  | cons c l ih =>
    rw [List.splitOnP_cons_eq_if_modifyHead]
    by_cases hc : p c = true
    · have h0 := getD_splitOnP_zero (p := p) l
      simpa [second, hc] using h0
    · obtain ⟨w, ws, hw⟩ := List.exists_cons_of_ne_nil (List.splitOnP_ne_nil p l)
      rw [hw] at ih ⊢
      simp only [Bool.not_eq_true] at hc
      simpa [second, hc] using ih

theorem words_getD_zero (l : List α) : (words p l)[0]?.getD [] = first p l := by
  rw [words, getD_rdropWhile_isEmpty, getD_splitOnP_zero]

theorem words_getD_one (l : List α) : (words p l)[1]?.getD [] = second p l := by
  rw [words, getD_rdropWhile_isEmpty, getD_splitOnP_one]

theorem words_append_sep (l : List α) {c : α} (hc : p c = true) : words p (l ++ [c]) = words p l := by
  rw [words, words, List.splitOnP_append_cons _ _ hc, List.splitOnP_nil,
    List.rdropWhile_concat_pos _ _ _ rfl]

theorem words_rdropWhile (l : List α) : words p (l.rdropWhile p) = words p l := by
  induction l using List.reverseRecOn with
  | nil => rfl
  | append_singleton l c ih =>
    by_cases hc : p c = true
    · rw [List.rdropWhile_concat_pos _ _ _ hc, ih, words_append_sep l hc]
    · rw [List.rdropWhile_concat_neg _ _ _ hc]

/-- A word at the end is the last one, whatever stands before it. -/
theorem getLast_words_append (l : List α) {w : List α} (hw : w ≠ []) (hp : ∀ c ∈ w, p c = false)
    (hl : ∀ h : l ≠ [], p (l.getLast h) = true) : (words p (l ++ w)).getLast? = some w := by
  have hne : ¬w.isEmpty = true := by simpa using hw
  cases l using List.reverseRecOn with
  | nil =>
    have hs : ([] ++ w : List α).splitOnP p = [] ++ [w] := List.splitOnP_eq_singleton hp
    rw [words, hs, List.rdropWhile_concat_neg _ _ _ hne]
    rfl
  | append_singleton l c =>
    have hc : p c = true := by simpa using hl (by simp)
    rw [words, List.append_assoc, List.singleton_append, List.splitOnP_append_cons _ _ hc,
      List.splitOnP_eq_singleton hp, List.rdropWhile_concat_neg _ _ _ hne, List.getLast?_concat]

theorem words_getLast (l : List α) : (words p l).getLast?.getD [] = last p l := by
  rw [← words_rdropWhile]
  unfold last
  have hend := List.rdropWhile_last_not p l
  generalize l.rdropWhile p = k at *
  cases k using List.reverseRecOn with
  | nil => rfl
  | append_singleton k c =>
    have hc : p c = false := by simpa using hend (by simp)
    have hsplit := List.rdropWhile_append_rtakeWhile (p := fun c => !p c) (l := k ++ [c])
    have hw : (k ++ [c]).rtakeWhile (fun c => !p c) ≠ [] := by
      rw [List.rtakeWhile_concat_pos _ _ _ (by simp [hc])]
      simp
    have hg := getLast_words_append ((k ++ [c]).rdropWhile fun c => !p c) hw
      (fun x hx => by simpa using List.mem_rtakeWhile_imp hx)
      (fun h => by simpa using List.rdropWhile_last_not _ _ h)
    rw [hsplit] at hg
    rw [hg]
    rfl

end

end Words

end Lib
