import Mathlib

/-!
# Closed intervals that meet

Two closed intervals meet in an end of the one, or the one lies inside the
other. A list of intervals of which no two meet stays one when an interval that
meets none of them is added.
-/

namespace Lib

section
variable {α : Type*} [LinearOrder α]

theorem disjoint_Icc_iff {a b c d : α} :
    Disjoint (Set.Icc a b) (Set.Icc c d) ↔ ∀ x, c ≤ x → x ≤ d → ¬ (a ≤ x ∧ x ≤ b) := by
  rw [Set.disjoint_right]
  simp

/-- Where neither end of `[a, b]` lies in `[c, d]`, the two meet only if the
latter lies strictly inside the former. -/
theorem disjoint_Icc_of_ends {a b c d : α} (ha : ¬ (c ≤ a ∧ a ≤ d))
    (hb : ¬ (c ≤ b ∧ b ≤ d)) :
    Disjoint (Set.Icc c d) (Set.Icc a b) ↔ ¬ (a < c ∧ c ≤ d ∧ d < b) := by
  rw [disjoint_comm, disjoint_Icc_iff]
  constructor
  · intro h hin
    exact h c (le_refl c) hin.2.1 ⟨le_of_lt hin.1, le_trans hin.2.1 (le_of_lt hin.2.2)⟩
  · intro h x hcx hxd hx
    apply h
    refine ⟨?_, le_trans hcx hxd, ?_⟩
    · by_contra hac
      exact ha ⟨not_lt.mp hac, le_trans hx.1 hxd⟩
    · by_contra hdb
      exact hb ⟨le_trans hcx hx.2, not_lt.mp hdb⟩

end

theorem pairwise_concat {β : Type*} {R : β → β → Prop} {l : List β} {x : β} :
    (l ++ [x]).Pairwise R ↔ l.Pairwise R ∧ ∀ y ∈ l, R y x := by
  rw [List.pairwise_append]
  simp

end Lib
