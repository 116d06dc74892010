import Mathlib.Data.List.Infix
import WakameVdc.Lib.Text

/-!
# Patterns of `LIKE`

`LIKE BINARY pattern ESCAPE '\'`: a percent sign stands for any text, an underscore for one
character, and a backslash takes the next character as it is. Whatever comes into a pattern
unescaped is read as one.
-/

namespace Lib

def like : Text → Text → Bool
  | [], s => s.isEmpty
  | '%' :: p, s => s.tails.any (like p)
  | '_' :: p, s =>
    match s with
    | [] => false
    | _ :: s => like p s
  | ['\\'], s => s == ['\\']
  | '\\' :: c :: p, s =>
    match s with
    | [] => false
    | x :: s => x == c && like p s
  | c :: p, s =>
    match s with
    | [] => false
    | x :: s => x == c && like p s

def isLiteral (c : Char) : Bool := c != '%' && (c != '_' && c != '\\')

theorem isLiteral_iff {c : Char} : isLiteral c = true ↔ c ≠ '%' ∧ c ≠ '_' ∧ c ≠ '\\' := by
  simp [isLiteral]

theorem like_any (s : Text) : like ['%'] s = true := by
  show s.tails.any (like []) = true
  rw [List.any_eq_true]
  exact ⟨[], (List.mem_tails _ _).mpr (List.nil_suffix), rfl⟩

theorem like_cons_nil {c : Char} (h : isLiteral c = true) (p : Text) : like (c :: p) [] = false := by
  obtain ⟨hp, hu, hb⟩ := isLiteral_iff.mp h
  unfold like
  split <;> simp_all

theorem like_cons_cons {c : Char} (h : isLiteral c = true) (p : Text) (x : Char) (s : Text) :
    like (c :: p) (x :: s) = (x == c && like p s) := by
  obtain ⟨hp, hu, hb⟩ := isLiteral_iff.mp h
  rw [like.eq_def]
  split <;> simp_all

theorem like_append {l p s : Text} (h : ∀ c ∈ l, isLiteral c = true) :
    like (l ++ p) s = true ↔ ∃ rest, s = l ++ rest ∧ like p rest = true := by
  induction l generalizing s with
  | nil => simp
  | cons c l ih =>
    have hc := h c List.mem_cons_self
    have hl : ∀ x ∈ l, isLiteral x = true := fun x hx => h x (List.mem_cons_of_mem c hx)
    cases s with
    | nil => simp [like_cons_nil hc]
    | cons x s =>
      rw [List.cons_append, like_cons_cons hc, Bool.and_eq_true, beq_iff_eq, ih hl]
      constructor
      · rintro ⟨rfl, rest, rfl, hp⟩
        exact ⟨rest, rfl, hp⟩
      · rintro ⟨rest, heq, hp⟩
        obtain ⟨rfl, rfl⟩ := List.cons.inj heq
        exact ⟨rfl, rest, rfl, hp⟩

theorem like_prefix_iff {l s : Text} (h : ∀ c ∈ l, isLiteral c = true) :
    like (l ++ ['%']) s = true ↔ l <+: s := by
  rw [like_append h]
  constructor
  · rintro ⟨rest, rfl, -⟩
    exact List.prefix_append l rest
  · rintro ⟨rest, rfl⟩
    exact ⟨rest, rfl, like_any rest⟩

/-- A text without a backslash fits itself, whatever signs it has. -/
theorem like_append_self {l p s : Text} (h : ∀ c ∈ l, c ≠ '\\') (hp : like p s = true) :
    like (l ++ p) (l ++ s) = true := by
  induction l with
  | nil => exact hp
  | cons c l ih =>
    have hrest := ih fun x hx => h x (List.mem_cons_of_mem c hx)
    have hc : c ≠ '\\' := h c List.mem_cons_self
    by_cases hany : c = '%'
    · rw [hany]
      show List.any _ _ = true
      rw [List.any_eq_true]
      exact ⟨l ++ s, (List.mem_tails _ _).mpr (List.suffix_cons _ _), hrest⟩
    · by_cases hone : c = '_'
      · rw [hone]
        exact hrest
      · rw [List.cons_append, List.cons_append, like_cons_cons (isLiteral_iff.mpr ⟨hany, hone, hc⟩), hrest]
        simp

end Lib
