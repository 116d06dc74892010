import Mathlib
import WakameVdc.Lib.Text

/-!
# Hexadecimal texts

Ruby's `to_s(16)` and `String#hex`, and texts of a fixed width. The text of a
number has as many digits as it needs, so only numbers that fill the width are
written the same with and without padding.
-/

namespace Lib

namespace Text

def hexDigit? (c : Char) : Option Nat :=
  if c.isDigit then some (c.toNat - '0'.toNat)
  else if 'a' ≤ c ∧ c ≤ 'f' then some (c.toNat - 'a'.toNat + 10)
  else if 'A' ≤ c ∧ c ≤ 'F' then some (c.toNat - 'A'.toNat + 10)
  else none

/-- `[0-9a-fA-F]` -/
def isHex (c : Char) : Bool := (hexDigit? c).isSome

/-- `[0-9a-f]` -/
def isLowerHex (c : Char) : Bool := c.isDigit || ('a' ≤ c && c ≤ 'f')

/-- The number a run of hex digits with single underscores in between continues. -/
def hexDigits : Nat → Text → Nat
  | n, '_' :: c :: t =>
    match hexDigit? c with
    | some d => hexDigits (16 * n + d) t
    | none => n
  | n, c :: t =>
    match hexDigit? c with
    | some d => hexDigits (16 * n + d) t
    | none => n
  | n, [] => n

def hexRun : Text → Nat
  | c :: t =>
    match hexDigit? c with
    | some d => hexDigits d t
    | none => 0
  | [] => 0

def hexUnsigned : Text → Nat
  | '0' :: 'x' :: t => hexRun t
  | '0' :: 'X' :: t => hexRun t
  | t => hexRun t

/-- `hex`: what does not read as a number counts as zero. -/
def hex (t : Text) : Int :=
  match t.dropWhile isSpace with
  | '-' :: t => -(hexUnsigned t : Int)
  | '+' :: t => hexUnsigned t
  | t => hexUnsigned t

/-- `to_s(16)` of a number that is not negative. -/
def toS16 (n : Nat) : Text := Nat.toDigits 16 n

/-- The last `k` digits of a number. -/
def hexPad : Nat → Nat → Text
  | 0, _ => []
  | k + 1, n => hexPad k (n / 16) ++ [Nat.digitChar (n % 16)]

/-! ## Digits -/

theorem hexDigit?_digitChar {d : Nat} (h : d < 16) : hexDigit? (Nat.digitChar d) = some d := by
  have hall : ∀ d < 16, hexDigit? (Nat.digitChar d) = some d := by decide
  exact hall d h

theorem isLowerHex_digitChar {d : Nat} (h : d < 16) : isLowerHex (Nat.digitChar d) = true := by
  have hall : ∀ d < 16, isLowerHex (Nat.digitChar d) = true := by decide
  exact hall d h

theorem mem_hexPad {k n : Nat} {c : Char} (h : c ∈ hexPad k n) : ∃ d < 16, c = Nat.digitChar d := by
  induction k generalizing n with
  | zero => cases h
  | succ k ih =>
    rcases List.mem_append.mp h with h | h
    · exact ih h
    · exact ⟨n % 16, Nat.mod_lt n (by decide), List.mem_singleton.mp h⟩

theorem length_hexPad (k n : Nat) : (hexPad k n).length = k := by
  induction k generalizing n with
  | zero => rfl
  | succ k ih => simp [hexPad, ih]

theorem toS16_eq_hexPad {k n : Nat} (hlo : 16 ^ k ≤ n) (hhi : n < 16 ^ (k + 1)) :
    toS16 n = hexPad (k + 1) n := by
  induction k generalizing n with
  | zero =>
    have hn : n < 16 := by simpa using hhi
    rw [toS16, Nat.toDigits_of_lt_base hn, hexPad, hexPad, Nat.mod_eq_of_lt hn]
    rfl
  | succ k ih =>
    have hbase : 16 ≤ n := by
      have := Nat.one_le_pow k 16 (by decide)
      rw [Nat.pow_succ] at hlo
      omega
    rw [toS16, Nat.toDigits_of_base_le (by decide) hbase, hexPad]
    have hdiv := ih (n := n / 16)
      (by rw [Nat.le_div_iff_mul_le (by decide), ← Nat.pow_succ]; exact hlo)
      (by rw [Nat.div_lt_iff_lt_mul (by decide), ← Nat.pow_succ]; exact hhi)
    rw [toS16] at hdiv
    rw [hdiv]

theorem length_toS16_le {n k : Nat} (hk : 0 < k) : (toS16 n).length ≤ k ↔ n < 16 ^ k :=
  Nat.length_toDigits_le_iff (by decide) hk

theorem length_toS16_eq {n k : Nat} (hk : 0 < k) :
    (toS16 n).length = k + 1 ↔ 16 ^ k ≤ n ∧ n < 16 ^ (k + 1) := by
  have hle := length_toS16_le (n := n) hk
  have hle' := length_toS16_le (n := n) (Nat.succ_pos k)
  omega

/-! ## Reading back -/

theorem hexDigits_snoc {n : Nat} {t : Text} (ht : ∀ c ∈ t, ∃ d < 16, c = Nat.digitChar d) {d : Nat}
    (hd : d < 16) : hexDigits n (t ++ [Nat.digitChar d]) = 16 * hexDigits n t + d := by
  induction t generalizing n with
  | nil =>
    have hne : Nat.digitChar d ≠ '_' := by
      have hall : ∀ d < 16, Nat.digitChar d ≠ '_' := by decide
      exact hall d hd
    rw [List.nil_append, hexDigits, hexDigit?_digitChar hd]
    · simp [hexDigits]
    · simp
  | cons c t ih =>
    obtain ⟨e, he, hc⟩ := ht c List.mem_cons_self
    have hne : c ≠ '_' := by
      have hall : ∀ d < 16, Nat.digitChar d ≠ '_' := by decide
      rw [hc]
      exact hall e he
    have hstep : ∀ u, hexDigits n (c :: u) = hexDigits (16 * n + e) u := by
      intro u
      rw [hexDigits, hc, hexDigit?_digitChar he]
      intro _ _ h
      exact absurd h hne
    rw [List.cons_append, hstep, hstep]
    exact ih fun x hx => ht x (List.mem_cons_of_mem _ hx)

theorem hexRun_snoc {t : Text} (ht : ∀ c ∈ t, ∃ d < 16, c = Nat.digitChar d) {d : Nat}
    (hd : d < 16) : hexRun (t ++ [Nat.digitChar d]) = 16 * hexRun t + d := by
  cases t with
  | nil => simp [hexRun, hexDigit?_digitChar hd, hexDigits]
  | cons c t =>
    obtain ⟨e, he, hc⟩ := ht c List.mem_cons_self
    simp only [List.cons_append, hexRun, hc, hexDigit?_digitChar he]
    exact hexDigits_snoc (fun x hx => ht x (List.mem_cons_of_mem _ hx)) hd

/-- A text of digits only is read from its first character on. -/
theorem hex_of_digits {t : Text} (ht : ∀ c ∈ t, ∃ d < 16, c = Nat.digitChar d) :
    hex t = hexRun t := by
  have hplain : ∀ d < 16, isSpace (Nat.digitChar d) = false ∧ Nat.digitChar d ≠ '-' ∧
      Nat.digitChar d ≠ '+' ∧ Nat.digitChar d ≠ 'x' ∧ Nat.digitChar d ≠ 'X' := by decide
  have hunsigned : hexUnsigned t = hexRun t := by
    unfold hexUnsigned
    split
    case h_1 u =>
      obtain ⟨e, he, hc⟩ := ht 'x' (by simp)
      exact absurd hc.symm (hplain e he).2.2.2.1
    case h_2 u =>
      obtain ⟨e, he, hc⟩ := ht 'X' (by simp)
      exact absurd hc.symm (hplain e he).2.2.2.2
    case h_3 => rfl
  have hdrop : t.dropWhile isSpace = t := by
    cases t with
    | nil => rfl
    | cons c t =>
      obtain ⟨e, he, hc⟩ := ht c List.mem_cons_self
      rw [List.dropWhile_cons, hc, (hplain e he).1]
      rfl
  unfold hex
  rw [hdrop, ← hunsigned]
  split
  case h_1 u =>
    obtain ⟨e, he, hc⟩ := ht '-' (by simp)
    exact absurd hc.symm (hplain e he).2.1
  case h_2 u =>
    obtain ⟨e, he, hc⟩ := ht '+' (by simp)
    exact absurd hc.symm (hplain e he).2.2.1
  case h_3 => rfl

theorem hexRun_hexPad (k n : Nat) : hexRun (hexPad k n) = n % 16 ^ k := by
  induction k generalizing n with
  | zero => simp [hexPad, hexRun, Nat.mod_one]
  | succ k ih =>
    rw [hexPad, hexRun_snoc (fun c hc => mem_hexPad hc) (Nat.mod_lt n (by decide)), ih,
      Nat.pow_succ, Nat.mul_comm (16 ^ k), Nat.mod_mul]
    omega

theorem hex_hexPad {k n : Nat} (h : n < 16 ^ k) : hex (hexPad k n) = n := by
  rw [hex_of_digits fun c hc => mem_hexPad hc, hexRun_hexPad, Nat.mod_eq_of_lt h]

theorem leftpad_snoc (k : Nat) (t : Text) (c : Char) :
    (t ++ [c]).leftpad (k + 1) '0' = t.leftpad k '0' ++ [c] := by
  simp [List.leftpad]

theorem hexPad_zero (k : Nat) : hexPad k 0 = List.replicate k '0' := by
  induction k with
  | zero => rfl
  | succ k ih =>
    rw [hexPad, Nat.zero_div, ih, List.replicate_succ']
    rfl

theorem leftpad_toS16 {k n : Nat} (h : n < 16 ^ (k + 1)) :
    (toS16 n).leftpad (k + 1) '0' = hexPad (k + 1) n := by
  induction k generalizing n with
  | zero =>
    have hn : n < 16 := by simpa using h
    simp [toS16, Nat.toDigits_of_lt_base hn, hexPad, List.leftpad, Nat.mod_eq_of_lt hn]
  | succ k ih =>
    rw [hexPad]
    by_cases hn : n < 16
    · rw [toS16, Nat.toDigits_of_lt_base hn, Nat.div_eq_of_lt hn, hexPad_zero,
        Nat.mod_eq_of_lt hn]
      simp [List.leftpad]
    · rw [toS16, Nat.toDigits_of_base_le (by decide) (Nat.le_of_not_lt hn), leftpad_snoc]
      congr 1
      apply ih
      rw [Nat.div_lt_iff_lt_mul (by decide), ← Nat.pow_succ]
      exact h

end Text

end Lib
