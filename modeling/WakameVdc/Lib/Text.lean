import Mathlib.Data.List.DropRight
import Mathlib.Tactic.Common

/-!
# Ruby's string operations

Strings are lists of characters. The operations follow Ruby's: `strip`, `split`
with and without a limit, `to_i` of any text, and the decimal text of a number.
-/

namespace Lib

abbrev Text := List Char

instance : LawfulBEq Text := inferInstanceAs (LawfulBEq (List Char))

namespace Text

def isSpace (c : Char) : Bool :=
  c == ' ' || c == '\t' || c == '\n' || c == '\r' || c == '\x0b' || c == '\x0c'

/-- `\w` -/
def isWord (c : Char) : Bool := c.isAlphanum || c == '_'

def strip (t : Text) : Text := (t.dropWhile isSpace).rdropWhile fun c => isSpace c || c == '\x00'

def unlines (ls : List Text) : Text := ls.flatMap (· ++ ['\n'])

/-- `split(c)`: empty fields at the end are dropped. -/
def split (c : Char) (t : Text) : List Text := (t.splitOn c).rdropWhile List.isEmpty

/-- `split(c, 2)` -/
def split2 (c : Char) (t : Text) : List Text :=
  if t = [] then []
  else match t.dropWhile (· != c) with
    | [] => [t]
    | _ :: rest => [t.takeWhile (· != c), rest]

/-- `split(c, n + 1)` of a text that is not empty. -/
def splitMax (c : Char) : Nat → Text → List Text
  | 0, t => [t]
  | n + 1, t =>
    match t.dropWhile (· != c) with
    | [] => [t]
    | _ :: rest => t.takeWhile (· != c) :: splitMax c n rest

/-- The number a run of digits with single underscores in between continues. -/
def digits : Nat → Text → Nat
  | n, '_' :: c :: t => if c.isDigit then digits (10 * n + (c.toNat - '0'.toNat)) t else n
  | n, c :: t => if c.isDigit then digits (10 * n + (c.toNat - '0'.toNat)) t else n
  | n, [] => n

def unsigned : Text → Nat
  | c :: t => if c.isDigit then digits (c.toNat - '0'.toNat) t else 0
  | [] => 0

/-- `to_i`: what does not read as a number counts as zero. -/
def toI (t : Text) : Int :=
  match t.dropWhile isSpace with
  | '-' :: t => -(unsigned t : Int)
  | '+' :: t => unsigned t
  | t => unsigned t

def ofNat (n : Nat) : Text := Nat.toDigits 10 n

def ofInt : Int → Text
  | .ofNat n => ofNat n
  | .negSucc n => '-' :: ofNat (n + 1)

/-- A number written in digits only. -/
def nat? (t : Text) : Option Nat :=
  if t ≠ [] ∧ t.all Char.isDigit then some (Nat.ofDigitChars 10 t 0) else none

/-! ## Decimal texts -/

theorem isDigit_of_mem_ofNat {n : Nat} {c : Char} (h : c ∈ ofNat n) : c.isDigit = true :=
  Nat.isDigit_of_mem_toDigits (by decide) (by decide) h

theorem not_mem_ofNat {c : Char} (hc : c.isDigit = false) (n : Nat) : c ∉ ofNat n := by
  intro h
  rw [isDigit_of_mem_ofNat h] at hc
  cases hc

theorem ofNat_ne_nil (n : Nat) : ofNat n ≠ [] := by
  intro h
  have hn := Nat.length_toDigits_pos (b := 10) (n := n)
  rw [ofNat] at h
  rw [h] at hn
  exact absurd hn (by decide)

theorem nat?_ofNat (n : Nat) : nat? (ofNat n) = some n := by
  unfold nat?
  rw [if_pos]
  · rw [ofNat, Nat.ofDigitChars_ten_toDigits]
  · refine ⟨ofNat_ne_nil n, ?_⟩
    rw [List.all_eq_true]
    intro c hc
    exact isDigit_of_mem_ofNat hc

theorem not_mem_of_nat? {t : Text} {n : Nat} (h : nat? t = some n) {c : Char}
    (hd : c.isDigit = false) : c ∉ t := by
  intro hc
  unfold nat? at h
  split at h
  · rename_i hall
    rw [List.all_eq_true.mp hall.2 c hc] at hd
    cases hd
  · cases h

theorem nat?_neg (t : Text) : nat? ('-' :: t) = none := by
  unfold nat?
  rw [if_neg]
  intro h
  simp [Char.isDigit] at h

theorem ofInt_of_nonneg {n : Int} (h : 0 ≤ n) : ofInt n = ofNat n.toNat := by
  cases n with
  | ofNat n => rfl
  | negSucc n => exact absurd h (by simp)

theorem nat?_ofInt_of_neg {n : Int} (h : n < 0) : nat? (ofInt n) = none := by
  cases n with
  | ofNat n => exact absurd h (by simp)
  | negSucc n => exact nat?_neg _

theorem ofNat_injective : Function.Injective ofNat := by
  intro a b h
  have hn := nat?_ofNat a
  rw [h, nat?_ofNat b] at hn
  exact (Option.some.inj hn).symm

theorem ofInt_injective : Function.Injective ofInt := by
  intro a b h
  cases a with
  | ofNat a =>
    cases b with
    | ofNat b => rw [ofNat_injective (h : ofNat a = ofNat b)]
    | negSucc b =>
      have hn := nat?_ofInt_of_neg (Int.negSucc_lt_zero b)
      rw [← h, show ofInt (.ofNat a) = ofNat a from rfl, nat?_ofNat] at hn
      cases hn
  | negSucc a =>
    cases b with
    | ofNat b =>
      have hn := nat?_ofInt_of_neg (Int.negSucc_lt_zero a)
      rw [h, show ofInt (.ofNat b) = ofNat b from rfl, nat?_ofNat] at hn
      cases hn
    | negSucc b =>
      have hn := ofNat_injective (List.cons.inj (h : '-' :: ofNat (a + 1) = '-' :: ofNat (b + 1))).2
      rw [Nat.succ.inj hn]

theorem not_mem_ofInt {c : Char} (hc : c.isDigit = false) (hm : c ≠ '-') (n : Int) :
    c ∉ ofInt n := by
  intro h
  cases n with
  | ofNat n => exact not_mem_ofNat hc n h
  | negSucc n =>
    rcases List.mem_cons.mp h with h | h
    · exact hm h
    · exact not_mem_ofNat hc (n + 1) h

theorem digits_all {t : Text} (h : ∀ c ∈ t, c.isDigit = true) (n : Nat) :
    digits n t = Nat.ofDigitChars 10 t n := by
  induction t generalizing n with
  | nil => simp [digits]
  | cons c t ih =>
    have hc : c.isDigit = true := h c (List.mem_cons_self ..)
    have hne : c ≠ '_' := by
      intro he
      rw [he] at hc
      exact absurd hc (by decide)
    rw [digits, if_pos hc, Nat.ofDigitChars_cons]
    · apply ih
      intro d hd
      exact h d (List.mem_cons_of_mem _ hd)
    · intro _ _ he _
      exact hne he

theorem unsigned_ofNat (n : Nat) : unsigned (ofNat n) = n := by
  cases ht : ofNat n with
  | nil => exact absurd ht (ofNat_ne_nil n)
  | cons c t =>
    have hall : ∀ d ∈ c :: t, d.isDigit = true := by
      intro d hd
      rw [← ht] at hd
      exact isDigit_of_mem_ofNat hd
    have hval : Nat.ofDigitChars 10 (c :: t) 0 = n := by
      rw [← ht, ofNat, Nat.ofDigitChars_ten_toDigits]
    rw [unsigned, if_pos (hall c (List.mem_cons_self ..)), digits_all]
    · rw [← hval, Nat.ofDigitChars_cons, Nat.mul_zero, Nat.zero_add]
    · intro d hd
      exact hall d (List.mem_cons_of_mem _ hd)

theorem toI_ofNat (n : Nat) : toI (ofNat n) = n := by
  have hu := unsigned_ofNat n
  cases ht : ofNat n with
  | nil => exact absurd ht (ofNat_ne_nil n)
  | cons c t =>
    have hc : c.isDigit = true := isDigit_of_mem_ofNat (n := n) (ht ▸ List.mem_cons_self ..)
    have hs : isSpace c = false := by
      by_contra hs
      rw [Bool.not_eq_false] at hs
      simp only [isSpace, Bool.or_eq_true, beq_iff_eq] at hs
      rcases hs with ((((h | h) | h) | h) | h) | h
      all_goals
        rw [h] at hc
        exact absurd hc (by decide)
    have hd : (c :: t).dropWhile isSpace = c :: t := by rw [List.dropWhile_cons, hs]; rfl
    rw [ht] at hu
    unfold toI
    rw [hd]
    split
    · rename_i h
      cases h
      exact absurd hc (by decide)
    · rename_i h
      cases h
      exact absurd hc (by decide)
    · rw [hu]

theorem toI_ofInt (n : Int) : toI (ofInt n) = n := by
  cases n with
  | ofNat n => exact toI_ofNat n
  | negSucc n =>
    have hd : ('-' :: ofNat (n + 1)).dropWhile isSpace = '-' :: ofNat (n + 1) := by
      rw [List.dropWhile_cons, if_neg (by decide)]
    simp only [ofInt, toI, hd, unsigned_ofNat]
    omega

/-! ## Taking and dropping -/

theorem takeWhile_append_of_neg {q : Char → Bool} {t x : Text} (hx : ∀ c ∈ x, q c = false) :
    (t ++ x).takeWhile q = t.takeWhile q ∧ (t ++ x).dropWhile q = t.dropWhile q ++ x := by
  induction t with
  | nil =>
    cases x with
    | nil => exact ⟨rfl, rfl⟩
    | cons c x => simp [hx c List.mem_cons_self]
  | cons c t ih =>
    by_cases hc : q c = true
    · simp [hc, ih]
    · simp [hc]

theorem prefix_rdropWhile {p : Char → Bool} {l r : Text} (hl : l ≠ []) (h : ¬ p (l.getLast hl) = true) :
    l <+: (l ++ r).rdropWhile p := by
  induction r using List.reverseRecOn with
  | nil =>
    have hself : l.rdropWhile p = l := List.rdropWhile_eq_self_iff.mpr fun _ => h
    rw [List.append_nil]
    exact (congrArg (l <+: ·) hself).mpr (List.prefix_refl l)
  | append_singleton r c ih =>
    rw [← List.append_assoc]
    by_cases hc : p c = true
    · rwa [List.rdropWhile_concat_pos _ _ _ hc]
    · rw [List.rdropWhile_concat_neg _ _ _ hc, List.append_assoc]
      exact List.prefix_append l _

/-! ## Splitting -/

theorem splitOn_append {c : Char} {t : Text} (h : c ∉ t) (rest : Text) :
    (t ++ c :: rest).splitOn c = t :: rest.splitOn c := by
  rw [List.splitOn_eq_splitOnP, List.splitOn_eq_splitOnP]
  apply List.splitOnP_append_cons_of_forall_mem
  · intro x hx
    rw [beq_eq_false_iff_ne]
    intro he
    exact h (he ▸ hx)
  · exact beq_self_eq_true c

theorem splitOn_of_not_mem {c : Char} {t : Text} (h : c ∉ t) : t.splitOn c = [t] := by
  rw [List.splitOn_eq_splitOnP]
  apply List.splitOnP_eq_singleton
  intro x hx
  rw [beq_eq_false_iff_ne]
  intro he
  exact h (he ▸ hx)

theorem splitOn_unlines {ls : List Text} (h : ∀ l ∈ ls, '\n' ∉ l) :
    (unlines ls).splitOn '\n' = ls ++ [[]] := by
  induction ls with
  | nil => rfl
  | cons l ls ih =>
    have hcons : unlines (l :: ls) = l ++ '\n' :: unlines ls := by simp [unlines]
    rw [hcons, splitOn_append (h l List.mem_cons_self),
      ih fun l hl => h l (List.mem_cons_of_mem _ hl)]
    rfl

theorem split2_append {c : Char} {t : Text} (h : c ∉ t) (rest : Text) :
    split2 c (t ++ c :: rest) = [t, rest] := by
  have hall : ∀ x ∈ t, (x != c) = true := by
    intro x hx
    rw [bne_iff_ne]
    intro he
    exact h (he ▸ hx)
  unfold split2
  rw [if_neg (by simp), List.dropWhile_append_of_pos hall, List.takeWhile_append_of_pos hall]
  simp

theorem split2_of_not_mem {c : Char} {t : Text} (h : c ∉ t) (hne : t ≠ []) : split2 c t = [t] := by
  have hd : t.dropWhile (· != c) = [] := by
    rw [List.dropWhile_eq_nil_iff]
    intro x hx
    rw [bne_iff_ne]
    intro he
    exact h (he ▸ hx)
  unfold split2
  rw [if_neg hne, hd]

theorem splitMax_append {c : Char} {t : Text} (h : c ∉ t) (n : Nat) (rest : Text) :
    splitMax c (n + 1) (t ++ c :: rest) = t :: splitMax c n rest := by
  have hall : ∀ x ∈ t, (x != c) = true := by
    intro x hx
    rw [bne_iff_ne]
    intro he
    exact h (he ▸ hx)
  rw [splitMax, List.dropWhile_append_of_pos hall, List.takeWhile_append_of_pos hall]
  simp

theorem not_mem_of_mem_splitOn {c : Char} {t u : Text} (h : u ∈ t.splitOn c) : c ∉ u := by
  induction t generalizing u with
  | nil =>
    rw [List.splitOn_nil, List.mem_singleton] at h
    rw [h]
    exact List.not_mem_nil
  | cons x t ih =>
    rw [List.splitOn_cons_eq_if_modifyHead] at h
    split at h
    · rcases List.mem_cons.mp h with rfl | h
      · exact List.not_mem_nil
      · exact ih h
    · rename_i hx
      obtain ⟨v, vs, hv⟩ := List.exists_cons_of_ne_nil (List.splitOn_ne_nil c t)
      rw [hv, List.modifyHead_cons] at h
      rcases List.mem_cons.mp h with rfl | h
      · intro hc
        rcases List.mem_cons.mp hc with rfl | hc
        · exact hx (beq_self_eq_true c)
        · exact ih (hv ▸ List.mem_cons_self ..) hc
      · exact ih (hv ▸ List.mem_cons_of_mem v h)

theorem exists_mem_splitOn {c x : Char} (hx : x ≠ c) {t : Text} (h : x ∈ t) :
    ∃ u ∈ t.splitOn c, x ∈ u := by
  induction t with
  | nil => cases h
  | cons y t ih =>
    rw [List.splitOn_cons_eq_if_modifyHead]
    obtain ⟨v, vs, hv⟩ := List.exists_cons_of_ne_nil (List.splitOn_ne_nil c t)
    split
    · rename_i hy
      rcases List.mem_cons.mp h with rfl | h
      · exact absurd (eq_of_beq hy) hx
      · obtain ⟨u, hu, hxu⟩ := ih h
        exact ⟨u, List.mem_cons_of_mem _ hu, hxu⟩
    · rw [hv, List.modifyHead_cons]
      rcases List.mem_cons.mp h with rfl | h
      · exact ⟨x :: v, List.mem_cons_self .., List.mem_cons_self ..⟩
      · obtain ⟨u, hu, hxu⟩ := ih h
        rw [hv] at hu
        rcases List.mem_cons.mp hu with rfl | hu
        · exact ⟨y :: u, List.mem_cons_self .., List.mem_cons_of_mem y hxu⟩
        · exact ⟨u, List.mem_cons_of_mem _ hu, hxu⟩

theorem splitOn_eq_pair {c : Char} {t a b : Text} :
    t.splitOn c = [a, b] ↔ c ∉ a ∧ c ∉ b ∧ t = a ++ c :: b := by
  constructor
  · intro h
    refine ⟨not_mem_of_mem_splitOn (t := t) (by rw [h]; simp),
      not_mem_of_mem_splitOn (t := t) (by rw [h]; simp), ?_⟩
    have ht : List.intercalate [c] (t.splitOn c) = t := List.intercalate_splitOn c
    rw [h] at ht
    rw [← ht]
    simp [List.intercalate]
  · rintro ⟨ha, hb, rfl⟩
    rw [splitOn_append ha, splitOn_of_not_mem hb]

theorem splitOn_eq_triple {c : Char} {t a b d : Text} :
    t.splitOn c = [a, b, d] ↔ c ∉ a ∧ c ∉ b ∧ c ∉ d ∧ t = a ++ c :: (b ++ c :: d) := by
  constructor
  · intro h
    refine ⟨not_mem_of_mem_splitOn (t := t) (by rw [h]; simp),
      not_mem_of_mem_splitOn (t := t) (by rw [h]; simp),
      not_mem_of_mem_splitOn (t := t) (by rw [h]; simp), ?_⟩
    have ht : List.intercalate [c] (t.splitOn c) = t := List.intercalate_splitOn c
    rw [h] at ht
    rw [← ht]
    simp [List.intercalate]
  · rintro ⟨ha, hb, hd, rfl⟩
    rw [splitOn_append ha, splitOn_append hb, splitOn_of_not_mem hd]

/-- A field at the end that is not empty stays, and so do those before it. -/
theorem split_of_splitOn {c : Char} {t u : Text} {l : List Text} (h : t.splitOn c = l ++ [u])
    (hu : u ≠ []) : split c t = l ++ [u] := by
  unfold split
  rw [h, List.rdropWhile_concat_neg]
  rw [List.isEmpty_iff]
  exact hu

theorem not_mem_of_mem_split {c : Char} {t u : Text} (h : u ∈ split c t) : c ∉ u :=
  not_mem_of_mem_splitOn ((List.rdropWhile_prefix ..).subset h)

end Text

end Lib
