import Mathlib.Data.Rat.Floor
import Mathlib.Tactic.FieldSimp
import Mathlib.Tactic.IntervalCases
import Mathlib.Tactic.Linarith
import WakameVdc.Lib.Text

/-!
# Sizes with a unit

`helpers/byte_unit.rb`, which reads a size with a unit from a text and converts it to another
unit, and the size of a volume in a request for an instance. Floats are read as rationals.
-/

namespace WakameVdc

open Lib

namespace ByteUnit

inductive UnitName
  | b | kb | mb | gb | tb | pb | eb | zb | yb
  deriving DecidableEq

def UnitName.bytes : UnitName → Nat
  | b => 1
  | kb => 1024
  | mb => 1024 ^ 2
  | gb => 1024 ^ 3
  | tb => 1024 ^ 4
  | pb => 1024 ^ 5
  | eb => 1024 ^ 6
  | zb => 1024 ^ 7
  | yb => 1024 ^ 8

@[simp] theorem bytes_b : UnitName.b.bytes = 1 := rfl

open UnitName in
def unitPatterns : List (Text × UnitName) :=
  [("B".toList, b), ("K".toList, kb), ("KB".toList, kb), ("M".toList, mb), ("MB".toList, mb),
    ("G".toList, gb), ("GB".toList, gb), ("T".toList, tb), ("TB".toList, tb), ("P".toList, pb),
    ("PB".toList, pb), ("E".toList, eb), ("EB".toList, eb), ("Z".toList, zb), ("ZB".toList, zb),
    ("Y".toList, yb), ("YB".toList, yb)]

/-! ## Numbers -/

/-- `to_i` of a float -/
def toI (v : ℚ) : Int := if 0 ≤ v then ⌊v⌋ else ⌈v⌉

def number (digits : Text) : ℚ := Nat.ofDigitChars 10 digits 0

def unsignedF (t : Text) : ℚ :=
  let whole := t.takeWhile Char.isDigit
  match t.dropWhile Char.isDigit with
  | '.' :: rest => number whole + number (rest.takeWhile Char.isDigit) / 10 ^ (rest.takeWhile Char.isDigit).length
  | _ => number whole

def toF : Text → ℚ
  | '-' :: t => -unsignedF t
  | '+' :: t => unsignedF t
  | t => unsignedF t

/-! ## Conversions -/

def byteUnitConvert (v : ℚ) (baseUnit getUnit : UnitName) : ℚ :=
  if toI v = 0 then v
  else if baseUnit.bytes = getUnit.bytes then v
  else v * (baseUnit.bytes / getUnit.bytes)

/-- `[\d+-\.]`, where the dash makes a range. -/
def inSize (c : Char) : Bool := c.isDigit || (decide ('+' ≤ c) && decide (c ≤ '.'))

def sizePattern (t : Text) : Option (Text × Option Text) :=
  match t.dropWhile fun c => !inSize c with
  | [] => none
  | found =>
    let behind := (found.dropWhile inSize).dropWhile Text.isSpace
    some (found.takeWhile inSize, (unitPatterns.find? fun k => k.1.isPrefixOf behind).map Prod.fst)

/-- A size and the unit it is in, bytes when there is none. -/
def readSize (v : Text) : Option (ℚ × UnitName) :=
  match sizePattern (v.map Char.toUpper) with
  | some (n, some suffix) => (unitPatterns.lookup suffix).map fun u => (toF n, u)
  | some (n, none) => some (toF n, .b)
  | none => none

inductive Value
  | string (t : Text)
  | numeric (v : ℚ)
  | other

structure ArgumentError where
  message : String
  deriving DecidableEq

def convertTo (v : Value) (toUnit : UnitName) : Except ArgumentError ℚ :=
  match v with
  | .string t =>
    match readSize t with
    | some (v, fromUnit) => .ok (byteUnitConvert v fromUnit toUnit)
    | none => .error ⟨"Invalid string representaion"⟩
  | .numeric v => .ok (byteUnitConvert v .b toUnit)
  | .other => .error ⟨"v must be String or Numeric"⟩

/-- `volumes.size` of a request, which is any error's name. -/
def volumesSize (size : Text) : Except String Int :=
  match convertTo (.string size) .b with
  | .ok v => .ok (toI v)
  | .error _ => .error "volumes.size"

/-! ## What is a size -/

inductive Numeral : Text → ℚ → Prop
  | whole {a : Text} (ha : a ≠ []) (had : ∀ c ∈ a, c.isDigit = true) : Numeral a (number a)
  | decimal {a f : Text} (ha : a ≠ []) (had : ∀ c ∈ a, c.isDigit = true) (hf : f ≠ [])
      (hfd : ∀ c ∈ f, c.isDigit = true) : Numeral (a ++ '.' :: f) (number a + number f / 10 ^ f.length)

/-- A unit in any letter case, or none. -/
inductive Suffix : Text → UnitName → Prop
  | none : Suffix [] .b
  | some {t : Text} {u : UnitName} (h : (t.map Char.toUpper, u) ∈ unitPatterns) : Suffix t u

def Quantity (s : Text) (x : ℚ) (u : UnitName) : Prop :=
  ∃ numeral blanks suffix, s = numeral ++ (blanks ++ suffix) ∧ Numeral numeral x ∧
    (∀ c ∈ blanks, Text.isSpace c = true) ∧ Suffix suffix u

/-- A size is converted, and anything else is refused. -/
structure Converts (s : Text) (toUnit : UnitName) : Prop where
  size : ∀ x u, Quantity s x u → convertTo (.string s) toUnit = .ok (x * u.bytes / toUnit.bytes)
  other : (∀ x u, ¬ Quantity s x u) → ∃ e, convertTo (.string s) toUnit = .error e

/-! ## Reading a size -/

def lowerLetters : Text := "abcdefghijklmnopqrstuvwxyz".toList

theorem toUpper_of_not_mem {c : Char} (h : c ∉ lowerLetters) : c.toUpper = c := by
  refine dif_neg fun hc => h ?_
  have hlow : 97 ≤ c.toNat := hc.1
  have hhigh : c.toNat ≤ 122 := hc.2
  rw [← Char.ofNat_toNat c]
  interval_cases c.toNat <;> decide

theorem inSize_toUpper (c : Char) : inSize c.toUpper = inSize c := by
  by_cases h : c ∈ lowerLetters
  · have hletters : lowerLetters.all (fun c => inSize c.toUpper == inSize c) = true := by decide
    exact beq_iff_eq.mp (List.all_eq_true.mp hletters c h)
  · rw [toUpper_of_not_mem h]

theorem toUpper_of_inSize {c : Char} (h : inSize c = true) : c.toUpper = c := by
  by_cases hc : c ∈ lowerLetters
  · have hletters : lowerLetters.all (fun c => !inSize c) = true := by decide
    rw [(Bool.not_eq_true' _).mp (List.all_eq_true.mp hletters c hc)] at h
    cases h
  · exact toUpper_of_not_mem hc

theorem inSize_of_isDigit {c : Char} (h : c.isDigit = true) : inSize c = true := by
  unfold inSize
  rw [h, Bool.true_or]

theorem Numeral.inSize {t : Text} {x : ℚ} (h : Numeral t x) : ∀ c ∈ t, inSize c = true := by
  cases h with
  | whole ha had => exact fun c hc => inSize_of_isDigit (had c hc)
  | decimal ha had hf hfd =>
    intro c hc
    rcases List.mem_append.mp hc with hc | hc
    · exact inSize_of_isDigit (had c hc)
    · rcases List.mem_cons.mp hc with rfl | hc
      · decide
      · exact inSize_of_isDigit (hfd c hc)

theorem Numeral.ne_nil {t : Text} {x : ℚ} (h : Numeral t x) : t ≠ [] := by
  cases h with
  | whole ha had => exact ha
  | decimal ha had hf hfd => simp

theorem number_nonneg (t : Text) : 0 ≤ number t := Nat.cast_nonneg _

theorem Numeral.nonneg {t : Text} {x : ℚ} (h : Numeral t x) : 0 ≤ x := by
  cases h with
  | whole ha had => exact number_nonneg _
  | decimal ha had hf hfd => exact add_nonneg (number_nonneg _) (div_nonneg (number_nonneg _) (by positivity))

theorem takeWhile_digits {a rest : Text} (had : ∀ c ∈ a, c.isDigit = true) :
    (a ++ '.' :: rest).takeWhile Char.isDigit = a ∧ (a ++ '.' :: rest).dropWhile Char.isDigit = '.' :: rest := by
  have hdot : Char.isDigit '.' = false := by decide
  rw [List.takeWhile_append_of_pos had, List.dropWhile_append_of_pos had]
  simp [hdot]

theorem unsignedF_of_numeral {t : Text} {x : ℚ} (h : Numeral t x) : unsignedF t = x := by
  cases h with
  | whole ha had =>
    unfold unsignedF
    rw [List.dropWhile_eq_nil_iff.mpr had, List.takeWhile_eq_self_iff.mpr had]
  | decimal ha had hf hfd =>
    unfold unsignedF
    simp only [(takeWhile_digits had).1, (takeWhile_digits had).2, List.takeWhile_eq_self_iff.mpr hfd]

theorem toF_of_numeral {t : Text} {x : ℚ} (h : Numeral t x) : toF t = x := by
  have hhead : ∃ c rest, t = c :: rest ∧ c.isDigit = true := by
    cases h with
    | whole ha had =>
      obtain ⟨c, rest, rfl⟩ := List.exists_cons_of_ne_nil ha
      exact ⟨c, rest, rfl, had c List.mem_cons_self⟩
    | decimal ha had hf hfd =>
      obtain ⟨c, rest, rfl⟩ := List.exists_cons_of_ne_nil ha
      exact ⟨c, _, rfl, had c List.mem_cons_self⟩
  rw [← unsignedF_of_numeral h]
  obtain ⟨c, rest, rfl, hc⟩ := hhead
  unfold toF
  split
  · rename_i he
    cases he
    exact absurd hc (by decide)
  · rename_i he
    cases he
    exact absurd hc (by decide)
  · rfl

/-- The first unit that is found at the beginning is the one that stands there. -/
theorem find_unitPatterns : ∀ k ∈ unitPatterns,
    ((unitPatterns.find? fun p => p.1.isPrefixOf k.1).map Prod.fst).bind (fun s => unitPatterns.lookup s) =
        some k.2 ∧
      k.1.all (fun c => !inSize c) = true ∧ k.1.dropWhile Text.isSpace = k.1 := by
  decide

theorem not_inSize_of_isSpace {c : Char} (h : Text.isSpace c = true) : inSize c = false ∧ c.toUpper = c := by
  unfold Text.isSpace at h
  simp only [Bool.or_eq_true, beq_iff_eq] at h
  rcases h with ((((rfl | rfl) | rfl) | rfl) | rfl) | rfl <;> decide

theorem sizePattern_eq {n rest : Text} (hne : n ≠ []) (hn : ∀ c ∈ n, inSize c = true)
    (hrest : ∀ c ∈ rest, inSize c = false) : sizePattern (n ++ rest) = some (n,
      (unitPatterns.find? fun k => k.1.isPrefixOf (rest.dropWhile Text.isSpace)).map Prod.fst) := by
  have hfound : (n ++ rest).dropWhile (fun c => !inSize c) = n ++ rest := by
    obtain ⟨c, n, rfl⟩ := List.exists_cons_of_ne_nil hne
    have hc := hn c List.mem_cons_self
    simp [hc]
  obtain ⟨ht, hd⟩ := Text.takeWhile_append_of_neg (t := n) hrest
  unfold sizePattern
  rw [hfound]
  split
  · rename_i he
    exact absurd (List.append_eq_nil_iff.mp he).1 hne
  · dsimp only
    rw [ht, hd, List.takeWhile_eq_self_iff.mpr hn, List.dropWhile_eq_nil_iff.mpr hn, List.nil_append]

theorem readSize_of_quantity {s : Text} {x : ℚ} {u : UnitName} (h : Quantity s x u) :
    readSize s = some (x, u) := by
  obtain ⟨numeral, blanks, suffix, rfl, hn, hb, hs⟩ := h
  have hnumeral : numeral.map Char.toUpper = numeral :=
    List.map_congr_left (fun c hc => toUpper_of_inSize (hn.inSize c hc)) |>.trans (List.map_id _)
  have hblanks : blanks.map Char.toUpper = blanks :=
    List.map_congr_left (fun c hc => (not_inSize_of_isSpace (hb c hc)).2) |>.trans (List.map_id _)
  have hrest : ∀ c ∈ blanks ++ suffix.map Char.toUpper, inSize c = false := by
    intro c hc
    rcases List.mem_append.mp hc with hc | hc
    · exact (not_inSize_of_isSpace (hb c hc)).1
    · cases hs with
      | none => cases hc
      | some hk => exact (Bool.not_eq_true' _).mp (List.all_eq_true.mp (find_unitPatterns _ hk).2.1 c hc)
  unfold readSize
  rw [List.map_append, List.map_append, hnumeral, hblanks, sizePattern_eq hn.ne_nil hn.inSize hrest,
    List.dropWhile_append_of_pos hb]
  cases hs with
  | none =>
    rw [← toF_of_numeral hn]
    rfl
  | some hk =>
    obtain ⟨hfind, -, hdrop⟩ := find_unitPatterns _ hk
    obtain ⟨k, hkey, hlookup⟩ := Option.bind_eq_some_iff.mp hfind
    rw [hdrop, hkey]
    dsimp only
    rw [hlookup, toF_of_numeral hn]
    rfl

theorem Quantity.nonneg {s : Text} {x : ℚ} {u : UnitName} (h : Quantity s x u) : 0 ≤ x := by
  obtain ⟨_, _, _, _, hn, _⟩ := h
  exact hn.nonneg

theorem sizePattern_eq_none {t : Text} : sizePattern t = none ↔ ∀ c ∈ t, inSize c = false := by
  have hnil : t.dropWhile (fun c => !inSize c) = [] ↔ ∀ c ∈ t, inSize c = false := by
    rw [List.dropWhile_eq_nil_iff]
    simp only [Bool.not_eq_true']
  rw [← hnil]
  unfold sizePattern
  split
  · rename_i h
    exact iff_of_true rfl h
  · rename_i h
    exact iff_of_false (Option.some_ne_none _) h

/-- What is refused is a text without any sign of a size. -/
theorem readSize_eq_none {s : Text} : readSize s = none ↔ ∀ c ∈ s, inSize c = false := by
  have hkeys : ∀ k ∈ unitPatterns, unitPatterns.lookup k.1 ≠ none := by decide
  have hupper : (∀ c ∈ s.map Char.toUpper, inSize c = false) ↔ ∀ c ∈ s, inSize c = false := by
    simp only [List.forall_mem_map, inSize_toUpper]
  rw [← hupper, ← sizePattern_eq_none]
  unfold readSize
  split
  · rename_i n suffix hs
    rw [hs]
    refine iff_of_false (fun h => ?_) (Option.some_ne_none _)
    rw [Option.map_eq_none_iff] at h
    unfold sizePattern at hs
    split at hs
    · cases hs
    · have hkey := congrArg Prod.snd (Option.some.inj hs)
      obtain ⟨k, hk, hks⟩ := Option.map_eq_some_iff.mp hkey
      exact hkeys k (List.mem_of_find?_eq_some hk) (hks ▸ h)
  · rename_i n hs
    rw [hs]
    exact iff_of_false (Option.some_ne_none _) (Option.some_ne_none _)
  · rename_i hs
    exact iff_of_true rfl hs

/-! ## Converting -/

theorem toI_eq_zero {v : ℚ} (h : 0 ≤ v) : toI v = 0 ↔ v < 1 := by
  unfold toI
  rw [if_pos h, Int.floor_eq_zero_iff, Set.mem_Ico]
  exact and_iff_right h

theorem bytes_pos (u : UnitName) : (0 : ℚ) < u.bytes := by
  cases u <;> norm_num [UnitName.bytes]

theorem bytes_injective : Function.Injective UnitName.bytes := by
  intro u w h
  cases u <;> cases w <;> first | rfl | (exact absurd h (by decide))

/-- A number of one or more is converted, and one below is left as it is. -/
theorem byteUnitConvert_iff {x : ℚ} (hx : 0 ≤ x) (u w : UnitName) :
    byteUnitConvert x u w = x * u.bytes / w.bytes ↔ x = 0 ∨ 1 ≤ x ∨ u = w := by
  have hw := bytes_pos w
  unfold byteUnitConvert
  rw [← bytes_injective.eq_iff]
  by_cases hone : x < 1
  · rw [if_pos ((toI_eq_zero hx).mpr hone), eq_div_iff hw.ne', mul_eq_mul_left_iff, Nat.cast_inj]
    constructor
    · rintro (h | h)
      · exact .inr (.inr h.symm)
      · exact .inl h
    · rintro (h | h | h)
      · exact .inr h
      · exact absurd hone (not_lt.mpr h)
      · exact .inl h.symm
  · refine iff_of_true ?_ (.inr (.inl (not_lt.mp hone)))
    rw [if_neg fun h => hone ((toI_eq_zero hx).mp h)]
    split
    · rename_i heq
      rw [heq, mul_div_assoc, div_self hw.ne', mul_one]
    · exact (mul_div_assoc ..).symm

/-- What is left of a conversion into bytes is never more than the size. -/
theorem byteUnitConvert_le {x : ℚ} (hx : 0 ≤ x) (u : UnitName) : byteUnitConvert x u .b ≤ x * u.bytes := by
  have hone : (1 : ℚ) ≤ u.bytes := by exact_mod_cast (show 1 ≤ u.bytes by cases u <;> decide)
  by_cases h : x = 0 ∨ 1 ≤ x ∨ u = .b
  · rw [(byteUnitConvert_iff hx u .b).mpr h]
    simp
  · unfold byteUnitConvert
    rw [if_pos ((toI_eq_zero hx).mpr (by push Not at h; exact h.2.1))]
    exact le_mul_of_one_le_right hx hone

theorem byteUnitConvert_back {x : ℚ} (hx : 0 ≤ x) (u : UnitName) :
    byteUnitConvert (byteUnitConvert x u .b) .b u = x := by
  have hu := bytes_pos u
  by_cases hone : x < 1
  · have hz := (toI_eq_zero hx).mpr hone
    simp only [byteUnitConvert, if_pos hz]
  · have hle := not_lt.mp hone
    have hbytes : (1 : ℚ) ≤ u.bytes := by exact_mod_cast (show 1 ≤ u.bytes by cases u <;> decide)
    rw [(byteUnitConvert_iff hx u .b).mpr (.inr (.inl hle))]
    have hy : 1 ≤ x * u.bytes / (UnitName.b.bytes : ℚ) := by
      simp only [bytes_b, Nat.cast_one, div_one]
      exact one_le_mul_of_one_le_of_one_le hle hbytes
    rw [(byteUnitConvert_iff (by linarith) .b u).mpr (.inr (.inl hy))]
    simp only [bytes_b, Nat.cast_one, div_one, mul_one]
    exact mul_div_cancel_right₀ x hu.ne'

theorem convertTo_of_quantity {s : Text} {x : ℚ} {u : UnitName} (h : Quantity s x u) (w : UnitName) :
    convertTo (.string s) w = .ok (byteUnitConvert x u w) := by
  unfold convertTo
  simp only [readSize_of_quantity h]

theorem convertTo_of_none {s : Text} (h : readSize s = none) (w : UnitName) :
    ∃ e, convertTo (.string s) w = .error e := by
  unfold convertTo
  simp only [h]
  exact ⟨_, rfl⟩

/-- The size of a volume is the whole part of the bytes that are asked for. -/
theorem volumesSize_of_quantity {s : Text} {x : ℚ} {u : UnitName} (h : Quantity s x u)
    (hx : x = 0 ∨ 1 ≤ x ∨ u = .b) : volumesSize s = .ok ⌊x * u.bytes⌋ := by
  unfold volumesSize
  rw [convertTo_of_quantity h, (byteUnitConvert_iff h.nonneg u .b).mpr hx]
  have hpos : 0 ≤ x * u.bytes := mul_nonneg h.nonneg (bytes_pos u).le
  simp [toI, hpos]

theorem converts_of_quantity {s : Text} {x : ℚ} {u : UnitName} (h : Quantity s x u) (w : UnitName) :
    Converts s w ↔ x = 0 ∨ 1 ≤ x ∨ u = w := by
  rw [← byteUnitConvert_iff h.nonneg]
  constructor
  · intro hc
    have hsize := hc.size x u h
    rw [convertTo_of_quantity h] at hsize
    exact Except.ok.inj hsize
  · intro he
    refine ⟨fun y v hy => ?_, fun hno => absurd h (hno x u)⟩
    have hread := (readSize_of_quantity h).symm.trans (readSize_of_quantity hy)
    cases hread
    rw [convertTo_of_quantity h, he]

theorem converts_of_other {s : Text} (h : ∀ x u, ¬ Quantity s x u) (w : UnitName) :
    Converts s w ↔ ∀ c ∈ s, inSize c = false := by
  rw [← readSize_eq_none]
  constructor
  · intro hc
    obtain ⟨e, he⟩ := hc.other h
    unfold convertTo at he
    cases hr : readSize s with
    | none => rfl
    | some xu =>
      simp only [hr] at he
      cases he
  · intro hr
    exact ⟨fun x u hq => absurd hq (h x u), fun _ => convertTo_of_none hr w⟩

/-- Which texts are converted as they are to be, and what holds of all sizes. -/
theorem converts_iff (s t : Text) (w : UnitName) :
    (Converts s w ↔ (∃ x u, Quantity s x u ∧ (x = 0 ∨ 1 ≤ x ∨ u = w)) ∨
      (∀ x u, ¬ Quantity s x u) ∧ ∀ c ∈ s, inSize c = false) ∧
    (∀ x u, Quantity s x u →
      ∃ y, convertTo (.string s) .b = .ok y ∧ convertTo (.numeric y) u = .ok x) ∧
    ∀ x u y v, Quantity s x u → Quantity t y v → x * u.bytes ≤ y * v.bytes → (y = 0 ∨ 1 ≤ y ∨ v = .b) →
      ∃ a b, convertTo (.string s) .b = .ok a ∧ convertTo (.string t) .b = .ok b ∧ a ≤ b := by
  refine ⟨?_, fun x u h => ?_, fun x u y v hs ht hle hy => ?_⟩
  · by_cases h : ∃ x u, Quantity s x u
    · obtain ⟨x, u, h⟩ := h
      rw [converts_of_quantity h]
      constructor
      · exact fun hx => .inl ⟨x, u, h, hx⟩
      · rintro (⟨y, v, hy, hx⟩ | ⟨hno, -⟩)
        · cases (readSize_of_quantity h).symm.trans (readSize_of_quantity hy)
          exact hx
        · exact absurd h (hno x u)
    · push Not at h
      rw [converts_of_other h]
      constructor
      · exact fun hs => .inr ⟨h, hs⟩
      · rintro (⟨x, u, hx, -⟩ | ⟨-, hs⟩)
        · exact absurd hx (h x u)
        · exact hs
  · exact ⟨_, convertTo_of_quantity h .b, congrArg Except.ok (byteUnitConvert_back h.nonneg u)⟩
  · refine ⟨_, _, convertTo_of_quantity hs .b, convertTo_of_quantity ht .b, ?_⟩
    rw [(byteUnitConvert_iff ht.nonneg v .b).mpr hy]
    refine (byteUnitConvert_le hs.nonneg u).trans ?_
    simpa using hle

/-- Half a kilobyte stays a half, and a sign is read as a part of the size. -/
theorem not_converts : ¬ Converts "0.5KB".toList .b ∧ ¬ Converts "-5KB".toList .b := by
  have hzero : number "0".toList = 0 := congrArg Nat.cast (show Nat.ofDigitChars 10 "0".toList 0 = 0 by decide)
  have hfive : number "5".toList = 5 := congrArg Nat.cast (show Nat.ofDigitChars 10 "5".toList 0 = 5 by decide)
  constructor
  · have hq : Quantity "0.5KB".toList (1 / 2) .kb := by
      refine ⟨"0.5".toList, [], "KB".toList, rfl, ?_, by simp, .some (by decide)⟩
      have hn := Numeral.decimal (a := "0".toList) (f := "5".toList) (by decide)
        (List.all_eq_true.mp (by decide)) (by decide) (List.all_eq_true.mp (by decide))
      have hx : number "0".toList + number "5".toList / 10 ^ "5".toList.length = 1 / 2 := by
        rw [hzero, hfive, show "5".toList.length = 1 by decide]
        norm_num
      rw [hx] at hn
      exact hn
    rw [converts_of_quantity hq]
    rintro (h | h | h)
    · norm_num at h
    · norm_num at h
    · cases h
  · have hread : readSize "-5KB".toList = some (-unsignedF "5".toList, .kb) := rfl
    have hvalue : unsignedF "5".toList = 5 :=
      (unsignedF_of_numeral (.whole (by decide) (List.all_eq_true.mp (by decide)))).trans hfive
    have hno : ∀ x u, ¬ Quantity "-5KB".toList x u := by
      intro x u hq
      have hx := hread.symm.trans (readSize_of_quantity hq)
      rw [hvalue] at hx
      cases hx
      exact absurd hq.nonneg (by norm_num)
    rw [converts_of_other hno]
    intro hletters
    exact absurd (hletters '-' (by decide)) (by decide)

end ByteUnit

end WakameVdc
