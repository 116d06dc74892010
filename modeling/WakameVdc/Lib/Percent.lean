import Mathlib.Tactic.Common
import WakameVdc.Lib.Text

/-!
# Form encoding of texts

The bytes of a text in UTF-8, and Ruby's `URI.encode_www_form_component` with its inverse:
a blank is written as `+`, and what is not `[*\-.0-9A-Z_a-z]` as `%` and two hex digits.
-/

namespace Lib

namespace Text

abbrev Bytes := List UInt8

/-! ## UTF-8 -/

def utf8 (t : Text) : Bytes := t.flatMap String.utf8EncodeChar

def ofUtf8 (b : Bytes) : Option Text := (ByteArray.utf8Decode? b.toByteArray).map Array.toList

theorem ofUtf8_utf8 (t : Text) : ofUtf8 t.utf8 = some t := by
  have h : t.utf8.toByteArray = t.utf8Encode := rfl
  unfold ofUtf8
  rw [h, List.utf8Decode?_utf8Encode]
  rfl

theorem utf8EncodeChar_ascii {c : Char} (h : c.toNat < 128) :
    String.utf8EncodeChar c = [UInt8.ofNat c.toNat] := by
  unfold String.utf8EncodeChar
  exact if_pos (by simpa using Nat.le_of_lt_succ h)

/-! ## Form encoding -/

/-- `[*\-.0-9A-Z_a-z]` -/
def isPlain (b : UInt8) : Bool :=
  b == 42 || b == 45 || b == 46 || (48 ≤ b && b ≤ 57) || (65 ≤ b && b ≤ 90) || b == 95 ||
    (97 ≤ b && b ≤ 122)

def upperHex (d : Nat) : Char := if d < 10 then Char.ofNat (48 + d) else Char.ofNat (55 + d)

def upperHex? (c : Char) : Option Nat :=
  if c.isDigit then some (c.toNat - 48)
  else if 'a' ≤ c ∧ c ≤ 'f' then some (c.toNat - 87)
  else if 'A' ≤ c ∧ c ≤ 'F' then some (c.toNat - 55)
  else none

def encodeByte (b : UInt8) : Text :=
  if b = 32 then ['+']
  else if isPlain b then [Char.ofNat b.toNat]
  else ['%', upperHex (b.toNat / 16), upperHex (b.toNat % 16)]

def encodeWwwFormComponent (t : Text) : Text := t.utf8.flatMap encodeByte

/-- A `%` without two hex digits behind it is refused. -/
def decodeBytes : Text → Option Bytes
  | [] => some []
  | '%' :: h :: l :: t =>
    match upperHex? h, upperHex? l with
    | some h, some l => (decodeBytes t).map (UInt8.ofNat (16 * h + l) :: ·)
    | _, _ => none
  | c :: t =>
    if c = '%' then none
    else if c = '+' then (decodeBytes t).map (32 :: ·)
    else (decodeBytes t).map (String.utf8EncodeChar c ++ ·)

def decodeWwwFormComponent (t : Text) : Option Text := (decodeBytes t).bind ofUtf8

/-! ### Reading back -/

theorem upperHex?_upperHex {d : Nat} (h : d < 16) : upperHex? (upperHex d) = some d := by
  have hall : ∀ d < 16, upperHex? (upperHex d) = some d := by decide
  exact hall d h

def isForm (c : Char) : Bool := c == '+' || c == '%' || (c.toNat < 128 && isPlain (UInt8.ofNat c.toNat))

theorem isForm_upperHex {d : Nat} (h : d < 16) : isForm (upperHex d) = true := by
  have hall : ∀ d < 16, isForm (upperHex d) = true := by decide
  exact hall d h

theorem lt_of_isPlain {b : UInt8} (h : isPlain b = true) : b.toNat < 128 := by
  unfold isPlain at h
  simp only [Bool.or_eq_true, Bool.and_eq_true, beq_iff_eq, decide_eq_true_eq,
    UInt8.le_iff_toNat_le] at h
  rcases h with (((((rfl | rfl) | rfl) | h) | h) | rfl) | h
  · decide
  · decide
  · decide
  · exact Nat.lt_of_le_of_lt h.2 (by decide)
  · exact Nat.lt_of_le_of_lt h.2 (by decide)
  · decide
  · exact Nat.lt_of_le_of_lt h.2 (by decide)

theorem toNat_ofNat {n : Nat} (h : n < 128) : (Char.ofNat n).toNat = n := by
  have hv : n.isValidChar := .inl (by omega)
  unfold Char.ofNat
  rw [dif_pos hv]
  rfl

theorem isForm_encodeByte (b : UInt8) : ∀ c ∈ encodeByte b, isForm c = true := by
  intro c hc
  unfold encodeByte at hc
  split at hc
  · rw [List.mem_singleton.mp hc]
    rfl
  · split at hc
    · rename_i hp
      have hlt := lt_of_isPlain hp
      rw [List.mem_singleton.mp hc, isForm, toNat_ofNat hlt, UInt8.ofNat_toNat, hp]
      simp [hlt]
    · have hb := b.toNat_lt
      simp only [List.mem_cons, List.not_mem_nil, or_false] at hc
      rcases hc with rfl | rfl | rfl
      · rfl
      · exact isForm_upperHex (by omega)
      · exact isForm_upperHex (by omega)

theorem isForm_encode (t : Text) : ∀ c ∈ encodeWwwFormComponent t, isForm c = true := by
  intro c hc
  obtain ⟨b, -, hb⟩ := List.mem_flatMap.mp hc
  exact isForm_encodeByte b c hb

theorem decodeBytes_encodeByte (b : UInt8) (t : Text) :
    decodeBytes (encodeByte b ++ t) = (decodeBytes t).map (b :: ·) := by
  have hb := b.toNat_lt
  unfold encodeByte
  split
  · rename_i h32
    rw [h32]
    rfl
  · split
    · rename_i hp
      have hlt := lt_of_isPlain hp
      have hc := toNat_ofNat hlt
      have hplain : ∀ d : Char, d.toNat < 128 → isPlain (UInt8.ofNat d.toNat) = false →
          Char.ofNat b.toNat ≠ d := by
        rintro d - hd rfl
        rw [hc, UInt8.ofNat_toNat, hp] at hd
        cases hd
      have hpercent : Char.ofNat b.toNat ≠ '%' := hplain '%' (by decide) (by decide)
      have hplus : Char.ofNat b.toNat ≠ '+' := hplain '+' (by decide) (by decide)
      show decodeBytes (Char.ofNat b.toNat :: t) = _
      rw [decodeBytes]
      · rw [if_neg hpercent, if_neg hplus, utf8EncodeChar_ascii (by omega), hc, UInt8.ofNat_toNat]
        rfl
      · intro _ _ _ h _
        exact absurd h hpercent
    · show decodeBytes ('%' :: upperHex (b.toNat / 16) :: upperHex (b.toNat % 16) :: t) = _
      rw [decodeBytes, upperHex?_upperHex (by omega), upperHex?_upperHex (by omega)]
      dsimp only
      rw [Nat.div_add_mod, UInt8.ofNat_toNat]

theorem decodeBytes_flatMap (b : Bytes) : decodeBytes (b.flatMap encodeByte) = some b := by
  induction b with
  | nil => rfl
  | cons a b ih =>
    rw [List.flatMap_cons, decodeBytes_encodeByte, ih]
    rfl

theorem decodeWwwFormComponent_encode (t : Text) :
    decodeWwwFormComponent (encodeWwwFormComponent t) = some t := by
  unfold decodeWwwFormComponent encodeWwwFormComponent
  rw [decodeBytes_flatMap]
  exact ofUtf8_utf8 t

theorem encode_ne_nil {t : Text} (h : t ≠ []) : encodeWwwFormComponent t ≠ [] := by
  intro he
  have ht := decodeWwwFormComponent_encode t
  have hnil := decodeWwwFormComponent_encode []
  rw [he] at ht
  exact h (Option.some.inj (ht.symm.trans hnil))

end Text

end Lib
