import WakameVdc.Lib.Percent

/-!
# Base64

The encoding of bytes in lines of sixty characters, as Ruby's `Base64.encode64` writes it,
and a decoder that passes over blanks and line breaks.
-/

namespace Lib

namespace Base64

open Text (Bytes)

def digit (d : Nat) : Char :=
  if d < 26 then Char.ofNat (65 + d)
  else if d < 52 then Char.ofNat (71 + d)
  else if d < 62 then Char.ofNat (d - 4)
  else if d = 62 then '+'
  else '/'

def digit? (c : Char) : Option Nat :=
  if 'A' ≤ c ∧ c ≤ 'Z' then some (c.toNat - 65)
  else if 'a' ≤ c ∧ c ≤ 'z' then some (c.toNat - 71)
  else if c.isDigit then some (c.toNat + 4)
  else if c = '+' then some 62
  else if c = '/' then some 63
  else none

def encode : Bytes → Text
  | a :: b :: c :: t =>
    digit (a.toNat / 4) :: digit (a.toNat % 4 * 16 + b.toNat / 16) ::
      digit (b.toNat % 16 * 4 + c.toNat / 64) :: digit (c.toNat % 64) :: encode t
  | [a, b] => [digit (a.toNat / 4), digit (a.toNat % 4 * 16 + b.toNat / 16), digit (b.toNat % 16 * 4), '=']
  | [a] => [digit (a.toNat / 4), digit (a.toNat % 4 * 16), '=', '=']
  | [] => []

def wrap : Nat → Text → Text
  | col, [] => if col = 0 then [] else ['\n']
  | col, c :: t => if col + 1 = 60 then c :: '\n' :: wrap 0 t else c :: wrap (col + 1) t

def encode64 (b : Bytes) : Text := wrap 0 (encode b)

def quantum (a b c d : Nat) : Nat := 262144 * a + 4096 * b + 64 * c + d

def bytesOf (n : Nat) : Bytes := [UInt8.ofNat (n / 65536), UInt8.ofNat (n / 256), UInt8.ofNat n]

def decodeQuanta : Text → Option Bytes
  | [] => some []
  | a :: b :: '=' :: '=' :: [] => do
    return (bytesOf (quantum (← digit? a) (← digit? b) 0 0)).take 1
  | a :: b :: c :: '=' :: [] => do
    return (bytesOf (quantum (← digit? a) (← digit? b) (← digit? c) 0)).take 2
  | a :: b :: c :: d :: t => do
    let n := quantum (← digit? a) (← digit? b) (← digit? c) (← digit? d)
    return bytesOf n ++ (← decodeQuanta t)
  | _ => none

def decode (t : Text) : Option Bytes := decodeQuanta (t.filter fun c => !Text.isSpace c)

/-! ## Digits -/

theorem digit?_digit {d : Nat} (h : d < 64) : digit? (digit d) = some d := by
  have hall : ∀ d < 64, digit? (digit d) = some d := by decide
  exact hall d h

def isWritten (c : Char) : Bool := (digit? c).isSome || c == '='

theorem isWritten_digit {d : Nat} (h : d < 64) : isWritten (digit d) = true := by
  unfold isWritten
  rw [digit?_digit h]
  rfl

theorem digit_ne_eq {d : Nat} (h : d < 64) : digit d ≠ '=' := by
  intro he
  have hd := digit?_digit h
  rw [he] at hd
  cases hd

theorem not_isWritten_of_isSpace {c : Char} (h : Text.isSpace c = true) : isWritten c = false := by
  simp only [Text.isSpace, Bool.or_eq_true, beq_iff_eq] at h
  rcases h with ((((rfl | rfl) | rfl) | rfl) | rfl) | rfl
  all_goals rfl

/-! ## Reading back -/

theorem bytesOf_quantum (a b c : UInt8) :
    bytesOf (quantum (a.toNat / 4) (a.toNat % 4 * 16 + b.toNat / 16) (b.toNat % 16 * 4 + c.toNat / 64)
      (c.toNat % 64)) = [a, b, c] := by
  have ha := a.toNat_lt
  have hb := b.toNat_lt
  have hc := c.toNat_lt
  have hn : quantum (a.toNat / 4) (a.toNat % 4 * 16 + b.toNat / 16) (b.toNat % 16 * 4 + c.toNat / 64)
      (c.toNat % 64) = 65536 * a.toNat + 256 * b.toNat + c.toNat := by
    unfold quantum
    omega
  have h1 : (65536 * a.toNat + 256 * b.toNat + c.toNat) / 65536 = a.toNat := by omega
  have h2 : (65536 * a.toNat + 256 * b.toNat + c.toNat) / 256 = 256 * a.toNat + b.toNat := by omega
  have hmod : ∀ n (x : UInt8), UInt8.ofNat (256 * n + x.toNat) = x := by
    intro n x
    rw [← UInt8.toNat_inj, UInt8.toNat_ofNat', Nat.mul_add_mod, Nat.mod_eq_of_lt x.toNat_lt]
  have h3 : 65536 * a.toNat + 256 * b.toNat + c.toNat = 256 * (256 * a.toNat + b.toNat) + c.toNat := by
    omega
  rw [hn]
  unfold bytesOf
  rw [h1, h2, h3, hmod, hmod, UInt8.ofNat_toNat]

theorem decodeQuanta_cons {a b c d : Nat} (ha : a < 64) (hb : b < 64) (hc : c < 64) (hd : d < 64) (t : Text) :
    decodeQuanta (digit a :: digit b :: digit c :: digit d :: t) =
      (decodeQuanta t).map (bytesOf (quantum a b c d) ++ ·) := by
  rw [decodeQuanta]
  · rw [digit?_digit ha, digit?_digit hb, digit?_digit hc, digit?_digit hd]
    cases decodeQuanta t with
    | none => rfl
    | some b => rfl
  · intro h
    exact absurd h (digit_ne_eq hc)
  · intro h
    exact absurd h (digit_ne_eq hd)

theorem decodeQuanta_encode (b : Bytes) : decodeQuanta (encode b) = some b := by
  fun_induction encode b with
  | case1 a b c t ih =>
    have ha := a.toNat_lt
    have hb := b.toNat_lt
    have hc := c.toNat_lt
    rw [decodeQuanta_cons (by omega) (by omega) (by omega) (by omega), ih, bytesOf_quantum]
    rfl
  | case2 a b =>
    have ha := a.toNat_lt
    have hb := b.toNat_lt
    have hq : bytesOf (quantum (a.toNat / 4) (a.toNat % 4 * 16 + b.toNat / 16) (b.toNat % 16 * 4) 0) =
        [a, b, 0] := bytesOf_quantum a b 0
    rw [decodeQuanta]
    · rw [digit?_digit (by omega), digit?_digit (by omega), digit?_digit (by omega)]
      show some ((bytesOf _).take 2) = _
      rw [hq]
      rfl
    · exact digit_ne_eq (by omega)
  | case3 a =>
    have ha := a.toNat_lt
    have hq : bytesOf (quantum (a.toNat / 4) (a.toNat % 4 * 16) 0 0) = [a, 0, 0] := bytesOf_quantum a 0 0
    rw [decodeQuanta, digit?_digit (by omega), digit?_digit (by omega)]
    show some ((bytesOf _).take 1) = _
    rw [hq]
    rfl
  | case4 => rfl

theorem isWritten_encode (b : Bytes) : ∀ c ∈ encode b, isWritten c = true := by
  fun_induction encode b with
  | case1 a b c t ih =>
    have ha := a.toNat_lt
    have hb := b.toNat_lt
    have hc := c.toNat_lt
    simp only [List.forall_mem_cons]
    exact ⟨isWritten_digit (by omega), isWritten_digit (by omega), isWritten_digit (by omega),
      isWritten_digit (by omega), ih⟩
  | case2 a b =>
    have ha := a.toNat_lt
    have hb := b.toNat_lt
    simp only [List.forall_mem_cons]
    exact ⟨isWritten_digit (by omega), isWritten_digit (by omega), isWritten_digit (by omega), rfl,
      fun _ h => absurd h List.not_mem_nil⟩
  | case3 a =>
    have ha := a.toNat_lt
    simp only [List.forall_mem_cons]
    exact ⟨isWritten_digit (by omega), isWritten_digit (by omega), rfl, rfl,
      fun _ h => absurd h List.not_mem_nil⟩
  | case4 => exact fun _ h => absurd h List.not_mem_nil

/-- The lines are digits and breaks only. -/
theorem mem_wrap {col : Nat} {t : Text} {c : Char} (h : c ∈ wrap col t) : c ∈ t ∨ c = '\n' := by
  induction t generalizing col with
  | nil =>
    unfold wrap at h
    split at h
    · cases h
    · exact .inr (List.mem_singleton.mp h)
  | cons d t ih =>
    unfold wrap at h
    split at h
    · rcases List.mem_cons.mp h with rfl | h
      · exact .inl List.mem_cons_self
      · rcases List.mem_cons.mp h with rfl | h
        · exact .inr rfl
        · exact (ih h).imp_left (List.mem_cons_of_mem d)
    · rcases List.mem_cons.mp h with rfl | h
      · exact .inl List.mem_cons_self
      · exact (ih h).imp_left (List.mem_cons_of_mem d)

theorem filter_wrap {t : Text} (h : ∀ c ∈ t, Text.isSpace c = false) (col : Nat) :
    (wrap col t).filter (fun c => !Text.isSpace c) = t := by
  induction t generalizing col with
  | nil =>
    unfold wrap
    split
    · rfl
    · rfl
  | cons c t ih =>
    have hc := h c List.mem_cons_self
    have hrec := ih fun d hd => h d (List.mem_cons_of_mem c hd)
    unfold wrap
    split
    · rw [List.filter_cons_of_pos (by simp [hc]), List.filter_cons_of_neg (by decide), hrec]
    · rw [List.filter_cons_of_pos (by simp [hc]), hrec]

theorem not_isSpace_encode (b : Bytes) : ∀ c ∈ encode b, Text.isSpace c = false := by
  intro c hc
  have hw := isWritten_encode b c hc
  by_contra hs
  rw [not_isWritten_of_isSpace (by simpa using hs)] at hw
  cases hw

/-- Any text with the digits of the encoding, and blanks anywhere, is decoded. -/
theorem decode_of_filter {b : Bytes} {t : Text}
    (h : t.filter (fun c => !Text.isSpace c) = (encode64 b).filter fun c => !Text.isSpace c) :
    decode t = some b := by
  unfold decode
  rw [h, encode64, filter_wrap (not_isSpace_encode b)]
  exact decodeQuanta_encode b

/-! ## Long texts -/

theorem length_encode (b : Bytes) : (encode b).length = 4 * ((b.length + 2) / 3) := by
  fun_induction encode b with
  | case1 a b c t ih =>
    simp only [List.length_cons, ih]
    omega
  | case2 a b => simp
  | case3 a => simp
  | case4 => rfl

theorem wrap_of_le {col : Nat} (hcol : col < 60) {t : Text} (h : 60 ≤ col + t.length) :
    wrap col t = t.take (60 - col) ++ '\n' :: wrap 0 (t.drop (60 - col)) := by
  induction t generalizing col with
  | nil =>
    rw [List.length_nil] at h
    omega
  | cons c t ih =>
    rw [List.length_cons] at h
    rw [wrap]
    by_cases hc : col + 1 = 60
    · obtain rfl : col = 59 := by omega
      simp
    · have hsub : 60 - col = (60 - (col + 1)) + 1 := by omega
      rw [if_neg hc, ih (by omega) (by omega), hsub, List.take_succ_cons, List.drop_succ_cons]
      rfl

theorem mem_encode64 {b : Bytes} {c : Char} (h : c ∈ encode64 b) : isWritten c = true ∨ c = '\n' :=
  (mem_wrap h).imp_left (isWritten_encode b c)

end Base64

end Lib
