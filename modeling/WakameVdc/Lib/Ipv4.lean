import Mathlib
import WakameVdc.Lib.Text

/-!
# IPv4 addresses and prefixes

An address is 32 bits; a prefix of length `p` is the set of the addresses that
agree with it on their first `p` bits. Texts are dotted quads, with the length
after a slash.
-/

namespace Lib

abbrev Ipv4 := BitVec 32

namespace Ipv4

/-- An address and how many of its leading bits count. -/
structure Prefix where
  addr : Ipv4
  len : Nat
  deriving DecidableEq, Repr

def Prefix.contains (b : Prefix) (x : Ipv4) : Bool :=
  (List.range b.len).all fun i => x.getMsbD i == b.addr.getMsbD i

def Prefix.set (b : Prefix) : Set Ipv4 := { x | b.contains x = true }

theorem Prefix.mem_set {b : Prefix} {x : Ipv4} :
    x ∈ b.set ↔ ∀ i < b.len, x.getMsbD i = b.addr.getMsbD i := by
  simp [Prefix.set, Prefix.contains]

theorem Prefix.set_zero (a : Ipv4) : (⟨a, 0⟩ : Prefix).set = Set.univ := by
  ext x
  simp [Prefix.mem_set]

theorem Prefix.set_full (a : Ipv4) : (⟨a, 32⟩ : Prefix).set = {a} := by
  ext x
  rw [Prefix.mem_set, Set.mem_singleton_iff]
  constructor
  · intro h
    apply BitVec.eq_of_getMsbD_eq
    exact h
  · intro h i _
    rw [h]

theorem Prefix.set_ne_univ (a : Ipv4) {p : Nat} (hp : 0 < p) :
    (⟨a, p⟩ : Prefix).set ≠ Set.univ := by
  intro h
  have hx : ~~~a ∈ (⟨a, p⟩ : Prefix).set := by rw [h]; exact Set.mem_univ _
  rw [Prefix.mem_set] at hx
  have h0 := hx 0 hp
  rw [BitVec.getMsbD_not] at h0
  simp at h0

/-! ## Texts -/

/-- `a.b.c.d` -/
def quad (a : Ipv4) : Text :=
  Text.ofNat (a.toNat / 2 ^ 24) ++ '.' :: (Text.ofNat (a.toNat / 2 ^ 16 % 256) ++ '.' ::
    (Text.ofNat (a.toNat / 2 ^ 8 % 256) ++ '.' :: Text.ofNat (a.toNat % 256)))

/-- `a.b.c.d/p` -/
def withLen (a : Ipv4) (p : Nat) : Text := quad a ++ '/' :: Text.ofNat p

def ofQuad (t : Text) : Option Ipv4 :=
  match (t.splitOn '.').mapM Text.nat? with
  | some [a, b, c, d] =>
    if a < 256 ∧ b < 256 ∧ c < 256 ∧ d < 256 then
      some (BitVec.ofNat 32 (a * 2 ^ 24 + b * 2 ^ 16 + c * 2 ^ 8 + d))
    else none
  | _ => none

/-- An address with or without a length. -/
def Prefix.ofText (t : Text) : Option Prefix :=
  match t.splitOn '/' with
  | [a] => (ofQuad a).map fun a => ⟨a, 32⟩
  | [a, p] =>
    match ofQuad a, Text.nat? p with
    | some a, some p => if p ≤ 32 then some ⟨a, p⟩ else none
    | _, _ => none
  | _ => none

theorem splitOn_quad (a : Ipv4) :
    (quad a).splitOn '.' = [Text.ofNat (a.toNat / 2 ^ 24), Text.ofNat (a.toNat / 2 ^ 16 % 256),
      Text.ofNat (a.toNat / 2 ^ 8 % 256), Text.ofNat (a.toNat % 256)] := by
  unfold quad
  rw [Text.splitOn_append (Text.not_mem_ofNat rfl _), Text.splitOn_append (Text.not_mem_ofNat rfl _),
    Text.splitOn_append (Text.not_mem_ofNat rfl _), Text.splitOn_of_not_mem (Text.not_mem_ofNat rfl _)]

theorem ofQuad_quad (a : Ipv4) : ofQuad (quad a) = some a := by
  have ha := a.isLt
  unfold ofQuad
  rw [splitOn_quad]
  simp only [List.mapM_cons, List.mapM_nil, Text.nat?_ofNat, pure, bind, Option.bind_some]
  rw [if_pos (by omega)]
  congr 1
  apply BitVec.eq_of_toNat_eq
  rw [BitVec.toNat_ofNat]
  omega

theorem mem_quad {a : Ipv4} {c : Char} (h : c ∈ quad a) : c.isDigit = true ∨ c = '.' := by
  simp only [quad, List.mem_append, List.mem_cons] at h
  rcases h with h | rfl | h | rfl | h | rfl | h
  · exact Or.inl (Text.isDigit_of_mem_ofNat h)
  · exact Or.inr rfl
  · exact Or.inl (Text.isDigit_of_mem_ofNat h)
  · exact Or.inr rfl
  · exact Or.inl (Text.isDigit_of_mem_ofNat h)
  · exact Or.inr rfl
  · exact Or.inl (Text.isDigit_of_mem_ofNat h)

theorem not_mem_quad {c : Char} (hd : c.isDigit = false) (hdot : c ≠ '.') (a : Ipv4) : c ∉ quad a := by
  intro h
  rcases mem_quad h with h | h
  · rw [hd] at h; cases h
  · exact hdot h

theorem quad_ne_nil (a : Ipv4) : quad a ≠ [] := by
  unfold quad
  intro h
  simp at h

theorem isSome_of_mapM {l : List Text} {ns : List Nat} (h : l.mapM Text.nat? = some ns) :
    ∀ u ∈ l, (Text.nat? u).isSome = true := by
  induction l generalizing ns with
  | nil => exact fun u hu => nomatch hu
  | cons v l ih =>
    rw [List.mapM_cons] at h
    cases hv : Text.nat? v with
    | none => rw [hv] at h; cases h
    | some n =>
      cases hl : l.mapM Text.nat? with
      | none => rw [hv, hl] at h; cases h
      | some ms =>
        intro u hu
        rcases List.mem_cons.mp hu with rfl | hu
        · rw [hv]; rfl
        · exact ih hl u hu

theorem not_mem_of_ofQuad {t : Text} {a : Ipv4} (h : ofQuad t = some a) {c : Char}
    (hd : c.isDigit = false) (hdot : c ≠ '.') : c ∉ t := by
  intro hc
  obtain ⟨u, hu, hcu⟩ := Text.exists_mem_splitOn hdot hc
  have hnum : (Text.nat? u).isSome = true := by
    unfold ofQuad at h
    split at h
    · exact isSome_of_mapM ‹_› u hu
    · cases h
  obtain ⟨n, hn⟩ := Option.isSome_iff_exists.mp hnum
  exact Text.not_mem_of_nat? hn hd hcu

theorem not_mem_of_ofText {t : Text} {b : Prefix} (h : Prefix.ofText t = some b)
    {c : Char} (hd : c.isDigit = false) (hdot : c ≠ '.') (hslash : c ≠ '/') : c ∉ t := by
  intro hc
  obtain ⟨u, hu, hcu⟩ := Text.exists_mem_splitOn hslash hc
  unfold Prefix.ofText at h
  split at h
  · rename_i a ht
    obtain ⟨x, hx, -⟩ := Option.map_eq_some_iff.mp h
    rw [ht, List.mem_singleton] at hu
    exact not_mem_of_ofQuad (hu ▸ hx) hd hdot hcu
  · rename_i a p ht
    split at h
    · rename_i x n hx hn
      rw [ht] at hu
      simp only [List.mem_cons, List.not_mem_nil, or_false] at hu
      obtain rfl | rfl := hu
      · exact not_mem_of_ofQuad hx hd hdot hcu
      · exact Text.not_mem_of_nat? hn hd hcu
    · cases h
  · cases h

theorem ofText_of_ofQuad {t : Text} {a : Ipv4} (h : ofQuad t = some a) {p : Nat} (hp : p ≤ 32) :
    Prefix.ofText (t ++ '/' :: Text.ofNat p) = some ⟨a, p⟩ := by
  unfold Prefix.ofText
  rw [Text.splitOn_append (not_mem_of_ofQuad h rfl (by decide)),
    Text.splitOn_of_not_mem (Text.not_mem_ofNat rfl p)]
  simp only [h, Text.nat?_ofNat, if_pos hp]

theorem len_le_of_ofText {t : Text} {b : Prefix} (h : Prefix.ofText t = some b) : b.len ≤ 32 := by
  unfold Prefix.ofText at h
  split at h
  · obtain ⟨a, -, rfl⟩ := Option.map_eq_some_iff.mp h
    exact Nat.le_refl 32
  · split at h
    · split at h
      · cases h
        assumption
      · cases h
    · cases h
  · cases h

theorem ofText_withLen (a : Ipv4) {p : Nat} (hp : p ≤ 32) :
    Prefix.ofText (withLen a p) = some ⟨a, p⟩ := by
  unfold Prefix.ofText withLen
  rw [Text.splitOn_append (not_mem_quad rfl (by decide) a),
    Text.splitOn_of_not_mem (Text.not_mem_ofNat rfl p)]
  simp only [ofQuad_quad, Text.nat?_ofNat, if_pos hp]

theorem ofText_quad (a : Ipv4) : Prefix.ofText (quad a) = some ⟨a, 32⟩ := by
  unfold Prefix.ofText
  rw [Text.splitOn_of_not_mem (not_mem_quad rfl (by decide) a)]
  simp only [ofQuad_quad, Option.map_some]

end Ipv4

end Lib
