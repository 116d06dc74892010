import WakameVdc.Lib.Base64

/-!
# Lines of a shell script

The lines a filter reads, the ranges of lines `sed` takes out of a text, and what `$(..)` and
`echo` do to the bytes that pass through them.
-/

namespace Lib

namespace Script

open Text (Bytes)

/-! ## Lines -/

def lines : Text → List Text
  | [] => []
  | c :: t =>
    if c = '\n' then [c] :: lines t
    else match lines t with
      | [] => [[c]]
      | l :: ls => (c :: l) :: ls

/-- The lines to the first one with `p`, which is among them. -/
def through (p : Text → Bool) : List Text → List Text
  | [] => []
  | l :: ls => if p l then [l] else l :: through p ls

def past (p : Text → Bool) : List Text → List Text
  | [] => []
  | l :: ls => if p l then ls else past p ls

/-- `sed -n '1,/../p'`: the end of the range is looked for from the second line on. -/
def printFirst (p : Text → Bool) : List Text → List Text
  | [] => []
  | l :: ls => l :: through p ls

/-- `sed '1,/../d'` -/
def deleteFirst (p : Text → Bool) : List Text → List Text
  | [] => []
  | _ :: ls => past p ls

/-! ## Bytes -/

def newline : UInt8 := 10

def substituted (b : Bytes) : Bytes := (b.filter (· != 0)).rdropWhile (· == newline)

/-- What `echo` takes for options: a dash and letters of `n`, `e` and `E`. -/
def isOption : Bytes → Bool
  | 45 :: b => !b.isEmpty && b.all fun x => x == 110 || x == 101 || x == 69
  | _ => false

def echo (b : Bytes) : Bytes :=
  if isOption b then (if b.contains 110 then [] else [newline]) else b ++ [newline]

/-! ## Ranges -/

section
variable {p : Text → Bool} {t u : Text} {ls : List Text}

theorem through_append (h : ∀ l ∈ ls, p l = false) {l : Text} (hl : p l = true) (ms : List Text) :
    through p (ls ++ l :: ms) = ls ++ [l] := by
  induction ls with
  | nil => exact if_pos hl
  | cons x ls ih =>
    rw [List.cons_append, through, if_neg (by simp [h x List.mem_cons_self]),
      ih fun y hy => h y (List.mem_cons_of_mem x hy)]
    rfl

theorem past_append (h : ∀ l ∈ ls, p l = false) {l : Text} (hl : p l = true) (ms : List Text) :
    past p (ls ++ l :: ms) = ms := by
  induction ls with
  | nil => exact if_pos hl
  | cons x ls ih =>
    rw [List.cons_append, past, if_neg (by simp [h x List.mem_cons_self])]
    exact ih fun y hy => h y (List.mem_cons_of_mem x hy)

theorem flatten_lines (t : Text) : (lines t).flatten = t := by
  fun_induction lines t with
  | case1 => rfl
  | case2 t ih => simp [ih]
  | case3 c t _ h ih =>
    rw [h] at ih
    rw [← ih]
    rfl
  | case4 c t _ l ls h ih =>
    rw [h] at ih
    rw [← ih]
    rfl

theorem lines_ne_nil (h : t ≠ []) : lines t ≠ [] := by
  intro hl
  rw [← flatten_lines t, hl] at h
  exact h rfl

theorem subset_of_mem_lines {l : Text} (h : l ∈ lines t) : l ⊆ t := by
  intro c hc
  rw [← flatten_lines t]
  exact List.mem_flatten.mpr ⟨l, h, hc⟩

theorem lines_append (t u : Text) : lines (t ++ '\n' :: u) = lines (t ++ ['\n']) ++ lines u := by
  induction t with
  | nil => rfl
  | cons c t ih =>
    rw [List.cons_append, List.cons_append, lines, lines, ih]
    by_cases hc : c = '\n'
    · rw [if_pos hc, if_pos hc]
      rfl
    · rw [if_neg hc, if_neg hc]
      obtain ⟨l, ls, hl⟩ := List.exists_cons_of_ne_nil (lines_ne_nil (t := t ++ ['\n']) (by simp))
      rw [hl]
      rfl

theorem lines_line {l : Text} (hn : '\n' ∉ l) : lines (l ++ ['\n']) = [l ++ ['\n']] := by
  induction l with
  | nil => rfl
  | cons c l ih =>
    have hc : c ≠ '\n' := fun he => hn (he ▸ List.mem_cons_self)
    rw [List.cons_append, lines, if_neg hc, ih fun h => hn (List.mem_cons_of_mem c h)]

section
variable (ht : ∀ l ∈ lines (t ++ ['\n']), p l = false) {l : Text} (hn : '\n' ∉ l)
  (hl : p (l ++ ['\n']) = true)
include ht hn hl

/-- A text whose first part has no line with `p`, the line, and the rest. -/
theorem printFirst_lines :
    (printFirst p (lines (t ++ '\n' :: (l ++ '\n' :: u)))).flatten = t ++ '\n' :: (l ++ ['\n']) := by
  rw [lines_append, lines_append l u, lines_line hn]
  have hflat : (lines (t ++ ['\n'])).flatten = t ++ ['\n'] := flatten_lines _
  cases hs : lines (t ++ ['\n']) with
  | nil => exact absurd hs (lines_ne_nil (by simp))
  | cons x xs =>
    rw [hs] at ht hflat
    show (x :: through p (xs ++ (l ++ ['\n']) :: lines u)).flatten = _
    rw [through_append (fun y hy => ht y (List.mem_cons_of_mem x hy)) hl, ← List.cons_append,
      List.flatten_append, hflat]
    simp

theorem deleteFirst_lines :
    (deleteFirst p (lines (t ++ '\n' :: (l ++ '\n' :: u)))).flatten = u := by
  rw [lines_append, lines_append l u, lines_line hn]
  cases hs : lines (t ++ ['\n']) with
  | nil => exact absurd hs (lines_ne_nil (by simp))
  | cons x xs =>
    rw [hs] at ht
    show (past p (xs ++ (l ++ ['\n']) :: lines u)).flatten = u
    rw [past_append (fun y hy => ht y (List.mem_cons_of_mem x hy)) hl, flatten_lines]

end

/-! ## What is written -/

/-- A text with one line break at its end, no zero and no option is written as it is. -/
theorem echo_substituted {b : Bytes} (hz : (0 : UInt8) ∉ b) (hn : b.getLast? ≠ some newline)
    (ho : isOption b = false) : echo (substituted (b ++ [newline])) = b ++ [newline] := by
  have hkeep : (b ++ [newline]).filter (· != 0) = b ++ [newline] := by
    rw [List.filter_eq_self]
    intro x hx
    rw [bne_iff_ne]
    rintro rfl
    rcases List.mem_append.mp hx with hx | hx
    · exact hz hx
    · cases List.mem_singleton.mp hx
  have hdrop : (b ++ [newline]).rdropWhile (· == newline) = b := by
    rw [List.rdropWhile_concat_pos _ _ _ (by rfl), List.rdropWhile_eq_self_iff]
    intro hb hl
    apply hn
    rw [List.getLast?_eq_some_getLast hb, beq_iff_eq.mp hl]
  unfold substituted echo
  rw [hkeep, hdrop, if_neg (by rw [ho]; exact Bool.false_ne_true)]

end

end Script

end Lib
