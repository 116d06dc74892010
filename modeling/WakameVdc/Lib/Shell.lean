import Mathlib.Algebra.Order.Ring.Nat
import Mathlib.Logic.Function.Basic
import Mathlib.Tactic.SplitIfs
import WakameVdc.Lib.Text

/-!
# Assignments of the POSIX shell

A text is read character by character, with the quoting rules of the shell. It is evaluated
only if it is made of assignments with literal values: a command, an operator, an expansion
or a quote that is not closed gives `none`. A `$` that starts no expansion is itself. Every
character of a value is one of the text (`weight_step`), which bounds what a text of a given
length can assign.
-/

namespace Lib

namespace Shell

abbrev Assignment := Text × Text

abbrev singleQuote : Char := '\x27'

abbrev doubleQuote : Char := '\x22'

abbrev backquote : Char := '\x60'

inductive Quote
  /-- Outside of quotes; `tilde` where a `~` would be expanded. -/
  | plain (tilde : Bool)
  | single
  | double
  deriving DecidableEq, Repr

inductive Mode
  /-- Between two words; `command` after the first word of a command. -/
  | start (command : Bool)
  | comment
  | name (n : Text)
  | value (n v : Text) (q : Quote)
  deriving DecidableEq, Repr

/-- `escaped` after a backslash, `dollar` after a `$` that may start an expansion. -/
structure State where
  assigned : List Assignment
  mode : Mode
  escaped : Bool
  dollar : Bool
  deriving DecidableEq, Repr

def isBlank (c : Char) : Bool := c == ' ' || c == '\t'

def isNameStart (c : Char) : Bool := c.isAlpha || c == '_'

def isSpecial (c : Char) : Bool := c == '$' || c == backquote || c == doubleQuote || c == '\\'

def specialParameters : List Char := ['@', '*', '#', '?', '-', '$', '!']

/-- What makes an expansion of the `$` before it; a `$` before anything else is itself. -/
def isExpansion (c : Char) : Bool :=
  isNameStart c || c.isDigit || c == '{' || c == '(' || specialParameters.contains c

def isOperator (c : Char) : Bool :=
  c == '&' || c == '|' || c == '<' || c == '>' || c == '(' || c == ')'

namespace State

def init : State := ⟨[], .start false, false, false⟩

def enter (s : State) (mode : Mode) : Option State :=
  some { s with mode, escaped := false, dollar := false }

/-- A `$` belongs to the value unless the next character makes an expansion of it. -/
def enterDollar (s : State) (n v : Text) (q : Quote) : Option State :=
  some { s with mode := .value n (v ++ ['$']) q, dollar := true }

def escape (s : State) : Option State := some { s with escaped := true }

def push (s : State) (n v : Text) (mode : Mode) : Option State :=
  some ⟨s.assigned ++ [(n, v)], mode, false, false⟩

def plainStep (s : State) (n v : Text) (tilde : Bool) (c : Char) : Option State :=
  if c = '\n' ∨ c = ';' then s.push n v (.start false)
  else if isBlank c then s.push n v (.start true)
  else if c = singleQuote then s.enter (.value n v .single)
  else if c = doubleQuote then s.enter (.value n v .double)
  else if c = '\\' then s.escape
  else if c = '$' then s.enterDollar n v (.plain false)
  else if c = backquote ∨ isOperator c ∨ c = '~' ∧ tilde then none
  else s.enter (.value n (v ++ [c]) (.plain (c == ':')))

def singleStep (s : State) (n v : Text) (c : Char) : Option State :=
  if c = singleQuote then s.enter (.value n v (.plain false))
  else s.enter (.value n (v ++ [c]) .single)

def doubleStep (s : State) (n v : Text) (c : Char) : Option State :=
  if c = doubleQuote then s.enter (.value n v (.plain false))
  else if c = '\\' then s.escape
  else if c = '$' then s.enterDollar n v .double
  else if c = backquote then none
  else s.enter (.value n (v ++ [c]) .double)

def startStep (s : State) (command : Bool) (c : Char) : Option State :=
  if c = '\n' then s.enter (.start false)
  else if isBlank c then some s
  else if c = ';' then if command then s.enter (.start false) else none
  else if c = '#' then s.enter .comment
  else if isNameStart c then s.enter (.name [c])
  else if c = '\\' then s.escape
  else none

def commentStep (s : State) (c : Char) : Option State :=
  if c = '\n' then s.enter (.start false) else some s

def nameStep (s : State) (n : Text) (c : Char) : Option State :=
  if Text.isWord c then s.enter (.name (n ++ [c]))
  else if c = '=' then s.enter (.value n [] (.plain true))
  else if c = '\\' then s.escape
  else none

def escapedStep (s : State) (c : Char) : Option State :=
  if c = '\n' then some { s with escaped := false }
  else
    match s.mode with
    | .value n v (.plain _) => s.enter (.value n (v ++ [c]) (.plain false))
    | .value n v .double =>
      if isSpecial c then s.enter (.value n (v ++ [c]) .double)
      else s.enter (.value n (v ++ ['\\', c]) .double)
    | _ => none

def step (s : State) (c : Char) : Option State :=
  if c = '\x00' then none
  else if s.escaped then s.escapedStep c
  else if s.dollar && isExpansion c then none
  else
    match s.mode with
    | .start command => s.startStep command c
    | .comment => s.commentStep c
    | .name n => s.nameStep n c
    | .value n v (.plain tilde) => s.plainStep n v tilde c
    | .value n v .single => s.singleStep n v c
    | .value n v .double => s.doubleStep n v c

def finish (s : State) : Option (List Assignment) :=
  if s.escaped then none
  else
    match s.mode with
    | .start _ | .comment => some s.assigned
    | .value n v (.plain _) => some (s.assigned ++ [(n, v)])
    | _ => none

end State

def evaluate (t : Text) : Option (List Assignment) := t.foldlM State.step State.init >>= State.finish

def assign (env : Text → Option Text) (as : List Assignment) : Text → Option Text :=
  as.foldl (fun env a => Function.update env a.1 (some a.2)) env

def IsName (n : Text) : Prop := ∃ c t, n = c :: t ∧ isNameStart c = true ∧ ∀ x ∈ t, Text.isWord x = true

/-! ## How much a text assigns -/

def plainLength (t : Text) : Nat := t.countP (· ≠ singleQuote)

@[simp] theorem plainLength_nil : plainLength [] = 0 := rfl

@[simp] theorem plainLength_append (t u : Text) :
    plainLength (t ++ u) = plainLength t + plainLength u := List.countP_append

theorem plainLength_cons (c : Char) (t : Text) :
    plainLength (c :: t) = plainLength t + if c = singleQuote then 0 else 1 := by
  unfold plainLength
  rw [List.countP_cons]
  split_ifs with h1 h2 h2
  · simp [h2] at h1
  · rfl
  · rfl
  · simp [h2] at h1

def Assignment.cost (a : Assignment) : Nat := a.1.length + plainLength a.2 + 2

def Assignment.quotes (a : Assignment) : Bool := a.2.contains singleQuote

def total (as : List Assignment) : Nat := (as.map Assignment.cost).sum

def extra (as : List Assignment) : Nat := if as.any Assignment.quotes then 1 else 0

def Mode.weight (as : List Assignment) : Mode → Nat
  | .start _ => extra as
  | .comment => extra as
  | .name n => n.length + extra as
  | .value n v .double => n.length + plainLength v + 2
  | .value n v _ => n.length + plainLength v + 1 + extra (as ++ [(n, v)])

def State.weight (s : State) : Nat :=
  total s.assigned + s.mode.weight s.assigned + if s.escaped then 1 else 0

@[simp] theorem total_append (as bs : List Assignment) : total (as ++ bs) = total as + total bs := by
  simp [total]

@[simp] theorem total_singleton (a : Assignment) : total [a] = a.cost := by simp [total]

theorem extra_le_one (as : List Assignment) : extra as ≤ 1 := by
  unfold extra
  split_ifs <;> omega

@[simp] theorem extra_append (as bs : List Assignment) :
    extra (as ++ bs) = max (extra as) (extra bs) := by
  unfold extra
  rw [List.any_append]
  cases as.any Assignment.quotes <;> cases bs.any Assignment.quotes <;> rfl

@[simp] theorem extra_empty (n : Text) : extra [(n, [])] = 0 := rfl

@[simp] theorem extra_value (n v w : Text) :
    extra [(n, v ++ w)] = max (extra [(n, v)]) (extra [(n, w)]) := by
  simp only [extra, List.any_cons, List.any_nil, Bool.or_false, Assignment.quotes,
    List.contains_eq_mem, List.mem_append, Bool.decide_or]
  cases decide (singleQuote ∈ v) <;> cases decide (singleQuote ∈ w) <;> rfl

theorem extra_char (n : Text) (c : Char) : extra [(n, [c])] = if c = singleQuote then 1 else 0 := by
  by_cases hc : c = singleQuote
  · subst hc
    rfl
  · have hc' : singleQuote ≠ c := fun h => hc h.symm
    simp [extra, Assignment.quotes, hc, hc']

theorem plainLength_char (c : Char) : plainLength [c] = if c = singleQuote then 0 else 1 := by
  rw [plainLength_cons, plainLength_nil, Nat.zero_add]

def charCost (c : Char) : Nat := if c = singleQuote then 0 else 1

theorem charCost_of_ne {c : Char} (h : c ≠ singleQuote) : charCost c = 1 := if_neg h

/-- A character of a value takes one of the text, and a single quote another one. -/
theorem value_char (as : List Assignment) (n v : Text) (c : Char) :
    plainLength (v ++ [c]) + extra (as ++ [(n, v ++ [c])]) ≤ plainLength v + 1 + charCost c := by
  have h1 := extra_le_one as
  have h2 := extra_le_one [(n, v)]
  simp only [plainLength_append, plainLength_char, extra_append, extra_value, extra_char, charCost]
  split_ifs <;> omega

theorem value_char_of_ne (as : List Assignment) (n v : Text) {c : Char} (h : c ≠ singleQuote) :
    plainLength (v ++ [c]) + extra (as ++ [(n, v ++ [c])]) =
      plainLength v + extra (as ++ [(n, v)]) + 1 := by
  simp only [plainLength_append, plainLength_char, extra_append, extra_value, extra_char, if_neg h]
  omega

namespace State

variable {s s' : State} {c : Char}

theorem weight_of_enter {mode : Mode} (h : s.enter mode = some s') :
    s'.weight = total s.assigned + mode.weight s.assigned := by
  cases h
  rfl

theorem weight_of_enterDollar {n v : Text} {q : Quote} (he : s.escaped = false)
    (h : s.enterDollar n v q = some s') :
    s'.weight = total s.assigned + (Mode.value n (v ++ ['$']) q).weight s.assigned := by
  cases h
  simp [weight, he]

theorem weight_of_escape (he : s.escaped = false) (h : s.escape = some s') :
    s'.weight = s.weight + 1 := by
  cases h
  simp [weight, he]

theorem weight_of_push {n v : Text} {command : Bool}
    (h : s.push n v (.start command) = some s') :
    s'.weight = total s.assigned + (n.length + plainLength v + 2) + extra (s.assigned ++ [(n, v)]) := by
  cases h
  simp [weight, Mode.weight, Assignment.cost]

theorem weight_plainStep {n v : Text} {tilde : Bool} (hm : s.mode = .value n v (.plain tilde))
    (he : s.escaped = false) (h : s.plainStep n v tilde c = some s') :
    s'.weight ≤ s.weight + charCost c := by
  have hw : s.weight = total s.assigned + (n.length + plainLength v + 1 +
      extra (s.assigned ++ [(n, v)])) := by simp [weight, hm, he, Mode.weight]
  unfold plainStep at h
  split_ifs at h with hsep hblank hsingle hdouble hback hdollar
  · have hc : charCost c = 1 := by
      rcases hsep with rfl | rfl <;> rfl
    rw [weight_of_push h, hw, hc]
    omega
  · have hc : charCost c = 1 := charCost_of_ne fun h => by
      rw [h] at hblank
      exact absurd hblank (by decide)
    rw [weight_of_push h, hw, hc]
    omega
  · rw [weight_of_enter h, hw, Mode.weight]
    · exact Nat.le_add_right _ _
    · exact nofun
  · rw [weight_of_enter h, hw, Mode.weight, charCost_of_ne hsingle]
    omega
  · rw [weight_of_escape he h, charCost_of_ne hsingle]
  · rw [hdollar] at hsingle ⊢
    rw [weight_of_enterDollar he h, hw, Mode.weight, charCost_of_ne hsingle]
    · have := value_char_of_ne s.assigned n v hsingle
      omega
    · exact nofun
  · rw [weight_of_enter h, hw, Mode.weight, charCost_of_ne hsingle]
    · have := value_char_of_ne s.assigned n v hsingle
      omega
    · exact nofun

theorem weight_doubleStep {n v : Text} (hm : s.mode = .value n v .double) (he : s.escaped = false)
    (h : s.doubleStep n v c = some s') : s'.weight ≤ s.weight + charCost c := by
  have hw : s.weight = total s.assigned + (n.length + plainLength v + 2) := by
    simp [weight, hm, he, Mode.weight]
  unfold doubleStep at h
  split_ifs at h with hdouble hback hdollar
  · have h1 := extra_le_one (s.assigned ++ [(n, v)])
    rw [weight_of_enter h, hw, Mode.weight]
    · omega
    · exact nofun
  · rw [weight_of_escape he h, hback]
    exact Nat.le_refl _
  · rw [hdollar, weight_of_enterDollar he h, hw, Mode.weight, plainLength_append, plainLength_char,
      charCost]
    omega
  · rw [weight_of_enter h, hw, Mode.weight, plainLength_append, plainLength_char, charCost]
    omega

theorem weight_singleStep {n v : Text} (hm : s.mode = .value n v .single) (he : s.escaped = false)
    (h : s.singleStep n v c = some s') : s'.weight ≤ s.weight + charCost c := by
  have hw : s.weight = total s.assigned + (n.length + plainLength v + 1 +
      extra (s.assigned ++ [(n, v)])) := by simp [weight, hm, he, Mode.weight]
  unfold singleStep at h
  split_ifs at h with hclose
  · rw [weight_of_enter h, hw, Mode.weight]
    · exact Nat.le_add_right _ _
    · exact nofun
  · rw [weight_of_enter h, hw, Mode.weight, charCost_of_ne hclose]
    · have := value_char_of_ne s.assigned n v hclose
      omega
    · exact nofun

theorem weight_commentStep (hm : s.mode = .comment) (he : s.escaped = false)
    (h : s.commentStep c = some s') : s'.weight ≤ s.weight + charCost c := by
  unfold commentStep at h
  split_ifs at h with hline
  · rw [weight_of_enter h, weight, hm, he]
    exact Nat.le_add_right _ _
  · cases h
    exact Nat.le_add_right _ _

theorem weight_startStep {command : Bool} (hm : s.mode = .start command) (he : s.escaped = false)
    (h : s.startStep command c = some s') : s'.weight ≤ s.weight + charCost c := by
  have hw : s.weight = total s.assigned + extra s.assigned := by simp [weight, hm, he, Mode.weight]
  unfold startStep at h
  split_ifs at h with hline hblank hsep hcommand hcomment hname hback
  · rw [weight_of_enter h, hw]
    exact Nat.le_add_right _ _
  · cases h
    exact Nat.le_add_right _ _
  · rw [weight_of_enter h, hw]
    exact Nat.le_add_right _ _
  · rw [weight_of_enter h, hw]
    exact Nat.le_add_right _ _
  · have hc : charCost c = 1 := charCost_of_ne fun h => by
      rw [h] at hname
      exact absurd hname (by decide)
    rw [weight_of_enter h, hw, Mode.weight, hc, List.length_singleton]
    omega
  · rw [weight_of_escape he h, hback]
    exact Nat.le_refl _

theorem weight_nameStep {n : Text} (hm : s.mode = .name n) (he : s.escaped = false)
    (h : s.nameStep n c = some s') : s'.weight ≤ s.weight + charCost c := by
  have hw : s.weight = total s.assigned + (n.length + extra s.assigned) := by
    simp [weight, hm, he, Mode.weight]
  unfold nameStep at h
  split_ifs at h with hword hassign hback
  · have hc : charCost c = 1 := charCost_of_ne fun h => by
      rw [h] at hword
      exact absurd hword (by decide)
    rw [weight_of_enter h, hw, Mode.weight, hc, List.length_append, List.length_singleton]
    omega
  · have hc : charCost c = 1 := by
      rw [hassign]
      rfl
    rw [weight_of_enter h, hw, Mode.weight, hc, plainLength_nil, extra_append, extra_empty]
    · omega
    · exact nofun
  · rw [weight_of_escape he h, hback]
    exact Nat.le_refl _

theorem weight_escapedStep (he : s.escaped = true) (h : s.escapedStep c = some s') :
    s'.weight ≤ s.weight + charCost c := by
  have hw : s.weight = total s.assigned + s.mode.weight s.assigned + 1 := by simp [weight, he]
  unfold escapedStep at h
  split at h
  · cases h
    rw [hw, weight]
    simp only [Bool.false_eq_true, if_false, Nat.add_zero]
    omega
  · split at h
    · rename_i n v tilde hm
      rw [hm, Mode.weight] at hw
      · rw [weight_of_enter h, hw, Mode.weight]
        · have := value_char s.assigned n v c
          omega
        · exact nofun
      · exact nofun
    · rename_i n v hm
      rw [hm, Mode.weight] at hw
      split_ifs at h with hspecial
      · rw [weight_of_enter h, hw, Mode.weight, plainLength_append, plainLength_char, charCost]
        omega
      · rw [weight_of_enter h, hw, Mode.weight, plainLength_append, plainLength_cons,
          plainLength_char, charCost, if_neg (show '\\' ≠ singleQuote by decide)]
        omega
    · cases h

theorem weight_step (h : s.step c = some s') : s'.weight ≤ s.weight + charCost c := by
  unfold step at h
  split_ifs at h with hnul he hdollar
  · exact weight_escapedStep he h
  · rw [Bool.not_eq_true] at he
    split at h
    · exact weight_startStep ‹_› he h
    · exact weight_commentStep ‹_› he h
    · exact weight_nameStep ‹_› he h
    · exact weight_plainStep ‹_› he h
    · exact weight_singleStep ‹_› he h
    · exact weight_doubleStep ‹_› he h

/-- Along the text the weight grows by its characters other than single quotes. -/
theorem weight_foldlM {t : Text} (h : t.foldlM step s = some s') :
    s'.weight ≤ s.weight + plainLength t := by
  induction t generalizing s with
  | nil =>
    cases h
    exact Nat.le_add_right _ _
  | cons c t ih =>
    rw [List.foldlM_cons] at h
    obtain ⟨s₁, hs, h⟩ := Option.bind_eq_some_iff.mp h
    have h1 := weight_step hs
    have h2 := ih h
    rw [plainLength_cons]
    rw [charCost] at h1
    omega

theorem weight_finish {as : List Assignment} (h : s.finish = some as) :
    total as + extra as ≤ s.weight + 1 := by
  unfold finish at h
  split_ifs at h with he
  rw [Bool.not_eq_true] at he
  split at h
  · cases h
    simp [weight, *, Mode.weight]
  · cases h
    simp [weight, *, Mode.weight]
  · rename_i n v tilde hm
    cases h
    simp only [weight, hm, he, Mode.weight, total_append, total_singleton, Assignment.cost]
    omega
  · cases h

theorem not_nul_of_foldlM {t : Text} (h : t.foldlM step s = some s') : '\x00' ∉ t := by
  induction t generalizing s with
  | nil => exact List.not_mem_nil
  | cons c t ih =>
    rw [List.foldlM_cons] at h
    obtain ⟨s₁, hs, h⟩ := Option.bind_eq_some_iff.mp h
    rw [List.mem_cons, not_or]
    refine ⟨?_, ih h⟩
    rintro rfl
    cases hs

/-! ## Quoted assignments -/

theorem foldlM_cons_of_step (h : s.step c = some s') (t : Text) :
    (c :: t).foldlM step s = t.foldlM step s' := by
  rw [List.foldlM_cons, h, Option.bind_eq_bind, Option.bind_some]

theorem foldlM_append_of_some {t : Text} (h : t.foldlM step s = some s') (u : Text) :
    (t ++ u).foldlM step s = u.foldlM step s' := by
  rw [List.foldlM_append, h, Option.bind_eq_bind, Option.bind_some]

variable {as : List Assignment} {n v : Text}

theorem foldlM_name {t : Text} (h : ∀ c ∈ t, Text.isWord c = true) (u : Text) :
    t.foldlM step ⟨as, .name u, false, false⟩ = some ⟨as, .name (u ++ t), false, false⟩ := by
  induction t generalizing u with
  | nil => rw [List.append_nil]; rfl
  | cons c t ih =>
    have hc := h c List.mem_cons_self
    have hnul : c ≠ '\x00' := by
      rintro rfl
      exact absurd hc (by decide)
    have hstep : step ⟨as, .name u, false, false⟩ c =
        some ⟨as, .name (u ++ [c]), false, false⟩ := by
      simp [step, nameStep, enter, hc, hnul]
    rw [foldlM_cons_of_step hstep, ih (fun x hx => h x (List.mem_cons_of_mem _ hx)),
      List.append_assoc]
    rfl

theorem foldlM_single {t : Text} (hq : singleQuote ∉ t) (h0 : '\x00' ∉ t) (u : Text) :
    t.foldlM step ⟨as, .value n u .single, false, false⟩ =
      some ⟨as, .value n (u ++ t) .single, false, false⟩ := by
  induction t generalizing u with
  | nil => rw [List.append_nil]; rfl
  | cons c t ih =>
    rw [List.mem_cons, not_or] at hq h0
    have hstep : step ⟨as, .value n u .single, false, false⟩ c =
        some ⟨as, .value n (u ++ [c]) .single, false, false⟩ := by
      simp [step, singleStep, enter, Ne.symm hq.1, Ne.symm h0.1]
    rw [foldlM_cons_of_step hstep, ih hq.2 h0.2, List.append_assoc]
    rfl

end State

def quoted (a : Assignment) : Text := a.1 ++ '=' :: singleQuote :: a.2 ++ [singleQuote]

theorem foldlM_quoted {as : List Assignment} {a : Assignment} (hn : IsName a.1)
    (hq : singleQuote ∉ a.2) (h0 : '\x00' ∉ a.2) :
    (quoted a).foldlM State.step ⟨as, .start false, false, false⟩ =
      some ⟨as, .value a.1 a.2 (.plain false), false, false⟩ := by
  obtain ⟨n, v⟩ := a
  obtain ⟨c, t, rfl, hc, ht⟩ := hn
  have hstart : State.step ⟨as, .start false, false, false⟩ c =
      some ⟨as, .name [c], false, false⟩ := by
    have hne : ∀ d, isNameStart d = false → c ≠ d := by
      rintro d hd rfl
      rw [hc] at hd
      cases hd
    have hblank : isBlank c = false := by
      simp [isBlank, hne ' ' (by decide), hne '\t' (by decide)]
    simp [State.step, State.startStep, State.enter, hne '\x00' (by decide), hne '\n' (by decide),
      hne ';' (by decide), hne '#' (by decide), hblank, hc]
  have hassign : State.step ⟨as, .name ([c] ++ t), false, false⟩ '=' =
      some ⟨as, .value (c :: t) [] (.plain true), false, false⟩ := rfl
  have hopen : State.step ⟨as, .value (c :: t) [] (.plain true), false, false⟩ singleQuote =
      some ⟨as, .value (c :: t) [] .single, false, false⟩ := rfl
  have hsplit : quoted (c :: t, v) = c :: (t ++ '=' :: singleQuote :: (v ++ [singleQuote])) := by
    simp [quoted]
  rw [hsplit, State.foldlM_cons_of_step hstart,
    State.foldlM_append_of_some (State.foldlM_name ht [c]), State.foldlM_cons_of_step hassign,
    State.foldlM_cons_of_step hopen, State.foldlM_append_of_some (State.foldlM_single hq h0 [])]
  rfl

/-- Quoted assignments on lines of their own are what the text assigns. -/
theorem evaluate_lines {as : List Assignment}
    (h : ∀ a ∈ as, IsName a.1 ∧ singleQuote ∉ a.2 ∧ '\x00' ∉ a.2) :
    evaluate (List.intercalate ['\n'] (as.map quoted)) = some as := by
  have hlines : ∀ before : List Assignment,
      (List.intercalate ['\n'] (as.map quoted)).foldlM State.step
        ⟨before, .start false, false, false⟩ >>= State.finish = some (before ++ as) := by
    induction as with
    | nil => exact fun before => by rw [List.append_nil]; rfl
    | cons a as ih =>
      intro before
      obtain ⟨hn, hq, h0⟩ := h a List.mem_cons_self
      cases as with
      | nil =>
        rw [List.map_cons, List.map_nil, List.intercalate_singleton, foldlM_quoted hn hq h0]
        rfl
      | cons b as =>
        have hline : State.step ⟨before, .value a.1 a.2 (.plain false), false, false⟩ '\n' =
            some ⟨before ++ [a], .start false, false, false⟩ := rfl
        have ih' := ih (fun x hx => h x (List.mem_cons_of_mem _ hx)) (before ++ [a])
        rw [List.map_cons, List.map_cons, List.intercalate_cons_cons, ← List.map_cons,
          List.append_assoc, State.foldlM_append_of_some (foldlM_quoted hn hq h0), List.singleton_append,
          State.foldlM_cons_of_step hline, ih', List.append_assoc, List.singleton_append]
  exact hlines []

theorem total_evaluate {t : Text} {as : List Assignment} (h : evaluate t = some as) :
    total as + extra as ≤ plainLength t + 1 := by
  obtain ⟨s, hs, hf⟩ := Option.bind_eq_some_iff.mp h
  have h1 := State.weight_foldlM hs
  have h2 := State.weight_finish hf
  have h0 : State.init.weight = 0 := rfl
  omega

theorem not_nul_of_evaluate {t : Text} {as : List Assignment} (h : evaluate t = some as) :
    '\x00' ∉ t := by
  obtain ⟨s, hs, _⟩ := Option.bind_eq_some_iff.mp h
  exact State.not_nul_of_foldlM hs

theorem IsName.singleQuote_notMem {n : Text} (h : IsName n) : singleQuote ∉ n := by
  obtain ⟨c, t, rfl, hc, ht⟩ := h
  intro hmem
  rcases List.mem_cons.mp hmem with rfl | hmem
  · exact absurd hc (by decide)
  · exact absurd (ht _ hmem) (by decide)

theorem mem_lines {as : List Assignment} {a : Assignment} (ha : a ∈ as) {c : Char} (hc : c ∈ a.2) :
    c ∈ List.intercalate ['\n'] (as.map quoted) := by
  have hquoted : c ∈ quoted a := by simp [quoted, hc]
  induction as with
  | nil => cases ha
  | cons b as ih =>
    cases as with
    | nil =>
      obtain rfl := List.mem_singleton.mp ha
      rw [List.map_singleton, List.intercalate_singleton]
      exact hquoted
    | cons d as =>
      rw [List.map_cons, List.map_cons, List.intercalate_cons_cons, ← List.map_cons, List.mem_append,
        List.mem_append]
      rcases List.mem_cons.mp ha with rfl | ha
      · exact .inl (.inl hquoted)
      · exact .inr (ih ha)

theorem plainLength_lines {as : List Assignment} (hne : as ≠ [])
    (hn : ∀ a ∈ as, singleQuote ∉ a.1) :
    plainLength (List.intercalate ['\n'] (as.map quoted)) + 1 = total as := by
  have hquoted : ∀ a : Assignment, singleQuote ∉ a.1 → plainLength (quoted a) + 1 = a.cost := by
    intro a ha
    have hlen : plainLength a.1 = a.1.length := by
      refine List.countP_eq_length.mpr fun c hc => ?_
      rw [decide_eq_true_eq]
      rintro rfl
      exact ha hc
    simp only [quoted, plainLength_append, plainLength_cons, plainLength_nil, hlen,
      Assignment.cost]
    simp only [show '=' ≠ singleQuote by decide, if_true, if_false]
    omega
  induction as with
  | nil => exact absurd rfl hne
  | cons a as ih =>
    have ha := hquoted a (hn a List.mem_cons_self)
    cases as with
    | nil => simpa [total] using ha
    | cons b as =>
      have ih' := ih (List.cons_ne_nil _ _) fun x hx => hn x (List.mem_cons_of_mem _ hx)
      rw [List.map_cons] at ih'
      have htotal : total (a :: b :: as) = a.cost + total (b :: as) := rfl
      rw [List.map_cons, List.map_cons, List.intercalate_cons_cons, plainLength_append,
        plainLength_append, plainLength_char, if_neg (by decide), htotal, ← ih', ← ha]
      omega

/-! ## The variables after the assignments -/

theorem assign_append (env : Text → Option Text) (as bs : List Assignment) :
    assign env (as ++ bs) = assign (assign env as) bs := List.foldl_append

theorem assign_of_mem {as : List Assignment} (hd : (as.map Prod.fst).Nodup) {n v : Text}
    (h : (n, v) ∈ as) (env : Text → Option Text) : assign env as n = some v := by
  induction as using List.reverseRecOn with
  | nil => cases h
  | append_singleton as a ih =>
    rw [assign_append]
    rw [List.map_append, List.map_singleton, List.nodup_append] at hd
    rcases List.mem_append.mp h with h | h
    · have hn : n ≠ a.1 := hd.2.2 n (List.mem_map_of_mem (f := Prod.fst) h) a.1 (by simp)
      simpa [assign, Function.update_of_ne hn] using ih hd.1 h
    · obtain rfl := List.mem_singleton.mp h
      simp [assign]

end Shell

end Lib
