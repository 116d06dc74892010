import WakameVdc.Lib.Text

/-!
# Rows of comma separated values

Ruby's `Array#to_csv` and `CSV.parse_line`. An empty text is written with quotes and a
missing one without, so that both come back. The end of a row that is read is the first
line break of the text, within quotes or not.
-/

namespace Lib

namespace Csv

/-! ## Writing -/

def isSpecial (c : Char) : Bool := c == ',' || c == '"' || c == '\r' || c == '\n'

def quotable (f : Text) : Bool := f.isEmpty || f.any isSpecial

def escape (f : Text) : Text := f.flatMap fun c => if c = '"' then ['"', '"'] else [c]

def writeField : Option Text → Text
  | none => []
  | some f => if quotable f then '"' :: (escape f ++ ['"']) else f

def writeRow (row : List (Option Text)) : Text := [','].intercalate (row.map writeField)

def toCsv (row : List (Option Text)) : Text := writeRow row ++ ['\n']

/-! ## Reading -/

/-- Where in a field the reader is: what it has of it so far. -/
inductive Position
  | start
  | bare (f : Text)
  | quoted (f : Text)
  | closed (f : Text)

def Position.field : Position → Option Text
  | .start => none
  | .bare f | .quoted f | .closed f => some f

/-- What is not well formed raises. -/
def readFrom (rowSep : Text) : Position → Text → Option (List (Option Text))
  | .quoted _, [] => none
  | p, [] => some [p.field]
  | .quoted f, c :: t =>
    if c = '"' then readFrom rowSep (.closed f) t else readFrom rowSep (.quoted (f ++ [c])) t
  | p, c :: t =>
    if c = ',' then (readFrom rowSep .start t).map (p.field :: ·)
    else if rowSep <+: c :: t then some [p.field]
    else if c = '\r' ∨ c = '\n' then none
    else
      match p with
      | .start => if c = '"' then readFrom rowSep (.quoted []) t else readFrom rowSep (.bare [c]) t
      | .bare f => if c = '"' then none else readFrom rowSep (.bare (f ++ [c])) t
      | .closed f | .quoted f => if c = '"' then readFrom rowSep (.quoted (f ++ ['"'])) t else none

/-- `:row_sep => :auto` -/
def rowSep : Text → Text
  | [] => ['\n']
  | '\r' :: '\n' :: _ => ['\r', '\n']
  | '\r' :: _ => ['\r']
  | '\n' :: _ => ['\n']
  | _ :: t => rowSep t

/-- Nothing is read from an empty text, and no fields from an empty line. -/
def parseLine (t : Text) : Option (List (Option Text)) :=
  if t = [] then none
  else if rowSep t <+: t then some []
  else readFrom (rowSep t) .start t

/-! ## Reading back what is written -/

def Breaks (sep : Text) : Prop := ∃ c t, sep = c :: t ∧ (c = '\r' ∨ c = '\n')

theorem breaks_rowSep (t : Text) : Breaks (rowSep t) := by
  fun_induction rowSep t with
  | case1 => exact ⟨'\n', [], rfl, .inr rfl⟩
  | case2 => exact ⟨'\r', ['\n'], rfl, .inl rfl⟩
  | case3 => exact ⟨'\r', [], rfl, .inl rfl⟩
  | case4 => exact ⟨'\n', [], rfl, .inr rfl⟩
  | case5 _ _ _ _ _ ih => exact ih

theorem Breaks.not_isPrefix {sep t : Text} (h : Breaks sep) {c : Char} (hr : c ≠ '\r') (hn : c ≠ '\n') :
    ¬ sep <+: c :: t := by
  obtain ⟨d, u, rfl, hd⟩ := h
  intro hp
  have hcd : d = c := (List.cons_prefix_cons.mp hp).1
  rcases hd with rfl | rfl
  · exact hr hcd.symm
  · exact hn hcd.symm

theorem isSpecial_eq_false {c : Char} : isSpecial c = false ↔ c ≠ ',' ∧ c ≠ '"' ∧ c ≠ '\r' ∧ c ≠ '\n' := by
  simp [isSpecial, and_assoc]

theorem quotable_eq_false {f : Text} :
    quotable f = false ↔ f ≠ [] ∧ ∀ c ∈ f, isSpecial c = false := by
  simp [quotable]

theorem quotable_of_prefix {f g : Text} (hp : g <+: f) (hf : quotable f = false) (hg : g ≠ []) :
    quotable g = false :=
  quotable_eq_false.mpr ⟨hg, fun c hc => (quotable_eq_false.mp hf).2 c (hp.subset hc)⟩

@[simp] theorem writeRow_singleton (f : Option Text) : writeRow [f] = writeField f :=
  List.intercalate_singleton

@[simp] theorem writeRow_cons_cons (f g : Option Text) (row : List (Option Text)) :
    writeRow (f :: g :: row) = writeField f ++ ',' :: writeRow (g :: row) :=
  List.intercalate_cons_cons.trans (by rw [List.append_assoc]; rfl)

theorem readFrom_nil (sep : Text) {p : Position} (hp : ∀ g, p ≠ .quoted g) :
    readFrom sep p [] = some [p.field] := by
  cases p with
  | quoted g => exact absurd rfl (hp g)
  | start => rfl
  | bare g => rfl
  | closed g => rfl

theorem readFrom_comma (sep : Text) {p : Position} (hp : ∀ g, p ≠ .quoted g) (t : Text) :
    readFrom sep p (',' :: t) = (readFrom sep .start t).map (p.field :: ·) := by
  cases p with
  | quoted g => exact absurd rfl (hp g)
  | start => rfl
  | bare g => rfl
  | closed g => rfl

section
variable {sep : Text} (h : Breaks sep)

include h

theorem readFrom_quoted (f g t : Text) :
    readFrom sep (.quoted f) (escape g ++ '"' :: t) = readFrom sep (.closed (f ++ g)) t := by
  induction g generalizing f with
  | nil => simp [escape, readFrom]
  | cons c g ih =>
    have hesc : escape (c :: g) = (if c = '"' then ['"', '"'] else [c]) ++ escape g := rfl
    have hsnoc : f ++ c :: g = (f ++ [c]) ++ g := by simp
    rw [hesc, hsnoc, ← ih]
    by_cases hc : c = '"'
    · -- two quotes stand for one
      rw [if_pos hc, hc]
      show readFrom sep (.quoted f) ('"' :: '"' :: (escape g ++ '"' :: t)) = _
      have hsep : ¬ sep <+: '"' :: (escape g ++ '"' :: t) := h.not_isPrefix (by decide) (by decide)
      simp [readFrom, hsep]
    · rw [if_neg hc]
      show readFrom sep (.quoted f) (c :: (escape g ++ '"' :: t)) = _
      simp [readFrom, hc]

theorem readFrom_bare (f : Text) {g : Text} (hg : ∀ c ∈ g, isSpecial c = false) (t : Text) :
    readFrom sep (.bare f) (g ++ t) = readFrom sep (.bare (f ++ g)) t := by
  induction g generalizing f with
  | nil => simp
  | cons c g ih =>
    obtain ⟨h1, h2, h3, h4⟩ := isSpecial_eq_false.mp (hg c List.mem_cons_self)
    have hsep : ¬ sep <+: c :: (g ++ t) := h.not_isPrefix h3 h4
    rw [List.cons_append, readFrom, if_neg h1, if_neg hsep, if_neg (by simp [h3, h4])]
    show (if c = '"' then none else _) = _
    rw [if_neg h2, ih _ fun d hd => hg d (List.mem_cons_of_mem c hd), List.append_assoc]
    rfl

theorem readFrom_writeField (f : Option Text) (t : Text) :
    ∃ p : Position, p.field = f ∧ (∀ g, p ≠ .quoted g) ∧
      readFrom sep .start (writeField f ++ t) = readFrom sep p t := by
  cases f with
  | none => exact ⟨.start, rfl, nofun, rfl⟩
  | some f =>
    by_cases hq : quotable f = true
    · refine ⟨.closed f, rfl, nofun, ?_⟩
      have hw : writeField (some f) ++ t = '"' :: (escape f ++ '"' :: t) := by
        simp [writeField, hq]
      have hsep : ¬ sep <+: '"' :: (escape f ++ '"' :: t) := h.not_isPrefix (by decide) (by decide)
      rw [hw, ← List.nil_append f, ← readFrom_quoted h, List.nil_append]
      simp [readFrom, hsep]
    · refine ⟨.bare f, rfl, nofun, ?_⟩
      have hw : writeField (some f) = f := if_neg hq
      obtain ⟨hne, hall⟩ := quotable_eq_false.mp (by simpa using hq)
      cases f with
      | nil => exact absurd rfl hne
      | cons c f =>
        obtain ⟨h1, h2, h3, h4⟩ := isSpecial_eq_false.mp (hall c List.mem_cons_self)
        have hsep : ¬ sep <+: c :: (f ++ t) := h.not_isPrefix h3 h4
        rw [hw, List.cons_append, ← List.singleton_append (l := f),
          ← readFrom_bare h [c] fun d hd => hall d (List.mem_cons_of_mem c hd)]
        simp [readFrom, h1, h2, h3, h4, hsep]

theorem readFrom_writeRow (f : Option Text) (row : List (Option Text)) :
    readFrom sep .start (writeRow (f :: row)) = some (f :: row) := by
  induction row generalizing f with
  | nil =>
    obtain ⟨p, hf, hp, hread⟩ := readFrom_writeField h f []
    rw [writeRow_singleton, ← List.append_nil (writeField f), hread, readFrom_nil sep hp, hf]
  | cons g row ih =>
    obtain ⟨p, hf, hp, hread⟩ := readFrom_writeField h f (',' :: writeRow (g :: row))
    rw [writeRow_cons_cons, hread, readFrom_comma sep hp, ih, hf]
    rfl

end

theorem writeField_cons (f : Text) : ∃ c t, writeField (some f) = c :: t ∧ c ≠ '\r' ∧ c ≠ '\n' := by
  by_cases hq : quotable f = true
  · exact ⟨'"', escape f ++ ['"'], by simp [writeField, hq], by decide, by decide⟩
  · have hw : writeField (some f) = f := if_neg hq
    obtain ⟨hne, hall⟩ := quotable_eq_false.mp (by simpa using hq)
    cases f with
    | nil => exact absurd rfl hne
    | cons c f =>
      obtain ⟨-, -, h3, h4⟩ := isSpecial_eq_false.mp (hall c List.mem_cons_self)
      exact ⟨c, f, hw, h3, h4⟩

theorem writeRow_cons (f : Option Text) (row : List (Option Text)) :
    ∃ t, writeRow (f :: row) = writeField f ++ t := by
  cases row with
  | nil => exact ⟨[], by simp⟩
  | cons g row => exact ⟨',' :: writeRow (g :: row), by simp⟩

theorem parseLine_writeRow (f : Text) (row : List (Option Text)) :
    parseLine (writeRow (some f :: row)) = some (some f :: row) := by
  obtain ⟨t, ht⟩ := writeRow_cons (some f) row
  obtain ⟨c, u, hc, hr, hn⟩ := writeField_cons f
  have hw : writeRow (some f :: row) = c :: (u ++ t) := by rw [ht, hc]; rfl
  have hsep := (breaks_rowSep (writeRow (some f :: row))).not_isPrefix (t := u ++ t) hr hn
  unfold parseLine
  rw [if_neg (by rw [hw]; simp), if_neg (hw ▸ hsep)]
  exact readFrom_writeRow (breaks_rowSep _) (some f) row

/-! ## A row without the blanks around it -/

def isTrailing (c : Char) : Bool := Text.isSpace c || c == '\x00'

def stripped : Option Text → Option Text
  | none => none
  | some f =>
    if quotable f then some f
    else if f.rdropWhile isTrailing = [] then none
    else some (f.rdropWhile isTrailing)

theorem rdropWhile_comma (t : Text) : (t ++ [',']).rdropWhile isTrailing = t ++ [','] := by
  rw [List.rdropWhile_concat_neg]
  decide

theorem rdropWhile_append (t f : Text) :
    (t ++ ',' :: f).rdropWhile isTrailing = t ++ ',' :: f.rdropWhile isTrailing := by
  induction f using List.reverseRecOn with
  | nil => exact rdropWhile_comma t
  | append_singleton f c ih =>
    have hassoc : t ++ ',' :: (f ++ [c]) = (t ++ ',' :: f) ++ [c] := by simp
    rw [hassoc]
    by_cases hc : isTrailing c = true
    · rw [List.rdropWhile_concat_pos isTrailing _ c hc, List.rdropWhile_concat_pos isTrailing _ c hc, ih]
    · rw [List.rdropWhile_concat_neg isTrailing _ c hc, List.rdropWhile_concat_neg isTrailing _ c hc, hassoc]

theorem rdropWhile_writeField (f : Option Text) (t : Text) :
    (t ++ ',' :: writeField f).rdropWhile isTrailing = t ++ ',' :: writeField (stripped f) := by
  cases f with
  | none => exact rdropWhile_comma t
  | some f =>
    by_cases hq : quotable f = true
    · have hs : stripped (some f) = some f := if_pos hq
      have hsnoc : t ++ ',' :: writeField (some f) = (t ++ ',' :: '"' :: escape f) ++ ['"'] := by
        simp [writeField, hq]
      rw [hs, hsnoc, List.rdropWhile_concat_neg]
      decide
    · have hw : writeField (some f) = f := if_neg hq
      rw [hw, rdropWhile_append, stripped, if_neg hq]
      split
      · rename_i hnil
        rw [hnil]
        rfl
      · rename_i hne
        have hqf := quotable_of_prefix (List.rdropWhile_prefix _ f) (by simpa using hq) hne
        simp [writeField, hqf]

theorem writeRow_append (f : Option Text) (row : List (Option Text)) (g : Option Text) :
    writeRow (f :: row ++ [g]) = writeRow (f :: row) ++ ',' :: writeField g := by
  induction row generalizing f with
  | nil => simp
  | cons e row ih =>
    rw [List.cons_append, List.cons_append, writeRow_cons_cons, writeRow_cons_cons,
      ← List.cons_append, ih]
    simp

/-- A row begins with the first character of its first text, or with a quote. -/
theorem not_space_of_row {f : Text} {row : List (Option Text)}
    (hf : ∀ c, f.head? = some c → Text.isSpace c = false) :
    ∃ c t, writeRow (some f :: row) = c :: t ∧ Text.isSpace c = false := by
  obtain ⟨u, hu⟩ := writeRow_cons (some f) row
  by_cases hq : quotable f = true
  · exact ⟨'"', escape f ++ ['"'] ++ u, by simp [hu, writeField, hq], by decide⟩
  · obtain ⟨d, f, rfl⟩ := List.exists_cons_of_ne_nil (quotable_eq_false.mp (by simpa using hq)).1
    exact ⟨d, f ++ u, by simp [hu, writeField, hq], hf d rfl⟩

theorem strip_toCsv (f : Text) (row : List (Option Text)) (g : Option Text)
    (hf : ∀ c, f.head? = some c → Text.isSpace c = false) :
    (toCsv (some f :: row ++ [g])).strip = writeRow (some f :: row ++ [stripped g]) := by
  obtain ⟨c, t, ht, hc⟩ := @not_space_of_row f (row ++ [g]) hf
  have hdrop : (toCsv (some f :: row ++ [g])).dropWhile Text.isSpace =
      writeRow (some f :: row ++ [g]) ++ ['\n'] := by
    rw [toCsv, List.cons_append, ht, List.cons_append, List.dropWhile_cons_of_neg (by simp [hc])]
  unfold Text.strip
  rw [hdrop]
  show List.rdropWhile isTrailing _ = _
  rw [List.rdropWhile_concat_pos _ _ _ (by decide), writeRow_append, rdropWhile_writeField,
    writeRow_append]

/-- Of a row without the blanks around it only the last field may have changed. -/
theorem parseLine_strip (f : Text) (row : List (Option Text)) (g : Option Text)
    (hf : ∀ c, f.head? = some c → Text.isSpace c = false) :
    parseLine (toCsv (some f :: row ++ [g])).strip = some (some f :: row ++ [stripped g]) := by
  rw [strip_toCsv f row g hf]
  exact parseLine_writeRow f (row ++ [stripped g])

/-! ## Line breaks within a row -/

theorem not_mem_writeField {f : Option Text} {c : Char} (hq : c ≠ '"') (h : ∀ t ∈ f, c ∉ t) :
    c ∉ writeField f := by
  cases f with
  | none => exact List.not_mem_nil
  | some f =>
    have hf : c ∉ f := h f rfl
    have hesc : c ∉ escape f := by
      intro hc
      obtain ⟨d, hd, hcd⟩ := List.mem_flatMap.mp hc
      split at hcd
      · simp [hq] at hcd
      · exact hf (List.mem_singleton.mp hcd ▸ hd)
    by_cases hquote : quotable f = true
    · simp [writeField, hquote, hq, hesc]
    · rwa [writeField, if_neg hquote]

theorem not_mem_writeRow {row : List (Option Text)} {c : Char} (hcomma : c ≠ ',') (hq : c ≠ '"')
    (h : ∀ f ∈ row, ∀ t ∈ f, c ∉ t) : c ∉ writeRow row := by
  induction row with
  | nil => exact List.not_mem_nil
  | cons f row ih =>
    have hf := not_mem_writeField hq (h f List.mem_cons_self)
    have hrow := ih fun g hg => h g (List.mem_cons_of_mem f hg)
    cases row with
    | nil => rwa [writeRow_singleton]
    | cons g row =>
      rw [writeRow_cons_cons]
      simp [hf, hcomma, hrow]

theorem mem_of_stripped {f : Option Text} {t : Text} (h : t ∈ stripped f) {c : Char} (hc : c ∈ t) :
    ∃ u ∈ f, c ∈ u := by
  cases f with
  | none => cases h
  | some f =>
    refine ⟨f, rfl, ?_⟩
    simp only [stripped] at h
    split at h
    · cases h
      exact hc
    · split at h
      · cases h
      · cases h
        exact (List.rdropWhile_prefix isTrailing f).subset hc

/-- A stripped row of texts without line breaks is one line. -/
theorem not_mem_strip_toCsv (f : Text) (row : List (Option Text)) (g : Option Text)
    (hf : ∀ c, f.head? = some c → Text.isSpace c = false)
    (h : ∀ e ∈ some f :: row ++ [g], ∀ t ∈ e, '\n' ∉ t) :
    '\n' ∉ (toCsv (some f :: row ++ [g])).strip := by
  rw [strip_toCsv f row g hf]
  apply not_mem_writeRow (by decide) (by decide)
  intro e he t ht
  rcases List.mem_append.mp he with he | he
  · exact h e (List.mem_append_left _ he) t ht
  · obtain rfl := List.mem_singleton.mp he
    intro hc
    obtain ⟨u, hu, hcu⟩ := mem_of_stripped ht hc
    exact h g (List.mem_append_right _ (List.mem_singleton_self g)) u hu hcu

end Csv

end Lib
