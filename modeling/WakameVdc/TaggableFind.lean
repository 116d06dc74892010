import WakameVdc.ResourceLabel

/-!
# Finding a resource by its name

`Taggable.find` and `Model[]` of `models/base_new.rb`. The one splits the name by a pattern of
its own, the other takes the prefix of its model off; both ask the database for the rest,
which compares texts by its collation.
-/

namespace WakameVdc

open Lib

namespace Taggable

open ResourceLabel (Engine)

/-! ## Patterns -/

def uuidTable : Text := "abcdefghijklmnopqrstuvwxyz0123456789".toList

/-- `UUID_REGEX` at the start of a line: `(\w+)-`, and as much of the table as there is. -/
def matchAt (t : Text) : Option (Text × Text) :=
  match t.dropWhile Text.isWord with
  | '-' :: rest =>
    let uuidPrefix := t.takeWhile Text.isWord
    let uuid := rest.takeWhile uuidTable.contains
    if uuidPrefix ≠ [] ∧ uuid ≠ [] then some (uuidPrefix, uuid) else none
  | _ => none

def uuidRegex (t : Text) : Option (Text × Text) := (lineStarts true t).findSome? matchAt

/-- A line of word characters, `/^[\w]+$/`, in a text that fits the column. -/
def checkTrimmedUuidFormat (uuid : Text) : Bool :=
  (uuid.splitOn '\n').any (fun l => !l.isEmpty && l.all Text.isWord) && decide (uuid.length ≤ 255)

/-! ## Look-ups -/

structure Object where
  id : Nat
  uuid : Text
  deriving DecidableEq

inductive Error
  | invalidSyntax (uuid : Text)
  | unknownPrefix (uuidPrefix : Text)
  | invalidUuid (uuid uuidPrefix : Text)
  deriving DecidableEq

/-- The models that are taggable, by their prefixes, with the rows of their tables. A uuid
that the database does not tell from one that is there is refused. -/
structure Models (e : Engine) where
  uuidPrefixCollection : List Text
  rows : Text → List Object
  word : ∀ p ∈ uuidPrefixCollection, p ≠ [] ∧ ∀ c ∈ p, Text.isWord c = true
  downcase : ∀ p ∈ uuidPrefixCollection, p.map Char.toLower = p
  unique : ∀ p, (rows p).Pairwise fun a b => e.same a.uuid b.uuid = false
  format : ∀ p, ∀ o ∈ rows p, checkTrimmedUuidFormat o.uuid = true

namespace Models

variable {e : Engine} (m : Models e)

/-- `find(:uuid=>...)` of a model -/
def findUuid (uuidPrefix uuid : Text) : Option Object := (m.rows uuidPrefix).find? fun o => e.same o.uuid uuid

def find (uuid : Text) : Except Error (Option (Text × Object)) :=
  match uuidRegex uuid with
  | none => .error (.invalidSyntax uuid)
  | some (p, u) =>
    if p.map Char.toLower ∈ m.uuidPrefixCollection then
      .ok ((m.findUuid (p.map Char.toLower) u).map fun o => (p.map Char.toLower, o))
    else .error (.unknownPrefix (p.map Char.toLower))

/-- `Model[]` of a text -/
def get (uuidPrefix uuid : Text) : Except Error (Option Object) :=
  match trimUuid uuidPrefix uuid with
  | none => .error (.invalidUuid uuid uuidPrefix)
  | some u => .ok (m.findUuid uuidPrefix u)

def Resolves : Prop :=
  ∀ p ∈ m.uuidPrefixCollection, ∀ o ∈ m.rows p,
    m.find (canonicalUuid p o.uuid) = .ok (some (p, o)) ∧ m.get p (canonicalUuid p o.uuid) = .ok (some o)

def Strict : Prop :=
  ∀ s, (∀ p ∈ m.uuidPrefixCollection, ∀ o ∈ m.rows p, s ≠ canonicalUuid p o.uuid) →
    (∀ r, m.find s ≠ .ok (some r)) ∧ ∀ p ∈ m.uuidPrefixCollection, ∀ o, m.get p s ≠ .ok (some o)

end Models

/-! ## What the patterns match -/

theorem isWord_of_mem_uuidTable {c : Char} (h : c ∈ uuidTable) : Text.isWord c = true ∧ c ≠ ' ' ∧ c ≠ '\n' := by
  have hall : uuidTable.all (fun c => Text.isWord c && (c != ' ' && c != '\n')) = true := by decide
  simpa using List.all_eq_true.mp hall c h

theorem matchAt_eq_some {t p u : Text} (h : matchAt t = some (p, u)) :
    p ≠ [] ∧ u ≠ [] ∧ (∀ c ∈ p, Text.isWord c = true) ∧ (∀ c ∈ u, c ∈ uuidTable) ∧
      ∃ rest, t = p ++ '-' :: (u ++ rest) := by
  unfold matchAt at h
  split at h
  · rename_i rest hd
    dsimp only at h
    split at h
    · rename_i hne
      cases h
      refine ⟨hne.1, hne.2, fun c hc => List.mem_takeWhile_imp hc, fun c hc => ?_, ?_⟩
      · exact List.contains_iff_mem.mp (List.mem_takeWhile_imp hc)
      · refine ⟨rest.dropWhile uuidTable.contains, ?_⟩
        rw [List.takeWhile_append_dropWhile, ← hd, List.takeWhile_append_dropWhile]
    · cases h
  · cases h

theorem matchAt_canonicalUuid {p u : Text} (hp : p ≠ []) (hpw : ∀ c ∈ p, Text.isWord c = true) (hu : u ≠ [])
    (hut : ∀ c ∈ u, c ∈ uuidTable) : matchAt (canonicalUuid p u) = some (p, u) := by
  have ht : (canonicalUuid p u).takeWhile Text.isWord = p := by
    unfold canonicalUuid uuidHead
    rw [List.append_assoc, List.takeWhile_append_of_pos hpw]
    simp [Text.isWord]
  have hd : (canonicalUuid p u).dropWhile Text.isWord = '-' :: u := by
    unfold canonicalUuid uuidHead
    rw [List.append_assoc, List.dropWhile_append_of_pos hpw]
    simp [Text.isWord]
  have hall : u.takeWhile uuidTable.contains = u :=
    List.takeWhile_eq_self_iff.mpr fun c hc => List.contains_iff_mem.mpr (hut c hc)
  unfold matchAt
  simp only [hd, ht, hall]
  exact if_pos ⟨hp, hu⟩

theorem mem_lineStarts {start : Bool} {t u : Text} (h : u ∈ lineStarts start t) :
    (start = true ∧ u = t) ∨ ∃ pre, t = pre ++ '\n' :: u := by
  induction t generalizing start with
  | nil =>
    cases start with
    | false => simp [lineStarts] at h
    | true => exact .inl ⟨rfl, by simpa [lineStarts] using h⟩
  | cons c t ih =>
    rw [lineStarts, List.mem_append] at h
    rcases h with h | h
    · cases start with
      | false => simp at h
      | true => exact .inl ⟨rfl, by simpa using h⟩
    · right
      rcases ih h with ⟨hc, rfl⟩ | ⟨pre, rfl⟩
      · exact ⟨[], by rw [eq_of_beq hc, List.nil_append]⟩
      · exact ⟨c :: pre, rfl⟩

theorem uuidRegex_eq_some {t p u : Text} (h : uuidRegex t = some (p, u)) :
    p ≠ [] ∧ u ≠ [] ∧ (∀ c ∈ p, Text.isWord c = true) ∧ (∀ c ∈ u, c ∈ uuidTable) ∧
      ∃ pre rest, t = pre ++ (p ++ '-' :: (u ++ rest)) ∧ (pre = [] ∨ '\n' ∈ pre) := by
  obtain ⟨line, hline, hm⟩ := List.exists_of_findSome?_eq_some h
  obtain ⟨hp, hu, hpw, hut, rest, rfl⟩ := matchAt_eq_some hm
  refine ⟨hp, hu, hpw, hut, ?_⟩
  rcases mem_lineStarts hline with ⟨-, rfl⟩ | ⟨pre, rfl⟩
  · exact ⟨[], rest, rfl, .inl rfl⟩
  · exact ⟨pre ++ ['\n'], rest, by simp, .inr (by simp)⟩

theorem uuidRegex_of_matchAt {t : Text} {r : Text × Text} (ht : t ≠ []) (h : matchAt t = some r) :
    uuidRegex t = some r := by
  obtain ⟨c, t, rfl⟩ := List.exists_cons_of_ne_nil ht
  unfold uuidRegex
  rw [lineStarts, if_pos rfl, List.singleton_append, List.findSome?_cons, h]

/-! ## The pattern has no end -/

def Unread (x : Text) : Prop := ∀ c ∈ x, Text.isWord c = false ∧ c ≠ '-' ∧ c ≠ '\n'

theorem matchAt_append {x : Text} (hx : Unread x) (t : Text) : matchAt (t ++ x) = matchAt t := by
  obtain ⟨ht, hd⟩ := Text.takeWhile_append_of_neg (t := t) fun c hc => (hx c hc).1
  have htable : ∀ c ∈ x, uuidTable.contains c = false := by
    intro c hc
    by_contra hin
    rw [Bool.not_eq_false, List.contains_iff_mem] at hin
    have hw := (hx c hc).1
    rw [(isWord_of_mem_uuidTable hin).1] at hw
    cases hw
  unfold matchAt
  rw [ht, hd]
  cases t.dropWhile Text.isWord with
  | nil =>
    cases x with
    | nil => rfl
    | cons c x =>
      have hc := (hx c List.mem_cons_self).2.1
      simp only [List.nil_append]
      split
      · rename_i he
        cases he
        exact absurd rfl hc
      · rfl
  | cons c rest =>
    by_cases hc : c = '-'
    · subst hc
      simp only [List.cons_append, (Text.takeWhile_append_of_neg (t := rest) htable).1]
    · simp only [List.cons_append]
      split
      · rename_i he
        exact absurd (List.cons.inj he).1 hc
      · split
        · rename_i he
          exact absurd (List.cons.inj he).1 hc
        · rfl

theorem lineStarts_append {x : Text} (hx : Unread x) (start : Bool) (t : Text) :
    lineStarts start (t ++ x) = (lineStarts start t).map (· ++ x) := by
  have hnil : ∀ x, Unread x → lineStarts false x = [] := by
    intro x hx
    induction x with
    | nil => rfl
    | cons c x ih =>
      have hc : (c == '\n') = false := beq_eq_false_iff_ne.mpr (hx c List.mem_cons_self).2.2
      rw [lineStarts, hc, ih fun d hd => hx d (List.mem_cons_of_mem c hd)]
      rfl
  induction t generalizing start with
  | nil =>
    cases start with
    | false => exact hnil x hx
    | true =>
      cases x with
      | nil => rfl
      | cons c x =>
        have hc : (c == '\n') = false := beq_eq_false_iff_ne.mpr (hx c List.mem_cons_self).2.2
        show [c :: x] ++ lineStarts (c == '\n') x = [c :: x]
        rw [hc, hnil x fun d hd => hx d (List.mem_cons_of_mem c hd), List.append_nil]
  | cons c t ih =>
    rw [List.cons_append, lineStarts, ih, lineStarts, List.map_append]
    split <;> rfl

theorem uuidRegex_append {x : Text} (hx : Unread x) (t : Text) : uuidRegex (t ++ x) = uuidRegex t := by
  unfold uuidRegex
  rw [lineStarts_append hx, List.findSome?_map]
  exact congrArg (fun f => List.findSome? f _) (funext (matchAt_append hx))

/-! ## What the database tells apart -/

theorem length_of_same {e : Engine} {a b : Text} (h : e.same a b = true) :
    (a.rdropWhile (· = ' ')).length = (b.rdropWhile (· = ' ')).length := by
  have hl := congrArg List.length (eq_of_beq h)
  unfold Engine.collate at hl
  rwa [List.length_map, List.length_map] at hl

theorem same_append_blanks (e : Engine) (t : Text) (n : Nat) : e.same t (t ++ List.replicate n ' ') = true := by
  have hd : (t ++ List.replicate n ' ').rdropWhile (· = ' ') = t.rdropWhile (· = ' ') := by
    induction n with
    | zero => simp
    | succ n ih =>
      rw [List.replicate_succ', ← List.append_assoc, List.rdropWhile_concat_pos _ _ _ (by simp), ih]
  unfold Engine.same Engine.collate
  rw [hd]
  exact beq_self_eq_true _

theorem not_format_of_blank {t : Text} (hline : '\n' ∉ t) (hblank : ' ' ∈ t) :
    checkTrimmedUuidFormat t = false := by
  have hall : t.all Text.isWord = false := by
    rw [List.all_eq_false]
    exact ⟨' ', hblank, by decide⟩
  unfold checkTrimmedUuidFormat
  rw [Text.splitOn_of_not_mem hline]
  simp [hall]

/-- A uuid that is the same as a part of it, in the letters of the table, is that part. -/
theorem eq_of_same {e : Engine} {uuid u : Text} (pre rest : Text) (hf : checkTrimmedUuidFormat uuid = true)
    (hu : u ≠ []) (hut : ∀ c ∈ u, c ∈ uuidTable) (he : uuid = pre ++ u ++ rest) (hs : e.same uuid u = true) :
    uuid = u := by
  have hlast : ¬ decide (u.getLast hu = ' ') = true := by
    rw [decide_eq_true_eq]
    exact (isWord_of_mem_uuidTable (hut _ (List.getLast_mem hu))).2.1
  have hself : u.rdropWhile (· = ' ') = u := List.rdropWhile_eq_self_iff.mpr fun _ => hlast
  -- the part ends where the blanks at the end begin, so nothing comes before it
  have hpre : pre ++ u <+: uuid.rdropWhile (· = ' ') := by
    rw [he]
    refine Text.prefix_rdropWhile (List.append_ne_nil_of_right_ne_nil pre hu) ?_
    rwa [List.getLast_append_of_ne_nil _ hu]
  have hlen := length_of_same hs
  rw [hself] at hlen
  have hle := hpre.length_le
  rw [hlen, List.length_append] at hle
  have hnil : pre = [] := List.eq_nil_of_length_eq_zero (by omega)
  subst hnil
  have hdrop : u = uuid.rdropWhile (· = ' ') := hpre.eq_of_length hlen.symm
  have hrest : rest = uuid.rtakeWhile (· = ' ') := by
    have hsplit := List.rdropWhile_append_rtakeWhile (p := fun c => decide (c = ' ')) (l := uuid)
    rw [← hdrop] at hsplit
    exact List.append_cancel_left (he.symm.trans hsplit.symm)
  have hspace : ∀ c ∈ rest, c = ' ' := by
    intro c hc
    rw [hrest] at hc
    simpa using List.mem_rtakeWhile_imp hc
  cases rest with
  | nil => simpa using he
  | cons c rest =>
    have hc : c = ' ' := hspace c List.mem_cons_self
    have hline : '\n' ∉ uuid := by
      rw [he]
      intro hn
      rcases List.mem_append.mp hn with hn | hn
      · exact (isWord_of_mem_uuidTable (hut _ hn)).2.2 rfl
      · exact absurd (hspace _ hn) (by decide)
    rw [not_format_of_blank hline (by rw [he, hc]; simp)] at hf
    cases hf

theorem exists_uuid {p uuid pre w u rest : Text} (hp : ∀ c ∈ p, Text.isWord c = true)
    (hw : ∀ c ∈ w, Text.isWord c = true) (hpre : pre = [] ∨ '\n' ∈ pre)
    (he : canonicalUuid p uuid = pre ++ (w ++ '-' :: (u ++ rest))) : ∃ x, uuid = x ++ u ++ rest := by
  have hdash : ∀ {t : Text}, (∀ c ∈ t, Text.isWord c = true) → '-' ∉ t :=
    fun ht hd => absurd (ht _ hd) (by decide)
  have hhead : canonicalUuid p uuid = p ++ '-' :: uuid := by simp [canonicalUuid, uuidHead]
  rcases hpre with rfl | hpre
  · rw [hhead, List.nil_append] at he
    have hsplit := congrArg (Text.split2 '-') he
    rw [Text.split2_append (hdash hp), Text.split2_append (hdash hw)] at hsplit
    exact ⟨[], by simpa using (List.cons.inj (List.cons.inj hsplit).2).1⟩
  · -- the head of the name is on the first line
    unfold canonicalUuid at he
    rcases List.append_eq_append_iff.mp he with ⟨x, -, hx⟩ | ⟨x, hx, -⟩
    · exact ⟨x ++ w ++ ['-'], by simp [hx]⟩
    · have hmem : '\n' ∈ uuidHead p := by
        rw [hx]
        exact List.mem_append_left x hpre
      rcases List.mem_append.mp hmem with hn | hn
      · exact absurd (hp _ hn) (by decide)
      · exact absurd hn (by decide)

/-! ## Both look-ups -/

namespace Models

variable {e : Engine} {m : Models e} {p : Text} {o : Object}

theorem findUuid_self (ho : o ∈ m.rows p) : m.findUuid p o.uuid = some o := by
  obtain ⟨as, bs, hrows⟩ := List.append_of_mem ho
  have hu := m.unique p
  unfold findUuid
  rw [hrows] at hu ⊢
  have has : as.find? (fun x => e.same x.uuid o.uuid) = none := by
    refine List.find?_eq_none.mpr fun a ha => ?_
    rw [(List.pairwise_append.mp hu).2.2 a ha o List.mem_cons_self]
    exact Bool.false_ne_true
  have hself : e.same o.uuid o.uuid = true := beq_self_eq_true _
  rw [List.find?_append, has, List.find?_cons, hself]
  rfl

theorem get_canonicalUuid (ho : o ∈ m.rows p) : m.get p (canonicalUuid p o.uuid) = .ok (some o) := by
  unfold get
  rw [trimUuid_canonicalUuid]
  exact congrArg Except.ok (findUuid_self ho)

theorem uuid_ne_nil (ho : o ∈ m.rows p) : o.uuid ≠ [] := by
  intro h
  have hf := m.format p o ho
  rw [h] at hf
  revert hf
  decide

theorem find_of_inTable (hp : p ∈ m.uuidPrefixCollection) (ho : o ∈ m.rows p)
    (ht : ∀ c ∈ o.uuid, c ∈ uuidTable) : m.find (canonicalUuid p o.uuid) = .ok (some (p, o)) := by
  have hne : canonicalUuid p o.uuid ≠ [] := by simp [canonicalUuid, uuidHead]
  have hm := matchAt_canonicalUuid (m.word p hp).1 (m.word p hp).2 (uuid_ne_nil ho) ht
  unfold find
  rw [uuidRegex_of_matchAt hne hm]
  dsimp only
  rw [m.downcase p hp, if_pos hp, findUuid_self ho]
  rfl

theorem inTable_of_find (hp : p ∈ m.uuidPrefixCollection) (ho : o ∈ m.rows p)
    (h : m.find (canonicalUuid p o.uuid) = .ok (some (p, o))) : ∀ c ∈ o.uuid, c ∈ uuidTable := by
  unfold find at h
  split at h
  · cases h
  rename_i w u hr
  split at h
  · cases hfind : m.findUuid (w.map Char.toLower) u with
    | none => rw [hfind] at h; cases h
    | some o' =>
      rw [hfind] at h
      cases h
      have hsame : e.same o.uuid u = true :=
        List.find?_some (p := fun x : Object => e.same x.uuid u) hfind
      obtain ⟨-, hu, hw, hut, pre, rest, he, hpre⟩ := uuidRegex_eq_some hr
      obtain ⟨x, hx⟩ := exists_uuid (m.word _ hp).2 hw hpre he
      rw [eq_of_same x rest (m.format _ o ho) hu hut hx hsame]
      exact hut
  · cases h

/-- All objects are found just when their uuids keep to the letters of the table. -/
theorem resolves_iff : m.Resolves ↔
    ∀ p ∈ m.uuidPrefixCollection, ∀ o ∈ m.rows p, ∀ c ∈ o.uuid, c ∈ uuidTable := by
  constructor
  · intro h p hp o ho
    exact inTable_of_find hp ho (h p hp o ho).1
  · intro h p hp o ho
    exact ⟨find_of_inTable hp ho (h p hp o ho), get_canonicalUuid ho⟩

theorem find_append {s x : Text} {r : Text × Object} (hx : Unread x) (h : m.find s = .ok (some r)) :
    m.find (s ++ x) = .ok (some r) := by
  unfold find at h ⊢
  rw [uuidRegex_append hx]
  cases hr : uuidRegex s with
  | none => rw [hr] at h; cases h
  | some pu => rwa [hr] at h

theorem get_append_blanks (ho : o ∈ m.rows p) (n : Nat) :
    m.get p (canonicalUuid p o.uuid ++ List.replicate n ' ') = .ok (some o) := by
  have hfind : m.findUuid p (o.uuid ++ List.replicate n ' ') = m.findUuid p o.uuid := by
    have hcol := eq_of_beq (same_append_blanks e o.uuid n)
    unfold findUuid Engine.same
    rw [hcol]
  have hname : canonicalUuid p o.uuid ++ List.replicate n ' ' =
      canonicalUuid p (o.uuid ++ List.replicate n ' ') := List.append_assoc ..
  unfold get
  rw [hname, trimUuid_canonicalUuid]
  exact congrArg Except.ok (hfind.trans (findUuid_self ho))

theorem ne_canonicalUuid (hp : p ∈ m.uuidPrefixCollection) (ho : o ∈ m.rows p) {u t : Text} {q : Text}
    (hq : q ∈ m.uuidPrefixCollection) (ht : 255 < t.length) :
    canonicalUuid q u ++ t ≠ canonicalUuid p o.uuid := by
  have hhead : ∀ p u, canonicalUuid p u = p ++ '-' :: u := fun p u => by simp [canonicalUuid, uuidHead]
  have hdash : ∀ p ∈ m.uuidPrefixCollection, '-' ∉ p :=
    fun p hp hd => absurd ((m.word p hp).2 _ hd) (by decide)
  intro he
  rw [hhead, hhead, List.append_assoc, List.cons_append] at he
  have hsplit := congrArg (Text.split2 '-') he
  rw [Text.split2_append (hdash q hq), Text.split2_append (hdash p hp)] at hsplit
  have hu := (List.cons.inj (List.cons.inj hsplit).2).1
  have hf := m.format p o ho
  unfold checkTrimmedUuidFormat at hf
  rw [Bool.and_eq_true, decide_eq_true_eq, ← hu, List.length_append] at hf
  omega

theorem strict_iff : m.Strict ↔ ∀ p ∈ m.uuidPrefixCollection, m.rows p = [] := by
  constructor
  · intro h q hq
    refine List.eq_nil_iff_forall_not_mem.mpr fun o ho => ?_
    refine (h (canonicalUuid q o.uuid ++ List.replicate 256 ' ') fun p hp o' ho' => ?_).2 q hq o
      (get_append_blanks ho 256)
    exact ne_canonicalUuid hp ho' hq (by rw [List.length_replicate]; decide)
  · intro h s _
    have hnone : ∀ p ∈ m.uuidPrefixCollection, ∀ u, m.findUuid p u = none := by
      intro p hp u
      unfold findUuid
      rw [h p hp]
      rfl
    refine ⟨fun r hr => ?_, fun p hp o ho => ?_⟩
    · unfold find at hr
      split at hr
      · cases hr
      · split at hr
        · rename_i hp
          rw [hnone _ hp] at hr
          cases hr
        · cases hr
    · unfold get at ho
      split at ho
      · cases ho
      · rw [hnone p hp] at ho
        cases ho

/-- Names and look-ups are inverse to each other just when nothing is stored; the names of
objects are found just when they keep to the letters of the table. -/
theorem inverse_iff (m : Models e) :
    (m.Resolves ∧ m.Strict ↔ ∀ p ∈ m.uuidPrefixCollection, m.rows p = []) ∧
      (m.Resolves ↔ ∀ p ∈ m.uuidPrefixCollection, ∀ o ∈ m.rows p, ∀ c ∈ o.uuid, c ∈ uuidTable) := by
  refine ⟨?_, resolves_iff⟩
  rw [strict_iff, resolves_iff]
  refine and_iff_right_of_imp fun h p hp o ho => ?_
  rw [h p hp] at ho
  cases ho

def instances : Models ResourceLabel.ResourceLabels.strict where
  uuidPrefixCollection := ["i".toList]
  rows p := if p = "i".toList then [⟨1, "abc12345".toList⟩] else []
  word p hp := by
    rw [List.mem_singleton.mp hp]
    exact ⟨by decide, List.all_eq_true.mp (by decide)⟩
  downcase := by decide
  unique p := by split <;> simp
  format p := by split <;> decide

/-- A sign behind the name is not read by the pattern, and a blank not by the database. -/
theorem not_strict_instances : ¬ (instances.Resolves ∧ instances.Strict) ∧
    instances.find "i-abc12345!".toList = .ok (some ("i".toList, ⟨1, "abc12345".toList⟩)) ∧
    instances.get "i".toList "i-abc12345 ".toList = .ok (some ⟨1, "abc12345".toList⟩) := by
  have hfind : instances.find "i-abc12345!".toList = .ok (some ("i".toList, ⟨1, "abc12345".toList⟩)) := by
    decide
  refine ⟨?_, hfind, by decide⟩
  rintro ⟨-, hs⟩
  exact (hs "i-abc12345!".toList (by decide)).1 _ hfind

end Models

end Taggable

end WakameVdc
