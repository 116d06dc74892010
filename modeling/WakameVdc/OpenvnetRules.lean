import WakameVdc.Lib.Proc
import WakameVdc.Lib.Words
import WakameVdc.SecurityGroupRuleSound
import WakameVdc.SecurityGroupText

/-!
# The rules openvnet gets

`openvnet_rules` of `endpoints/12.03/core_api.rb` makes one line of each line of
a group's text, from its first two words and its last one. `rules_array` leaves
out comments and what does not read as a rule, and reads a rule by its fields.
-/

namespace WakameVdc

open Lib

namespace SecurityGroup

/-- `[\s,:]` -/
def isSeparator (c : Char) : Bool := Text.isSpace c || c == ',' || c == ':'

/-- A line without the `\r?\n` that ends it. -/
def stripNewline (line : Text) : Text :=
  match line.reverse with
  | '\n' :: '\r' :: t => t.reverse
  | '\n' :: t => t.reverse
  | _ => line

/-- `split(/\r?\n/)`: empty fields at the end are dropped. -/
def splitLines (text : Text) : List Text := ((eachLine text).map stripNewline).rdropWhile List.isEmpty

structure SplitRule where
  protocol : Option Text
  portStart : Option Text
  portEnd : Option Text
  subject : Option Text
  deriving DecidableEq, Repr

def splitRule (rule : Text) : SplitRule :=
  let parts := Words.words isSeparator rule
  { protocol := parts[0]?, portStart := parts[1]?, portEnd := parts[2]?, subject := parts.getLast? }

def openvnetRule (r : Text) : Text :=
  (splitRule r).protocol.getD [] ++ ':' :: ((splitRule r).portStart.getD [] ++
    ':' :: (splitRule r).subject.getD [])

def openvnetRules (rules : Text) : List Text := (splitLines rules).map openvnetRule

/-! ## Agreement -/

section
variable (ipAddress : Text → Option IPAddr)

/-- The text is the rule's source, as `parse_rule` reads it. -/
def DenotesSource (r : ParsedRule) (subject : Text) : Prop :=
  match r.protocol with
  | none => subject = r.ipSource
  | some p => ∃ src, dropZeroPrefix (some subject) = .ok src ∧
      readSource ipAddress p src false = .ok (some p, r.ipSource)

/-- The text is the one port the rule opens. An icmp rule has none. -/
def IsPort (r : ParsedRule) (port : Text) : Prop :=
  r.ipProtocol = "icmp".toList ∨
    ∃ n : Nat, Text.nat? port = some n ∧ r.ipFport = some (n : Int) ∧ r.ipTport = some (n : Int)

/-- A line for openvnet with the rule's protocol, port and source. -/
def Carries (line : Text) (r : ParsedRule) : Prop :=
  ∃ port subject, line = r.ipProtocol ++ ':' :: (port ++ ':' :: subject) ∧ ':' ∉ port ∧
    IsPort r port ∧ DenotesSource ipAddress r subject

/-- The rule's protocol, its port and its source are words of the line, at the
places openvnet's are taken from. -/
structure Tidy (line : Text) (r : ParsedRule) : Prop where
  protocol : Words.first isSeparator line = r.ipProtocol
  port : IsPort r (Words.second isSeparator line)
  source : DenotesSource ipAddress r (Words.last isSeparator line)

end

section
variable {ipAddress : Text → Option IPAddr}

theorem openvnetRule_eq (line : Text) :
    openvnetRule line = Words.first isSeparator line ++ ':' ::
      (Words.second isSeparator line ++ ':' :: Words.last isSeparator line) := by
  simp only [openvnetRule, splitRule, Words.words_getD_zero, Words.words_getD_one,
    Words.words_getLast]

theorem not_isSeparator_of_mem_first {line : Text} {c : Char}
    (h : c ∈ Words.first isSeparator line) : isSeparator c = false := by
  simpa using List.mem_takeWhile_imp h

theorem cut_inj {a b c d : Text} {x : Char} (ha : x ∉ a) (hc : x ∉ c)
    (h : a ++ x :: b = c ++ x :: d) : a = c ∧ b = d := by
  induction a generalizing c with
  | nil =>
    cases c with
    | nil => exact ⟨rfl, by simpa using h⟩
    | cons y c => exact absurd (List.cons.inj h).1 fun hy => hc (by simp [hy])
  | cons y a ih =>
    cases c with
    | nil => exact absurd (List.cons.inj h).1 fun hy => ha (by simp [hy])
    | cons z c =>
      obtain ⟨rfl, ht⟩ := List.cons.inj h
      obtain ⟨rfl, rfl⟩ := ih (fun hm => ha (List.mem_cons_of_mem _ hm))
        (fun hm => hc (List.mem_cons_of_mem _ hm)) ht
      exact ⟨rfl, rfl⟩

theorem colon_not_mem_ipProtocol {line : Text} {r : ParsedRule}
    (h : parseRule ipAddress line = .ok (some r)) : ':' ∉ r.ipProtocol := by
  obtain ⟨f, -, hr⟩ := parseRule_ok h
  cases hr with
  | ports _ isPort =>
    rcases isPort with hp | hp
    · rw [hp]; decide
    · rw [hp]; decide
  | icmp _ isIcmp => rw [isIcmp]; decide

theorem carries_iff {line : Text} {r : ParsedRule} (h : parseRule ipAddress line = .ok (some r)) :
    Carries ipAddress (openvnetRule line) r ↔ Tidy ipAddress line r := by
  have colon : ∀ t, ':' ∉ Words.first isSeparator t := fun t ht => by
    cases not_isSeparator_of_mem_first ht
  constructor
  · rintro ⟨port, subject, heq, hport, hp, hs⟩
    rw [openvnetRule_eq] at heq
    obtain ⟨h1, h2⟩ := cut_inj (colon line) (colon_not_mem_ipProtocol h) heq
    obtain ⟨h3, h4⟩ := cut_inj (colon _) hport h2
    exact ⟨h1, by rw [Words.second, h3]; exact hp, h4 ▸ hs⟩
  · rintro ⟨h1, h2, h3⟩
    exact ⟨Words.second isSeparator line, _, by rw [openvnetRule_eq, h1], colon _, h2, h3⟩

/-! ## Lines -/

def rulesOf (ipAddress : Text → Option IPAddr) (lines : List Text) :
    Except RuleError (List ParsedRule) := do
  let rules ← (lines.filter fun line => !isComment line).mapM fun line => parseRule ipAddress line
  return rules.reduceOption

theorem stripNewline_append (line : Text) :
    ∃ u, line = stripNewline line ++ u ∧ ∀ c ∈ u, Text.isSpace c = true := by
  unfold stripNewline
  split
  · exact ⟨['\r', '\n'], append_of_reverse (u := ['\n', '\r']) ‹_›, by simp [Text.isSpace]⟩
  · exact ⟨['\n'], append_of_reverse (u := ['\n']) ‹_›, by simp [Text.isSpace]⟩
  · exact ⟨[], (List.append_nil _).symm, by simp⟩

theorem rulesOf_cons_comment {line : Text} {lines : List Text} (h : isComment line = true) :
    rulesOf ipAddress (line :: lines) = rulesOf ipAddress lines := by
  simp [rulesOf, h]

theorem rulesOf_cons {line : Text} {lines : List Text} (h : isComment line = false) :
    rulesOf ipAddress (line :: lines) =
      (do let r ← parseRule ipAddress line
          let rules ← rulesOf ipAddress lines
          return r.toList ++ rules) := by
  simp only [rulesOf, List.filter_cons, h, Bool.not_false, if_true, List.mapM_cons]
  cases parseRule ipAddress line with
  | error e => rfl
  | ok r =>
    cases hm : (lines.filter fun line => !isComment line).mapM fun line => parseRule ipAddress line with
    | error e => simp [bind, Except.bind]
    | ok rules => cases r <;> simp [bind, Except.bind, pure, Except.pure, List.reduceOption]

theorem isComment_stripNewline (line : Text) : isComment (stripNewline line) = isComment line := by
  obtain ⟨u, hu, hs⟩ := stripNewline_append line
  conv_rhs => rw [hu, isComment_append hs]

theorem parseRule_stripNewline (line : Text) :
    parseRule ipAddress (stripNewline line) = parseRule ipAddress (chomp line) := by
  obtain ⟨u, hu, hs⟩ := stripNewline_append line
  rw [parseRule_chomp]
  conv_rhs => rw [hu, parseRule_append ipAddress hs]

theorem rulesArray_eq_rulesOf (text : Text) :
    rulesArray ipAddress text = rulesOf ipAddress ((eachLine text).map stripNewline) := by
  unfold rulesArray rulesOf
  rw [List.filter_map, List.mapM_map]
  simp only [Function.comp_def, isComment_stripNewline, parseRule_stripNewline]

theorem parseRule_nil : parseRule ipAddress [] = .ok none := by
  have hf : readFields [] = none := by decide
  rw [parseRule, hf]

theorem rulesOf_append_empty {lines ends : List Text} (h : ∀ l ∈ ends, l = []) :
    rulesOf ipAddress (lines ++ ends) = rulesOf ipAddress lines := by
  induction lines with
  | nil =>
    induction ends with
    | nil => rfl
    | cons l ends ih =>
      have hl : l = [] := h l (by simp)
      have ih : rulesOf ipAddress ends = rulesOf ipAddress [] := ih fun x hx => h x (by simp [hx])
      rw [List.nil_append, hl, rulesOf_cons rfl, parseRule_nil, ih]
      rfl
  | cons line lines ih =>
    rw [List.cons_append]
    cases hc : isComment line with
    | true => rw [rulesOf_cons_comment hc, rulesOf_cons_comment hc, ih]
    | false => rw [rulesOf_cons hc, rulesOf_cons hc, ih]

theorem rulesArray_eq_splitLines (text : Text) :
    rulesArray ipAddress text = rulesOf ipAddress (splitLines text) := by
  have hsplit := List.rdropWhile_append_rtakeWhile (p := List.isEmpty)
    (l := (eachLine text).map stripNewline)
  rw [rulesArray_eq_rulesOf, ← hsplit]
  refine rulesOf_append_empty fun l hl => ?_
  simpa using List.mem_rtakeWhile_imp hl

theorem length_rulesOf {lines : List Text} {rules : List ParsedRule}
    (h : rulesOf ipAddress lines = .ok rules) : rules.length ≤ lines.length := by
  induction lines generalizing rules with
  | nil => cases h; rfl
  | cons line lines ih =>
    cases hc : isComment line with
    | true =>
      rw [rulesOf_cons_comment hc] at h
      exact Nat.le_succ_of_le (ih h)
    | false =>
      rw [rulesOf_cons hc] at h
      obtain ⟨r, -, h⟩ := bind_ok h
      obtain ⟨rest, hrest, h⟩ := bind_ok h
      cases h
      have := ih hrest
      cases r with
      | none => exact Nat.le_succ_of_le this
      | some r => simpa using this

/-- The lines carry the rules one by one only if every line is a rule. -/
theorem rulesOf_carried_iff (lines : List Text) :
    (∃ rules, rulesOf ipAddress lines = .ok rules ∧
      List.Forall₂ (Carries ipAddress) (lines.map openvnetRule) rules) ↔
    ∀ line ∈ lines, ∃ r, isComment line = false ∧ parseRule ipAddress line = .ok (some r) ∧
      Tidy ipAddress line r := by
  induction lines with
  | nil => exact ⟨fun _ line h => absurd h (by simp), fun _ => ⟨[], rfl, .nil⟩⟩
  | cons line lines ih =>
    rw [List.forall_mem_cons, ← ih]
    constructor
    · rintro ⟨rules, hr, hf⟩
      have hlen := hf.length_eq
      rw [List.length_map, List.length_cons] at hlen
      cases hc : isComment line with
      | true =>
        rw [rulesOf_cons_comment hc] at hr
        have := length_rulesOf hr
        omega
      | false =>
        rw [rulesOf_cons hc] at hr
        obtain ⟨r, hp, hr⟩ := bind_ok hr
        obtain ⟨rest, hrest, hr⟩ := bind_ok hr
        cases hr
        cases r with
        | none =>
          have := length_rulesOf hrest
          simp only [Option.toList_none, List.nil_append] at hlen
          omega
        | some r =>
          obtain ⟨h1, h2⟩ := List.forall₂_cons.mp hf
          exact ⟨⟨r, rfl, hp, (carries_iff hp).mp h1⟩, rest, hrest, h2⟩
    · rintro ⟨⟨r, hc, hp, ht⟩, rest, hrest, h2⟩
      refine ⟨r :: rest, ?_, .cons ((carries_iff hp).mpr ht) h2⟩
      rw [rulesOf_cons hc, hp, hrest]
      rfl

end

/-- Openvnet gets one line for each rule of the group, with its protocol, port
and source, just when every line of the text is a rule whose first two words are
its protocol and its one port, and whose last word is its source. -/
theorem openvnet_rules_iff (ipAddress : Text → Option IPAddr) (text : Text) :
    (∃ rules, rulesArray ipAddress text = .ok rules ∧
      List.Forall₂ (Carries ipAddress) (openvnetRules text) rules) ↔
    ∀ line ∈ splitLines text, ∃ r, isComment line = false ∧
      parseRule ipAddress line = .ok (some r) ∧ Tidy ipAddress line r := by
  rw [rulesArray_eq_splitLines]
  exact rulesOf_carried_iff (splitLines text)

/-- The text of one rule that opens the ports from 22 to 80 passes the
validation, and openvnet is told of port 22 alone. -/
theorem openvnet_rules_port_range :
    ¬ ∀ (ipAddress : Text → Option IPAddr) (text : Text),
      validate ipAddress true (some text) = .ok () →
      ∃ rules, rulesArray ipAddress text = .ok rules ∧
        List.Forall₂ (Carries ipAddress) (openvnetRules text) rules := by
  intro h
  have hv : validate (fun _ => none) true (some "tcp:22,80,sg-a".toList) = .ok () := by
    decide +kernel
  have ho : openvnetRules "tcp:22,80,sg-a".toList = ["tcp:22:sg-a".toList] := by decide +kernel
  have hr : rulesArray (fun _ => none) "tcp:22,80,sg-a".toList =
      .ok [⟨"tcp".toList, some 22, some 80, none, none, none, "sg-a".toList⟩] := by decide +kernel
  obtain ⟨rules, hrules, hf⟩ := h (fun _ => none) _ hv
  rw [hr] at hrules
  cases hrules
  rw [ho, List.forall₂_cons] at hf
  obtain ⟨port, subject, -, -, hp | ⟨n, -, h22, h80⟩, -⟩ := hf.1
  · exact absurd hp (by decide)
  · cases h22
    cases h80

end SecurityGroup

end WakameVdc
