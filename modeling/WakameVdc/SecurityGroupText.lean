import WakameVdc.SecurityGroupTask

/-!
# The rule text of a security group

`rules_array` and `validate` of `models/security_group.rb`: the text of a group
holds one rule a line.
-/

namespace WakameVdc

open Lib

namespace SecurityGroup

/-- `each_line`: every line with the newline that ends it. -/
def eachLine : Text → List Text
  | [] => []
  | c :: t =>
    if c = '\n' then ['\n'] :: eachLine t
    else
      match eachLine t with
      | [] => [[c]]
      | l :: ls => (c :: l) :: ls

/-- `line =~ /\A#/` -/
def isComment (line : Text) : Bool := line.head? == some '#'

/-- `chomp`: a newline at the end goes, with the carriage return before it. -/
def chomp (line : Text) : Text :=
  match line.reverse with
  | '\n' :: '\r' :: t => t.reverse
  | '\n' :: t => t.reverse
  | '\r' :: t => t.reverse
  | _ => line

variable (ipAddress : Text → Option IPAddr)

def rulesArray (rule : Text) : Except RuleError (List ParsedRule) := do
  let rules ← ((eachLine rule).filter fun line => !isComment line).mapM fun line =>
    parseRule ipAddress (chomp line)
  return rules.reduceOption

/-- `validate`: with openvnet the whole text is parsed as one rule. The ports are
compared only where `prule[:protocol]` is `:tcp` or `:udp`, and that entry holds
a text or nothing. -/
def validate (openvnet : Bool) (rule : Option Text) : Except RuleError Unit :=
  if openvnet then
    match rule with
    | none => .error .noMethodError
    | some rule => (parseRule ipAddress rule).map fun _ => ()
  else .ok ()

/-! ## Lines -/

theorem squeeze_append {t u : Text} (hu : ∀ c ∈ u, Text.isSpace c = true) :
    squeeze (t ++ u) = squeeze t := by
  induction u using List.reverseRecOn with
  | nil => rw [List.append_nil]
  | append_singleton u c ih =>
    have hc : Text.isSpace c = true := hu c (by simp)
    rw [← ih fun x hx => hu x (by simp [hx]), ← List.append_assoc]
    generalize t ++ u = v
    unfold squeeze Text.strip
    rw [List.dropWhile_append]
    split
    · rename_i hall
      rw [List.isEmpty_iff] at hall
      rw [hall]
      simp [hc]
    · rw [List.rdropWhile_concat_pos _ _ _ (by simp [hc])]

theorem parseRule_append {t u : Text} (hu : ∀ c ∈ u, Text.isSpace c = true) :
    parseRule ipAddress (t ++ u) = parseRule ipAddress t := by
  simp only [parseRule, readFields, squeeze_append hu]

theorem isComment_append {t u : Text} (hu : ∀ c ∈ u, Text.isSpace c = true) :
    isComment (t ++ u) = isComment t := by
  cases t with
  | cons c t => rfl
  | nil =>
    cases u with
    | nil => rfl
    | cons c u =>
      have hc : c ≠ '#' := fun h => absurd (h ▸ hu c (by simp)) (by decide)
      simp [isComment, hc]

theorem append_of_reverse {line t u : Text} (h : line.reverse = u ++ t) :
    line = t.reverse ++ u.reverse := by
  rw [← List.reverse_reverse line, h, List.reverse_append]

theorem chomp_append (line : Text) :
    ∃ u, line = chomp line ++ u ∧ ∀ c ∈ u, Text.isSpace c = true := by
  unfold chomp
  split
  · exact ⟨['\r', '\n'], append_of_reverse (u := ['\n', '\r']) ‹_›, by simp [Text.isSpace]⟩
  · exact ⟨['\n'], append_of_reverse (u := ['\n']) ‹_›, by simp [Text.isSpace]⟩
  · exact ⟨['\r'], append_of_reverse (u := ['\r']) ‹_›, by simp [Text.isSpace]⟩
  · exact ⟨[], (List.append_nil _).symm, by simp⟩

theorem parseRule_chomp (line : Text) : parseRule ipAddress (chomp line) = parseRule ipAddress line := by
  obtain ⟨u, hu, hs⟩ := chomp_append line
  conv_rhs => rw [hu, parseRule_append ipAddress hs]

end SecurityGroup

end WakameVdc
