import WakameVdc.OpenvnetRules
import WakameVdc.SecurityGroupSyntax

/-!
# Port ranges and openvnet

`validate` reads the whole text as one rule and looks at its ports only where `:protocol` is `:tcp`
or `:udp`, which that entry never holds. So it refuses what the parser raises on, and nothing else.
-/

namespace WakameVdc

open Lib

namespace SecurityGroup

variable (ipAddress : Text → Option IPAddr)

/-! ## Texts the parser takes -/

def Fields.Sourced (f : Fields) : Prop :=
  ∃ p, f.protocol = some p ∧ (sourceTokens p).2 = [] ∧
    ∃ src, sourceAfter (sourceTokens p).1 f.ipSource = some src ∧
      (.group ∈ (sourceTokens p).1 ∨ ∃ s ∈ src, (ipAddress s).isSome = true)

/-- The scanner meets an `ip6`, and the text is left out. -/
def Fields.Ip6 (f : Fields) : Prop :=
  ∃ p, f.protocol = some p ∧ ['i', 'p', '6'] <+: (sourceTokens p).2 ∧
    (sourceAfter (sourceTokens p).1 f.ipSource).isSome = true

def Fields.Wild (f : Fields) : Prop :=
  f.ipProtocol = some "icmp".toList ∧ portNumber f.ipFport = -1 ∧ Text.toI f.ipTport ∈ icmpCodes

def Taken (text : Text) : Prop :=
  ∀ f, readFields text = some f → f.Ip6 ∨ f.Sourced ipAddress ∧ (f.Passes ∨ f.Wild)

def PortRange (text : Text) : Prop :=
  ∃ f, readFields text = some f ∧ f.Sourced ipAddress ∧ f.Passes ∧
    f.ipProtocol ≠ some "icmp".toList ∧ portNumber f.ipFport ≠ Text.toI f.ipTport

variable {ipAddress}

/-! ## The parser -/

theorem portRule_ok_none (proto : Text) (f t : Int) (protocol : Option Text) (src : Text) :
    portRule proto f t protocol src ≠ .ok none := by
  unfold portRule
  cases checkPort f with
  | error e => simp [bind, Except.bind]
  | ok u =>
    cases checkPort t with
    | error e => simp [bind, Except.bind]
    | ok u =>
      by_cases hle : f ≤ t
      · simp [bind, Except.bind, hle, pure, Except.pure]
      · simp [bind, Except.bind, hle]

theorem icmpRule_ok_none (proto : Text) (f t : Int) (protocol : Option Text) (src : Text) :
    icmpRule proto f t protocol src = .ok none ↔ f = -1 ∧ t ∈ icmpCodes := by
  have hminus : (-1 : Int) ∉ icmpCodes := by decide
  unfold icmpRule
  by_cases htype : f ≠ -1 ∧ f ∉ icmpTypes
  · simp [htype]
  · rw [if_neg htype]
    by_cases hcode : t ≠ -1 ∧ t ∉ icmpCodes
    · simp [hcode]
    · rw [if_neg hcode]
      by_cases hwild : t ≠ -1 ∧ f = -1
      · rw [if_pos hwild]
        have hmem : t ∈ icmpCodes := by
          by_contra h
          exact hcode ⟨hwild.1, h⟩
        simp [hwild.2, hmem]
      · rw [if_neg hwild]
        refine iff_of_false (by simp) ?_
        rintro ⟨hf, ht⟩
        exact hwild ⟨fun h => hminus (h ▸ ht), hf⟩

theorem readRule_ok_none (f : Fields) (protocol : Option Text) (src : Text) :
    readRule f protocol src = .ok none ↔ f.Wild := by
  unfold readRule Fields.Wild
  cases hp : f.ipProtocol with
  | none => simp
  | some proto =>
    dsimp only
    by_cases hport : proto = "tcp".toList ∨ proto = "udp".toList
    · have hicmp : proto ≠ "icmp".toList := by
        rintro rfl
        revert hport
        decide
      rw [if_pos hport]
      exact iff_of_false (portRule_ok_none proto _ _ protocol src) fun h => hicmp (Option.some.inj h.1)
    · rw [if_neg hport]
      by_cases hicmp : proto = "icmp".toList
      · rw [if_pos hicmp, icmpRule_ok_none]
        simp [hicmp]
      · rw [if_neg hicmp]
        exact iff_of_false (by simp) fun h => hicmp (Option.some.inj h.1)

theorem readRule_ok_iff (f : Fields) (protocol : Option Text) (src : Text) :
    ((∃ r, readRule f protocol src = .ok r) ↔ f.Passes ∨ f.Wild) ∧
      ((∃ rule, readRule f protocol src = .ok (some rule)) ↔ f.Passes) := by
  have hnone := readRule_ok_none f protocol src
  rcases readRule_cases f protocol src with ⟨hpass, rule, hrule⟩ | ⟨hpass, hnil | ⟨t, herror⟩⟩
  · exact ⟨iff_of_true ⟨_, hrule⟩ (.inl hpass), iff_of_true ⟨_, hrule⟩ hpass⟩
  · exact ⟨iff_of_true ⟨_, hnil⟩ (.inr (hnone.mp hnil)), iff_of_false (by simp [hnil]) hpass⟩
  · refine ⟨iff_of_false (by simp [herror]) ?_, iff_of_false (by simp [herror]) hpass⟩
    rintro (h | h)
    · exact hpass h
    · have := hnone.mpr h
      rw [herror] at this
      cases this

theorem scanRest_ip6 {r : Option Text × Bool} {t : Text} (hne : t ≠ []) :
    (['i', 'p', '6'] <+: t ∧ scanRest r t = .ok none) ∨
      (¬ ['i', 'p', '6'] <+: t ∧ ∃ e, scanRest r t = .error e) := by
  unfold scanRest
  split
  · exact absurd rfl hne
  · exact .inl ⟨by simp, rfl⟩
  · rename_i h6
    refine .inr ⟨?_, _, rfl⟩
    rintro ⟨u, hu⟩
    exact h6 u hu.symm

theorem parseRule_fields {text : Text} {f : Fields} (hf : readFields text = some f) :
    ((∃ r, parseRule ipAddress text = .ok r) ↔
      f.Ip6 ∨ f.Sourced ipAddress ∧ (f.Passes ∨ f.Wild)) ∧
    ((∃ rule, parseRule ipAddress text = .ok (some rule)) ↔ f.Sourced ipAddress ∧ f.Passes) := by
  unfold Fields.Ip6 Fields.Sourced
  cases hp : f.protocol with
  | none =>
    have hparse : parseRule ipAddress text = .error .typeError := by
      unfold parseRule
      rw [hf]
      simp only [hp]
    simp [hparse]
  | some p =>
    simp only [Option.some.injEq, exists_eq_left']
    cases hs : sourceAfter (sourceTokens p).1 f.ipSource with
    | none =>
      have hparse : parseRule ipAddress text = .error .noMethodError := by
        rw [parseRule_scan hf hp, hs]
      simp [hparse]
    | some src =>
      simp only [Option.some.injEq, exists_eq_left', Option.isSome_some, and_true]
      by_cases hrest : (sourceTokens p).2 = []
      · have hparse : parseRule ipAddress text =
            (readSource ipAddress p src ((sourceTokens p).1.contains .group) >>=
              fun r => readRule f r.1 r.2) := parseRule_source hf hp hs hrest
        rcases readSource_cases ipAddress p src ((sourceTokens p).1.contains .group) with
          ⟨hread, r, hr⟩ | ⟨hread, e, he, -⟩
        · rw [List.contains_iff_mem] at hread
          rw [hr] at hparse
          have hrule := readRule_ok_iff f r.1 r.2
          have heq : parseRule ipAddress text = readRule f r.1 r.2 := hparse
          have h6 : ¬ ['i', 'p', '6'] <+: ([] : Text) := by simp
          simp only [heq, hrule, h6, hrest, hread, false_or, true_and, and_self]
        · rw [List.contains_iff_mem] at hread
          rw [he] at hparse
          have heq : parseRule ipAddress text = .error e := hparse
          simp only [heq, hrest, hread]
          simp
      · rw [parseRule_scan hf hp, hs]
        dsimp only
        rcases scanRest_ip6 (r := (src, (sourceTokens p).1.contains .group)) hrest with
          ⟨h6, hscan⟩ | ⟨h6, e, hscan⟩
        · rw [hscan]
          simp [h6, hrest]
        · rw [hscan]
          simp [h6, hrest]

theorem taken_iff (text : Text) : (∃ r, parseRule ipAddress text = .ok r) ↔ Taken ipAddress text := by
  unfold Taken
  cases hf : readFields text with
  | none =>
    refine iff_of_true ⟨none, ?_⟩ (by simp)
    unfold parseRule
    rw [hf]
  | some f =>
    simp only [Option.some.injEq, forall_eq']
    exact (parseRule_fields hf).1

theorem portRange_iff (line : Text) :
    (∃ r, parseRule ipAddress line = .ok (some r) ∧
      (r.ipProtocol = "tcp".toList ∨ r.ipProtocol = "udp".toList) ∧ r.ipFport ≠ r.ipTport) ↔
      PortRange ipAddress line := by
  constructor
  · rintro ⟨r, hparse, hport, hne⟩
    obtain ⟨f, hf, hrule⟩ := parseRule_ok hparse
    obtain ⟨hsourced, hpass⟩ := (parseRule_fields hf).2.mp ⟨r, hparse⟩
    refine ⟨f, hf, hsourced, hpass, ?_, ?_⟩
    · cases hrule with
      | ports proto =>
        rw [proto]
        rintro hicmp
        rw [Option.some.inj hicmp] at hport
        exact absurd hport (by decide)
      | icmp _ isIcmp =>
        rw [isIcmp] at hport
        exact absurd hport (by decide)
    · cases hrule with
      | ports _ _ fport tport =>
        rw [fport, tport] at hne
        exact fun h => hne (congrArg some h)
      | icmp _ isIcmp =>
        rw [isIcmp] at hport
        exact absurd hport (by decide)
  · rintro ⟨f, hf, hsourced, hpass, hicmp, hne⟩
    obtain ⟨r, hparse⟩ := (parseRule_fields hf).2.mpr ⟨hsourced, hpass⟩
    refine ⟨r, hparse, ?_⟩
    obtain ⟨f', hf', hrule⟩ := parseRule_ok hparse
    rw [hf] at hf'
    cases hf'
    cases hrule with
    | ports _ isPort fport tport =>
      refine ⟨isPort, ?_⟩
      rw [fport, tport]
      exact fun h => hne (Option.some.inj h)
    | icmp proto isIcmp => exact absurd (proto.trans (congrArg some isIcmp)) hicmp

/-! ## The text -/

theorem rulesArray_lines (text : Text) : rulesArray ipAddress text = rulesOf ipAddress (eachLine text) := by
  simp only [rulesArray, rulesOf, parseRule_chomp]

theorem rulesOf_ok_iff (lines : List Text) :
    (∃ rules, rulesOf ipAddress lines = .ok rules) ↔
      ∀ line ∈ lines, isComment line = false → Taken ipAddress line := by
  induction lines with
  | nil => exact iff_of_true ⟨[], rfl⟩ (by simp)
  | cons line lines ih =>
    rw [List.forall_mem_cons, ← ih]
    by_cases hc : isComment line = true
    · simp [rulesOf_cons_comment hc, hc]
    · have hc : isComment line = false := by simpa using hc
      rw [rulesOf_cons hc, ← taken_iff]
      simp only [hc, forall_const]
      cases parseRule ipAddress line with
      | error e => simp [bind, Except.bind]
      | ok r =>
        cases rulesOf ipAddress lines with
        | error e => simp [bind, Except.bind]
        | ok rules => simp [bind, Except.bind, pure, Except.pure]

theorem mem_rulesOf {lines : List Text} {rules : List ParsedRule}
    (h : rulesOf ipAddress lines = .ok rules) (r : ParsedRule) :
    r ∈ rules ↔ ∃ line ∈ lines, isComment line = false ∧ parseRule ipAddress line = .ok (some r) := by
  induction lines generalizing rules with
  | nil =>
    cases h
    simp
  | cons line lines ih =>
    by_cases hc : isComment line = true
    · rw [rulesOf_cons_comment hc] at h
      simp [ih h, hc]
    · have hc : isComment line = false := by simpa using hc
      rw [rulesOf_cons hc] at h
      obtain ⟨r', hp, h⟩ := bind_ok h
      obtain ⟨rest, hrest, h⟩ := bind_ok h
      cases h
      simp [ih hrest, hc, hp, Option.mem_toList]

theorem validate_ok_iff (text : Text) :
    validate ipAddress true (some text) = .ok () ↔ Taken ipAddress text := by
  rw [← taken_iff]
  unfold validate
  cases hp : parseRule ipAddress text with
  | error e => simp [hp, Except.map]
  | ok r => simp [hp, Except.map]

def OnePort (ipAddress : Text → Option IPAddr) (text : Text) : Prop :=
  ∀ rules, rulesArray ipAddress text = .ok rules → ∀ r ∈ rules,
    (r.ipProtocol = "tcp".toList ∨ r.ipProtocol = "udp".toList) → r.ipFport = r.ipTport

theorem onePort_iff (text : Text) :
    OnePort ipAddress text ↔
      (∃ line ∈ eachLine text, isComment line = false ∧ ¬ Taken ipAddress line) ∨
        ∀ line ∈ eachLine text, isComment line = false → ¬ PortRange ipAddress line := by
  unfold OnePort
  rw [rulesArray_lines]
  have hok : (∃ rules, rulesOf ipAddress (eachLine text) = .ok rules) ↔ _ := rulesOf_ok_iff _
  cases hrules : rulesOf ipAddress (eachLine text) with
  | error e =>
    refine iff_of_true (by simp) (.inl ?_)
    by_contra hall
    push Not at hall
    obtain ⟨rules, h⟩ := hok.mpr hall
    simp [hrules] at h
  | ok rules =>
    have htaken := hok.mp ⟨rules, hrules⟩
    have hno : ¬ ∃ line ∈ eachLine text, isComment line = false ∧ ¬ Taken ipAddress line := by
      push Not
      exact htaken
    simp only [hno, false_or, Except.ok.injEq, forall_eq', mem_rulesOf hrules]
    constructor
    · intro h line hline hc hrange
      obtain ⟨r, hp, hport, hne⟩ := (portRange_iff line).mpr hrange
      exact hne (h r ⟨line, hline, hc, hp⟩ hport)
    · rintro h r ⟨line, hline, hc, hp⟩ hport
      by_contra hne
      exact h line hline hc ((portRange_iff line).mp ⟨r, hp, hport, hne⟩)

/-- What passes the validation has rules for one port alone just when the parser does not take the
whole text, or it does not take one of its lines, or none of them is for several ports. -/
theorem validated_onePort_iff (ipAddress : Text → Option IPAddr) (text : Text) :
    (validate ipAddress true (some text) = .ok () → OnePort ipAddress text) ↔
      ¬ Taken ipAddress text ∨
        (∃ line ∈ eachLine text, isComment line = false ∧ ¬ Taken ipAddress line) ∨
        ∀ line ∈ eachLine text, isComment line = false → ¬ PortRange ipAddress line := by
  rw [validate_ok_iff, onePort_iff, imp_iff_not_or]

/-- A rule for the ports from 22 to 80 passes. -/
theorem port_range_passes :
    validate (fun _ => none) true (some "tcp:22,80,sg-a".toList) = .ok () ∧
      ¬ OnePort (fun _ => none) "tcp:22,80,sg-a".toList := by
  refine ⟨by decide +kernel, ?_⟩
  intro h
  have hrules : rulesArray (fun _ => none) "tcp:22,80,sg-a".toList =
      .ok [⟨"tcp".toList, some 22, some 80, none, none, none, "sg-a".toList⟩] := by decide +kernel
  exact absurd (h _ hrules _ (List.mem_singleton.mpr rfl) (.inl rfl)) (by decide)

end SecurityGroup

end WakameVdc
