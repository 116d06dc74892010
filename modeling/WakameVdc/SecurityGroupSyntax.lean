import WakameVdc.SecurityGroupSource

/-!
# What the rule parser makes of any text

`parse_rule` reads its fields with `to_i`, passes over what it does not expect after them,
and takes the pieces of a source apart without looking whether they are there. Which
texts it answers as its error class promises.
-/

namespace WakameVdc

open Lib

namespace SecurityGroup

/-! ## Well written rules -/

/-- A number in decimal digits, with or without a minus sign. -/
def isNumber (t : Text) : Bool :=
  match t with
  | '-' :: u => (Text.nat? u).isSome
  | u => (Text.nat? u).isSome

/-- One address with or without a length, or one group. -/
inductive SingleSource : Text → Prop
  | cidr {a : Text} (address : (Ipv4.Prefix.ofText a).isSome = true) :
    SingleSource ('i' :: 'p' :: '4' :: ':' :: a)
  | group {w : Text} (some : w ≠ []) (word : ∀ c ∈ w, Text.isWord c = true) :
    SingleSource ('s' :: 'g' :: '-' :: w)

/-- `protocol:number,number,source` with nothing around it. -/
inductive WellWritten : Text → Prop
  | mk {proto fport tport source : Text} (comma : ',' ∉ proto) (colon : ':' ∉ proto)
      (fportNumber : isNumber fport = true) (tportNumber : isNumber tport = true)
      (single : SingleSource source) :
    WellWritten (proto ++ ':' :: (fport ++ ',' :: (tport ++ ',' :: source)))

/-- The ports of a tcp or udp rule, or the type and code of an icmp rule. -/
def NumbersOk (rule : ParsedRule) : Prop :=
  (rule.ipProtocol = "tcp".toList ∨ rule.ipProtocol = "udp".toList) ∧
      (∃ f ∈ rule.ipFport, ∃ t ∈ rule.ipTport, 1 ≤ f ∧ f ≤ t ∧ t ≤ 65535) ∨
    rule.ipProtocol = "icmp".toList ∧ (∃ n ∈ rule.icmpType, n = -1 ∨ n ∈ icmpTypes) ∧
      ∃ n ∈ rule.icmpCode, n = -1 ∨ n ∈ icmpCodes

/-- An IPv4 address with a length, or the id of a group. -/
def SourceOk (rule : ParsedRule) : Prop :=
  rule.protocol = some "ip4".toList ∧ (Ipv4.Prefix.ofText rule.ipSource).isSome = true ∨
    rule.protocol = none ∧ ∃ w, w ≠ [] ∧ (∀ c ∈ w, Text.isWord c = true) ∧
      rule.ipSource = 's' :: 'g' :: '-' :: w

/-- What `parse_rule` is to do with a text. -/
def Promised (ipAddress : Text → Option IPAddr) (line : Text) : Prop :=
  match parseRule ipAddress line with
  | .ok none => True
  | .ok (some rule) => WellWritten (squeeze line) ∧ NumbersOk rule ∧ SourceOk rule
  | .error (.invalidSecurityGroupRuleSyntax _) => True
  | .error _ => False

/-- A text without a colon the gem reads as an IPv4 address in digits and dots, with a
length, if it reads it. -/
def ReadsIpv4 (ipAddress : Text → Option IPAddr) : Prop :=
  ∀ t, ':' ∉ t → ∀ ip ∈ ipAddress t, Ipv4.ofQuad ip.address = some ip.u32 ∧ ip.prefixLen ≤ 32

/-! ## The tokens of a source -/

inductive SourceToken
  | ip4 | group
  deriving DecidableEq, Repr

/-- The tokens the part before the colon begins with, and what comes after them. -/
def sourceTokens : Text → List SourceToken × Text
  | 'i' :: 'p' :: '4' :: t => (.ip4 :: (sourceTokens t).1, (sourceTokens t).2)
  | 's' :: 'g' :: '-' :: t =>
    if t.head?.any Text.isWord then
      (.group :: (sourceTokens (t.dropWhile Text.isWord)).1,
        (sourceTokens (t.dropWhile Text.isWord)).2)
    else ([], 's' :: 'g' :: '-' :: t)
  | t => ([], t)
termination_by t => t.length
decreasing_by
  · simp only [List.length_cons]; omega
  · have := List.length_dropWhile_le Text.isWord t
    simp only [List.length_cons]; omega

/-- The source once each `ip4` has dropped a zero prefix of it; nothing if one of them
has no source. -/
def sourceAfter : List SourceToken → Option Text → Option (Option Text)
  | [], src => some src
  | .ip4 :: ts, src =>
    match dropZeroPrefix src with
    | .ok src => sourceAfter ts src
    | .error _ => none
  | .group :: ts, src => sourceAfter ts src

def Fields.Passes (f : Fields) : Prop :=
  (f.ipProtocol = some "tcp".toList ∨ f.ipProtocol = some "udp".toList) ∧
      1 ≤ portNumber f.ipFport ∧ portNumber f.ipFport ≤ Text.toI f.ipTport ∧
      Text.toI f.ipTport ≤ 65535 ∨
    f.ipProtocol = some "icmp".toList ∧
      (portNumber f.ipFport = -1 ∨ portNumber f.ipFport ∈ icmpTypes) ∧
      (Text.toI f.ipTport = -1 ∨ Text.toI f.ipTport ∈ icmpCodes) ∧
      (portNumber f.ipFport = -1 → Text.toI f.ipTport = -1)

/-- The numbers of an icmp rule are supported in each other's place. -/
def Fields.Swaps (f : Fields) : Prop :=
  f.ipProtocol = some "icmp".toList →
    (Text.toI f.ipTport = -1 ∨ Text.toI f.ipTport ∈ icmpTypes) ∧
      (portNumber f.ipFport = -1 ∨ portNumber f.ipFport ∈ icmpCodes)

/-- Two commas, a colon in front of the first number, and one source. -/
def Plain (line : Text) : Prop :=
  ∃ fromPair tport source, (squeeze line).splitOn ',' = [fromPair, tport, source] ∧
    isNumber tport = true ∧
    (∃ proto fport, fromPair.splitOn ':' = [proto, fport] ∧ isNumber fport = true) ∧
    ((∃ a, source.splitOn ':' = ["ip4".toList, a] ∧ (Ipv4.Prefix.ofText a).isSome = true) ∨
      sourceTokens source = ([.group], []))

/-- What a text has to be like for the parser to keep what it promises. -/
def Regular (ipAddress : Text → Option IPAddr) (line : Text) : Prop :=
  ∀ f, readFields line = some f → ∃ p, f.protocol = some p ∧
    ∃ src, sourceAfter (sourceTokens p).1 f.ipSource = some src ∧
      ((sourceTokens p).2 = [] →
        (.group ∈ (sourceTokens p).1 ∨ ∃ s ∈ src, (ipAddress s).isSome = true) ∧
          (f.Passes → Plain line ∧ f.Swaps))

/-! ## Scanning -/

theorem sourceTokens_ip4 (t : Text) : sourceTokens ('i' :: 'p' :: '4' :: t) =
    (.ip4 :: (sourceTokens t).1, (sourceTokens t).2) := by
  rw [sourceTokens]

theorem sourceTokens_group {t : Text} (h : t.head?.any Text.isWord = true) :
    sourceTokens ('s' :: 'g' :: '-' :: t) =
      (.group :: (sourceTokens (t.dropWhile Text.isWord)).1,
        (sourceTokens (t.dropWhile Text.isWord)).2) := by
  rw [sourceTokens, if_pos h]

theorem sourceTokens_nil : sourceTokens [] = ([], []) := by
  rw [sourceTokens]
  · exact fun t h => nomatch h
  · exact fun t h => nomatch h

/-- How the scan ends with what no token begins with. -/
def scanRest (r : Option Text × Bool) : Text → Except RuleError (Option (Option Text × Bool))
  | [] => .ok (some r)
  | 'i' :: 'p' :: '6' :: _ => .ok none
  | t => .error (.invalidSecurityGroupRuleSyntax
      ("Unexpected protocol '".toList ++ t.take 20 ++ ['\'']))

theorem dropZeroPrefix_cases (src : Option Text) :
    src = none ∧ dropZeroPrefix src = .error .noMethodError ∨
      ∃ src', dropZeroPrefix src = .ok src' := by
  cases src with
  | none => exact .inl ⟨rfl, rfl⟩
  | some s =>
    right
    unfold dropZeroPrefix
    dsimp only
    split
    · exact ⟨_, rfl⟩
    · exact ⟨_, rfl⟩

theorem scanProtocol_eq (t : Text) (src : Option Text) (fromGroup : Bool) :
    scanProtocol t src fromGroup =
      match sourceAfter (sourceTokens t).1 src with
      | none => .error .noMethodError
      | some src => scanRest (src, fromGroup || (sourceTokens t).1.contains .group)
          (sourceTokens t).2 := by
  fun_induction scanProtocol t src fromGroup with
  | case1 src fromGroup =>
    rw [sourceTokens_nil]
    simp [sourceAfter, scanRest]
  | case2 t src fromGroup =>
    have h : sourceTokens ('i' :: 'p' :: '6' :: t) = ([], 'i' :: 'p' :: '6' :: t) := by
      rw [sourceTokens]
      · exact fun u h => by simp at h
      · exact fun u h => by simp at h
    rw [h]
    rfl
  | case3 t src fromGroup ih =>
    rw [sourceTokens_ip4]
    rcases dropZeroPrefix_cases src with ⟨_, hd⟩ | ⟨src', hd⟩
    · simp only [hd, sourceAfter, bind, Except.bind]
    · simp only [hd, sourceAfter, bind, Except.bind, ih]
      rfl
  | case4 t src fromGroup hw ih =>
    rw [sourceTokens_group hw, ih]
    simp [sourceAfter]
  | case5 t src fromGroup hw =>
    have h : sourceTokens ('s' :: 'g' :: '-' :: t) = ([], 's' :: 'g' :: '-' :: t) := by
      rw [sourceTokens, if_neg hw]
    rw [h]
    rfl
  | case6 t src fromGroup hnil h6 h4 hsg =>
    have h : sourceTokens t = ([], t) := by
      rw [sourceTokens]
      · exact h4
      · exact hsg
    rw [h]
    show _ = scanRest _ t
    unfold scanRest
    split
    · exact absurd rfl hnil
    · exact absurd rfl (h6 _)
    · rfl

/-! ## Reading the numbers -/

theorem checkPort_error {port : Int} (h : ¬ (1 ≤ port ∧ port ≤ 65535)) :
    ∃ t, checkPort port = .error (.invalidSecurityGroupRuleSyntax t) := by
  unfold checkPort
  rw [if_neg h]
  exact ⟨_, rfl⟩

def Refused (r : Except RuleError (Option ParsedRule)) : Prop :=
  r = .ok none ∨ ∃ t, r = .error (.invalidSecurityGroupRuleSyntax t)

theorem portRule_cases (proto : Text) (f t : Int) (protocol : Option Text) (src : Text) :
    (1 ≤ f ∧ f ≤ t ∧ t ≤ 65535 ∧ ∃ rule, portRule proto f t protocol src = .ok (some rule)) ∨
      ¬ (1 ≤ f ∧ f ≤ t ∧ t ≤ 65535) ∧ Refused (portRule proto f t protocol src) := by
  unfold portRule
  by_cases hf : 1 ≤ f ∧ f ≤ 65535
  · by_cases ht : 1 ≤ t ∧ t ≤ 65535
    · rw [show checkPort f = .ok () from if_pos hf, show checkPort t = .ok () from if_pos ht]
      by_cases hle : f ≤ t
      · refine .inl ⟨hf.1, hle, ht.2, ⟨proto, some f, some t, none, none, protocol, src⟩, ?_⟩
        simp only [bind, Except.bind, pure, Except.pure, if_pos hle]
      · refine .inr ⟨fun h => hle h.2.1, .inr ?_⟩
        simp only [bind, Except.bind, if_neg hle]
        exact ⟨_, rfl⟩
    · obtain ⟨m, hm⟩ := checkPort_error ht
      rw [show checkPort f = .ok () from if_pos hf, hm]
      exact .inr ⟨fun h => ht (by omega), .inr ⟨m, rfl⟩⟩
  · obtain ⟨m, hm⟩ := checkPort_error hf
    rw [hm]
    exact .inr ⟨fun h => hf (by omega), .inr ⟨m, rfl⟩⟩

theorem icmpRule_cases (proto : Text) (f t : Int) (protocol : Option Text) (src : Text) :
    ((f = -1 ∨ f ∈ icmpTypes) ∧ (t = -1 ∨ t ∈ icmpCodes) ∧ (f = -1 → t = -1) ∧
        ∃ rule, icmpRule proto f t protocol src = .ok (some rule)) ∨
      ¬ ((f = -1 ∨ f ∈ icmpTypes) ∧ (t = -1 ∨ t ∈ icmpCodes) ∧ (f = -1 → t = -1)) ∧
        Refused (icmpRule proto f t protocol src) := by
  unfold icmpRule
  split
  · rename_i htype
    exact .inr ⟨by tauto, .inr ⟨_, rfl⟩⟩
  · rename_i htype
    split
    · rename_i hcode
      exact .inr ⟨by tauto, .inr ⟨_, rfl⟩⟩
    · rename_i hcode
      split
      · rename_i hwild
        exact .inr ⟨fun h => hwild.1 (h.2.2 hwild.2), .inl rfl⟩
      · rename_i hwild
        exact .inl ⟨by tauto, by tauto, by tauto, _, rfl⟩

theorem readRule_cases (f : Fields) (protocol : Option Text) (src : Text) :
    (f.Passes ∧ ∃ rule, readRule f protocol src = .ok (some rule)) ∨
      ¬ f.Passes ∧ Refused (readRule f protocol src) := by
  unfold readRule Fields.Passes
  cases hp : f.ipProtocol with
  | none => exact .inr ⟨by simp, .inr ⟨_, rfl⟩⟩
  | some proto =>
    dsimp only
    by_cases hport : proto = "tcp".toList ∨ proto = "udp".toList
    · have hicmp : proto ≠ "icmp".toList := by
        rintro rfl
        revert hport
        decide
      rw [if_pos hport]
      simp only [Option.some.injEq, hport, hicmp, true_and, false_and, or_false]
      rcases portRule_cases proto (portNumber f.ipFport) (Text.toI f.ipTport) protocol src with h | h
      · exact .inl ⟨⟨h.1, h.2.1, h.2.2.1⟩, h.2.2.2⟩
      · exact .inr h
    · rw [if_neg hport]
      simp only [Option.some.injEq, hport, false_and, false_or]
      by_cases hicmp : proto = "icmp".toList
      · rw [if_pos hicmp]
        simp only [hicmp, true_and]
        rcases icmpRule_cases "icmp".toList (portNumber f.ipFport) (Text.toI f.ipTport) protocol src
          with h | h
        · exact .inl ⟨⟨h.1, h.2.1, h.2.2.1⟩, h.2.2.2⟩
        · exact .inr h
      · rw [if_neg hicmp]
        exact .inr ⟨fun h => hicmp h.1, .inr ⟨_, rfl⟩⟩

theorem readRule_numbers {f : Fields} {protocol : Option Text} {src : Text} {rule : ParsedRule}
    (h : readRule f protocol src = .ok (some rule)) : NumbersOk rule ↔ f.Swaps := by
  obtain ⟨hr, -, -⟩ := readRule_ok h
  cases hr with
  | ports proto isPort fport tport low le high =>
    refine iff_of_true (.inl ⟨isPort, _, fport, _, tport, low, le, high⟩) ?_
    intro hicmp
    rw [proto] at hicmp
    rw [Option.some.inj hicmp] at isPort
    exact absurd isPort (by decide)
  | icmp proto isIcmp type code typeOk codeOk wild =>
    rw [NumbersOk, Fields.Swaps, type, code, proto]
    simp [isIcmp]

/-! ## Reading the source -/

theorem sourceTokens_eq_nil {t : Text} (h : sourceTokens t = ([], [])) : t = [] := by
  fun_cases sourceTokens t with
  | case1 t => rw [sourceTokens_ip4] at h; cases h
  | case2 t hw => rw [sourceTokens_group hw] at h; cases h
  | case3 t hw =>
    rw [sourceTokens, if_neg hw] at h
    cases h
  | case4 t h4 hsg =>
    rw [sourceTokens] at h
    · exact congrArg Prod.snd h
    · exact h4
    · exact hsg

theorem sourceTokens_single {t : Text} : sourceTokens t = ([.group], []) ↔
    ∃ w, w ≠ [] ∧ (∀ c ∈ w, Text.isWord c = true) ∧ t = 's' :: 'g' :: '-' :: w := by
  constructor
  · intro h
    fun_cases sourceTokens t with
    | case1 t => rw [sourceTokens_ip4] at h; cases h
    | case2 t hw =>
      rw [sourceTokens_group hw, Prod.mk.injEq, List.cons.injEq] at h
      have hrest : t.dropWhile Text.isWord = [] := sourceTokens_eq_nil (Prod.ext h.1.2 h.2)
      refine ⟨t, ?_, List.dropWhile_eq_nil_iff.mp hrest, rfl⟩
      rintro rfl
      cases hw
    | case3 t hw =>
      rw [sourceTokens, if_neg hw] at h
      cases h
    | case4 t h4 hsg =>
      rw [sourceTokens] at h
      · cases h
      · exact h4
      · exact hsg
  · rintro ⟨w, hne, hw, rfl⟩
    obtain ⟨c, u, rfl⟩ := List.exists_cons_of_ne_nil hne
    rw [sourceTokens_group (by simp [hw c (List.mem_cons_self ..)]),
      List.dropWhile_eq_nil_iff.mpr hw, sourceTokens_nil]

theorem sourceTokens_ip4_alone : sourceTokens "ip4".toList = ([.ip4], []) := by
  show sourceTokens ('i' :: 'p' :: '4' :: []) = _
  rw [sourceTokens_ip4, sourceTokens_nil]

section
variable {ipAddress : Text → Option IPAddr} {line : Text} {f : Fields} {p : Text}
  (hf : readFields line = some f) (hp : f.protocol = some p)
include hf hp

theorem parseRule_scan : parseRule ipAddress line =
    match sourceAfter (sourceTokens p).1 f.ipSource with
    | none => .error .noMethodError
    | some src =>
      match scanRest (src, (sourceTokens p).1.contains .group) (sourceTokens p).2 with
      | .error e => .error e
      | .ok none => .ok none
      | .ok (some r) => readSource ipAddress p r.1 r.2 >>= fun r => readRule f r.1 r.2 := by
  unfold parseRule
  rw [hf]
  simp only [hp, scanProtocol_eq, Bool.false_or]
  cases sourceAfter (sourceTokens p).1 f.ipSource with
  | none => rfl
  | some src =>
    dsimp only [bind, Except.bind]
    cases scanRest (src, (sourceTokens p).1.contains .group) (sourceTokens p).2 with
    | error e => rfl
    | ok r =>
      cases r with
      | none => rfl
      | some r => rfl

theorem parseRule_refused {src : Option Text}
    (hs : sourceAfter (sourceTokens p).1 f.ipSource = some src) (hr : (sourceTokens p).2 ≠ []) :
    Refused (parseRule ipAddress line) := by
  rw [parseRule_scan hf hp, hs]
  dsimp only
  unfold scanRest
  split
  · rename_i h
    split at h
    · exact absurd ‹_› hr
    · cases h
    · cases h
      exact .inr ⟨_, rfl⟩
  · exact .inl rfl
  · rename_i h
    split at h
    · exact absurd ‹_› hr
    · cases h
    · cases h

theorem parseRule_source {src : Option Text}
    (hs : sourceAfter (sourceTokens p).1 f.ipSource = some src) (hr : (sourceTokens p).2 = []) :
    parseRule ipAddress line =
      (readSource ipAddress p src ((sourceTokens p).1.contains .group) >>=
        fun r => readRule f r.1 r.2) := by
  rw [parseRule_scan hf hp, hs, hr]
  rfl

end

/-- The source is read, or the parser answers neither nothing nor its own error. -/
theorem readSource_cases (ipAddress : Text → Option IPAddr) (p : Text) (src : Option Text)
    (fromGroup : Bool) :
    (fromGroup = true ∨ ∃ s ∈ src, (ipAddress s).isSome = true) ∧
        (∃ r, readSource ipAddress p src fromGroup = .ok r) ∨
      ¬ (fromGroup = true ∨ ∃ s ∈ src, (ipAddress s).isSome = true) ∧
        ∃ e, readSource ipAddress p src fromGroup = .error e ∧
          ∀ t, e ≠ .invalidSecurityGroupRuleSyntax t := by
  unfold readSource
  cases fromGroup with
  | true => exact .inl ⟨.inl rfl, _, rfl⟩
  | false =>
    cases src with
    | none => exact .inr ⟨by simp, _, rfl, fun t h => by cases h⟩
    | some s =>
      cases hs : ipAddress s with
      | none => exact .inr ⟨by simp [hs], .argumentError, by simp [hs], fun t h => by cases h⟩
      | some ip =>
        refine .inl ⟨.inr ⟨s, rfl, by rw [hs]; rfl⟩, ?_⟩
        by_cases h0 : ip.u32 = 0
        · exact ⟨_, by simp only [hs, if_pos h0]; rfl⟩
        · exact ⟨_, by simp only [hs, if_neg h0]; rfl⟩

/-! ## Plain lines -/

theorem not_mem_number {c : Char} (hd : c.isDigit = false) (hm : c ≠ '-') {t : Text}
    (h : isNumber t = true) : c ∉ t := by
  have hall : ∀ {u : Text}, (Text.nat? u).isSome = true → c ∉ u := by
    intro u hu
    obtain ⟨n, hn⟩ := Option.isSome_iff_exists.mp hu
    exact Text.not_mem_of_nat? hn hd
  unfold isNumber at h
  split at h
  · intro hc
    rcases List.mem_cons.mp hc with hc | hc
    · exact hm hc
    · exact hall h hc
  · exact hall h

theorem not_mem_word {c : Char} (hc : Text.isWord c = false) {w : Text}
    (hw : ∀ c ∈ w, Text.isWord c = true) : c ∉ w := by
  intro h
  rw [hw c h] at hc
  cases hc

theorem not_mem_cidr {a : Text} (h : (Ipv4.Prefix.ofText a).isSome = true) {c : Char}
    (hd : c.isDigit = false) (hdot : c ≠ '.') (hslash : c ≠ '/') : c ∉ a := by
  obtain ⟨b, hb⟩ := Option.isSome_iff_exists.mp h
  exact Ipv4.not_mem_of_ofText hb hd hdot hslash

theorem singleSource_iff {source : Text} :
    SingleSource source ↔
      (∃ a, source.splitOn ':' = ["ip4".toList, a] ∧ (Ipv4.Prefix.ofText a).isSome = true) ∨
        sourceTokens source = ([.group], []) := by
  rw [sourceTokens_single]
  constructor
  · intro h
    cases h with
    | @cidr a address =>
      have colon : ':' ∉ a := not_mem_cidr address rfl (by decide) (by decide)
      exact .inl ⟨a, Text.splitOn_eq_pair.mpr ⟨by decide, colon, rfl⟩, address⟩
    | @group w some word => exact .inr ⟨w, some, word, rfl⟩
  · rintro (⟨a, h, address⟩ | ⟨w, hne, hw, rfl⟩)
    · obtain ⟨-, -, rfl⟩ := Text.splitOn_eq_pair.mp h
      exact .cidr address
    · exact .group hne hw

theorem SingleSource.comma {source : Text} (h : SingleSource source) : ',' ∉ source := by
  cases h with
  | cidr address =>
    have comma := not_mem_cidr (c := ',') address rfl (by decide) (by decide)
    simpa using comma
  | group _ word => simpa using not_mem_word (c := ',') (by decide) word

theorem plain_iff (line : Text) : Plain line ↔ WellWritten (squeeze line) := by
  constructor
  · rintro ⟨fromPair, tport, source, hsplit, htport, ⟨proto, fport, hpair, hfport⟩, hsource⟩
    obtain ⟨hfrom, -, -, hline⟩ := Text.splitOn_eq_triple.mp hsplit
    obtain ⟨hcolon, -, rfl⟩ := Text.splitOn_eq_pair.mp hpair
    rw [hline, List.append_assoc, List.cons_append]
    refine .mk (fun h => hfrom (List.mem_append_left _ h)) hcolon hfport htport ?_
    exact singleSource_iff.mpr hsource
  · intro h
    generalize hline : squeeze line = t at h
    cases h with
    | @mk proto fport tport source comma colon fportNumber tportNumber single =>
      refine ⟨proto ++ ':' :: fport, tport, source, ?_, tportNumber, ⟨proto, fport, ?_, fportNumber⟩,
        singleSource_iff.mp single⟩
      · rw [hline]
        refine Text.splitOn_eq_triple.mpr ⟨?_, not_mem_number rfl (by decide) tportNumber,
          single.comma, by simp⟩
        intro h
        rcases List.mem_append.mp h with h | h
        · exact comma h
        · rcases List.mem_cons.mp h with h | h
          · cases h
          · exact not_mem_number rfl (by decide) fportNumber h
      · exact Text.splitOn_eq_pair.mpr ⟨colon, not_mem_number rfl (by decide) fportNumber, rfl⟩

theorem readFields_plain {line : Text} (h : Plain line) {f : Fields} (hf : readFields line = some f) :
    f.protocol = some "ip4".toList ∨ ∃ p, f.protocol = some p ∧ sourceTokens p = ([.group], []) := by
  obtain ⟨fromPair, tport, source, hsplit, -, -, hsource⟩ := h
  have hne : source ≠ [] := by
    rintro rfl
    rcases hsource with ⟨a, h, -⟩ | h
    · cases h
    · rw [sourceTokens_nil] at h
      cases h
  have hread : Text.split ',' (squeeze line) = [fromPair, tport, source] :=
    Text.split_of_splitOn (l := [fromPair, tport]) hsplit hne
  unfold readFields at hf
  rw [hread] at hf
  cases hf
  rcases hsource with ⟨a, h, -⟩ | h
  · left
    cases a with
    | nil =>
      have : Text.split ':' source = ["ip4".toList] := by
        unfold Text.split
        rw [h]
        decide
      simp [this]
    | cons c a =>
      have : Text.split ':' source = ["ip4".toList, c :: a] :=
        Text.split_of_splitOn (l := ["ip4".toList]) h (by simp)
      simp [this]
  · right
    obtain ⟨w, -, hw, rfl⟩ := sourceTokens_single.mp h
    have hcolon : ':' ∉ 's' :: 'g' :: '-' :: w := by
      simpa using not_mem_word (c := ':') (by decide) hw
    have : Text.split ':' ('s' :: 'g' :: '-' :: w) = ['s' :: 'g' :: '-' :: w] :=
      Text.split_of_splitOn (l := []) (Text.splitOn_of_not_mem hcolon) (by simp)
    exact ⟨_, by simp [this], h⟩

/-! ## The address -/

theorem dropZeroPrefix_no_colon {src src' : Option Text} (h : dropZeroPrefix src = .ok src')
    (hs : ∀ s ∈ src, ':' ∉ s) : ∀ s ∈ src', ':' ∉ s := by
  cases src with
  | none => cases h
  | some s =>
    unfold dropZeroPrefix at h
    dsimp only at h
    split at h
    · cases h
      intro u hu hc
      refine hs s rfl ?_
      unfold Text.split2 at hu
      split at hu
      · cases hu
      · split at hu
        · cases hu
          exact hc
        · cases hu
          exact List.takeWhile_subset _ hc
    · cases h
      exact hs

theorem sourceAfter_no_colon {ts : List SourceToken} {src src' : Option Text}
    (h : sourceAfter ts src = some src') (hs : ∀ s ∈ src, ':' ∉ s) : ∀ s ∈ src', ':' ∉ s := by
  fun_induction sourceAfter ts src with
  | case1 src => cases h; exact hs
  | case2 ts src src₁ hd ih => exact ih h (dropZeroPrefix_no_colon hd hs)
  | case3 => cases h
  | case4 ts src ih => exact ih h hs

theorem readFields_no_colon {line : Text} {f : Fields} (hf : readFields line = some f) :
    ∀ s ∈ f.ipSource, ':' ∉ s := by
  unfold readFields at hf
  split at hf
  · cases hf
    intro s hs
    exact Text.not_mem_of_mem_split (List.mem_of_getElem? hs)
  · cases hf

theorem readSource_address {ipAddress : Text → Option IPAddr} (hgem : ReadsIpv4 ipAddress) {p : Text}
    {src : Option Text} (hs : ∀ s ∈ src, ':' ∉ s) {r : Option Text × Text}
    (h : readSource ipAddress p src false = .ok r) :
    r.1 = some p ∧ (Ipv4.Prefix.ofText r.2).isSome = true := by
  unfold readSource at h
  rw [if_neg Bool.false_ne_true] at h
  cases src with
  | none => cases h
  | some s =>
    cases hip : ipAddress s with
    | none => simp only [hip] at h; cases h
    | some ip =>
      obtain ⟨hquad, hlen⟩ := hgem s (hs s rfl) ip hip
      simp only [hip] at h
      split at h
      · cases h
        refine ⟨rfl, ?_⟩
        show (Ipv4.Prefix.ofText (ip.address ++ '/' :: Text.ofNat 0)).isSome = true
        rw [Ipv4.ofText_of_ofQuad hquad (by decide)]
        rfl
      · cases h
        rw [Ipv4.ofText_of_ofQuad hquad hlen]
        exact ⟨rfl, rfl⟩

theorem sourceOk_of_plain {ipAddress : Text → Option IPAddr} (hgem : ReadsIpv4 ipAddress)
    {line : Text} (hplain : Plain line) {f : Fields} (hf : readFields line = some f) {p : Text}
    (hp : f.protocol = some p) {src : Option Text}
    (hs : sourceAfter (sourceTokens p).1 f.ipSource = some src) {r : Option Text × Text}
    (hr : readSource ipAddress p src ((sourceTokens p).1.contains .group) = .ok r)
    {rule : ParsedRule} (h : readRule f r.1 r.2 = .ok (some rule)) : SourceOk rule := by
  obtain ⟨-, hsource, hprotocol⟩ := readRule_ok h
  rw [SourceOk, hsource, hprotocol]
  rcases readFields_plain hplain hf with hip4 | ⟨q, hq, hgroup⟩
  · left
    rw [hip4] at hp
    cases hp
    rw [sourceTokens_ip4_alone] at hr hs
    exact readSource_address hgem (sourceAfter_no_colon hs (readFields_no_colon hf)) hr
  · right
    rw [hq] at hp
    cases hp
    rw [hgroup] at hr
    cases hr
    exact ⟨rfl, sourceTokens_single.mp hgroup⟩

/-! ## The verdict -/

theorem Promised.of_refused {ipAddress : Text → Option IPAddr} {line : Text}
    (h : Refused (parseRule ipAddress line)) : Promised ipAddress line := by
  unfold Promised
  rcases h with h | ⟨t, h⟩
  · rw [h]; trivial
  · rw [h]; trivial

theorem not_promised {ipAddress : Text → Option IPAddr} {line : Text} {e : RuleError}
    (h : parseRule ipAddress line = .error e) (he : ∀ t, e ≠ .invalidSecurityGroupRuleSyntax t) :
    ¬ Promised ipAddress line := by
  unfold Promised
  rw [h]
  cases e with
  | invalidSecurityGroupRuleSyntax t => exact absurd rfl (he t)
  | argumentError => exact id
  | noMethodError => exact id
  | typeError => exact id

/-- Once the source is read, the rest of the promise is about the numbers and what stands
around them. -/
theorem promised_of_source {ipAddress : Text → Option IPAddr} (hgem : ReadsIpv4 ipAddress)
    {line : Text} {f : Fields} (hf : readFields line = some f) {p : Text} (hp : f.protocol = some p)
    {src : Option Text} (hs : sourceAfter (sourceTokens p).1 f.ipSource = some src)
    {r : Option Text × Text}
    (hr : readSource ipAddress p src ((sourceTokens p).1.contains .group) = .ok r)
    (hparse : parseRule ipAddress line = readRule f r.1 r.2) :
    Promised ipAddress line ↔ (f.Passes → Plain line ∧ f.Swaps) := by
  rcases readRule_cases f r.1 r.2 with ⟨hpass, rule, hrule⟩ | ⟨hpass, hrefused⟩
  · rw [Promised, hparse, hrule]
    dsimp only
    rw [← plain_iff, readRule_numbers hrule]
    constructor
    · intro h _
      exact ⟨h.1, h.2.1⟩
    · intro h
      obtain ⟨hplain, hswaps⟩ := h hpass
      exact ⟨hplain, hswaps, sourceOk_of_plain hgem hplain hf hp hs hr hrule⟩
  · refine iff_of_true (.of_refused ?_) fun h => absurd h hpass
    rw [hparse]
    exact hrefused

/-- The parser answers a text with nothing, with a well formed rule or with its own error
exactly when there is a source wherever it takes one apart, the gem reads the address, and
a text whose numbers pass is plain and has icmp numbers that stand the exchange. -/
theorem parse_rule_iff {ipAddress : Text → Option IPAddr} (hgem : ReadsIpv4 ipAddress) (line : Text) :
    Promised ipAddress line ↔ Regular ipAddress line := by
  unfold Regular
  cases hf : readFields line with
  | none =>
    refine iff_of_true (.of_refused (.inl ?_)) fun f h => nomatch h
    unfold parseRule
    rw [hf]
  | some f =>
    simp only [Option.some.injEq, forall_eq']
    cases hp : f.protocol with
    | none =>
      refine iff_of_false (not_promised (e := .typeError) ?_ fun t h => nomatch h) (by simp)
      unfold parseRule
      rw [hf]
      simp only [hp]
    | some p =>
      simp only [Option.some.injEq, exists_eq_left']
      cases hs : sourceAfter (sourceTokens p).1 f.ipSource with
      | none =>
        refine iff_of_false (not_promised (e := .noMethodError) ?_ fun t h => nomatch h) (by simp)
        rw [parseRule_scan hf hp, hs]
      | some src =>
        simp only [Option.some.injEq, exists_eq_left']
        by_cases hrest : (sourceTokens p).2 = []
        · rw [forall_prop_of_true hrest]
          have hparse : parseRule ipAddress line =
              (readSource ipAddress p src ((sourceTokens p).1.contains .group) >>=
                fun r => readRule f r.1 r.2) := parseRule_source hf hp hs hrest
          rcases readSource_cases ipAddress p src ((sourceTokens p).1.contains .group) with
            ⟨hread, r, hr⟩ | ⟨hread, e, he, hne⟩
          · rw [hr] at hparse
            rw [List.contains_iff_mem] at hread
            rw [and_iff_right hread]
            exact promised_of_source hgem hf hp hs hr hparse
          · rw [he] at hparse
            rw [List.contains_iff_mem] at hread
            exact iff_of_false (not_promised hparse hne) fun h => hread h.1
        · exact iff_of_true (.of_refused (parseRule_refused hf hp hs hrest)) fun h => absurd h hrest

theorem readAddress_ipv4 : ReadsIpv4 readAddress := by
  intro t _ ip hip
  unfold readAddress at hip
  cases ht : Ipv4.Prefix.ofText t with
  | none => rw [ht] at hip; cases hip
  | some b =>
    rw [ht] at hip
    dsimp only at hip
    split at hip
    · cases hip
    · cases hip
      exact ⟨Ipv4.ofQuad_quad _, Ipv4.len_le_of_ofText ht⟩

theorem parse_rule_ssh : Promised readAddress "tcp:22,22,ip4:10.0.0.0/8".toList := by
  apply (parse_rule_iff readAddress_ipv4 _).mpr
  have hf : readFields "tcp:22,22,ip4:10.0.0.0/8".toList = some
      ⟨some "tcp".toList, some "22".toList, "22".toList, some "ip4".toList,
        some "10.0.0.0/8".toList⟩ := by decide
  intro f h
  rw [hf] at h
  cases h
  refine ⟨_, rfl, some "10.0.0.0/8".toList, ?_, fun _ => ⟨.inr ⟨_, rfl, by decide⟩, fun _ => ?_⟩⟩
  · rw [sourceTokens_ip4_alone]
    decide
  · refine ⟨(plain_iff _).mpr ?_, fun h => absurd h (by decide)⟩
    have hwritten : WellWritten ("tcp".toList ++ ':' :: ("22".toList ++ ',' :: ("22".toList ++ ',' ::
        ('i' :: 'p' :: '4' :: ':' :: "10.0.0.0/8".toList)))) :=
      .mk (by decide) (by decide) (by decide) (by decide) (.cidr (by decide))
    exact hwritten

/-- Without an address there is nothing to split at the slash. -/
theorem missing_address_raises : ¬ Promised readAddress "tcp:22,22,ip4".toList := by
  have hf : readFields "tcp:22,22,ip4".toList = some
      ⟨some "tcp".toList, some "22".toList, "22".toList, some "ip4".toList, none⟩ := by decide
  have hparse : parseRule readAddress "tcp:22,22,ip4".toList = .error .noMethodError := by
    rw [parseRule_scan hf rfl, sourceTokens_ip4_alone]
    rfl
  exact not_promised hparse fun t h => nomatch h

end SecurityGroup

end WakameVdc
