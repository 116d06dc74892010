import WakameVdc.SecurityGroupRule

/-!
# What the rule parser returns

Every rule `parse_rule` returns is a port rule with its range checked, or an
icmp rule with the two numbers of the line in each other's place.
-/

namespace WakameVdc

open Lib

namespace SecurityGroup

/-- The two kinds of rules `parse_rule` returns. -/
inductive RuleOf (f : Fields) : ParsedRule → Prop
  | ports {rule : ParsedRule} (proto : f.ipProtocol = some rule.ipProtocol)
      (isPort : rule.ipProtocol = "tcp".toList ∨ rule.ipProtocol = "udp".toList)
      (fport : rule.ipFport = some (portNumber f.ipFport))
      (tport : rule.ipTport = some (Text.toI f.ipTport))
      (low : 1 ≤ portNumber f.ipFport) (le : portNumber f.ipFport ≤ Text.toI f.ipTport)
      (high : Text.toI f.ipTport ≤ 65535) : RuleOf f rule
  | icmp {rule : ParsedRule} (proto : f.ipProtocol = some rule.ipProtocol)
      (isIcmp : rule.ipProtocol = "icmp".toList)
      (type : rule.icmpType = some (Text.toI f.ipTport))
      (code : rule.icmpCode = some (portNumber f.ipFport))
      (typeOk : portNumber f.ipFport = -1 ∨ portNumber f.ipFport ∈ icmpTypes)
      (codeOk : Text.toI f.ipTport = -1 ∨ Text.toI f.ipTport ∈ icmpCodes)
      (wild : portNumber f.ipFport = -1 → Text.toI f.ipTport = -1) : RuleOf f rule

theorem checkPort_ok {port : Int} (h : checkPort port = .ok ()) : 1 ≤ port ∧ port ≤ 65535 := by
  unfold checkPort at h
  split at h
  · assumption
  · cases h

theorem portRule_ok {ipProtocol ipSource : Text} {f t : Int} {protocol : Option Text}
    {rule : ParsedRule} (h : portRule ipProtocol f t protocol ipSource = .ok (some rule)) :
    rule = { ipProtocol, ipFport := some f, ipTport := some t, icmpType := none, icmpCode := none,
             protocol, ipSource } ∧ 1 ≤ f ∧ f ≤ t ∧ t ≤ 65535 := by
  unfold portRule at h
  cases hf : checkPort f with
  | error e => rw [hf] at h; cases h
  | ok u =>
    cases ht : checkPort t with
    | error e => rw [hf, ht] at h; cases h
    | ok u =>
      rw [hf, ht] at h
      obtain ⟨hf1, -⟩ := checkPort_ok hf
      obtain ⟨-, ht2⟩ := checkPort_ok ht
      by_cases hle : f ≤ t
      · simp only [bind, Except.bind, pure, Except.pure, if_pos hle] at h
        cases h
        exact ⟨rfl, hf1, hle, ht2⟩
      · simp only [bind, Except.bind, if_neg hle] at h
        cases h

theorem icmpRule_ok {ipProtocol ipSource : Text} {type code : Int} {protocol : Option Text}
    {rule : ParsedRule} (h : icmpRule ipProtocol type code protocol ipSource = .ok (some rule)) :
    rule = { ipProtocol, ipFport := none, ipTport := none, icmpType := some code,
             icmpCode := some type, protocol, ipSource } ∧
      (type = -1 ∨ type ∈ icmpTypes) ∧ (code = -1 ∨ code ∈ icmpCodes) ∧
      (type = -1 → code = -1) := by
  unfold icmpRule at h
  split at h
  · cases h
  · rename_i htype
    split at h
    · cases h
    · rename_i hcode
      split at h
      · cases h
      · rename_i hwild
        cases h
        refine ⟨rfl, ?_, ?_, ?_⟩
        · tauto
        · tauto
        · tauto

theorem readRule_ok {f : Fields} {protocol : Option Text} {ipSource : Text} {rule : ParsedRule}
    (h : readRule f protocol ipSource = .ok (some rule)) :
    RuleOf f rule ∧ rule.ipSource = ipSource ∧ rule.protocol = protocol := by
  unfold readRule at h
  cases hp : f.ipProtocol with
  | none => rw [hp] at h; cases h
  | some ipProtocol =>
    rw [hp] at h
    dsimp only at h
    split at h
    · rename_i hport
      obtain ⟨rfl, h1, h2, h3⟩ := portRule_ok h
      exact ⟨.ports hp hport rfl rfl h1 h2 h3, rfl, rfl⟩
    · split at h
      · rename_i hicmp
        obtain ⟨rfl, h1, h2, h3⟩ := icmpRule_ok h
        exact ⟨.icmp hp hicmp rfl rfl h1 h2 h3, rfl, rfl⟩
      · cases h

theorem parseRule_readRule {ipAddress : Text → Option IPAddr} {line : Text} {rule : ParsedRule}
    (h : parseRule ipAddress line = .ok (some rule)) :
    ∃ f protocol ipSource, readFields line = some f ∧
      readRule f protocol ipSource = .ok (some rule) := by
  unfold parseRule at h
  cases hf : readFields line with
  | none => rw [hf] at h; cases h
  | some f =>
    rw [hf] at h
    cases hp : f.protocol with
    | none => simp only [hp] at h; cases h
    | some protocol =>
      simp only [hp, bind, Except.bind] at h
      cases hs : scanProtocol protocol f.ipSource false with
      | error e => rw [hs] at h; cases h
      | ok r =>
        rw [hs] at h
        cases r with
        | none => cases h
        | some r =>
          obtain ⟨ipSource, fromGroup⟩ := r
          dsimp only at h
          cases hr : readSource ipAddress protocol ipSource fromGroup with
          | error e => rw [hr] at h; cases h
          | ok r =>
            rw [hr] at h
            exact ⟨f, r.1, r.2, rfl, h⟩

theorem parseRule_ok {ipAddress : Text → Option IPAddr} {line : Text} {rule : ParsedRule}
    (h : parseRule ipAddress line = .ok (some rule)) :
    ∃ f, readFields line = some f ∧ RuleOf f rule := by
  obtain ⟨f, protocol, ipSource, hf, hr⟩ := parseRule_readRule h
  exact ⟨f, hf, (readRule_ok hr).1⟩

inductive Shape : ParsedRule → Prop
  | ports {ipProtocol : Text} {f t : Int} {protocol : Option Text} {ipSource : Text}
      (isPort : ipProtocol = "tcp".toList ∨ ipProtocol = "udp".toList) :
      Shape ⟨ipProtocol, some f, some t, none, none, protocol, ipSource⟩
  | icmp {type code : Int} {protocol : Option Text} {ipSource : Text} :
      Shape ⟨"icmp".toList, none, none, some type, some code, protocol, ipSource⟩

theorem parseRule_shape {ipAddress : Text → Option IPAddr} {line : Text} {rule : ParsedRule}
    (h : parseRule ipAddress line = .ok (some rule)) : Shape rule := by
  obtain ⟨f, protocol, ipSource, -, hr⟩ := parseRule_readRule h
  unfold readRule at hr
  split at hr
  · cases hr
  · split at hr
    · rename_i hport
      obtain ⟨rfl, -⟩ := portRule_ok hr
      exact .ports hport
    · split at hr
      · rename_i hicmp
        obtain ⟨rfl, -⟩ := icmpRule_ok hr
        rw [hicmp]
        exact .icmp
      · cases hr

end SecurityGroup

end WakameVdc
