import WakameVdc.SecurityGroupRuleSound
import WakameVdc.SecurityGroupTask

/-!
# The source addresses of a rule

For a line whose source is written `a.b.c.d` or `a.b.c.d/p`: which addresses the
parsed rule and the generated `-s` and `--arp-ip-src` arguments stand for.
-/

namespace WakameVdc

open Lib

namespace SecurityGroup

/-- What the code relies on in the IPAddress gem: addresses with a length of at
least one are read as written, an address alone has length 32, and a length of
zero is not supported. -/
structure IPAddressSpec (ipAddress ipv4New : Text → Option IPAddr) : Prop where
  quad : ∀ a, ipAddress (Ipv4.quad a) = some ⟨Ipv4.quad a, a, 32⟩
  withLen : ∀ a p, 1 ≤ p → p ≤ 32 → ipAddress (Ipv4.withLen a p) = some ⟨Ipv4.quad a, a, p⟩
  newWithLen : ∀ a p, 1 ≤ p → p ≤ 32 → ipv4New (Ipv4.withLen a p) = some ⟨Ipv4.quad a, a, p⟩
  newZero : ∀ a, ipv4New (Ipv4.withLen a 0) = none

def sourceText (a : Ipv4) : Option Nat → Text
  | none => Ipv4.quad a
  | some p => Ipv4.withLen a p

/-- The addresses it denotes; a bare `0.0.0.0` means any. -/
def denotedSet (a : Ipv4) : Option Nat → Set Ipv4
  | none => if a = 0 then Set.univ else {a}
  | some p => (⟨a, p⟩ : Ipv4.Prefix).set

def textSet (t : Text) : Option (Set Ipv4) := (Ipv4.Prefix.ofText t).map Ipv4.Prefix.set

/-- The addresses an option restricts a rule to; without it there is no
restriction. -/
def optionSet (name : String) (opts : Options) : Option (Set Ipv4) :=
  match opts.lookup name with
  | none => some Set.univ
  | some t => textSet t

/-- The parsed rule and the rules generated of it, one for iptables and one for ebtables,
stand for the addresses written. -/
structure SourceExact (ipv4New : Text → Option IPAddr) (vnic : VnicMap) (group : GroupMap)
    (rule : ParsedRule) (written : Set Ipv4) : Prop where
  parsed : textSet rule.ipSource = some written
  ip : ∃ r, taskIpRules { group with rules := [rule] } = [r] ∧ optionSet "-s" r.rule = some written
  arp : ∃ r, taskArpRules ipv4New vnic { group with rules := [rule] } = [r] ∧
    optionSet "--arp-ip-src" r.rule = some written

/-! ## Parsing a written source -/

theorem scanProtocol_ip4 (ipSource : Option Text) :
    scanProtocol "ip4".toList ipSource false =
      (dropZeroPrefix ipSource).map fun src => some (src, false) := by
  show scanProtocol ('i' :: 'p' :: '4' :: []) ipSource false = _
  rw [scanProtocol]
  cases dropZeroPrefix ipSource with
  | error e => rfl
  | ok src =>
    show scanProtocol [] src false = _
    rw [scanProtocol]
    rfl

theorem parseRule_ip4 {ipAddress : Text → Option IPAddr} {line : Text} {f : Fields}
    (hf : readFields line = some f) (hp : f.protocol = some "ip4".toList) {src : Option Text}
    (hsrc : dropZeroPrefix f.ipSource = .ok src) :
    parseRule ipAddress line =
      (readSource ipAddress "ip4".toList src false >>= fun r => readRule f r.1 r.2) := by
  unfold parseRule
  rw [hf]
  simp only [hp, scanProtocol_ip4, hsrc, Except.map, bind, Except.bind]

def parsedLen (a : Ipv4) (p : Option Nat) : Nat :=
  if a = 0 then 0 else if p.getD 0 = 0 then 32 else p.getD 0

theorem parsedLen_zero (p : Option Nat) : parsedLen 0 p = 0 := rfl

theorem parsedLen_le (a : Ipv4) {p : Option Nat} (hp : ∀ q, p = some q → q ≤ 32) :
    parsedLen a p ≤ 32 := by
  have hq : p.getD 0 ≤ 32 := by
    cases p with
    | none => exact Nat.zero_le _
    | some q => exact hp q rfl
  unfold parsedLen
  split_ifs <;> omega

theorem parsedLen_pos {a : Ipv4} (ha : a ≠ 0) (p : Option Nat) : 1 ≤ parsedLen a p := by
  unfold parsedLen
  rw [if_neg ha]
  split_ifs <;> omega

theorem dropZeroPrefix_quad (a : Ipv4) :
    dropZeroPrefix (some (Ipv4.quad a)) = .ok (some (Ipv4.quad a)) := by
  unfold dropZeroPrefix
  dsimp only
  rw [Text.split2_of_not_mem (Ipv4.not_mem_quad rfl (by decide) a) (Ipv4.quad_ne_nil a)]
  rfl

theorem dropZeroPrefix_withLen (a : Ipv4) (p : Nat) :
    dropZeroPrefix (some (Ipv4.withLen a p)) =
      .ok (some (if p = 0 then Ipv4.quad a else Ipv4.withLen a p)) := by
  unfold dropZeroPrefix Ipv4.withLen
  dsimp only
  rw [Text.split2_append (Ipv4.not_mem_quad rfl (by decide) a)]
  simp only [firstTwo, List.getElem?_cons_zero, List.getElem?_cons_succ, Option.map_some,
    Option.getD_some, Text.toI_ofNat]
  by_cases h : p = 0
  · rw [if_pos (by omega), if_pos h]
  · rw [if_neg (by omega), if_neg h]

section
variable {ipAddress ipv4New : Text → Option IPAddr} (spec : IPAddressSpec ipAddress ipv4New)
include spec

theorem readSource_quad (protocol : Text) (a : Ipv4) :
    readSource ipAddress protocol (some (Ipv4.quad a)) false =
      .ok (some protocol, Ipv4.withLen a (if a = 0 then 0 else 32)) := by
  unfold readSource
  simp only [Bool.false_eq_true, if_false, spec.quad]
  by_cases h : a = 0
  · rw [if_pos h, if_pos h]; rfl
  · rw [if_neg h, if_neg h]; rfl

theorem readSource_withLen (protocol : Text) (a : Ipv4) {p : Nat} (h1 : 1 ≤ p) (h2 : p ≤ 32) :
    readSource ipAddress protocol (some (Ipv4.withLen a p)) false =
      .ok (some protocol, Ipv4.withLen a (if a = 0 then 0 else p)) := by
  unfold readSource
  simp only [Bool.false_eq_true, if_false, spec.withLen a p h1 h2]
  by_cases h : a = 0
  · rw [if_pos h, if_pos h]; rfl
  · rw [if_neg h, if_neg h]; rfl

theorem parseRule_written {line : Text} {f : Fields} (hf : readFields line = some f)
    (hproto : f.protocol = some "ip4".toList) {a : Ipv4} {p : Option Nat}
    (hsrc : f.ipSource = some (sourceText a p)) (hp : ∀ q, p = some q → q ≤ 32) :
    parseRule ipAddress line =
      readRule f (some "ip4".toList) (Ipv4.withLen a (parsedLen a p)) := by
  cases p with
  | none =>
    have hdrop : dropZeroPrefix f.ipSource = .ok (some (Ipv4.quad a)) := by
      rw [hsrc]; exact dropZeroPrefix_quad a
    rw [parseRule_ip4 hf hproto hdrop, readSource_quad spec]
    rfl
  | some q =>
    have hq := hp q rfl
    have hdrop := dropZeroPrefix_withLen a q
    have hsrc' : f.ipSource = some (Ipv4.withLen a q) := hsrc
    rw [← hsrc'] at hdrop
    rw [parseRule_ip4 hf hproto hdrop]
    by_cases h0 : q = 0
    · rw [if_pos h0, readSource_quad spec, parsedLen, Option.getD_some, if_pos h0]
      rfl
    · rw [if_neg h0, readSource_withLen spec _ a (by omega) hq, parsedLen, Option.getD_some,
        if_neg h0]
      rfl

end

/-! ## The generated rules -/

theorem refGroupId_of_not_mem {t : Text} (h : 's' ∉ t) : refGroupId t = none := by
  induction t with
  | nil => rfl
  | cons c t ih =>
    have hc : c ≠ 's' := by
      intro he
      exact h (he ▸ List.mem_cons_self ..)
    have ht : 's' ∉ t := by
      intro ht
      exact h (List.mem_cons_of_mem _ ht)
    unfold refGroupId
    split
    · exact absurd rfl hc
    · exact ih ht

theorem not_mem_withLen (a : Ipv4) (p : Nat) : 's' ∉ Ipv4.withLen a p := by
  intro h
  rcases List.mem_append.mp h with h | h
  · exact Ipv4.not_mem_quad rfl (by decide) a h
  · rcases List.mem_cons.mp h with h | h
    · exact absurd h (by decide)
    · exact Text.not_mem_ofNat rfl p h

theorem parsedRules_single {group : GroupMap} {rule : ParsedRule} {a : Ipv4} {p : Nat}
    (h : rule.ipSource = Ipv4.withLen a p) : parsedRules { group with rules := [rule] } = [rule] := by
  unfold parsedRules
  have he : expandRule { group with rules := [rule] } rule = [rule] := by
    unfold expandRule
    rw [h, refGroupId_of_not_mem (not_mem_withLen a p)]
  rw [List.flatMap_singleton, he]
  rfl

/-- The generated iptables rule is restricted to the source of its rule. -/
theorem ipRules_source {rule : ParsedRule} (h : Shape rule) :
    ∃ r, ipRules rule = [r] ∧ optionSet "-s" r.rule = textSet rule.ipSource := by
  unfold ipRules
  cases h with
  | ports hport =>
    rw [if_pos hport]
    split_ifs
    · exact ⟨_, rfl, rfl⟩
    · exact ⟨_, rfl, rfl⟩
  | icmp =>
    have hport : ¬ ("icmp".toList = "tcp".toList ∨ "icmp".toList = "udp".toList) := by decide
    rw [if_neg hport, if_pos rfl]
    split_ifs
    · exact ⟨_, rfl, rfl⟩
    · exact ⟨_, rfl, rfl⟩

theorem textSet_withLen (a : Ipv4) {p : Nat} (hp : p ≤ 32) :
    textSet (Ipv4.withLen a p) = some (⟨a, p⟩ : Ipv4.Prefix).set := by
  unfold textSet
  rw [Ipv4.ofText_withLen a hp, Option.map_some]

theorem arpRules_source {ipAddress ipv4New : Text → Option IPAddr}
    (spec : IPAddressSpec ipAddress ipv4New) (vnic : VnicMap) {rule : ParsedRule} {a : Ipv4}
    {n : Nat} (ha : a ≠ 0) (h1 : 1 ≤ n) (h2 : n ≤ 32) (hr : rule.ipSource = Ipv4.withLen a n) :
    ∃ r, arpRules ipv4New vnic rule = [r] ∧
      optionSet "--arp-ip-src" r.rule = some (⟨a, n⟩ : Ipv4.Prefix).set := by
  unfold arpRules
  rw [hr, spec.newWithLen a _ h1 h2]
  simp only [if_neg ha]
  refine ⟨_, rfl, ?_⟩
  rw [← textSet_withLen a h2]
  rfl

/-- A source without a length the gem can read gets no ebtables rule. -/
theorem arpRules_zero {ipAddress ipv4New : Text → Option IPAddr}
    (spec : IPAddressSpec ipAddress ipv4New) {vnic : VnicMap} {rule : ParsedRule} {a : Ipv4}
    (hr : rule.ipSource = Ipv4.withLen a 0) : arpRules ipv4New vnic rule = [] := by
  unfold arpRules
  rw [hr, spec.newZero]

/-! ## The verdict -/

/-- The prefix the parser leaves is the one written, unless that is zero. -/
theorem parsed_eq_denoted {a : Ipv4} (ha : a ≠ 0) (p : Option Nat) :
    (⟨a, parsedLen a p⟩ : Ipv4.Prefix).set = denotedSet a p ↔ p ≠ some 0 := by
  unfold parsedLen
  rw [if_neg ha]
  cases p with
  | none =>
    refine iff_of_true ?_ (by simp)
    rw [denotedSet, if_neg ha, Option.getD_none, if_pos rfl, Ipv4.Prefix.set_full]
  | some q =>
    rw [Option.getD_some, denotedSet]
    cases q with
    | zero =>
      -- written as any, read as the one address
      refine iff_of_false (fun h => ?_) (fun h => h rfl)
      rw [if_pos rfl, Ipv4.Prefix.set_zero a] at h
      exact Ipv4.Prefix.set_ne_univ a (by decide) h
    | succ q =>
      rw [if_neg (Nat.succ_ne_zero q)]
      exact iff_of_true rfl (by simp)

/-- An accepted line with an ip4 source is exact in its source addresses if and
only if the address is not the zero address and no length of zero is written. -/
theorem source_exact_iff {ipAddress ipv4New : Text → Option IPAddr}
    (spec : IPAddressSpec ipAddress ipv4New) {line : Text} {f : Fields}
    (hf : readFields line = some f) (hproto : f.protocol = some "ip4".toList) {a : Ipv4}
    {p : Option Nat} (hsrc : f.ipSource = some (sourceText a p)) (hp : ∀ q, p = some q → q ≤ 32)
    {rule : ParsedRule} (h : parseRule ipAddress line = .ok (some rule)) (vnic : VnicMap)
    (group : GroupMap) :
    SourceExact ipv4New vnic group rule (denotedSet a p) ↔ a ≠ 0 ∧ p ≠ some 0 := by
  have hshape := parseRule_shape h
  rw [parseRule_written spec hf hproto hsrc hp] at h
  have hrule := (readRule_ok h).2.1
  have hlen := parsedLen_le a hp
  have htext : textSet rule.ipSource = some (⟨a, parsedLen a p⟩ : Ipv4.Prefix).set := by
    rw [hrule, textSet_withLen a hlen]
  by_cases ha : a = 0
  · refine iff_of_false (fun hexact => ?_) (fun h => h.1 ha)
    -- the gem reads no source of the zero address
    obtain ⟨r, hr, -⟩ := hexact.arp
    rw [ha, parsedLen_zero] at hrule
    rw [taskArpRules, parsedRules_single hrule, List.flatMap_singleton,
      arpRules_zero spec hrule] at hr
    cases hr
  · rw [and_iff_right ha, ← parsed_eq_denoted ha]
    constructor
    · intro hexact
      have := hexact.parsed
      rw [htext] at this
      exact Option.some.inj this
    · intro heq
      rw [← heq]
      refine ⟨htext, ?_, ?_⟩
      · obtain ⟨r, hr, hs⟩ := ipRules_source hshape
        refine ⟨r, ?_, hs.trans htext⟩
        rw [taskIpRules, parsedRules_single hrule, List.flatMap_singleton, hr]
      · obtain ⟨r, hr, hs⟩ :=
          arpRules_source spec vnic ha (parsedLen_pos ha p) hlen hrule
        refine ⟨r, ?_, hs⟩
        rw [taskArpRules, parsedRules_single hrule, List.flatMap_singleton, hr]

/-- A reader of addresses like the gem's: a length of zero is not supported. -/
def readAddress (t : Text) : Option IPAddr :=
  match Ipv4.Prefix.ofText t with
  | none => none
  | some b => if b.len = 0 then none else some ⟨Ipv4.quad b.addr, b.addr, b.len⟩

theorem readAddress_spec : IPAddressSpec readAddress readAddress where
  quad a := by
    unfold readAddress
    rw [Ipv4.ofText_quad]
    rfl
  withLen a p h1 h2 := by
    unfold readAddress
    rw [Ipv4.ofText_withLen a h2]
    exact if_neg (Nat.ne_of_gt h1)
  newWithLen a p h1 h2 := by
    unfold readAddress
    rw [Ipv4.ofText_withLen a h2]
    exact if_neg (Nat.ne_of_gt h1)
  newZero a := by
    unfold readAddress
    rw [Ipv4.ofText_withLen a (by decide)]
    rfl

def emptyVnic : VnicMap := ⟨[], none, none, none, none, []⟩

def emptyGroup : GroupMap := ⟨[], [], ∅, ∅, ∅, ∅⟩

/-- The rule of `tcp:22,22,ip4:...` for a parsed source. -/
def sshRule (ipSource : Text) : ParsedRule :=
  ⟨"tcp".toList, some 22, some 22, none, none, some "ip4".toList, ipSource⟩

theorem source_exact_slash_eight :
    SourceExact readAddress emptyVnic emptyGroup (sshRule (Ipv4.withLen 0x0a000000#32 8))
      (denotedSet 0x0a000000#32 (some 8)) := by
  have hf : readFields "tcp:22,22,ip4:10.0.0.0/8".toList = some
      ⟨some "tcp".toList, some "22".toList, "22".toList, some "ip4".toList,
        some (sourceText 0x0a000000#32 (some 8))⟩ := by decide
  have h : parseRule readAddress "tcp:22,22,ip4:10.0.0.0/8".toList =
      .ok (some (sshRule (Ipv4.withLen 0x0a000000#32 8))) := by
    rw [parseRule_written readAddress_spec hf rfl rfl (by simp)]
    rfl
  exact (source_exact_iff readAddress_spec hf rfl rfl (by simp) h emptyVnic emptyGroup).mpr
    ⟨by decide, by decide⟩

/-- `0.0.0.0/8` is accepted and opens everything. -/
theorem slash_eight_widened :
    parseRule readAddress "tcp:22,22,ip4:0.0.0.0/8".toList =
        .ok (some (sshRule (Ipv4.withLen 0 0))) ∧
      ¬ SourceExact readAddress emptyVnic emptyGroup (sshRule (Ipv4.withLen 0 0))
        (denotedSet 0 (some 8)) := by
  constructor
  · have hf : readFields "tcp:22,22,ip4:0.0.0.0/8".toList = some
        ⟨some "tcp".toList, some "22".toList, "22".toList, some "ip4".toList,
          some (sourceText 0 (some 8))⟩ := by decide
    rw [parseRule_written readAddress_spec hf rfl rfl (by simp)]
    rfl
  · intro h
    have htext : textSet (Ipv4.withLen 0 0) = some (denotedSet 0 (some 8)) := h.parsed
    rw [textSet_withLen 0 (by decide), Ipv4.Prefix.set_zero] at htext
    exact Ipv4.Prefix.set_ne_univ 0 (by decide) (Option.some.inj htext).symm

end SecurityGroup

end WakameVdc
