import WakameVdc.SecurityGroupSource

/-!
# Which packets a rule line accepts

The packets a rule line stands for, and the packets that the iptables rules
generated from it let through.
-/

namespace WakameVdc

open Lib

namespace SecurityGroup

/-! ## The generated rules -/

theorem mem_expandRule {group : GroupMap} {rule r : ParsedRule} (h : r ∈ expandRule group rule) :
    r.ipProtocol = rule.ipProtocol ∧ r.ipFport = rule.ipFport ∧ r.ipTport = rule.ipTport ∧
      r.icmpType = rule.icmpType ∧ r.icmpCode = rule.icmpCode := by
  unfold expandRule at h
  split at h
  · rw [List.mem_singleton.mp h]
    exact ⟨rfl, rfl, rfl, rfl, rfl⟩
  · split at h
    · cases h
    · obtain ⟨e, -, rfl⟩ := List.mem_map.mp h
      exact ⟨rfl, rfl, rfl, rfl, rfl⟩

theorem accepts_task {group : GroupMap} {pkt : Packet} :
    Iptables.accepts (taskIpRules group) pkt = true ↔
      ∃ rule ∈ group.rules, ∃ r ∈ expandRule group rule, Iptables.accepts (ipRules r) pkt = true := by
  simp only [Iptables.accepts, taskIpRules, parsedRules, List.any_eq_true, List.mem_flatMap,
    List.mem_eraseDups]
  constructor
  · rintro ⟨x, ⟨r, ⟨rule, hrule, hr⟩, hx⟩, hm⟩
    exact ⟨rule, hrule, r, hr, x, hx, hm⟩
  · rintro ⟨rule, hrule, r, hr, x, hx, hm⟩
    exact ⟨x, ⟨r, ⟨rule, hrule, hr⟩, hx⟩, hm⟩

/-- The addresses a text stands for as the argument of `-s`. -/
def sourceSet (t : Text) : Set Ipv4 := { x | ∃ b, Ipv4.Prefix.ofText t = some b ∧ x ∈ b.set }

theorem ruleMatches_cons (o : String × Text) (rule : Options) (pkt : Packet) :
    Iptables.ruleMatches (o :: rule) pkt = true ↔
      (∃ m, Iptables.matchOption o = some m ∧ m pkt = true) ∧
        Iptables.ruleMatches rule pkt = true := by
  unfold Iptables.ruleMatches
  rw [List.all_cons, Bool.and_eq_true]
  refine and_congr_left fun _ => ?_
  cases Iptables.matchOption o with
  | none => simp
  | some m => simp

theorem match_p (x : Text) (pkt : Packet) :
    (∃ m, Iptables.matchOption ("-p", x) = some m ∧ m pkt = true) ↔ pkt.protocol = x := by
  simp [Iptables.matchOption]

theorem match_s (x : Text) (pkt : Packet) :
    (∃ m, Iptables.matchOption ("-s", x) = some m ∧ m pkt = true) ↔ pkt.src ∈ sourceSet x := by
  simp only [Iptables.matchOption, Option.map_eq_some_iff, sourceSet, Set.mem_ofPred_eq,
    Ipv4.Prefix.set]
  constructor
  · rintro ⟨m, ⟨b, hb, rfl⟩, hm⟩
    exact ⟨b, hb, hm⟩
  · rintro ⟨b, hb, hm⟩
    exact ⟨_, ⟨b, hb, rfl⟩, hm⟩

theorem match_dport {x : Text} {f t : Nat} (hx : Iptables.portRange x = some (f, t)) (pkt : Packet) :
    (∃ m, Iptables.matchOption ("--dport", x) = some m ∧ m pkt = true) ↔
      ∃ p, pkt.dport = some p ∧ f ≤ p ∧ p ≤ t := by
  simp only [Iptables.matchOption, hx, Option.map_some, Option.some.injEq]
  cases hd : pkt.dport with
  | none => simp [hd]
  | some p => simp [hd]

theorem match_icmpType (x : Text) (pkt : Packet) :
    (∃ m, Iptables.matchOption ("--icmp-type", x) = some m ∧ m pkt = true) ↔
      ∃ tc, Iptables.typeCode x = some tc ∧ pkt.icmpTypeCode = some tc := by
  simp only [Iptables.matchOption, Option.map_eq_some_iff]
  constructor
  · rintro ⟨m, ⟨tc, htc, rfl⟩, hm⟩
    exact ⟨tc, htc, by simpa using hm⟩
  · rintro ⟨tc, htc, hm⟩
    exact ⟨_, ⟨tc, htc, rfl⟩, by simpa using hm⟩

theorem match_accept (pkt : Packet) :
    Iptables.ruleMatches [("-j", "ACCEPT".toList)] pkt = true := by
  have hopt : Iptables.matchOption ("-j", "ACCEPT".toList) = some fun _ => true := rfl
  rw [Iptables.ruleMatches, List.all_cons, List.all_nil, hopt]
  rfl

theorem portRange_single {p : Int} (h : 0 ≤ p) :
    Iptables.portRange (Text.ofInt p) = some (p.toNat, p.toNat) := by
  unfold Iptables.portRange
  rw [Text.splitOn_of_not_mem (Text.not_mem_ofInt rfl (by decide) p), Text.ofInt_of_nonneg h]
  simp only [Text.nat?_ofNat, Option.map_some]

theorem portRange_pair {f t : Int} (hf : 0 ≤ f) (ht : 0 ≤ t) :
    Iptables.portRange (Text.ofInt f ++ ':' :: Text.ofInt t) = some (f.toNat, t.toNat) := by
  unfold Iptables.portRange
  rw [Text.splitOn_append (Text.not_mem_ofInt rfl (by decide) f),
    Text.splitOn_of_not_mem (Text.not_mem_ofInt rfl (by decide) t), Text.ofInt_of_nonneg hf,
    Text.ofInt_of_nonneg ht]
  simp only [Text.nat?_ofNat]

theorem typeCode_pair (a b : Int) :
    Iptables.typeCode (Text.ofInt a ++ '/' :: Text.ofInt b) =
      if 0 ≤ a ∧ 0 ≤ b then some (a.toNat, b.toNat) else none := by
  unfold Iptables.typeCode
  rw [Text.splitOn_append (Text.not_mem_ofInt rfl (by decide) a),
    Text.splitOn_of_not_mem (Text.not_mem_ofInt rfl (by decide) b)]
  by_cases ha : 0 ≤ a
  · by_cases hb : 0 ≤ b
    · rw [if_pos ⟨ha, hb⟩, Text.ofInt_of_nonneg ha, Text.ofInt_of_nonneg hb]
      simp only [Text.nat?_ofNat]
    · rw [if_neg fun h => hb h.2]
      simp only [Text.nat?_ofInt_of_neg (Int.not_le.mp hb)]
      split
      · rename_i h; cases h
      · rfl
  · rw [if_neg fun h => ha h.1]
    simp only [Text.nat?_ofInt_of_neg (Int.not_le.mp ha)]

theorem accepts_ports {r : ParsedRule} {f t : Int}
    (hp : r.ipProtocol = "tcp".toList ∨ r.ipProtocol = "udp".toList) (hf : r.ipFport = some f)
    (ht : r.ipTport = some t) (h0 : 0 ≤ f) (hle : f ≤ t) (pkt : Packet) :
    Iptables.accepts (ipRules r) pkt = true ↔
      pkt.src ∈ sourceSet r.ipSource ∧ pkt.protocol = r.ipProtocol ∧
        ∃ p : Nat, pkt.dport = some p ∧ f ≤ p ∧ p ≤ t := by
  unfold ipRules Iptables.accepts
  rw [if_pos hp, hf, ht]
  by_cases he : f = t
  · subst he
    rw [if_pos rfl]
    simp only [List.any_cons, List.any_nil, Bool.or_false, ruleMatches_cons, match_p, match_s,
      match_accept, and_true, interpolate, Option.map_some, Option.getD_some]
    rw [match_dport (portRange_single h0)]
    constructor
    · rintro ⟨h1, h2, p, h3, h4, h5⟩
      exact ⟨h2, h1, p, h3, by omega, by omega⟩
    · rintro ⟨h1, h2, p, h3, h4, h5⟩
      exact ⟨h2, h1, p, h3, by omega, by omega⟩
  · rw [if_neg (by simpa using he)]
    simp only [List.any_cons, List.any_nil, Bool.or_false, ruleMatches_cons, match_p, match_s,
      match_accept, and_true, interpolate, Option.map_some, Option.getD_some]
    rw [match_dport (portRange_pair h0 (by omega))]
    constructor
    · rintro ⟨h1, h2, p, h3, h4, h5⟩
      exact ⟨h2, h1, p, h3, by omega, by omega⟩
    · rintro ⟨h1, h2, p, h3, h4, h5⟩
      exact ⟨h2, h1, p, h3, by omega, by omega⟩

/-- What an icmp rule matches: everything, or the one type and code of its
option, if these are numbers iptables takes. -/
theorem accepts_icmp {r : ParsedRule} {a b : Int} (hp : r.ipProtocol = "icmp".toList)
    (ha : r.icmpType = some a) (hb : r.icmpCode = some b) (pkt : Packet) :
    Iptables.accepts (ipRules r) pkt = true ↔
      pkt.src ∈ sourceSet r.ipSource ∧ pkt.protocol = "icmp".toList ∧
        (a = -1 ∧ b = -1 ∨ 0 ≤ a ∧ 0 ≤ b ∧ pkt.icmpTypeCode = some (a.toNat, b.toNat)) := by
  have hport : ¬ (r.ipProtocol = "tcp".toList ∨ r.ipProtocol = "udp".toList) := by
    rw [hp]; decide
  unfold ipRules Iptables.accepts
  rw [if_neg hport, if_pos hp, ha, hb, hp]
  by_cases hw : a = -1 ∧ b = -1
  · obtain ⟨rfl, rfl⟩ := hw
    rw [if_pos ⟨rfl, rfl⟩]
    simp only [List.any_cons, List.any_nil, Bool.or_false, ruleMatches_cons, match_p, match_s,
      match_accept, and_true, true_or]
    exact and_comm
  · rw [if_neg (by simpa using hw)]
    simp only [List.any_cons, List.any_nil, Bool.or_false, ruleMatches_cons, match_p, match_s,
      match_icmpType, match_accept, and_true, interpolate, Option.map_some, Option.getD_some,
      typeCode_pair]
    constructor
    · rintro ⟨h1, h2, tc, h3, h4⟩
      split at h3
      · rename_i h0
        cases h3
        exact ⟨h2, h1, Or.inr ⟨h0.1, h0.2, h4⟩⟩
      · cases h3
    · rintro ⟨h1, h2, h3 | ⟨h4, h5, h6⟩⟩
      · exact absurd h3 hw
      · exact ⟨h2, h1, _, if_pos ⟨h4, h5⟩, h6⟩

/-! ## What a line denotes -/

/-- The source addresses of a parsed rule in a group: its own, or those of the
vnics of the group it names. -/
def ruleSources (group : GroupMap) (rule : ParsedRule) : Set Ipv4 :=
  { x | ∃ r ∈ expandRule group rule, x ∈ sourceSet r.ipSource }

/-- `proto:f,t` stands for the destination ports `f` to `t`, `icmp:type,code` for
the packets of that type and code, with -1 for any. -/
def NumbersDenote (f : Fields) : Packet → Prop
  | .tcp _ p => portNumber f.ipFport ≤ p.toNat ∧ p.toNat ≤ Text.toI f.ipTport
  | .udp _ p => portNumber f.ipFport ≤ p.toNat ∧ p.toNat ≤ Text.toI f.ipTport
  | .icmp _ type code =>
    portNumber f.ipFport = -1 ∧ Text.toI f.ipTport = -1 ∨
      portNumber f.ipFport = type.toNat ∧
        (Text.toI f.ipTport = -1 ∨ Text.toI f.ipTport = code.toNat)

def Denotes (f : Fields) (sources : Set Ipv4) (pkt : Packet) : Prop :=
  pkt.src ∈ sources ∧ f.ipProtocol = some pkt.protocol ∧ NumbersDenote f pkt

/-- The iptables rules generated from the line accept what it denotes. -/
def LineExact (f : Fields) (group : GroupMap) (rule : ParsedRule) : Prop :=
  ∀ pkt, Iptables.accepts (taskIpRules { group with rules := [rule] }) pkt = true ↔
    Denotes f (ruleSources group rule) pkt

theorem accepts_single {group : GroupMap} {rule : ParsedRule} {pkt : Packet} :
    Iptables.accepts (taskIpRules { group with rules := [rule] }) pkt = true ↔
      ∃ r ∈ expandRule group rule, Iptables.accepts (ipRules r) pkt = true := by
  rw [accepts_task]
  constructor
  · rintro ⟨x, hx, h⟩
    rw [List.mem_singleton.mp hx] at h
    exact h
  · intro h
    exact ⟨rule, List.mem_singleton.mpr rfl, h⟩

theorem lineExact_ports {f : Fields} {group : GroupMap} {rule : ParsedRule}
    (proto : f.ipProtocol = some rule.ipProtocol)
    (isPort : rule.ipProtocol = "tcp".toList ∨ rule.ipProtocol = "udp".toList)
    (fport : rule.ipFport = some (portNumber f.ipFport))
    (tport : rule.ipTport = some (Text.toI f.ipTport)) (low : 1 ≤ portNumber f.ipFport)
    (le : portNumber f.ipFport ≤ Text.toI f.ipTport) : LineExact f group rule := by
  intro pkt
  rw [accepts_single]
  have hrule : ∀ r ∈ expandRule group rule, (Iptables.accepts (ipRules r) pkt = true ↔
      pkt.src ∈ sourceSet r.ipSource ∧ pkt.protocol = rule.ipProtocol ∧
        ∃ p : Nat, pkt.dport = some p ∧ portNumber f.ipFport ≤ p ∧ p ≤ Text.toI f.ipTport) := by
    intro r hr
    obtain ⟨hp, hf, ht, -, -⟩ := mem_expandRule hr
    rw [accepts_ports (hp ▸ isPort) (hf.trans fport) (ht.trans tport) (by omega) le, hp]
  have hports : (pkt.protocol = rule.ipProtocol ∧ ∃ p : Nat, pkt.dport = some p ∧
      portNumber f.ipFport ≤ p ∧ p ≤ Text.toI f.ipTport) ↔
      f.ipProtocol = some pkt.protocol ∧ NumbersDenote f pkt := by
    rw [proto, Option.some.injEq, eq_comm]
    refine and_congr_right fun hpkt => ?_
    cases pkt with
    | tcp src p => simp [Packet.dport, NumbersDenote]
    | udp src p => simp [Packet.dport, NumbersDenote]
    | icmp src type code =>
      rw [hpkt] at isPort
      rcases isPort with h | h
      · cases h
      · cases h
  unfold Denotes ruleSources
  rw [← hports]
  constructor
  · rintro ⟨r, hr, hacc⟩
    obtain ⟨hsrc, hbody⟩ := (hrule r hr).mp hacc
    exact ⟨⟨r, hr, hsrc⟩, hbody⟩
  · rintro ⟨⟨r, hr, hsrc⟩, hbody⟩
    exact ⟨r, hr, (hrule r hr).mpr ⟨hsrc, hbody⟩⟩

theorem icmpTypes_range {n : Int} (h : n ∈ icmpTypes) : 0 ≤ n ∧ n < 256 := by
  revert n
  decide

theorem icmpCodes_range {n : Int} (h : n ∈ icmpCodes) : 0 ≤ n ∧ n < 256 := by
  revert n
  decide

/-- An icmp line is exact when its type and code are the same number, or when
nobody is meant. -/
theorem lineExact_icmp {f : Fields} {group : GroupMap} {rule : ParsedRule}
    (proto : f.ipProtocol = some rule.ipProtocol) (isIcmp : rule.ipProtocol = "icmp".toList)
    (type : rule.icmpType = some (Text.toI f.ipTport))
    (code : rule.icmpCode = some (portNumber f.ipFport))
    (typeOk : portNumber f.ipFport = -1 ∨ portNumber f.ipFport ∈ icmpTypes)
    (codeOk : Text.toI f.ipTport = -1 ∨ Text.toI f.ipTport ∈ icmpCodes)
    (wild : portNumber f.ipFport = -1 → Text.toI f.ipTport = -1) :
    LineExact f group rule ↔
      portNumber f.ipFport = Text.toI f.ipTport ∨ ruleSources group rule = ∅ := by
  have hacc : ∀ pkt, Iptables.accepts (taskIpRules { group with rules := [rule] }) pkt = true ↔
      pkt.src ∈ ruleSources group rule ∧ pkt.protocol = "icmp".toList ∧
        (Text.toI f.ipTport = -1 ∧ portNumber f.ipFport = -1 ∨
          0 ≤ Text.toI f.ipTport ∧ 0 ≤ portNumber f.ipFport ∧
            pkt.icmpTypeCode = some ((Text.toI f.ipTport).toNat, (portNumber f.ipFport).toNat)) := by
    intro pkt
    rw [accepts_single]
    constructor
    · rintro ⟨r, hr, h⟩
      obtain ⟨hp, -, -, ha, hb⟩ := mem_expandRule hr
      rw [accepts_icmp (hp.trans isIcmp) (ha.trans type) (hb.trans code)] at h
      exact ⟨⟨r, hr, h.1⟩, h.2⟩
    · rintro ⟨⟨r, hr, hsrc⟩, h⟩
      obtain ⟨hp, -, -, ha, hb⟩ := mem_expandRule hr
      refine ⟨r, hr, ?_⟩
      rw [accepts_icmp (hp.trans isIcmp) (ha.trans type) (hb.trans code)]
      exact ⟨hsrc, h⟩
  have hproto : ∀ pkt : Packet, f.ipProtocol = some pkt.protocol ↔ pkt.protocol = "icmp".toList := by
    intro pkt
    rw [proto, isIcmp, Option.some.injEq, eq_comm]
  constructor
  · intro h
    by_cases hne : portNumber f.ipFport = Text.toI f.ipTport
    · exact Or.inl hne
    · right
      rw [Set.eq_empty_iff_forall_notMem]
      intro x hx
      -- a packet of the written type and code is denoted but not accepted
      have ht : portNumber f.ipFport ∈ icmpTypes := by
        rcases typeOk with ht | ht
        · exact absurd (ht.trans (wild ht).symm) hne
        · exact ht
      obtain ⟨ht0, ht1⟩ := icmpTypes_range ht
      have hc : Text.toI f.ipTport = -1 ∨ 0 ≤ Text.toI f.ipTport ∧ Text.toI f.ipTport < 256 :=
        codeOk.imp id icmpCodes_range
      have hden : Denotes f (ruleSources group rule)
          (.icmp x (BitVec.ofNat 8 (portNumber f.ipFport).toNat)
            (BitVec.ofNat 8 (Text.toI f.ipTport).toNat)) := by
        refine ⟨hx, (hproto _).mpr rfl, Or.inr ⟨?_, ?_⟩⟩
        · rw [BitVec.toNat_ofNat]; omega
        · rw [BitVec.toNat_ofNat]; omega
      have hbad := (hacc _).mp ((h _).mpr hden)
      rcases hbad.2.2 with ⟨-, hw⟩ | ⟨hc0, -, htc⟩
      · omega
      · simp only [Packet.icmpTypeCode, BitVec.toNat_ofNat, Option.some.injEq, Prod.mk.injEq] at htc
        omega
  · intro h pkt
    rw [hacc pkt, Denotes, hproto]
    refine and_congr_right fun hsrc => and_congr_right fun hpkt => ?_
    rcases h with he | hempty
    · cases pkt with
      | tcp src p => cases hpkt
      | udp src p => cases hpkt
      | icmp src ty co =>
        simp only [Packet.icmpTypeCode, NumbersDenote, Option.some.injEq, Prod.mk.injEq]
        omega
    · rw [hempty] at hsrc
      exact absurd hsrc (Set.notMem_empty _)

/-- The rules generated from an accepted line match exactly the packets it
denotes if and only if it is no icmp line, or names the same number as type and
code, or has no source address at all. -/
theorem line_exact_iff {ipAddress : Text → Option IPAddr} {line : Text} {f : Fields}
    {rule : ParsedRule} (hf : readFields line = some f)
    (h : parseRule ipAddress line = .ok (some rule)) (group : GroupMap) :
    LineExact f group rule ↔
      f.ipProtocol ≠ some "icmp".toList ∨ portNumber f.ipFport = Text.toI f.ipTport ∨
        ruleSources group rule = ∅ := by
  obtain ⟨f', hf', hrule⟩ := parseRule_ok h
  obtain rfl := Option.some.inj (hf.symm.trans hf')
  cases hrule with
  | ports proto isPort fport tport low le high =>
    refine iff_of_true (lineExact_ports proto isPort fport tport low le) (Or.inl ?_)
    rw [proto]
    rcases isPort with hp | hp
    · rw [hp]; decide
    · rw [hp]; decide
  | icmp proto isIcmp type code typeOk codeOk wild =>
    rw [lineExact_icmp proto isIcmp type code typeOk codeOk wild, proto, isIcmp]
    simp

/-- The rule of `icmp:type,code,ip4:0.0.0.0` as it is returned. -/
def icmpAnyRule (type code : Int) : ParsedRule :=
  ⟨"icmp".toList, none, none, some code, some type, some "ip4".toList, Ipv4.withLen 0 0⟩

theorem readFields_icmp :
    readFields "icmp:0,0,ip4:0.0.0.0".toList = some
        ⟨some "icmp".toList, some "0".toList, "0".toList, some "ip4".toList,
          some (sourceText 0 none)⟩ ∧
      readFields "icmp:8,0,ip4:0.0.0.0".toList = some
        ⟨some "icmp".toList, some "8".toList, "0".toList, some "ip4".toList,
          some (sourceText 0 none)⟩ := by
  decide

theorem line_exact_echo_reply :
    LineExact ⟨some "icmp".toList, some "0".toList, "0".toList, some "ip4".toList,
      some (sourceText 0 none)⟩ emptyGroup (icmpAnyRule 0 0) := by
  have h : parseRule readAddress "icmp:0,0,ip4:0.0.0.0".toList = .ok (some (icmpAnyRule 0 0)) := by
    rw [parseRule_written readAddress_spec readFields_icmp.1 rfl rfl (by simp)]
    rfl
  exact (line_exact_iff readFields_icmp.1 h emptyGroup).mpr (Or.inr (Or.inl rfl))

/-- A rule for echo requests lets echo replies of an unused code through, and no
echo request. -/
theorem echo_request_refused :
    parseRule readAddress "icmp:8,0,ip4:0.0.0.0".toList = .ok (some (icmpAnyRule 8 0)) ∧
      Iptables.accepts (taskIpRules { emptyGroup with rules := [icmpAnyRule 8 0] })
        (.icmp 0x0a000001#32 8#8 0#8) = false ∧
      Denotes ⟨some "icmp".toList, some "8".toList, "0".toList, some "ip4".toList,
          some (sourceText 0 none)⟩ (ruleSources emptyGroup (icmpAnyRule 8 0))
        (.icmp 0x0a000001#32 8#8 0#8) := by
  refine ⟨?_, by decide, ?_⟩
  · rw [parseRule_written readAddress_spec readFields_icmp.2 rfl rfl (by simp)]
    rfl
  · refine ⟨⟨icmpAnyRule 8 0, List.mem_singleton.mpr rfl, ⟨0, 0⟩, ?_, ?_⟩, rfl, ?_⟩
    · exact Ipv4.ofText_withLen 0 (by decide)
    · rw [Ipv4.Prefix.set_zero]
      exact Set.mem_univ _
    · exact Or.inr ⟨by decide, Or.inr (by decide)⟩

end SecurityGroup

end WakameVdc
