import WakameVdc.OpenFlowGroup

/-!
# Groups on a switch and in netfilter

When the flows of the groups of a vif accept the packets that the netfilter tasks of the same
groups accept.
-/

namespace WakameVdc

open Lib

/-! ## The sources of parsed rules -/

namespace SecurityGroup

theorem sourceTokens_no_slash {t : Text} (h : (sourceTokens t).2 = []) : '/' ∉ t := by
  fun_induction sourceTokens t with
  | case1 t ih =>
    simpa using ih h
  | case2 t hw ih =>
    intro hc
    have hc : '/' ∈ t := by simpa using hc
    rw [← List.takeWhile_append_dropWhile (p := Text.isWord) (l := t)] at hc
    obtain hc | hc := List.mem_append.mp hc
    · exact absurd (List.mem_takeWhile_imp hc) (by decide)
    · exact ih h hc
  | case3 t hw => cases h
  | case4 t h4 hsg =>
    rw [show t = [] from h]
    exact List.not_mem_nil

theorem refGroupId_of_tokens {t : Text} (h : .group ∈ (sourceTokens t).1) :
    (refGroupId t).isSome = true := by
  fun_induction sourceTokens t with
  | case1 t ih =>
    have ht : SourceToken.group ∈ (sourceTokens t).1 := by simpa using h
    simpa [refGroupId] using ih ht
  | case2 t hw ih =>
    cases t with
    | nil => cases hw
    | cons c t =>
      have hc : Text.isWord c = true := by simpa using hw
      simp [refGroupId, hc]
  | case3 t hw => cases h
  | case4 t h4 hsg => cases h

theorem parseRule_tokens {ipAddress : Text → Option IPAddr} {line : Text} {rule : ParsedRule}
    (h : parseRule ipAddress line = .ok (some rule)) :
    ∃ f p src r, readFields line = some f ∧ (sourceTokens p).2 = [] ∧
      sourceAfter (sourceTokens p).1 f.ipSource = some src ∧
      readSource ipAddress p src ((sourceTokens p).1.contains .group) = .ok r ∧
      readRule f r.1 r.2 = .ok (some rule) := by
  obtain ⟨f, -, -, hf, -⟩ := parseRule_readRule h
  cases hp : f.protocol with
  | none =>
    unfold parseRule at h
    simp only [hf, hp] at h
    cases h
  | some p =>
    cases hs : sourceAfter (sourceTokens p).1 f.ipSource with
    | none =>
      rw [parseRule_scan hf hp, hs] at h
      cases h
    | some src =>
      by_cases hrest : (sourceTokens p).2 = []
      · rw [parseRule_source hf hp hs hrest] at h
        cases hr : readSource ipAddress p src ((sourceTokens p).1.contains .group) with
        | error e => rw [hr] at h; cases h
        | ok r =>
          rw [hr] at h
          exact ⟨f, p, src, r, hf, hrest, hs, hr, h⟩
      · obtain hn | ⟨t, ht⟩ : Refused (parseRule ipAddress line) :=
          parseRule_refused hf hp hs hrest
        · rw [hn] at h; cases h
        · rw [ht] at h; cases h

/-- A rule is about addresses, or about a group, whose id does not read as an address. -/
theorem parseRule_source_cases {ipAddress : Text → Option IPAddr} (hgem : ReadsIpv4 ipAddress)
    {line : Text} {rule : ParsedRule} (h : parseRule ipAddress line = .ok (some rule)) :
    (Ipv4.Prefix.ofText rule.ipSource).isSome = true ∨
      (refGroupId rule.ipSource).isSome = true ∧ '/' ∉ rule.ipSource := by
  obtain ⟨f, p, src, r, hf, hrest, hs, hr, hrule⟩ := parseRule_tokens h
  rw [(readRule_ok hrule).2.1]
  by_cases hg : SourceToken.group ∈ (sourceTokens p).1
  · right
    rw [List.contains_iff_mem.mpr hg] at hr
    cases hr
    exact ⟨refGroupId_of_tokens hg, sourceTokens_no_slash hrest⟩
  · left
    rw [Bool.eq_false_iff.mpr (fun hc => hg (List.contains_iff_mem.mp hc))] at hr
    exact (readSource_address hgem (sourceAfter_no_colon hs (readFields_no_colon hf)) hr).2

theorem refGroupId_of_ofText {t : Text} {b : Ipv4.Prefix} (h : Ipv4.Prefix.ofText t = some b) :
    refGroupId t = none :=
  refGroupId_of_not_mem (Ipv4.not_mem_of_ofText h rfl (by decide) (by decide))

end SecurityGroup

namespace OpenFlow

open SecurityGroup

theorem not_anywhere {t : Text} (h : '/' ∉ t) : anywhere t = false := by
  refine Bool.eq_false_iff.mpr fun hany => h ?_
  obtain ⟨u, hu⟩ := List.isSuffixOf_iff_suffix.mp hany
  rw [← hu]
  exact List.mem_append_right _ (by decide)

theorem len_of_anywhere {t : Text} {b : Ipv4.Prefix} (hb : Ipv4.Prefix.ofText t = some b)
    (h : anywhere t = true) : b.len = 0 := by
  obtain ⟨u, hu⟩ := List.isSuffixOf_iff_suffix.mp h
  have hslash : '/' ∈ t := by
    rw [← hu]
    exact List.mem_append_right _ (by decide)
  unfold Ipv4.Prefix.ofText at hb
  split at hb
  · rename_i a ht
    have hta : List.intercalate ['/'] (t.splitOn '/') = t := List.intercalate_splitOn '/'
    rw [ht] at hta
    have ha : '/' ∉ a := Text.not_mem_of_mem_splitOn (t := t) (by rw [ht]; simp)
    rw [← hta] at hslash
    exact absurd hslash (by simpa [List.intercalate] using ha)
  · rename_i a p ht
    obtain ⟨ha, hp, rfl⟩ := Text.splitOn_eq_pair.mp ht
    have hp0 : p = ['0'] := by
      rcases List.append_eq_append_iff.mp hu with ⟨v, rfl, hv⟩ | ⟨v, rfl, hv⟩
      · cases v with
        | nil => simpa using hv.symm
        | cons c v =>
          obtain rfl : '/' = c := (List.cons.inj hv).1
          simp at ha
      · cases v with
        | nil => simpa using hv
        | cons c v =>
          obtain rfl := (List.cons.inj hv).2
          simp at hp
    subst hp0
    split at hb
    · rename_i x n hx hn
      split at hb
      · cases hb
        exact (Option.some.inj hn).symm
      · cases hb
    · cases hb
  · cases hb

theorem sourceSet_of_anywhere {t : Text} (hsome : (Ipv4.Prefix.ofText t).isSome = true)
    (h : anywhere t = true) : sourceSet t = Set.univ := by
  obtain ⟨b, hb⟩ := Option.isSome_iff_exists.mp hsome
  ext x
  refine iff_of_true ⟨b, hb, ?_⟩ (Set.mem_univ _)
  rw [Ipv4.Prefix.mem_set, len_of_anywhere hb h]
  exact fun i hi => absurd hi (Nat.not_lt_zero i)

theorem sourceSet_nonempty {t : Text} (h : (Ipv4.Prefix.ofText t).isSome = true) :
    (sourceSet t).Nonempty := by
  obtain ⟨b, hb⟩ := Option.isSome_iff_exists.mp h
  exact ⟨b.addr, b, hb, Ipv4.Prefix.mem_set.mpr fun _ _ => rfl⟩

theorem admits_source {t : Text} (h : (Ipv4.Prefix.ofText t).isSome = true ∨ '/' ∉ t)
    (frame : Frame) :
    (if anywhere t then [] else [Tag.nwSrc t]).all (Tag.admits frame) = true ↔
      frame.packet.src ∈ sourceSet t := by
  by_cases hany : anywhere t = true
  · have hsome : (Ipv4.Prefix.ofText t).isSome = true := by
      refine h.resolve_right fun hs => ?_
      rw [not_anywhere hs] at hany
      cases hany
    rw [if_pos hany, sourceSet_of_anywhere hsome hany]
    simp
  · rw [if_neg hany]
    simp [Tag.admits, sourceSet, Ipv4.Prefix.set, Option.any_eq_true]

/-! ## The flows of a rule -/

section
variable {vif : Vif} {frame : Frame}

/-- A frame on its way to the vif is taken on if it has the tags of the incoming flow. -/
theorem accepts_transport (towards : Frame.Towards frame vif) (incoming outgoing : List Tag) :
    accepts vif.number (installTransport vif.number vif.mac (Ipv4.quad vif.address) incoming
      outgoing) frame = incoming.all (Tag.admits frame) := by
  obtain ⟨hmac, haddress⟩ := towards
  simp [accepts, installTransport, Flow.new, admits, Tag.admits, hmac, haddress, tableLoadDst,
    tableLoadSrc, Ipv4.ofText_quad, Ipv4.Prefix.contains]

theorem Transport.proto (p : Transport) : p.text = "tcp".toList ∨ p.text = "udp".toList := by
  cases p with
  | tcp => exact .inl rfl
  | udp => exact .inr rfl

theorem ruleFlows_transport {rule : ParsedRule} {p : Transport} (proto : rule.ipProtocol = p.text)
    {f t : Int} (hf : rule.ipFport = some f) (ht : rule.ipTport = some t) :
    ruleFlows vif rule = Rule.install vif.number vif.mac (Ipv4.quad vif.address)
      (.transport f t rule.ipSource) := by
  unfold ruleFlows Rule.ofParsed
  rw [if_pos (proto ▸ p.proto), hf, ht]
  rfl

theorem ruleFlows_icmp {rule : ParsedRule} (proto : rule.ipProtocol = "icmp".toList) {t c : Int}
    (ht : rule.icmpType = some t) (hc : rule.icmpCode = some c) :
    ruleFlows vif rule =
      installStaticIcmp vif.number vif.mac (Ipv4.quad vif.address) t c rule.ipSource := by
  unfold ruleFlows Rule.ofParsed
  rw [if_neg (by rw [proto]; decide), if_pos proto, ht, hc]
  rfl

theorem ruleFlows_port {rule : ParsedRule} {p : Transport} {n : Nat} (h : HasKind rule (.port p n)) :
    ruleFlows vif rule =
      installStaticTransport vif.number vif.mac (Ipv4.quad vif.address) 6 n rule.ipSource := by
  cases h with
  | port proto fport tport low high =>
    rw [ruleFlows_transport proto fport tport, Rule.install, if_pos rfl]

theorem ruleFlows_anyPort {rule : ParsedRule} {p : Transport} (h : HasKind rule (.anyPort p)) :
    ruleFlows vif rule =
      installStaticTransport vif.number vif.mac (Ipv4.quad vif.address) 6 0 rule.ipSource := by
  cases h with
  | anyPort proto fport tport =>
    rw [ruleFlows_transport proto fport tport, Rule.install, if_neg (by decide),
      if_pos (by decide)]

theorem nwProto_tcp (pkt : Packet) : pkt.nwProto = 6 ↔ pkt.protocol = "tcp".toList := by
  cases pkt <;> simp [Packet.nwProto, Packet.protocol]

theorem nwProto_icmp (pkt : Packet) : pkt.nwProto = 1 ↔ pkt.protocol = "icmp".toList := by
  cases pkt <;> simp [Packet.nwProto, Packet.protocol]

theorem admits_proto (n : Nat) :
    List.all [Tag.dlType 0x0800, .nwProto n] (Tag.admits frame) = true ↔
      frame.packet.nwProto = n := by
  simp [Tag.admits]

theorem admits_tpDst (n : Nat) :
    List.all [Tag.tpDst (some (n : Int))] (Tag.admits frame) = true ↔
      frame.packet.dport = some n := by
  cases h : frame.packet.dport with
  | none => simp [Tag.admits, h]
  | some d => simp [Tag.admits, h]

theorem admits_icmp (t c : Nat) :
    List.all [Tag.icmpType t, .icmpCode c] (Tag.admits frame) = true ↔
      frame.packet.icmpTypeCode = some (t, c) := by
  cases h : frame.packet.icmpTypeCode with
  | none => simp [Tag.admits, h]
  | some tc => simp [Tag.admits, h, Prod.ext_iff]

theorem admits_icmpCode (c : Nat) :
    List.all [Tag.icmpCode c] (Tag.admits frame) = true ↔
      ∃ t, frame.packet.icmpTypeCode = some (t, c) := by
  cases h : frame.packet.icmpTypeCode with
  | none => simp [Tag.admits, h]
  | some tc => simp [Tag.admits, h, Prod.ext_iff]

theorem nwProto_of_icmpTypeCode {pkt : Packet} {tc : Nat × Nat} (h : pkt.icmpTypeCode = some tc) :
    pkt.nwProto = 1 := by
  cases pkt with
  | tcp => cases h
  | udp => cases h
  | icmp => rfl

/-- The flows of a rule take on the packets of its kind from its source. -/
theorem accepts_rule (towards : Frame.Towards frame vif) {rule : ParsedRule} {k : Kind}
    (h : HasKind rule k)
    (hs : (Ipv4.Prefix.ofText rule.ipSource).isSome = true ∨ '/' ∉ rule.ipSource) :
    accepts vif.number (ruleFlows vif rule) frame = true ↔
      frame.packet.src ∈ sourceSet rule.ipSource ∧ k.flow frame.packet := by
  have hsource := admits_source hs frame
  cases h with
  | @port p n proto fport tport low high =>
    rw [ruleFlows_port (.port proto fport tport low high), installStaticTransport,
      accepts_transport towards, List.all_append, List.all_append, Bool.and_eq_true,
      Bool.and_eq_true, hsource, if_neg (by omega), admits_proto, admits_tpDst, nwProto_tcp,
      Kind.flow]
    tauto
  | anyPort proto fport tport =>
    rw [ruleFlows_anyPort (.anyPort proto fport tport), installStaticTransport,
      accepts_transport towards, List.all_append, List.all_append, Bool.and_eq_true,
      Bool.and_eq_true, hsource, if_pos rfl, admits_proto, nwProto_tcp, Kind.flow]
    simp only [List.all_nil, and_true]
    exact and_comm
  | anyIcmp proto type code =>
    rw [ruleFlows_icmp proto type code, installStaticIcmp, accepts_transport towards,
      List.all_append, Bool.and_eq_true, hsource, List.all_append, List.all_append,
      Bool.and_eq_true, Bool.and_eq_true, admits_proto, if_neg (by decide), if_neg (by decide),
      nwProto_icmp, Kind.flow]
    simp only [List.all_nil, and_true]
    exact and_comm
  | @anyType c proto type code high =>
    rw [ruleFlows_icmp proto type code, installStaticIcmp, accepts_transport towards,
      List.all_append, Bool.and_eq_true, hsource, List.all_append, List.all_append,
      Bool.and_eq_true, Bool.and_eq_true, admits_proto, if_neg (by decide),
      if_pos (Int.natCast_nonneg c), admits_icmpCode, Kind.flow]
    simp only [List.all_nil, and_true]
    constructor
    · rintro ⟨⟨-, hc⟩, hsrc⟩
      exact ⟨hsrc, hc⟩
    · rintro ⟨hsrc, t, hc⟩
      exact ⟨⟨nwProto_of_icmpTypeCode hc, t, hc⟩, hsrc⟩
  | @icmp t c proto type code typeHigh codeHigh =>
    rw [ruleFlows_icmp proto type code, installStaticIcmp, accepts_transport towards,
      List.all_append, Bool.and_eq_true, hsource, List.append_assoc, List.all_append,
      Bool.and_eq_true, admits_proto, if_pos (Int.natCast_nonneg t),
      if_pos (Int.natCast_nonneg c), List.singleton_append, admits_icmp, Kind.flow]
    constructor
    · rintro ⟨⟨-, hc⟩, hsrc⟩
      exact ⟨hsrc, hc⟩
    · rintro ⟨hsrc, hc⟩
      exact ⟨⟨nwProto_of_icmpTypeCode hc, hc⟩, hsrc⟩

/-! ## Reading the flows of a rule -/

theorem readable_transport {incoming outgoing : List Tag} :
    (∀ f ∈ installTransport vif.number vif.mac (Ipv4.quad vif.address) incoming outgoing,
        readable f = true) ↔
      incoming.all Tag.readable = true ∧ outgoing.all Tag.readable = true := by
  simp [installTransport, readable, Flow.new, Tag.readable, Ipv4.ofText_quad]

theorem readable_nw {t : Text} {tag : Tag} (h : tag = .nwSrc t ∨ tag = .nwDst t) :
    (if anywhere t then [] else [tag]).all Tag.readable = true ↔
      anywhere t = true ∨ (Ipv4.Prefix.ofText t).isSome = true := by
  by_cases hany : anywhere t = true
  · simp [hany]
  · obtain rfl | rfl := h
    · simp [hany, Tag.readable]
    · simp [hany, Tag.readable]

theorem readable_tp {n : Nat} (high : n < 65536) {tag : Tag}
    (h : tag = .tpDst (some (n : Int)) ∨ tag = .tpSrc (some (n : Int))) : tag.readable = true := by
  have hn : (0 : Int) ≤ n ∧ (n : Int) < 65536 := ⟨Int.natCast_nonneg n, Int.ofNat_lt.mpr high⟩
  obtain rfl | rfl := h
  · rw [Tag.readable, Option.any_some, Bool.and_eq_true, decide_eq_true_eq, decide_eq_true_eq]
    exact hn
  · rw [Tag.readable, Option.any_some, Bool.and_eq_true, decide_eq_true_eq, decide_eq_true_eq]
    exact hn

theorem readable_icmp {n : Nat} (high : n < 256) :
    Tag.readable (.icmpType n) = true ∧ Tag.readable (.icmpCode n) = true := by
  simp only [Tag.readable, Bool.and_eq_true, decide_eq_true_eq]
  omega

/-- `ovs-ofctl` reads the flows of a rule if and only if it reads the source. -/
theorem readable_rule {rule : ParsedRule} {k : Kind} (h : HasKind rule k) :
    (∀ f ∈ ruleFlows vif rule, readable f = true) ↔
      anywhere rule.ipSource = true ∨ (Ipv4.Prefix.ofText rule.ipSource).isSome = true := by
  have hsrc := readable_nw (t := rule.ipSource) (.inl rfl)
  have hdst := readable_nw (t := rule.ipSource) (.inr rfl)
  have hproto : ∀ n, List.all [Tag.dlType 0x0800, .nwProto n] Tag.readable = true := fun _ => rfl
  cases h with
  | @port p n proto fport tport low high =>
    rw [ruleFlows_port (.port proto fport tport low high), installStaticTransport,
      readable_transport]
    have hn : (n : Int) ≠ 0 := by omega
    simp only [List.all_append, Bool.and_eq_true, hsrc, hdst, hproto, List.all_cons, List.all_nil,
      if_neg hn, readable_tp high (.inl rfl), readable_tp high (.inr rfl), true_and, and_true,
      and_self]
  | anyPort proto fport tport =>
    rw [ruleFlows_anyPort (.anyPort proto fport tport), installStaticTransport,
      readable_transport, if_pos rfl, if_pos rfl]
    simp only [List.all_append, Bool.and_eq_true, hsrc, hdst, hproto, List.all_nil, true_and,
      and_true, and_self]
  | anyIcmp proto type code =>
    rw [ruleFlows_icmp proto type code, installStaticIcmp, readable_transport,
      if_neg (by decide), if_neg (by decide)]
    simp only [List.all_append, Bool.and_eq_true, hsrc, hdst, hproto, List.all_nil, true_and,
      and_self]
  | @anyType c proto type code high =>
    rw [ruleFlows_icmp proto type code, installStaticIcmp, readable_transport,
      if_neg (by decide), if_pos (Int.natCast_nonneg c)]
    simp only [List.all_append, Bool.and_eq_true, hsrc, hdst, hproto, List.all_cons, List.all_nil,
      readable_icmp high, true_and, and_self]
  | @icmp t c proto type code typeHigh codeHigh =>
    rw [ruleFlows_icmp proto type code, installStaticIcmp, readable_transport,
      if_pos (Int.natCast_nonneg t), if_pos (Int.natCast_nonneg c)]
    simp only [List.all_append, Bool.and_eq_true, hsrc, hdst, hproto, List.all_cons, List.all_nil,
      readable_icmp codeHigh, readable_icmp (n := t) (by omega), true_and, and_self]

end

/-! ## The netfilter task of a rule -/

theorem HasKind.expand {group : GroupMap} {rule r : ParsedRule} {k : Kind} (h : HasKind rule k)
    (hr : r ∈ expandRule group rule) : HasKind r k := by
  obtain ⟨hproto, hfport, htport, htype, hcode⟩ := mem_expandRule hr
  cases h with
  | port proto fport tport low high =>
    exact .port (hproto.trans proto) (hfport.trans fport) (htport.trans tport) low high
  | anyPort proto fport tport =>
    exact .anyPort (hproto.trans proto) (hfport.trans fport) (htport.trans tport)
  | anyIcmp proto type code =>
    exact .anyIcmp (hproto.trans proto) (htype.trans type) (hcode.trans code)
  | anyType proto type code high =>
    exact .anyType (hproto.trans proto) (htype.trans type) (hcode.trans code) high
  | icmp proto type code typeHigh codeHigh =>
    exact .icmp (hproto.trans proto) (htype.trans type) (hcode.trans code) typeHigh codeHigh

theorem protocol_of_icmpTypeCode {pkt : Packet} {tc : Nat × Nat}
    (h : pkt.icmpTypeCode = some tc) : pkt.protocol = "icmp".toList :=
  (nwProto_icmp pkt).mp (nwProto_of_icmpTypeCode h)

theorem dport_lt {pkt : Packet} {d : Nat} (h : pkt.dport = some d) : d < 65536 := by
  cases pkt with
  | tcp src p => cases h; exact p.isLt
  | udp src p => cases h; exact p.isLt
  | icmp => cases h

theorem accepts_ipRules {r : ParsedRule} {k : Kind} (h : HasKind r k) (pkt : Packet) :
    Iptables.accepts (ipRules r) pkt = true ↔ pkt.src ∈ sourceSet r.ipSource ∧ k.task pkt := by
  cases h with
  | @port p n proto fport tport low high =>
    rw [accepts_ports (proto ▸ p.proto) fport tport (by omega) (le_refl _), proto, Kind.task]
    refine and_congr_right fun _ => and_congr_right fun _ => ?_
    constructor
    · rintro ⟨d, hd, h1, h2⟩
      rw [hd, show d = n by omega]
    · intro hd
      exact ⟨n, hd, le_refl _, le_refl _⟩
  | @anyPort p proto fport tport =>
    rw [accepts_ports (proto ▸ p.proto) fport tport (by decide) (by decide), proto, Kind.task]
    refine and_congr_right fun _ => and_congr_right fun _ => ?_
    constructor
    · rintro ⟨d, hd, h1, -⟩
      exact ⟨d, hd, by omega⟩
    · rintro ⟨d, hd, h1⟩
      have := dport_lt hd
      exact ⟨d, hd, by omega, by omega⟩
  | anyIcmp proto type code =>
    rw [accepts_icmp proto type code, Kind.task]
    simp
  | @anyType c proto type code high =>
    rw [accepts_icmp proto type code, Kind.task]
    refine and_congr_right fun _ => iff_of_false ?_ id
    rintro ⟨-, ⟨-, hc⟩ | ⟨ht, -⟩⟩
    · omega
    · omega
  | @icmp t c proto type code typeHigh codeHigh =>
    rw [accepts_icmp proto type code, Kind.task]
    refine and_congr_right fun _ => ?_
    constructor
    · rintro ⟨-, ⟨ht, -⟩ | ⟨-, -, htc⟩⟩
      · omega
      · exact htc
    · intro htc
      exact ⟨protocol_of_icmpTypeCode htc,
        .inr ⟨Int.natCast_nonneg t, Int.natCast_nonneg c, htc⟩⟩

/-- The netfilter task of a rule accepts the packets of its kind from its sources. -/
theorem accepts_expand {group : GroupMap} {rule : ParsedRule} {k : Kind} (h : HasKind rule k)
    (pkt : Packet) :
    (∃ r ∈ expandRule group rule, Iptables.accepts (ipRules r) pkt = true) ↔
      pkt.src ∈ ruleSources group rule ∧ k.task pkt := by
  constructor
  · rintro ⟨r, hr, hacc⟩
    obtain ⟨hsrc, htask⟩ := (accepts_ipRules (h.expand hr) pkt).mp hacc
    exact ⟨⟨r, hr, hsrc⟩, htask⟩
  · rintro ⟨⟨r, hr, hsrc⟩, htask⟩
    exact ⟨r, hr, (accepts_ipRules (h.expand hr) pkt).mpr ⟨hsrc, htask⟩⟩

/-! ## The kinds of parsed rules -/

theorem icmpCodes_lt {n : Int} (h : n ∈ icmpCodes) : 0 ≤ n ∧ n < 16 := by
  revert n
  decide

theorem Supported.kind {ipAddress : Text → Option IPAddr} {group : GroupMap}
    (h : Supported ipAddress group) {rule : ParsedRule} (hrule : rule ∈ group.rules) :
    ∃ k, HasKind rule k := by
  obtain ⟨line, hline⟩ := h.parsed rule hrule
  obtain ⟨f, -, hof⟩ := parseRule_ok hline
  cases hof with
  | ports proto isPort fport tport low le high =>
    obtain ⟨p, hp⟩ : ∃ p : Transport, rule.ipProtocol = p.text := by
      obtain hp | hp := isPort
      · exact ⟨.tcp, hp⟩
      · exact ⟨.udp, hp⟩
    obtain heq | ⟨h1, h2⟩ := h.ports rule hrule
    · obtain ⟨n, hn⟩ := Int.eq_ofNat_of_zero_le (a := portNumber f.ipFport) (by omega)
      rw [hn] at fport low le
      rw [fport] at heq
      exact ⟨.port p n, .port hp fport heq.symm (by omega) (by omega)⟩
    · exact ⟨.anyPort p, .anyPort hp h1 h2⟩
  | icmp proto isIcmp type code typeOk codeOk wild =>
    obtain htype | htype := codeOk
    · rw [htype] at type
      obtain hcode | hcode := typeOk
      · rw [hcode] at code
        exact ⟨.anyIcmp, .anyIcmp isIcmp type code⟩
      · have hrange := icmpTypes_range hcode
        obtain ⟨c, hc⟩ := Int.eq_ofNat_of_zero_le hrange.1
        rw [hc] at code hrange
        exact ⟨.anyType c, .anyType isIcmp type code (by omega)⟩
    · have htlt := icmpCodes_lt htype
      obtain hcode | hcode := typeOk
      · have := wild hcode
        omega
      · have hrange := icmpTypes_range hcode
        obtain ⟨t, ht⟩ := Int.eq_ofNat_of_zero_le htlt.1
        obtain ⟨c, hc⟩ := Int.eq_ofNat_of_zero_le hrange.1
        rw [ht] at type htlt
        rw [hc] at code hrange
        exact ⟨.icmp t c, .icmp isIcmp type code (by omega) (by omega)⟩

theorem Supported.anyPort {ipAddress : Text → Option IPAddr} {group : GroupMap}
    (h : Supported ipAddress group) {rule : ParsedRule} (hrule : rule ∈ group.rules)
    (hne : rule.ipFport ≠ rule.ipTport) : ∃ p, HasKind rule (.anyPort p) := by
  obtain ⟨hf, ht⟩ := (h.ports rule hrule).resolve_left hne
  obtain ⟨line, hline⟩ := h.parsed rule hrule
  cases parseRule_shape hline with
  | ports isPort =>
    obtain hp | hp := isPort
    · exact ⟨.tcp, .anyPort hp hf ht⟩
    · exact ⟨.udp, .anyPort hp hf ht⟩
  | icmp => cases hf

/-! ## Packets of a kind -/

section
variable {rule : ParsedRule} {k : Kind} (h : HasKind rule k)
include h

theorem HasKind.exists_flow (x : Ipv4) : ∃ pkt : Packet, pkt.src = x ∧ k.flow pkt := by
  cases h with
  | @port p n proto fport tport low high =>
    refine ⟨.tcp x (BitVec.ofNat 16 n), rfl, rfl, ?_⟩
    rw [Packet.dport, BitVec.toNat_ofNat, Nat.mod_eq_of_lt high]
  | anyPort proto fport tport => exact ⟨.tcp x 0, rfl, rfl⟩
  | anyIcmp proto type code => exact ⟨.icmp x 0 0, rfl, rfl⟩
  | @anyType c proto type code high =>
    refine ⟨.icmp x 0 (BitVec.ofNat 8 c), rfl, 0, ?_⟩
    rw [Packet.icmpTypeCode, BitVec.toNat_ofNat, Nat.mod_eq_of_lt high]
    rfl
  | @icmp t c proto type code typeHigh codeHigh =>
    refine ⟨.icmp x (BitVec.ofNat 8 t) (BitVec.ofNat 8 c), rfl, ?_⟩
    rw [Kind.flow, Packet.icmpTypeCode, BitVec.toNat_ofNat, BitVec.toNat_ofNat,
      Nat.mod_eq_of_lt codeHigh, Nat.mod_eq_of_lt (by omega)]

theorem HasKind.exists_task (hany : ¬ AnyType rule) (x : Ipv4) :
    ∃ pkt : Packet, pkt.src = x ∧ k.task pkt := by
  cases h with
  | @port p n proto fport tport low high =>
    cases p with
    | tcp =>
      refine ⟨.tcp x (BitVec.ofNat 16 n), rfl, rfl, ?_⟩
      rw [Packet.dport, BitVec.toNat_ofNat, Nat.mod_eq_of_lt high]
    | udp =>
      refine ⟨.udp x (BitVec.ofNat 16 n), rfl, rfl, ?_⟩
      rw [Packet.dport, BitVec.toNat_ofNat, Nat.mod_eq_of_lt high]
  | @anyPort p proto fport tport =>
    cases p with
    | tcp => exact ⟨.tcp x 1, rfl, rfl, 1, rfl, le_refl _⟩
    | udp => exact ⟨.udp x 1, rfl, rfl, 1, rfl, le_refl _⟩
  | anyIcmp proto type code => exact ⟨.icmp x 0 0, rfl, rfl⟩
  | @anyType c proto type code high =>
    refine absurd ⟨proto, type, ?_⟩ hany
    rw [code, Ne, Option.some.injEq]
    omega
  | icmp proto type code typeHigh codeHigh =>
    exact (HasKind.icmp proto type code typeHigh codeHigh).exists_flow x

theorem HasKind.protocol_of_task {pkt : Packet} (hk : k.task pkt) :
    pkt.protocol = rule.ipProtocol := by
  cases h with
  | port proto fport tport low high => exact hk.1.trans proto.symm
  | anyPort proto fport tport => exact hk.1.trans proto.symm
  | anyIcmp proto type code => exact Eq.trans hk proto.symm
  | anyType proto type code high => exact absurd hk id
  | icmp proto type code typeHigh codeHigh =>
    exact (protocol_of_icmpTypeCode hk).trans proto.symm

theorem HasKind.of_anyType (hany : AnyType rule) : ∃ c < 256, k = .anyType c := by
  obtain ⟨hproto, htype, hcode⟩ := hany
  cases h with
  | @port p n proto fport tport low high =>
    rw [proto] at hproto
    cases p <;> cases hproto
  | @anyPort p proto fport tport =>
    rw [proto] at hproto
    cases p <;> cases hproto
  | anyIcmp proto type code => exact absurd code hcode
  | @anyType c proto type code high => exact ⟨c, high, rfl⟩
  | icmp proto type code typeHigh codeHigh =>
    rw [type, Option.some.injEq] at htype
    omega

theorem HasKind.not_task (hany : AnyType rule) (pkt : Packet) : ¬ k.task pkt := by
  obtain ⟨c, -, rfl⟩ := h.of_anyType hany
  exact id

theorem HasKind.flow_iff_task (htcp : rule.ipProtocol ≠ "udp".toList)
    (hport : rule.ipFport = rule.ipTport) (hany : ¬ AnyType rule) (pkt : Packet) :
    k.flow pkt ↔ k.task pkt := by
  cases h with
  | @port p n proto fport tport low high =>
    cases p with
    | tcp => exact Iff.rfl
    | udp => exact absurd proto htcp
  | anyPort proto fport tport =>
    rw [fport, tport] at hport
    cases hport
  | anyIcmp proto type code => exact Iff.rfl
  | @anyType c proto type code high =>
    refine absurd ⟨proto, type, ?_⟩ hany
    rw [code, Ne, Option.some.injEq]
    omega
  | icmp proto type code typeHigh codeHigh => exact Iff.rfl

end

theorem Kind.not_udp {k : Kind} {pkt : Packet} (h : k.flow pkt) : pkt.protocol ≠ "udp".toList := by
  have hicmp : ∀ {tc}, pkt.icmpTypeCode = some tc → pkt.protocol ≠ "udp".toList := by
    intro tc htc
    rw [protocol_of_icmpTypeCode htc]
    decide
  cases k with
  | port p n => rw [h.1]; decide
  | anyPort p => rw [show pkt.protocol = _ from h]; decide
  | anyIcmp => rw [show pkt.protocol = _ from h]; decide
  | anyType c => exact hicmp h.choose_spec
  | icmp t c => exact hicmp h

theorem ruleSources_of_read {rule : ParsedRule}
    (h : (Ipv4.Prefix.ofText rule.ipSource).isSome = true) (group : GroupMap) :
    ruleSources group rule = sourceSet rule.ipSource := by
  obtain ⟨b, hb⟩ := Option.isSome_iff_exists.mp h
  unfold ruleSources expandRule
  rw [refGroupId_of_ofText hb]
  simp

/-! ## All flows and all tasks -/

/-- A rule of the groups takes the packet on the switch. -/
def FlowsTake (groups : List GroupMap) (pkt : Packet) : Prop :=
  ∃ group ∈ groups, ∃ rule ∈ group.rules, pkt.src ∈ sourceSet rule.ipSource ∧
    ∃ k, HasKind rule k ∧ k.flow pkt

/-- A rule of the groups takes the packet in netfilter. -/
def TasksTake (groups : List GroupMap) (pkt : Packet) : Prop :=
  ∃ group ∈ groups, ∃ rule ∈ group.rules, pkt.src ∈ ruleSources group rule ∧
    ∃ k, HasKind rule k ∧ k.task pkt

theorem typeCode_lt {pkt : Packet} {tc : Nat × Nat} (h : pkt.icmpTypeCode = some tc) :
    tc.1 < 256 ∧ tc.2 < 256 := by
  cases pkt with
  | tcp => cases h
  | udp => cases h
  | icmp src type code => cases h; exact ⟨type.isLt, code.isLt⟩

theorem readable_of_admits {f : Flow} {frame : Frame} (h : admits f frame = true) :
    readable f = true := by
  unfold admits at h
  unfold readable
  rw [List.all_eq_true] at h ⊢
  intro tag htag
  have ht := h tag htag
  cases tag with
  | nwDst t => exact Option.isSome_of_any ht
  | nwSrc t => exact Option.isSome_of_any ht
  | icmpType n =>
    obtain ⟨tc, htc, hn⟩ := (Option.any_eq_true ..).mp ht
    obtain rfl := eq_of_beq hn
    exact (readable_icmp (typeCode_lt htc).1).1
  | icmpCode n =>
    obtain ⟨tc, htc, hn⟩ := (Option.any_eq_true ..).mp ht
    obtain rfl := eq_of_beq hn
    exact (readable_icmp (typeCode_lt htc).2).2
  | tpDst p =>
    obtain ⟨n, rfl, hany⟩ := (Option.any_eq_true ..).mp ht
    obtain ⟨d, hd, hn⟩ := (Option.any_eq_true ..).mp hany
    obtain rfl := eq_of_beq hn
    exact readable_tp (dport_lt hd) (.inl rfl)
  | tpSrc p =>
    obtain ⟨n, rfl, hn⟩ := (Option.any_eq_true ..).mp ht
    obtain rfl := eq_of_beq hn
    exact readable_tp frame.tpSrc.isLt (.inr rfl)
  | _ => rfl

theorem mem_groupFlows {vif : Vif} {groups : List GroupMap} {f : Flow} :
    f ∈ groupFlows vif groups ↔ ∃ group ∈ groups, ∃ rule ∈ group.rules, f ∈ ruleFlows vif rule := by
  simp [groupFlows, addSecurityGroup, ruleFlows]

theorem accepts_rules {vif : Vif} {groups : List GroupMap} {frame : Frame} :
    accepts vif.number (groupFlows vif groups) frame = true ↔
      ∃ group ∈ groups, ∃ rule ∈ group.rules,
        accepts vif.number (ruleFlows vif rule) frame = true := by
  simp [accepts, groupFlows, addSecurityGroup, ruleFlows, List.any_flatMap, List.any_map]

theorem accepts_of_installs {ovs : OvsOfctl} {number : Nat} {fs : List Flow} {frame : Frame}
    (h : accepts number (ovs.installs fs) frame = true) : accepts number fs frame = true := by
  obtain ⟨f, hf, hacc⟩ := List.any_eq_true.mp h
  exact List.any_eq_true.mpr ⟨f, (ovs.mem_installs fs f hf).1, hacc⟩

theorem accepts_single {number : Nat} {fs : List Flow} {frame : Frame} :
    accepts number (OvsOfctl.single.installs fs) frame = accepts number fs frame := by
  refine Bool.eq_iff_iff.mpr ⟨accepts_of_installs, fun h => ?_⟩
  obtain ⟨f, hf, hacc⟩ := List.any_eq_true.mp h
  have hread : readable f = true := readable_of_admits (Bool.and_eq_true_iff.mp hacc).2
  exact List.any_eq_true.mpr ⟨f, List.mem_filter.mpr ⟨hf, hread⟩, hacc⟩

theorem accepts_whole {number : Nat} {fs : List Flow} {f : Flow} (hf : f ∈ fs)
    (hread : readable f = false) (frame : Frame) :
    accepts number (OvsOfctl.whole.installs fs) frame = false := by
  have hnot : ¬ ∀ f ∈ fs, readable f = true := by
    intro h
    rw [h f hf] at hread
    cases hread
  show accepts number (if _ then _ else _) frame = false
  rw [if_neg hnot]
  rfl

section
variable {ipAddress : Text → Option IPAddr} (hgem : ReadsIpv4 ipAddress) {groups : List GroupMap}
  (hsup : ∀ group ∈ groups, Supported ipAddress group)
include hgem hsup

theorem source_cases {group : GroupMap} (hgroup : group ∈ groups) {rule : ParsedRule}
    (hrule : rule ∈ group.rules) :
    (Ipv4.Prefix.ofText rule.ipSource).isSome = true ∨
      (refGroupId rule.ipSource).isSome = true ∧ '/' ∉ rule.ipSource := by
  obtain ⟨line, hline⟩ := (hsup group hgroup).parsed rule hrule
  exact parseRule_source_cases hgem hline

theorem accepts_groupFlows {vif : Vif} {frame : Frame} (towards : Frame.Towards frame vif) :
    accepts vif.number (groupFlows vif groups) frame = true ↔ FlowsTake groups frame.packet := by
  rw [accepts_rules]
  refine exists_congr fun group => and_congr_right fun hgroup => exists_congr fun rule =>
    and_congr_right fun hrule => ?_
  have hs := (source_cases hgem hsup hgroup hrule).imp id And.right
  constructor
  · intro h
    obtain ⟨k, hk⟩ := (hsup group hgroup).kind hrule
    obtain ⟨hsrc, hflow⟩ := (accepts_rule towards hk hs).mp h
    exact ⟨hsrc, k, hk, hflow⟩
  · rintro ⟨hsrc, k, hk, hflow⟩
    exact (accepts_rule towards hk hs).mpr ⟨hsrc, hflow⟩

omit hgem in
theorem accepts_tasks (pkt : Packet) :
    (∃ group ∈ groups, Iptables.accepts (taskIpRules group) pkt = true) ↔ TasksTake groups pkt := by
  refine exists_congr fun group => and_congr_right fun hgroup => ?_
  rw [accepts_task]
  refine exists_congr fun rule => and_congr_right fun hrule => ?_
  constructor
  · intro h
    obtain ⟨k, hk⟩ := (hsup group hgroup).kind hrule
    obtain ⟨hsrc, htask⟩ := (accepts_expand hk pkt).mp h
    exact ⟨hsrc, k, hk, htask⟩
  · rintro ⟨hsrc, k, hk, htask⟩
    exact (accepts_expand hk pkt).mpr ⟨hsrc, htask⟩

omit hgem in
theorem readable_groupFlows {vif : Vif} (hread : ∀ group ∈ groups, ∀ rule ∈ group.rules,
      (Ipv4.Prefix.ofText rule.ipSource).isSome = true) :
    ∀ f ∈ groupFlows vif groups, readable f = true := by
  intro f hf
  obtain ⟨group, hgroup, rule, hrule, hf⟩ := mem_groupFlows.mp hf
  obtain ⟨k, hk⟩ := (hsup group hgroup).kind hrule
  exact (readable_rule hk).mpr (.inr (hread group hgroup rule hrule)) f hf

theorem sameVerdict_read {vif : Vif} (hread : ∀ group ∈ groups, ∀ rule ∈ group.rules,
      (Ipv4.Prefix.ofText rule.ipSource).isSome = true) :
    SameVerdict vif groups ↔ ∀ pkt, FlowsTake groups pkt ↔ TasksTake groups pkt := by
  have hall : ∀ f ∈ groupFlows vif groups, readable f = true := readable_groupFlows hsup hread
  constructor
  · intro h pkt
    have := h .whole ⟨0, [], vif.mac, vif.address, 0, pkt⟩ ⟨rfl, rfl⟩
    rwa [OvsOfctl.installs_all _ _ hall, accepts_groupFlows hgem hsup ⟨rfl, rfl⟩,
      accepts_tasks hsup] at this
  · intro h ovs frame towards
    rw [ovs.installs_all _ hall, accepts_groupFlows hgem hsup towards, accepts_tasks hsup]
    exact h frame.packet

/-- Where a rule is about a group, nothing may be installed, or all that can be read. -/
theorem sameVerdict_unread {vif : Vif} {group : GroupMap} (hgroup : group ∈ groups)
    {rule : ParsedRule} (hrule : rule ∈ group.rules)
    (hread : ¬ (Ipv4.Prefix.ofText rule.ipSource).isSome = true) :
    SameVerdict vif groups ↔ ∀ pkt, ¬ FlowsTake groups pkt ∧ ¬ TasksTake groups pkt := by
  constructor
  · intro h pkt
    obtain ⟨k, hk⟩ := (hsup group hgroup).kind hrule
    have hslash := ((source_cases hgem hsup hgroup hrule).resolve_left hread).2
    have hnot : ¬ ∀ f ∈ ruleFlows vif rule, readable f = true := by
      rw [readable_rule hk, not_anywhere hslash]
      simpa using hread
    simp only [not_forall, Bool.not_eq_true] at hnot
    obtain ⟨f, hf, hfread⟩ := hnot
    have hwhole := h .whole ⟨0, [], vif.mac, vif.address, 0, pkt⟩ ⟨rfl, rfl⟩
    have hsingle := h .single ⟨0, [], vif.mac, vif.address, 0, pkt⟩ ⟨rfl, rfl⟩
    rw [accepts_whole (mem_groupFlows.mpr ⟨group, hgroup, rule, hrule, hf⟩) hfread,
      accepts_tasks hsup] at hwhole
    rw [accepts_single, accepts_groupFlows hgem hsup ⟨rfl, rfl⟩, accepts_tasks hsup] at hsingle
    have htasks : ¬ TasksTake groups pkt := fun ht => Bool.false_ne_true (hwhole.mpr ht)
    exact ⟨fun hf => htasks (hsingle.mp hf), htasks⟩
  · intro h ovs frame towards
    rw [accepts_tasks hsup]
    refine iff_of_false (fun hacc => (h frame.packet).1 ?_) (h frame.packet).2
    exact (accepts_groupFlows hgem hsup towards).mp (accepts_of_installs hacc)

/-! ## The verdict -/

omit hgem in
theorem addressed_of_agree (hread : ∀ group ∈ groups, ∀ rule ∈ group.rules,
      (Ipv4.Prefix.ofText rule.ipSource).isSome = true)
    (h : ∀ pkt, FlowsTake groups pkt ↔ TasksTake groups pkt) : Addressed groups where
  address group hgroup rule hrule := by
    obtain ⟨b, hb⟩ := Option.isSome_iff_exists.mp (hread group hgroup rule hrule)
    exact refGroupId_of_ofText hb
  tcp group hgroup rule hrule := by
    intro hudp
    -- no flow takes the udp packet that the task of the rule takes
    obtain ⟨k, hk⟩ := (hsup group hgroup).kind hrule
    obtain ⟨x, hx⟩ := sourceSet_nonempty (hread group hgroup rule hrule)
    have hany : ¬ AnyType rule := fun hany => absurd (hudp.symm.trans hany.1) (by decide)
    obtain ⟨pkt, rfl, htask⟩ := hk.exists_task hany x
    rw [← ruleSources_of_read (hread group hgroup rule hrule) group] at hx
    obtain ⟨-, -, -, -, -, k', -, hflow⟩ := (h pkt).mpr ⟨group, hgroup, rule, hrule, hx, k, hk, htask⟩
    exact Kind.not_udp hflow ((hk.protocol_of_task htask).trans hudp)
  port group hgroup rule hrule := by
    by_contra hne
    -- a flow for all ports takes the port zero
    obtain ⟨p, hp⟩ := (hsup group hgroup).anyPort hrule hne
    obtain ⟨x, hx⟩ := sourceSet_nonempty (hread group hgroup rule hrule)
    obtain ⟨group', -, rule', -, -, k', hk', htask⟩ :=
      (h (.tcp x 0)).mp ⟨group, hgroup, rule, hrule, hx, _, hp, rfl⟩
    cases hk' with
    | port proto fport tport low high =>
      have h0 := Option.some.inj htask.2
      rw [← h0] at low
      cases low
    | anyPort proto fport tport =>
      obtain ⟨-, d, hd, low⟩ := htask
      cases hd
      cases low
    | anyIcmp => cases htask
    | anyType => cases htask
    | icmp => cases htask
  covered group hgroup rule hrule hany x hx := by
    obtain ⟨k, hk⟩ := (hsup group hgroup).kind hrule
    -- an icmp packet of a type no rule names
    obtain ⟨c, hc, rfl⟩ := hk.of_anyType hany
    have hflow : (Kind.anyType c).flow (.icmp x 255 (BitVec.ofNat 8 c)) := by
      refine ⟨255, ?_⟩
      rw [Packet.icmpTypeCode, BitVec.toNat_ofNat, Nat.mod_eq_of_lt hc]
      rfl
    obtain ⟨group', hgroup', rule', hrule', hsrc, k', hk', htask⟩ :=
      (h (.icmp x 255 (BitVec.ofNat 8 c))).mp ⟨group, hgroup, rule, hrule, hx, _, hk, hflow⟩
    rw [ruleSources_of_read (hread group' hgroup' rule' hrule') group'] at hsrc
    cases hk' with
    | @port p => cases p <;> cases htask.1
    | @anyPort p => cases p <;> cases htask.1
    | anyIcmp proto type code =>
      exact ⟨group', hgroup', rule', hrule', ⟨proto, type, code⟩, hsrc⟩
    | anyType => cases htask
    | @icmp t c' proto type code typeHigh codeHigh =>
      obtain rfl : 255 = t := congrArg Prod.fst (Option.some.inj htask)
      omega

omit hgem hsup in
theorem Addressed.agree (hread : ∀ group ∈ groups, ∀ rule ∈ group.rules,
      (Ipv4.Prefix.ofText rule.ipSource).isSome = true) (h : Addressed groups) (pkt : Packet) :
    FlowsTake groups pkt ↔ TasksTake groups pkt := by
  constructor
  · rintro ⟨group, hgroup, rule, hrule, hsrc, k, hk, hflow⟩
    by_cases hany : AnyType rule
    · obtain ⟨group', hgroup', rule', hrule', ⟨hproto, htype, hcode⟩, hsrc'⟩ :=
        h.covered group hgroup rule hrule hany _ hsrc
      rw [← ruleSources_of_read (hread group' hgroup' rule' hrule') group'] at hsrc'
      obtain ⟨c, -, rfl⟩ := hk.of_anyType hany
      obtain ⟨t, htc⟩ := hflow
      exact ⟨group', hgroup', rule', hrule', hsrc', _, .anyIcmp hproto htype hcode,
        protocol_of_icmpTypeCode htc⟩
    · rw [← ruleSources_of_read (hread group hgroup rule hrule) group] at hsrc
      exact ⟨group, hgroup, rule, hrule, hsrc, k, hk, (hk.flow_iff_task
        (h.tcp group hgroup rule hrule) (h.port group hgroup rule hrule) hany pkt).mp hflow⟩
  · rintro ⟨group, hgroup, rule, hrule, hsrc, k, hk, htask⟩
    have hany : ¬ AnyType rule := fun hany => hk.not_task hany pkt htask
    rw [ruleSources_of_read (hread group hgroup rule hrule) group] at hsrc
    exact ⟨group, hgroup, rule, hrule, hsrc, k, hk, (hk.flow_iff_task
      (h.tcp group hgroup rule hrule) (h.port group hgroup rule hrule) hany pkt).mpr htask⟩

omit hgem in
theorem addressed_iff (hread : ∀ group ∈ groups, ∀ rule ∈ group.rules,
      (Ipv4.Prefix.ofText rule.ipSource).isSome = true) :
    (∀ pkt, FlowsTake groups pkt ↔ TasksTake groups pkt) ↔ Addressed groups :=
  ⟨addressed_of_agree hsup hread, fun h => h.agree hread⟩

theorem silent_iff :
    (∀ pkt, ¬ FlowsTake groups pkt ∧ ¬ TasksTake groups pkt) ↔ Silent groups := by
  constructor
  · intro h group hgroup rule hrule
    obtain ⟨k, hk⟩ := (hsup group hgroup).kind hrule
    constructor
    · rcases source_cases hgem hsup hgroup hrule with hread | ⟨hg, -⟩
      · obtain ⟨x, hx⟩ := sourceSet_nonempty hread
        obtain ⟨pkt, rfl, hflow⟩ := hk.exists_flow x
        exact absurd ⟨group, hgroup, rule, hrule, hx, k, hk, hflow⟩ (h pkt).1
      · exact hg
    · by_contra hne
      obtain ⟨hany, hempty⟩ := not_or.mp hne
      obtain ⟨x, hx⟩ := Set.nonempty_iff_ne_empty.mpr hempty
      obtain ⟨pkt, rfl, htask⟩ := hk.exists_task hany x
      exact (h pkt).2 ⟨group, hgroup, rule, hrule, hx, k, hk, htask⟩
  · intro h pkt
    constructor
    · rintro ⟨group, hgroup, rule, hrule, ⟨b, hb, -⟩, -⟩
      have hg := (h group hgroup rule hrule).1
      rw [refGroupId_of_ofText hb] at hg
      cases hg
    · rintro ⟨group, hgroup, rule, hrule, hsrc, k, hk, htask⟩
      rcases (h group hgroup rule hrule).2 with hany | hempty
      · exact hk.not_task hany pkt htask
      · rw [hempty] at hsrc
        exact hsrc

/-- The switch and netfilter agree on the groups of a vif if and only if either all rules are
about addresses, none of them is for udp or for all ports, and each source of an icmp rule
with a code but any type has all of icmp open to it; or all rules are about groups, and none of
these has an address, but for such icmp rules. -/
theorem same_verdict_iff (vif : Vif) :
    SameVerdict vif groups ↔ Addressed groups ∨ Silent groups := by
  by_cases hread : ∀ group ∈ groups, ∀ rule ∈ group.rules,
      (Ipv4.Prefix.ofText rule.ipSource).isSome = true
  · rw [sameVerdict_read hgem hsup hread, addressed_iff hsup hread]
    refine ⟨.inl, ?_⟩
    rintro (h | h)
    · exact h
    · refine (addressed_iff hsup hread).mp fun pkt => ?_
      obtain ⟨hflows, htasks⟩ := (silent_iff hgem hsup).mpr h pkt
      exact iff_of_false hflows htasks
  · simp only [not_forall] at hread
    obtain ⟨group, hgroup, rule, hrule, hread⟩ := hread
    rw [sameVerdict_unread hgem hsup hgroup hrule hread, silent_iff hgem hsup]
    refine ⟨.inr, ?_⟩
    rintro (h | h)
    · have hg := ((source_cases hgem hsup hgroup hrule).resolve_left hread).1
      rw [h.address group hgroup rule hrule] at hg
      cases hg
    · exact h

end

theorem supported_single {ipAddress : Text → Option IPAddr} {line : Text} {rule : ParsedRule}
    (h : parseRule ipAddress line = .ok (some rule)) (heq : rule.ipFport = rule.ipTport) :
    Supported ipAddress { emptyGroup with rules := [rule] } where
  parsed r hr := by
    rw [List.mem_singleton.mp hr]
    exact ⟨line, h⟩
  ports r hr := by
    rw [List.mem_singleton.mp hr]
    exact .inl heq

def vifOne : Vif := ⟨1, "52:54:00:00:00:01".toList, 0x0a000001#32⟩

theorem same_verdict_ssh :
    SameVerdict vifOne
      [{ emptyGroup with rules := [sshRule (Ipv4.withLen 0x0a000000#32 8)] }] := by
  have hf : readFields "tcp:22,22,ip4:10.0.0.0/8".toList = some
      ⟨some "tcp".toList, some "22".toList, "22".toList, some "ip4".toList,
        some (sourceText 0x0a000000#32 (some 8))⟩ := by decide
  have h : parseRule readAddress "tcp:22,22,ip4:10.0.0.0/8".toList =
      .ok (some (sshRule (Ipv4.withLen 0x0a000000#32 8))) := by
    rw [parseRule_written readAddress_spec hf rfl rfl (by simp)]
    rfl
  refine (same_verdict_iff readAddress_ipv4 ?_ vifOne).mpr (.inl ?_)
  · intro group hgroup
    rw [List.mem_singleton.mp hgroup]
    exact supported_single h rfl
  · constructor
    · simp [sshRule, refGroupId_of_not_mem (not_mem_withLen 0x0a000000#32 8)]
    · simp [sshRule]
    · simp [sshRule]
    · simp [sshRule, AnyType]

/-- The rule of `udp:53,53,ip4:0.0.0.0`. -/
def dnsRule : ParsedRule :=
  ⟨"udp".toList, some 53, some 53, none, none, some "ip4".toList, Ipv4.withLen 0 0⟩

/-- A rule for udp opens a port in netfilter, and the port of that number for tcp on the
switch. -/
theorem udp_rule_refused :
    Supported readAddress { emptyGroup with rules := [dnsRule] } ∧
      ¬ SameVerdict vifOne [{ emptyGroup with rules := [dnsRule] }] := by
  constructor
  · have hf : readFields "udp:53,53,ip4:0.0.0.0".toList = some
        ⟨some "udp".toList, some "53".toList, "53".toList, some "ip4".toList,
          some (sourceText 0 none)⟩ := by decide
    have h : parseRule readAddress "udp:53,53,ip4:0.0.0.0".toList = .ok (some dnsRule) := by
      rw [parseRule_written readAddress_spec hf rfl rfl (by simp)]
      rfl
    exact supported_single h rfl
  · intro h
    have hudp := h .whole ⟨0, [], vifOne.mac, vifOne.address, 0, .udp 0x0a000002#32 53#16⟩
      ⟨rfl, rfl⟩
    revert hudp
    decide

end OpenFlow

end WakameVdc
