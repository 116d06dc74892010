import WakameVdc.TaskManager

/-!
# The order of the rules in a vnic's chains

Every task is applied by inserting its rules at the head of their chains, so that the tasks of a
vnic end up in the reverse of their order. The guards are the rules that drop and are meant to
come before rules that accept.
-/

namespace WakameVdc

open Lib

namespace TaskManager

/-! ## Where a rule goes -/

section
variable {chains : List Chain} {rule : Rule}

theorem tailor_eq (c : Chain) (rule : Rule) :
    c.tailor rule = rule ∨ c.tailor rule = { rule with chain := .custom c.name } := by
  unfold Chain.tailor
  by_cases h : c.takes rule
  · simp [h]
  · simp [h]

theorem tailored_eq (chains : List Chain) (rule : Rule) :
    tailored chains rule = rule ∨ ∃ name, tailored chains rule = { rule with chain := .custom name } := by
  induction chains generalizing rule with
  | nil => exact .inl rfl
  | cons c chains ih =>
    have hcons : tailored (c :: chains) rule = tailored chains (c.tailor rule) := rfl
    rw [hcons]
    rcases tailor_eq c rule with h | h
    · rw [h]
      exact ih rule
    · rw [h]
      rcases ih { rule with chain := .custom c.name } with h | ⟨name, h⟩
      · exact .inr ⟨c.name, h⟩
      · exact .inr ⟨name, h⟩

@[simp] theorem tailored_rule (chains : List Chain) (rule : Rule) :
    (tailored chains rule).rule = rule.rule := by
  rcases tailored_eq chains rule with h | ⟨name, h⟩
  · rw [h]
  · rw [h]

@[simp] theorem tailored_tool (chains : List Chain) (rule : Rule) :
    (tailored chains rule).tool = rule.tool := by
  rcases tailored_eq chains rule with h | ⟨name, h⟩
  · rw [h]
  · rw [h]

@[simp] theorem tailored_table (chains : List Chain) (rule : Rule) :
    (tailored chains rule).table = rule.table := by
  rcases tailored_eq chains rule with h | ⟨name, h⟩
  · rw [h]
  · rw [h]

@[simp] theorem tailored_copied (chains : List Chain) (rule : Rule) :
    (tailored chains rule).copied = rule.copied := by
  rcases tailored_eq chains rule with h | ⟨name, h⟩
  · rw [h]
  · rw [h]
    rfl

/-- The chains of a vnic take rules of the kernel's chains only. -/
def Untouched (chains : List Chain) : Prop :=
  ∀ c ∈ chains, ∀ (rule : Rule) (name : Text), c.takes { rule with chain := .custom name } = false

theorem tailored_custom (h : Untouched chains) (rule : Rule) (name : Text) :
    tailored chains { rule with chain := .custom name } = { rule with chain := .custom name } := by
  induction chains with
  | nil => rfl
  | cons c chains ih =>
    have hcons : tailored (c :: chains) { rule with chain := .custom name } =
        tailored chains (c.tailor { rule with chain := .custom name }) := rfl
    rw [hcons, Chain.tailor, h c (by simp) rule name]
    exact ih fun c hc => h c (by simp [hc])

theorem tailored_tailored (h : Untouched chains) (rule : Rule) :
    tailored chains (tailored chains rule) = tailored chains rule := by
  rcases tailored_eq chains rule with he | ⟨name, he⟩
  · rw [he, he]
  · rw [he]
    exact tailored_custom h rule name

theorem untouched_chainsOf (vnic : VnicMap) (tool : Tool) : Untouched (chainsOf vnic tool) := by
  intro c hc rule name
  cases tool with
  | iptables =>
    simp only [chainsOf, iptablesChains, List.flatMap_cons, List.flatMap_nil, List.cons_append,
      List.nil_append, List.mem_cons, List.not_mem_nil, or_false] at hc
    rcases hc with rfl | rfl | rfl | rfl | rfl | rfl | rfl | rfl | rfl | rfl <;>
      simp [dVnicIpChain, sVnicIpChain, plainChain, vnicIpChainTCP, vnicIpChainUDP, vnicIpChainICMP,
        forwardChain, vnicIpSnat, vnicIpSnatExceptions]
  | ebtables =>
    simp only [chainsOf, ebtablesChains, List.flatMap_cons, List.flatMap_nil, List.cons_append,
      List.nil_append, List.mem_cons, List.not_mem_nil, or_false] at hc
    rcases hc with rfl | rfl | rfl | rfl | rfl | rfl | rfl | rfl | rfl | rfl | rfl | rfl <;>
      simp [dVnicEbChain, sVnicEbChain, plainChain, vnicEbChainARP, vnicEbChainIPV4, forwardChain,
        vnicEbChainFromHost, vnicEbChainFromHostARP, vnicEbChainFromHostIPV4, vnicEbChainToHost,
        vnicEbChainToHostARP, vnicEbChainToHostIPV4, hostChain]

end

/-! ## The rules that are inserted -/

section
variable {hva : Hva} {vnic : VnicMap}

/-- The rules of the tasks with their chains, in the order they are inserted. -/
def applied (hva : Hva) (vnic : VnicMap) (tasks : List Task) : List (ChainId × Options) :=
  tasks.flatMap fun task =>
    task.rules.flatMap fun rule => (ruleCopies hva vnic rule).map Rule.place

theorem handle_apply (tasks : List Task) :
    handleVnicTasks hva vnic tasks .apply = Chains.inserts (applied hva vnic tasks) := by
  simp only [handleVnicTasks, applied, Chains.inserts, List.map_flatMap, List.map_map]
  rfl

theorem handle_remove (tasks : List Task) :
    handleVnicTasks hva vnic tasks .remove = Chains.deletes (applied hva vnic tasks) := by
  simp only [handleVnicTasks, applied, Chains.deletes, List.map_flatMap, List.map_map]
  rfl

theorem ruleCopies_tailorInPlace (rule : Rule) :
    ruleCopies hva vnic (tailorInPlace hva vnic rule) = ruleCopies hva vnic rule := by
  unfold tailorInPlace
  by_cases h : hva.enabled rule.tool && !rule.copied
  · have hcopied : rule.copied = false := by
      rw [Bool.and_eq_true, Bool.not_eq_true'] at h
      exact h.2
    rw [if_pos h]
    simp only [ruleCopies, tailored_tool, tailored_copied, hcopied, Bool.false_eq_true, if_false,
      tailored_tailored (untouched_chainsOf vnic rule.tool)]
  · rw [if_neg h]

theorem applied_handled (tasks : List Task) :
    applied hva vnic (handled hva vnic tasks) = applied hva vnic tasks := by
  simp only [applied, handled, List.flatMap_map, ruleCopies_tailorInPlace]

theorem remove_apply (tasks : List Task) (k : Kernel) :
    removeVnicTasks hva vnic tasks (applyVnicTasks hva vnic tasks k) = k := by
  rw [removeVnicTasks, applyVnicTasks, handle_apply, handle_remove, Chains.deletes_inserts]

theorem remove_apply_handled (tasks : List Task) (k : Kernel) :
    removeVnicTasks hva vnic (handled hva vnic tasks) (applyVnicTasks hva vnic tasks k) = k := by
  rw [removeVnicTasks, applyVnicTasks, handle_apply, handle_remove, applied_handled,
    Chains.deletes_inserts]

end

/-! ## Rules that drop and rules that accept -/

section

@[simp] theorem accepting_append (a b : Options) :
    Accepting (a ++ b) ↔ Accepting a ∨ Accepting b := List.mem_append

@[simp] theorem dropping_append (a b : Options) :
    Dropping (a ++ b) ↔ Dropping a ∨ Dropping b := List.mem_append

@[simp] theorem accepting_cons (o : String × Text) (a : Options) :
    Accepting (o :: a) ↔ o = ("-j", "ACCEPT".toList) ∨ Accepting a := by
  rw [Accepting, List.mem_cons, eq_comm]
  rfl

@[simp] theorem dropping_cons (o : String × Text) (a : Options) :
    Dropping (o :: a) ↔ o = ("-j", "DROP".toList) ∨ Dropping a := by
  rw [Dropping, List.mem_cons, eq_comm]
  rfl

@[simp] theorem not_accepting_nil : ¬ Accepting [] := List.not_mem_nil

@[simp] theorem not_dropping_nil : ¬ Dropping [] := List.not_mem_nil

@[simp] theorem accepting_jump (target : String) : Accepting (jump target) ↔ target = "ACCEPT" := by
  rw [jump, accepting_cons]
  simp only [Prod.mk.injEq, true_and, String.toList_inj, not_accepting_nil, or_false]

@[simp] theorem dropping_jump (target : String) : Dropping (jump target) ↔ target = "DROP" := by
  rw [jump, dropping_cons]
  simp only [Prod.mk.injEq, true_and, String.toList_inj, not_dropping_nil, or_false]

@[simp] theorem not_accepting_logArp (enableLogging : Bool) (logPrefix : Text) :
    ¬ Accepting (logArp enableLogging logPrefix) := by
  cases enableLogging <;> simp [logArp]

@[simp] theorem not_dropping_logArp (enableLogging : Bool) (logPrefix : Text) :
    ¬ Dropping (logArp enableLogging logPrefix) := by
  cases enableLogging <;> simp [logArp]

theorem verdict_accept_iff {rule : Options} : verdict rule = some true ↔ Accepting rule := by
  unfold verdict
  by_cases h : Accepting rule
  · simp [h]
  · by_cases hd : Dropping rule
    · simp [h, hd]
    · simp [h, hd]

theorem dropping_of_verdict {rule : Options} (h : verdict rule = some false) : Dropping rule := by
  unfold verdict at h
  by_cases ha : Accepting rule
  · simp [ha] at h
  · by_contra hd
    simp [ha, hd] at h

def Task.Quiet (t : Task) : Prop := ∀ r ∈ t.rules, ¬ Dropping r.rule

variable (enableLogging : Bool) (logPrefix : Text)

theorem quiet_acceptArpBroadcast (hvaIp : Text) :
    (acceptArpBroadcast hvaIp enableLogging logPrefix).Quiet := by
  simp [Task.Quiet, acceptArpBroadcast, ebtablesRule, arpRequest]

theorem quiet_acceptArpRequest (source ip : Text) :
    (acceptArpRequest source ip enableLogging logPrefix).Quiet := by
  simp [Task.Quiet, acceptArpRequest, ebtablesRule, arpRequest]

theorem quiet_acceptARPFromFriends (instIp : Text) (friendIps : List Text) :
    (acceptARPFromFriends instIp friendIps enableLogging logPrefix).Quiet := by
  intro r hr
  simp only [acceptARPFromFriends, List.mem_flatMap] at hr
  obtain ⟨friendIp, -, hr⟩ := hr
  cases enableLogging with
  | true =>
    simp only [if_true, List.cons_append, List.nil_append, List.mem_cons, List.not_mem_nil,
      or_false] at hr
    rcases hr with rfl | rfl <;> simp [ebtablesRule, arpRequest]
  | false =>
    simp only [Bool.false_eq_true, if_false, List.nil_append, List.mem_singleton] at hr
    subst hr
    simp [ebtablesRule, arpRequest]

theorem quiet_acceptARPReply (ip macaddr : Text) :
    (acceptARPReply ip macaddr enableLogging logPrefix).Quiet := by
  simp [Task.Quiet, acceptARPReply, ebtablesRule]

theorem quiet_acceptARPToHost (hostIp instIp : Text) :
    (acceptARPToHost hostIp instIp enableLogging logPrefix).Quiet := by
  cases enableLogging <;> simp [Task.Quiet, acceptARPToHost, ebtablesRule]

theorem quiet_acceptGARPFromGateway (gwIp : Text) :
    (acceptGARPFromGateway gwIp enableLogging logPrefix).Quiet := by
  simp [Task.Quiet, acceptGARPFromGateway, ebtablesRule]

theorem quiet_acceptIpFromFriends (friendIps : List Text) :
    (acceptIpFromFriends friendIps).Quiet := by
  simp [Task.Quiet, acceptIpFromFriends, iptablesRule]

theorem quiet_acceptState (protocol : Protocol) (name state : String) :
    (acceptState protocol name state).Quiet := by
  simp [Task.Quiet, acceptState, iptablesRule]

theorem quiet_acceptWakameDNSOnly (dnsServerIp : Text) :
    (acceptWakameDNSOnly dnsServerIp).Quiet := by
  simp [Task.Quiet, acceptWakameDNSOnly, iptablesRule]

theorem quiet_excludeFromNat (ips : List Text) (selfIp : Text) :
    (excludeFromNat ips selfIp).Quiet := by
  simp [Task.Quiet, excludeFromNat, iptablesRule]

theorem quiet_staticNatLog (insideIp outsideIp snatLogPrefix dnatLogPrefix : Text) :
    (staticNatLog insideIp outsideIp snatLogPrefix dnatLogPrefix).Quiet := by
  simp [Task.Quiet, staticNatLog, iptablesRule]

theorem quiet_staticNat (insideIp outsideIp macAddress : Text) :
    (staticNat insideIp outsideIp macAddress).Quiet := by
  simp [Task.Quiet, staticNat, iptablesRule, ebtablesRule]

theorem quiet_translateMetadataAddress (vnicId metadataIp metadataPort : Text) :
    (translateMetadataAddress vnicId metadataIp metadataPort).Quiet := by
  simp [Task.Quiet, translateMetadataAddress, iptablesRule, ebtablesRule, arpRequest]

theorem quiet_translateLoggingAddress (vnicId hostIp loggingIp loggingPort : Text) :
    (translateLoggingAddress vnicId hostIp loggingIp loggingPort).Quiet := by
  simp [Task.Quiet, translateLoggingAddress, iptablesRule]

theorem not_dropping_arpRules {ipv4New : Text → Option IPAddr} {vnic : VnicMap} {rule : ParsedRule}
    {r : EbtablesRule} (h : r ∈ SecurityGroup.arpRules ipv4New vnic rule) : ¬ Dropping r.rule := by
  unfold SecurityGroup.arpRules at h
  split at h
  · cases h
  · split at h
    · rw [List.mem_singleton.mp h]
      simp
    · rw [List.mem_singleton.mp h]
      simp

theorem not_dropping_ipRules {rule : ParsedRule} {r : IptablesRule}
    (h : r ∈ SecurityGroup.ipRules rule) : ¬ Dropping r.rule := by
  unfold SecurityGroup.ipRules at h
  split at h
  · split at h
    · rw [List.mem_singleton.mp h]
      simp
    · rw [List.mem_singleton.mp h]
      simp
  · split at h
    · split at h
      · rw [List.mem_singleton.mp h]
        simp
      · rw [List.mem_singleton.mp h]
        simp
    · cases h

theorem quiet_securityGroup (ipv4New : Text → Option IPAddr) (vnic : VnicMap) (group : GroupMap) :
    (securityGroup ipv4New vnic group).Quiet := by
  intro r hr
  simp only [securityGroup, List.mem_flatMap, List.mem_append, List.mem_map] at hr
  obtain ⟨rule, -, ⟨a, ha, rfl⟩ | ⟨a, ha, rfl⟩⟩ := hr
  · exact not_dropping_arpRules ha
  · exact not_dropping_ipRules ha

end

/-! ## What the tasks of a vnic insert -/

section
variable {hva : Hva} {vnic : VnicMap}

theorem applied_append (l m : List Task) :
    applied hva vnic (l ++ m) = applied hva vnic l ++ applied hva vnic m := List.flatMap_append

theorem mem_ruleCopies {rule r : Rule} (h : r ∈ ruleCopies hva vnic rule) :
    ∃ protocol, r = tailored (chainsOf vnic rule.tool) { rule with protocol := protocol } ∧
      ((rule.copied ∧ ∃ p ∈ iptablesProtocols, protocol = some p) ∨
        (rule.copied = false ∧ protocol = rule.protocol)) := by
  unfold ruleCopies at h
  by_cases henabled : hva.enabled rule.tool
  · rw [if_pos henabled] at h
    by_cases hcopied : rule.copied
    · rw [if_pos hcopied] at h
      obtain ⟨p, hp, rfl⟩ := List.mem_map.mp h
      exact ⟨some p, rfl, .inl ⟨hcopied, p, hp, rfl⟩⟩
    · rw [if_neg hcopied] at h
      exact ⟨rule.protocol, List.mem_singleton.mp h, .inr ⟨by simpa using hcopied, rfl⟩⟩
  · rw [if_neg henabled] at h
    cases h

theorem text_of_mem_ruleCopies {rule r : Rule} (h : r ∈ ruleCopies hva vnic rule) :
    r.rule = rule.rule := by
  obtain ⟨protocol, rfl, -⟩ := mem_ruleCopies h
  exact tailored_rule _ _

theorem mem_applied {tasks : List Task} {y : ChainId × Options}
    (h : y ∈ applied hva vnic tasks) :
    ∃ t ∈ tasks, ∃ rule ∈ t.rules, ∃ r ∈ ruleCopies hva vnic rule, y = r.place := by
  simp only [applied, List.mem_flatMap, List.mem_map] at h
  obtain ⟨t, ht, rule, hrule, r, hr, rfl⟩ := h
  exact ⟨t, ht, rule, hrule, r, hr, rfl⟩

theorem text_of_mem_applied {tasks : List Task} {y : ChainId × Options}
    (h : y ∈ applied hva vnic tasks) : ∃ t ∈ tasks, ∃ rule ∈ t.rules, y.2 = rule.rule := by
  obtain ⟨t, ht, rule, hrule, r, hr, rfl⟩ := mem_applied h
  exact ⟨t, ht, rule, hrule, text_of_mem_ruleCopies hr⟩

theorem no_drop_of_quiet {tasks : List Task} (h : ∀ t ∈ tasks, t.Quiet) :
    ∀ y ∈ applied hva vnic tasks, verdict y.2 ≠ some false := by
  intro y hy hv
  obtain ⟨t, ht, rule, hrule, htext⟩ := text_of_mem_applied hy
  exact h t ht rule hrule (htext ▸ dropping_of_verdict hv)

def arpChain (vnic : VnicMap) : PreMade → Bound → Text
  | .input, _ => (vnicEbChainToHostARP vnic).name
  | .output, _ => (vnicEbChainFromHostARP vnic).name
  | _, bound => (vnicEbChainARP vnic bound).name

theorem tailored_arp {chain : PreMade} (hchain : chain ∈ [.forward, .input, .output]) (bound : Bound)
    (rule : Options) :
    (tailored (ebtablesChains vnic) (ebtablesRule .filter chain .arp bound rule)).chain =
      .custom (arpChain vnic chain bound) := by
  simp only [List.mem_cons, List.not_mem_nil, or_false] at hchain
  rcases hchain with rfl | rfl | rfl <;> cases bound <;>
    simp [tailored, ebtablesChains, Chain.tailor, dVnicEbChain, sVnicEbChain, plainChain,
      vnicEbChainARP, vnicEbChainIPV4, forwardChain, vnicEbChainFromHost, vnicEbChainFromHostARP,
      vnicEbChainFromHostIPV4, vnicEbChainToHost, vnicEbChainToHostARP, vnicEbChainToHostIPV4,
      hostChain, ebtablesRule, arpChain]

theorem tailored_udp (bound : Bound) (rule : Options) :
    (tailored (iptablesChains vnic) (iptablesRule .filter .forward (some .udp) bound rule)).chain =
      .custom (vnicIpChainUDP vnic bound).name := by
  cases bound <;>
    simp [tailored, iptablesChains, Chain.tailor, dVnicIpChain, sVnicIpChain, plainChain,
      vnicIpChainTCP, vnicIpChainUDP, vnicIpChainICMP, forwardChain, vnicIpSnat,
      vnicIpSnatExceptions, iptablesRule]

theorem place_of_not_copied {rule r : Rule} (hcopied : rule.copied = false)
    (h : r ∈ ruleCopies hva vnic rule) :
    r.place = (⟨rule.tool, rule.table, (tailored (chainsOf vnic rule.tool) rule).chain⟩, rule.rule) := by
  obtain ⟨protocol, rfl, ⟨hcopied', -⟩ | ⟨-, rfl⟩⟩ := mem_ruleCopies h
  · rw [hcopied] at hcopied'
    cases hcopied'
  · simp [Rule.place]

theorem place_arp {chain : PreMade} (hchain : chain ∈ [.forward, .input, .output]) {bound : Bound}
    {rule : Options} {r : Rule}
    (h : r ∈ ruleCopies hva vnic (ebtablesRule .filter chain .arp bound rule)) :
    r.place = (⟨.ebtables, .filter, .custom (arpChain vnic chain bound)⟩, rule) := by
  rw [place_of_not_copied (by simp [Rule.copied, ebtablesRule]) h, ← tailored_arp hchain bound rule]
  rfl

theorem place_udp {bound : Bound} {rule : Options} {r : Rule}
    (h : r ∈ ruleCopies hva vnic (iptablesRule .filter .forward (some .udp) bound rule)) :
    r.place = (⟨.iptables, .filter, .custom (vnicIpChainUDP vnic bound).name⟩, rule) := by
  rw [place_of_not_copied (by simp [Rule.copied, iptablesRule]) h, ← tailored_udp bound rule]
  rfl

/-! ## The guards -/

def toHostArp (vnic : VnicMap) : ChainId :=
  ⟨.ebtables, .filter, .custom (vnicEbChainToHostARP vnic).name⟩

def incomingUdp (vnic : VnicMap) : ChainId :=
  ⟨.iptables, .filter, .custom (vnicIpChainUDP vnic .incoming).name⟩

/-- The rules against spoofing stand before the rule that lets a vnic's arp through to the host,
and the rule against foreign DHCP servers before rules that accept udp. -/
def guards (hva : Hva) (vnic : Vnic) (network : NetworkMap) (c : ChainId) : List Options :=
  (if c = toHostArp vnic.toVnicMap ∧ hva.loggingServiceHostIp.isSome then
    (spoofingTasks hva vnic).flatMap fun t => t.rules.map Rule.rule
  else []) ++
    if c = incomingUdp vnic.toVnicMap then network.dhcpServer.toList.map foreignDhcp else []

end

/-! ## What stands before what -/

theorem chainName_inj {vnic : VnicMap} {bound : Bound} {a b : String} :
    chainName vnic bound a = chainName vnic bound b ↔ a = b := by
  simp [chainName, String.toList_inj]

theorem chainName_ne_of_bound (vnic : VnicMap) (a b : String) :
    chainName vnic .outgoing a ≠ chainName vnic .incoming b := by
  simp [chainName, Bound.letter]

def incomingArp (vnic : VnicMap) : ChainId :=
  ⟨.ebtables, .filter, .custom (vnicEbChainARP vnic .incoming).name⟩

section
variable {hva : Hva} {vnic : Vnic} {network : NetworkMap}

/-- The rules against spoofing go to the chains of what the vnic sends, and to that of what the
host sends to it. -/
theorem place_dropSpoofing {src dst : String} {value logPrefix : Text} {enableLogging : Bool}
    {rule r : Rule} (hrule : rule ∈ (dropSpoofing src dst value enableLogging logPrefix).rules)
    (h : r ∈ ruleCopies hva vnic.toVnicMap rule) : r.place.1 ≠ incomingArp vnic.toVnicMap := by
  simp only [dropSpoofing, List.mem_cons, List.not_mem_nil, or_false] at hrule
  rcases hrule with rfl | rfl | rfl
  · rw [place_arp (by simp) h]
    simpa [incomingArp, arpChain, vnicEbChainARP, forwardChain] using chainName_ne_of_bound _ _ _
  · rw [place_arp (by simp) h]
    simpa [incomingArp, arpChain, vnicEbChainToHostARP, vnicEbChainARP, forwardChain, hostChain]
      using chainName_ne_of_bound _ _ _
  · rw [place_arp (by simp) h]
    simp [incomingArp, arpChain, vnicEbChainFromHostARP, vnicEbChainARP, forwardChain, hostChain,
      chainName_inj]

theorem dropping_dropSpoofing {src dst : String} {value logPrefix : Text} {enableLogging : Bool}
    {rule : Rule} (hrule : rule ∈ (dropSpoofing src dst value enableLogging logPrefix).rules) :
    Dropping rule.rule := by
  simp only [dropSpoofing, List.mem_cons, List.not_mem_nil, or_false] at hrule
  rcases hrule with rfl | rfl | rfl <;> simp [ebtablesRule]

theorem mem_applied_spoofing {y : ChainId × Options}
    (h : y ∈ applied hva vnic.toVnicMap (spoofingTasks hva vnic)) :
    y.2 ∈ ((spoofingTasks hva vnic).flatMap fun t => t.rules.map Rule.rule) ∧
      y.1 ≠ incomingArp vnic.toVnicMap := by
  obtain ⟨t, ht, rule, hrule, r, hr, rfl⟩ := mem_applied h
  have htext : r.place.2 = rule.rule := text_of_mem_ruleCopies hr
  rw [htext]
  refine ⟨List.mem_flatMap.mpr ⟨t, ht, List.mem_map_of_mem hrule⟩, ?_⟩
  simp only [spoofingTasks, List.mem_cons, List.not_mem_nil, or_false] at ht
  rcases ht with rfl | rfl
  · exact place_dropSpoofing hrule hr
  · exact place_dropSpoofing hrule hr

/-- A task whose rules do not accept. -/
def Task.Closed (t : Task) : Prop := ∀ r ∈ t.rules, ¬ Accepting r.rule

theorem closed_dropTasks : ∀ t ∈ netfilterDropTasks hva vnic, t.Closed := by
  simp [netfilterDropTasks, Task.Closed, dropIpFromAnywhere, dropArpForwarding, dropArpToHost,
    iptablesRule, ebtablesRule]

theorem closed_spoofingTasks : ∀ t ∈ spoofingTasks hva vnic, t.Closed := by
  simp [spoofingTasks, Task.Closed, dropIpSpoofing, dropMacSpoofing, dropSpoofing, ebtablesRule]

theorem no_accept_of_closed {tasks : List Task} (h : ∀ t ∈ tasks, t.Closed) :
    ∀ y ∈ applied hva vnic.toVnicMap tasks, verdict y.2 ≠ some true := by
  intro y hy hv
  obtain ⟨t, ht, rule, hrule, htext⟩ := text_of_mem_applied hy
  exact h t ht rule hrule (htext ▸ verdict_accept_iff.mp hv)

theorem place_acceptARPToHost {hostIp instIp logPrefix : Text} {enableLogging : Bool}
    {y : ChainId × Options}
    (h : y ∈ applied hva vnic.toVnicMap [acceptARPToHost hostIp instIp enableLogging logPrefix]) :
    y.1 = toHostArp vnic.toVnicMap := by
  obtain ⟨t, ht, rule, hrule, r, hr, rfl⟩ := mem_applied h
  rw [List.mem_singleton.mp ht, acceptARPToHost] at hrule
  rcases List.mem_append.mp hrule with hrule | hrule
  · cases enableLogging with
    | false => cases hrule
    | true =>
      rw [if_pos rfl, List.mem_singleton] at hrule
      subst hrule
      rw [place_arp (by simp) hr]
      rfl
  · rw [List.mem_singleton.mp hrule] at hr
    rw [place_arp (by simp) hr]
    rfl

theorem place_acceptArpRequest {source ip logPrefix : Text} {enableLogging : Bool}
    {y : ChainId × Options}
    (h : y ∈ applied hva vnic.toVnicMap [acceptArpRequest source ip enableLogging logPrefix]) :
    y.1 = incomingArp vnic.toVnicMap := by
  obtain ⟨t, ht, rule, hrule, r, hr, rfl⟩ := mem_applied h
  rw [List.mem_singleton.mp ht] at hrule
  rw [List.mem_singleton.mp hrule] at hr
  rw [place_arp (by simp) hr]
  rfl

theorem mem_applied_map {α : Type} {l : List α} {f : α → Task} {y : ChainId × Options}
    (h : y ∈ applied hva vnic.toVnicMap (l.map f)) :
    ∃ a ∈ l, y ∈ applied hva vnic.toVnicMap [f a] := by
  simp only [applied, List.flatMap_map, List.mem_flatMap] at h
  obtain ⟨a, ha, h⟩ := h
  refine ⟨a, ha, ?_⟩
  simpa [applied] using h

/-- A guard against foreign DHCP servers is the only rule of its task that drops. -/
theorem mem_applied_dhcp {y : ChainId × Options}
    (h : y ∈ applied hva vnic.toVnicMap (network.dhcpServer.toList.map acceptWakameDHCPOnly))
    (hdrop : Dropping y.2) :
    y.1 = incomingUdp vnic.toVnicMap ∧ y.2 ∈ network.dhcpServer.toList.map foreignDhcp := by
  obtain ⟨server, hserver, h⟩ := mem_applied_map h
  obtain ⟨t, ht, rule, hrule, r, hr, rfl⟩ := mem_applied h
  rw [List.mem_singleton.mp ht] at hrule
  simp only [acceptWakameDHCPOnly, List.mem_cons, List.not_mem_nil, or_false] at hrule
  rcases hrule with rfl | rfl
  · rw [place_udp hr]
    exact ⟨rfl, List.mem_map_of_mem hserver⟩
  · rw [place_udp hr] at hdrop
    simp at hdrop

theorem place_linkTasks {y : ChainId × Options}
    (h : y ∈ applied hva vnic.toVnicMap (linkTasks hva vnic network)) (haccept : verdict y.2 = some true) :
    (y.1 = toHostArp vnic.toVnicMap ∧ hva.loggingServiceHostIp.isSome) ∨
      y.1 = incomingArp vnic.toVnicMap := by
  simp only [linkTasks, applied_append, List.mem_append] at h
  rcases h with ((h | h) | h) | h
  · exact absurd haccept (no_accept_of_closed closed_dropTasks y h)
  · obtain ⟨hostAddr, hhost, h⟩ := mem_applied_map h
    exact .inl ⟨place_acceptARPToHost h, by simp [Option.mem_toList.mp hhost]⟩
  · obtain ⟨gw, -, h⟩ := mem_applied_map h
    exact .inr (place_acceptArpRequest h)
  · obtain ⟨dns, -, h⟩ := mem_applied_map h
    exact .inr (place_acceptArpRequest h)

/-- The order of the tasks inserted so far is right but for guards. -/
def InOrder (hva : Hva) (vnic : Vnic) (network : NetworkMap) (tasks : List Task) : Prop :=
  Chains.Clear verdict (fun c r => r ∈ guards hva vnic network c)
    (applied hva vnic.toVnicMap tasks)

theorem InOrder.append_quiet {l m : List Task} (hl : InOrder hva vnic network l)
    (hm : ∀ t ∈ m, t.Quiet) : InOrder hva vnic network (l ++ m) := by
  unfold InOrder
  rw [applied_append]
  exact Chains.Clear.append_of_no_drop hl (no_drop_of_quiet hm)

/-- Up to the rules against spoofing the order is right but for these. -/
theorem inOrder_linkTasks :
    InOrder hva vnic network (linkTasks hva vnic network ++ spoofingTasks hva vnic) := by
  have hdrop : InOrder hva vnic network (netfilterDropTasks hva vnic) :=
    Chains.Clear.of_no_accept (no_accept_of_closed closed_dropTasks)
  have hlink : InOrder hva vnic network (linkTasks hva vnic network) := by
    refine ((hdrop.append_quiet ?_).append_quiet ?_).append_quiet ?_
    · simp [quiet_acceptARPToHost]
    · simp [acceptARPFromGateway, quiet_acceptArpRequest]
    · simp [acceptARPFromDNS, quiet_acceptArpRequest]
  unfold InOrder
  rw [applied_append]
  refine Chains.Clear.append hlink ?_
  intro y hy hdrop x hx hchain haccept
  obtain ⟨htext, hne⟩ := mem_applied_spoofing hy
  rcases List.mem_append.mp hx with hx | hx
  · rcases place_linkTasks hx haccept with ⟨hplace, hhost⟩ | hplace
    · have hguard : y.1 = toHostArp vnic.toVnicMap ∧ hva.loggingServiceHostIp.isSome :=
        ⟨hchain ▸ hplace, hhost⟩
      rw [guards, if_pos hguard]
      exact List.mem_append_left _ htext
    · exact absurd (hchain ▸ hplace) hne
  · exact absurd haccept (no_accept_of_closed closed_spoofingTasks x hx)

/-- Of the tasks for DHCP only the guard drops. -/
theorem InOrder.append_dhcp {l : List Task} (hl : InOrder hva vnic network l) :
    InOrder hva vnic network (l ++ network.dhcpServer.toList.map acceptWakameDHCPOnly) := by
  unfold InOrder
  rw [applied_append]
  refine Chains.Clear.append hl ?_
  intro y hy hdrop x hx hchain haccept
  obtain ⟨hplace, hguard⟩ := mem_applied_dhcp hy (dropping_of_verdict hdrop)
  rw [guards, if_pos hplace]
  exact List.mem_append_right _ hguard

theorem quiet_isolationTasks (friends : List VnicMap) :
    ∀ t ∈ netfilterIsolationTasks hva vnic friends, t.Quiet := by
  intro t ht
  simp only [netfilterIsolationTasks, List.mem_append, List.mem_cons, List.not_mem_nil,
    or_false] at ht
  rcases ht with (rfl | rfl) | ht
  · exact quiet_acceptARPFromFriends _ _ _ _
  · exact quiet_acceptIpFromFriends _
  · split at ht
    · rw [List.mem_singleton.mp ht]
      exact quiet_excludeFromNat _ _
    · cases ht

theorem quiet_natTasks : ∀ t ∈ netfilterNatTasks hva vnic network, t.Quiet := by
  intro t ht
  simp only [netfilterNatTasks, List.mem_append, List.mem_flatMap, List.mem_map] at ht
  rcases ht with ⟨lease, -, ht⟩ | ⟨server, -, rfl⟩
  · rcases ht with ht | ht
    · split at ht
      · rw [List.mem_singleton.mp ht]
        exact quiet_staticNatLog _ _ _ _
      · cases ht
    · rw [List.mem_singleton.mp ht]
      exact quiet_staticNat _ _ _
  · exact quiet_translateMetadataAddress _ _ _

theorem quiet_loggingServiceTasks : ∀ t ∈ netfilterLoggingServiceTasks hva vnic, t.Quiet := by
  intro t ht
  unfold netfilterLoggingServiceTasks at ht
  split at ht
  · rw [List.mem_singleton.mp ht]
    exact quiet_translateLoggingAddress _ _ _ _
  · cases ht

theorem quiet_groupTasks (ipv4New : Text → Option IPAddr) (groups : List GroupMap) :
    ∀ t ∈ groups.flatMap (groupTasks hva vnic ipv4New), t.Quiet := by
  intro t ht
  obtain ⟨group, -, ht⟩ := List.mem_flatMap.mp ht
  rcases List.mem_append.mp ht with ht | ht
  · rw [List.mem_singleton.mp ht]
    exact quiet_securityGroup _ _ _
  · rw [List.mem_singleton.mp ht]
    exact quiet_acceptARPFromFriends _ _ _ _

/-- Of all the tasks of a vnic only guards drop what an earlier rule of their chain accepts. -/
theorem inOrder_allTasks (ipv4New : Text → Option IPAddr) (friends : List VnicMap)
    (groups : List GroupMap) :
    InOrder hva vnic network (netfilterAllTasks hva vnic ipv4New network friends groups) := by
  have hlink : InOrder hva vnic network (linkTasks hva vnic network ++ spoofingTasks hva vnic) :=
    inOrder_linkTasks
  refine (((((((((((hlink.append_quiet ?_).append_quiet ?_).append_quiet ?_).append_quiet
    ?_).append_dhcp).append_quiet ?_).append_quiet ?_).append_quiet ?_).append_quiet ?_).append_quiet
    ?_))
  · simp [quiet_acceptGARPFromGateway]
  · simp [quiet_acceptArpBroadcast]
  · simp [acceptIcmpRelatedEstablished, acceptTcpRelatedEstablished, acceptUdpEstablished,
      quiet_acceptState]
  · simp [quiet_acceptWakameDNSOnly]
  · exact quiet_isolationTasks friends
  · exact quiet_natTasks
  · exact quiet_loggingServiceTasks
  · exact quiet_groupTasks ipv4New groups
  · simp [quiet_acceptARPReply]

end

/-! ## Tasks that come later -/

def acceptTasks (tasks : List Task) (quiet : ∀ t ∈ tasks, t.Quiet) : List AcceptTask :=
  tasks.attach.map fun t => ⟨t.val, fun r hr => quiet t.val t.property r hr⟩

def isolationAcceptTasks (hva : Hva) (vnic : Vnic) (friends : List VnicMap) : List AcceptTask :=
  acceptTasks (netfilterIsolationTasks hva vnic friends) (quiet_isolationTasks friends)

def groupAcceptTasks (ipv4New : Text → Option IPAddr) (hva : Hva) (vnic : Vnic)
    (groups : List GroupMap) : List AcceptTask :=
  acceptTasks (groups.flatMap (groupTasks hva vnic ipv4New)) (quiet_groupTasks ipv4New groups)

/-! ## The chains of a vnic -/

/-- What a chain of rules does with the packets of any kind. -/
structure Filters (guards chain : List Options) : Prop where
  /-- Of the rules that drop only guards stand before a rule that accepts. -/
  order : Chains.Ordered verdict (fun rule => rule ∈ guards) chain
  /-- A packet is accepted if a rule accepts it and no guard before that rule drops it. -/
  accepted {π : Type} (matched : Options → π → Bool) (packet : π) :
    Chains.walk verdict (fun rule => matched rule packet) chain = some true ↔
      ∃ front rule rest, chain = front ++ rule :: rest ∧ Accepting rule ∧ matched rule packet ∧
        ∀ x ∈ front, x ∈ guards → ¬ matched x packet
  unguarded {π : Type} (matched : Options → π → Bool) (packet : π) : guards = [] →
    (Chains.walk verdict (fun rule => matched rule packet) chain = some true ↔
      ∃ rule ∈ chain, Accepting rule ∧ matched rule packet)

theorem Filters.of_ordered {guards chain : List Options}
    (h : Chains.Ordered verdict (fun rule => rule ∈ guards) chain)
    (hguards : ∀ rule ∈ guards, verdict rule = some false) : Filters guards chain := by
  refine ⟨h, fun matched packet => ?_, fun matched packet hnil => ?_⟩
  · rw [Chains.walk_accepts_iff h]
    constructor
    · rintro ⟨front, rule, rest, heq, haccept, hmatched, hfront⟩
      exact ⟨front, rule, rest, heq, verdict_accept_iff.mp haccept, hmatched,
        fun x hx hg => hfront x hx hg (hguards x hg)⟩
    · rintro ⟨front, rule, rest, heq, haccept, hmatched, hfront⟩
      exact ⟨front, rule, rest, heq, verdict_accept_iff.mpr haccept, hmatched,
        fun x hx hg _ => hfront x hx hg⟩
  · have hnone : Chains.Ordered verdict (fun _ => False) chain := by
      subst hnil
      simpa using h
    rw [Chains.walk_accepts_iff_exists hnone]
    simp only [verdict_accept_iff]

theorem verdict_of_closed {rule : Options} (haccept : ¬ Accepting rule) (hdrop : Dropping rule) :
    verdict rule = some false := by
  rw [verdict, if_neg haccept, if_pos hdrop]

theorem verdict_guards {hva : Hva} {vnic : Vnic} {network : NetworkMap} {c : ChainId} :
    ∀ rule ∈ guards hva vnic network c, verdict rule = some false := by
  intro rule hrule
  rcases List.mem_append.mp hrule with hrule | hrule
  · split at hrule
    · obtain ⟨t, ht, hrule⟩ := List.mem_flatMap.mp hrule
      obtain ⟨r, hr, rfl⟩ := List.mem_map.mp hrule
      refine verdict_of_closed (closed_spoofingTasks t ht r hr) ?_
      simp only [spoofingTasks, List.mem_cons, List.not_mem_nil, or_false] at ht
      rcases ht with rfl | rfl
      · exact dropping_dropSpoofing hr
      · exact dropping_dropSpoofing hr
    · cases hrule
  · split at hrule
    · obtain ⟨server, -, rfl⟩ := List.mem_map.mp hrule
      exact verdict_of_closed (by simp [foreignDhcp]) (by simp [foreignDhcp])
    · cases hrule

section
variable (ipv4New : Text → Option IPAddr) (hva : Hva) (vnic : Vnic) (network : NetworkMap)
  (friends : List VnicMap) (groups : List GroupMap) (later : List AcceptTask)

def setUp (k : Kernel) : Kernel :=
  applyVnicTasks hva vnic.toVnicMap (later.map AcceptTask.toTask)
    (applyVnicTasks hva vnic.toVnicMap
      (netfilterAllTasks hva vnic ipv4New network friends groups) k)

theorem setUp_eq (k : Kernel) :
    setUp ipv4New hva vnic network friends groups later k =
      Chains.execAll k (Chains.inserts (applied hva vnic.toVnicMap
        (netfilterAllTasks hva vnic ipv4New network friends groups ++
          later.map AcceptTask.toTask))) := by
  rw [setUp, applyVnicTasks, applyVnicTasks, handle_apply, handle_apply, ← Chains.execAll_append,
    applied_append, Chains.inserts, Chains.inserts, Chains.inserts, List.map_append]

/-- In every chain that was empty only guards drop before rules that accept, and what has been
applied is removed again without a trace. -/
theorem vnic_chains (k : Kernel) :
    (∀ c, k c = [] →
      Filters (guards hva vnic network c)
        (setUp ipv4New hva vnic network friends groups later k c)) ∧
    ∀ tasks,
      removeVnicTasks hva vnic.toVnicMap tasks (applyVnicTasks hva vnic.toVnicMap tasks k) = k ∧
      removeVnicTasks hva vnic.toVnicMap (handled hva vnic.toVnicMap tasks)
        (applyVnicTasks hva vnic.toVnicMap tasks k) = k := by
  refine ⟨fun c hc => ?_, fun tasks => ⟨remove_apply tasks k, remove_apply_handled tasks k⟩⟩
  have hall : InOrder hva vnic network
      (netfilterAllTasks hva vnic ipv4New network friends groups ++
        later.map AcceptTask.toTask) := by
    refine (inOrder_allTasks ipv4New friends groups).append_quiet ?_
    intro t ht
    obtain ⟨a, -, rfl⟩ := List.mem_map.mp ht
    exact a.accepts
  rw [setUp_eq]
  exact Filters.of_ordered (Chains.Clear.ordered hall hc) verdict_guards

end

/-! ## The default configuration -/

def defaultHva : Hva where
  enableIptables := true
  enableEbtables := true
  packetDropLog := false
  useIpset := false
  useLoggingService := false
  loggingServiceHostIp := some "127.0.0.2".toList
  loggingServiceIp := some "169.254.169.253".toList
  loggingServicePort := some 8888

def sampleVnic : Vnic where
  uuid := "vif-1".toList
  address := some 10
  natIpLease := none
  instanceUuid := none
  networkId := none
  securityGroups := []
  macAddr := "525400000001".toList

def bareNetwork : NetworkMap := ⟨none, none, none, none, none⟩

def sampleChain : List Options :=
  setUp (fun _ => none) defaultHva sampleVnic bareNetwork [] [] [] (fun _ => [])
    (toHostArp sampleVnic.toVnicMap)

def sampleNetwork : NetworkMap :=
  ⟨some "0.0.0.1".toList, some "0.0.0.2".toList, some "0.0.0.3".toList, none, none⟩

def friendOf (name : String) (address : Ipv4) : VnicMap :=
  ⟨name.toList, some address, none, none, none, ["sg-1".toList]⟩

/-- A group with the rule `tcp:22,22,0.0.0.20`. -/
def sshGroup (name : String) : GroupMap :=
  ⟨name.toList,
    [⟨"tcp".toList, some 22, some 22, none, none, some "ip4".toList, "0.0.0.20/32".toList⟩],
    ∅, ∅, ∅, ∅⟩

def sampleLater : List AcceptTask :=
  isolationAcceptTasks defaultHva sampleVnic [friendOf "vif-3" 12] ++
    groupAcceptTasks (fun _ => none) defaultHva sampleVnic [sshGroup "sg-2"]

theorem vnic_chains_sample :
    let chains := setUp (fun _ => none) defaultHva sampleVnic sampleNetwork [friendOf "vif-2" 11]
      [sshGroup "sg-1"] sampleLater fun _ => []
    Filters (guards defaultHva sampleVnic sampleNetwork (incomingUdp sampleVnic.toVnicMap))
        (chains (incomingUdp sampleVnic.toVnicMap)) ∧
      Filters (guards defaultHva sampleVnic sampleNetwork (toHostArp sampleVnic.toVnicMap))
        (chains (toHostArp sampleVnic.toVnicMap)) :=
  have holds := (vnic_chains (fun _ => none) defaultHva sampleVnic sampleNetwork
    [friendOf "vif-2" 11] [sshGroup "sg-1"] sampleLater fun _ => []).1
  ⟨holds (incomingUdp sampleVnic.toVnicMap) rfl, holds (toHostArp sampleVnic.toVnicMap) rfl⟩

/-- What the options about the sender say of an arp packet with this address and MAC address. -/
def arpMatches (rule : Options) (sender : Text × Text) : Bool :=
  rule.all fun o =>
    match o.1 with
    | "--arp-ip-src" => sender.1 == o.2
    | "--arp-ip-src !" => sender.1 != o.2
    | "--arp-mac-src !" => sender.2 != o.2
    | _ => true

/-- A packet with the vnic's address and another MAC address is not accepted, whatever rule
accepts it. -/
theorem spoofing_shadows :
    ¬ Chains.Ordered verdict (fun _ => False) sampleChain ∧
      ¬ (Chains.walk verdict (fun rule => arpMatches rule
            ("0.0.0.10".toList, "52:54:00:00:00:02".toList)) sampleChain = some true ↔
          ∃ rule ∈ sampleChain, Accepting rule ∧
            arpMatches rule ("0.0.0.10".toList, "52:54:00:00:00:02".toList) = true) := by
  unfold Chains.Ordered
  decide +kernel

end TaskManager

end WakameVdc
