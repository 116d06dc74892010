import WakameVdc.Lib.Generated
import WakameVdc.SecurityGroupSource

/-!
# A vnic joins or leaves a referenced group

`ServiceNetfilter#handle_ref_group_vnic` does not generate the rules of a group
again when a vnic joins a group it refers to. It makes a dummy group with the
rules about that vnic only, and applies the tasks of the dummy group to the
local vnics or removes them. Each generated rule is one command: `-I` adds an
occurrence of the rule to its chain and `-D` deletes one.
-/

namespace WakameVdc

open Lib

namespace SecurityGroup

inductive FirewallRule
  | arp (rule : EbtablesRule)
  | ip (rule : IptablesRule)
  deriving DecidableEq, Repr

variable (ipv4New : Text → Option IPAddr)

/-- The rules of `Tasks::SecurityGroup`. -/
def tasks (vnic : VnicMap) (group : GroupMap) : List FirewallRule :=
  (taskArpRules ipv4New vnic group).map .arp ++ (taskIpRules group).map .ip

/-- What is left of the group document for one vnic of a referenced group. -/
def dummyGroup (group : GroupMap) (groupId vnicId : Text) : GroupMap :=
  { group with
    rules := group.rules.filter fun rule => rule.ipSource == groupId
    referencees := Hash.modify groupId (Hash.filterVals fun key _ => key == vnicId) group.referencees }

/-- The security group tasks `handle_ref_group_vnic` builds for a local vnic of
the group; those of the vnic itself are applied when it is created. -/
def refGroupVnicTasks (vnic : VnicMap) (group : GroupMap) (groupId vnicId : Text) :
    List FirewallRule :=
  match group.referencees.lookup groupId with
  | none => []
  | some _ =>
    if vnic.uuid = vnicId then [] else tasks ipv4New vnic (dummyGroup group groupId vnicId)

/-- The group document as it is when the vnic is not in the referenced group. -/
def withoutVnic (group : GroupMap) (groupId vnicId : Text) : GroupMap :=
  { group with referencees := Hash.modify groupId (AList.erase vnicId) group.referencees }

def applyTasks (rules ts : List FirewallRule) : List FirewallRule := ts.reverse ++ rules

def removeTasks (rules ts : List FirewallRule) : List FirewallRule := rules.diff ts

/-- Applying the tasks of the dummy group does what generating all rules does,
and removing them leaves the rules without the vnic, in whichever of the two
ways the rules came about. -/
structure Agrees (vnic : VnicMap) (group : GroupMap) (groupId vnicId : Text) : Prop where
  applied : ∀ r,
    r ∈ applyTasks (tasks ipv4New vnic (withoutVnic group groupId vnicId))
        (refGroupVnicTasks ipv4New vnic group groupId vnicId) ↔
      r ∈ tasks ipv4New vnic group
  removedApplied :
    (removeTasks (applyTasks (tasks ipv4New vnic (withoutVnic group groupId vnicId))
        (refGroupVnicTasks ipv4New vnic group groupId vnicId))
      (refGroupVnicTasks ipv4New vnic group groupId vnicId)).Perm
      (tasks ipv4New vnic (withoutVnic group groupId vnicId))
  removedFull :
    (removeTasks (tasks ipv4New vnic group)
      (refGroupVnicTasks ipv4New vnic group groupId vnicId)).Perm
      (tasks ipv4New vnic (withoutVnic group groupId vnicId))

/-! ## When they agree -/

/-- The rule about a vnic of the group that `rule` refers to. -/
def aboutVnic (m : VnicMap) (rule : ParsedRule) : ParsedRule :=
  { rule with protocol := some "ip4".toList, ipSource := m.addressText ++ "/32".toList }

/-- The group has the rule, written out or about a vnic of a referenced group. -/
def Has (group : GroupMap) (p : ParsedRule) : Prop :=
  ∃ rule ∈ group.rules, (refGroupId rule.ipSource = none ∧ p = rule) ∨
    ∃ g vnics m, refGroupId rule.ipSource = some g ∧ group.referencees.lookup g = some vnics ∧
      m ∈ Hash.values vnics ∧ p = aboutVnic m rule

/-- Each rule about the vnic `m` is new to the group, and is made for a rule
whose source is just the name of the referenced group. -/
structure AllNew (vnic : VnicMap) (group : GroupMap) (groupId vnicId : Text) (m : VnicMap) : Prop where
  new : vnic.uuid ≠ vnicId → ∀ rule ∈ group.rules, rule.ipSource = groupId →
    ¬ Has (withoutVnic group groupId vnicId) (aboutVnic m rule)
  named : ∀ rule ∈ group.rules, refGroupId rule.ipSource = some groupId →
    Has (withoutVnic group groupId vnicId) (aboutVnic m rule) ∨
      vnic.uuid ≠ vnicId ∧ ∃ rule' ∈ group.rules, rule'.ipSource = groupId ∧
        aboutVnic m rule' = aboutVnic m rule

/-! ## Parsed rules -/

theorem mem_expandRule_iff {group : GroupMap} {rule p : ParsedRule} :
    p ∈ expandRule group rule ↔ (refGroupId rule.ipSource = none ∧ p = rule) ∨
      ∃ g vnics m, refGroupId rule.ipSource = some g ∧ group.referencees.lookup g = some vnics ∧
        m ∈ Hash.values vnics ∧ p = aboutVnic m rule := by
  unfold expandRule
  cases hg : refGroupId rule.ipSource with
  | none => simp
  | some g =>
    cases hl : group.referencees.lookup g with
    | none => simp [hl]
    | some vnics =>
      simp only [hl, List.mem_map, Hash.values, reduceCtorEq, false_and, Option.some.injEq, false_or]
      constructor
      · rintro ⟨e, he, rfl⟩
        exact ⟨g, vnics, e.2, rfl, hl, ⟨e, he, rfl⟩, rfl⟩
      · rintro ⟨g', vnics', m, rfl, hl', ⟨e, he, rfl⟩, rfl⟩
        rw [hl] at hl'
        cases hl'
        exact ⟨e, he, rfl⟩

theorem mem_parsedRules {group : GroupMap} {p : ParsedRule} : p ∈ parsedRules group ↔ Has group p := by
  simp only [parsedRules, List.mem_eraseDups, List.mem_flatMap, mem_expandRule_iff, Has]

variable {ipv4New} {vnic m : VnicMap} {group : GroupMap} {groupId vnicId : Text}
  {vnics : Hash Text VnicMap}

def made (group : GroupMap) (groupId : Text) (m : VnicMap) : List ParsedRule :=
  ((group.rules.filter fun rule => refGroupId rule.ipSource == some groupId).map
    (aboutVnic m)).eraseDups

theorem mem_made {p : ParsedRule} :
    p ∈ made group groupId m ↔
      ∃ rule ∈ group.rules, refGroupId rule.ipSource = some groupId ∧ p = aboutVnic m rule := by
  simp only [made, List.mem_eraseDups, List.mem_map, List.mem_filter, beq_iff_eq, and_assoc]
  simp only [eq_comm]

theorem mem_values_erase {v : VnicMap} :
    v ∈ Hash.values (AList.erase vnicId vnics) ↔ ∃ k, k ≠ vnicId ∧ vnics.lookup k = some v := by
  rw [Hash.mem_values]
  constructor
  · rintro ⟨k, hk⟩
    rw [Hash.lookup_erase] at hk
    split at hk
    · cases hk
    · rename_i hne
      exact ⟨k, hne, hk⟩
  · rintro ⟨k, hne, hk⟩
    exact ⟨k, by rw [Hash.lookup_erase, if_neg hne]; exact hk⟩

/-- With the vnic the group has the rules it has without, and those about it. -/
theorem has_iff (hl : group.referencees.lookup groupId = some vnics)
    (hm : vnics.lookup vnicId = some m) (p : ParsedRule) :
    Has group p ↔ Has (withoutVnic group groupId vnicId) p ∨ p ∈ made group groupId m := by
  have hlookup (g : Text) : (withoutVnic group groupId vnicId).referencees.lookup g =
      if g = groupId then (group.referencees.lookup g).map (AList.erase vnicId)
      else group.referencees.lookup g := Hash.lookup_modify groupId _ _ g
  rw [mem_made]
  constructor
  · rintro ⟨rule, hrule, ⟨hn, rfl⟩ | ⟨g, ws, w, hg, hgl, hw, rfl⟩⟩
    · exact .inl ⟨p, hrule, .inl ⟨hn, rfl⟩⟩
    · by_cases hgg : g = groupId
      · subst hgg
        rw [hl] at hgl
        cases hgl
        obtain ⟨k, hk⟩ := Hash.mem_values.mp hw
        by_cases hkv : k = vnicId
        · subst hkv
          rw [hm] at hk
          cases hk
          exact .inr ⟨rule, hrule, hg, rfl⟩
        · refine .inl ⟨rule, hrule, .inr ⟨g, AList.erase vnicId vnics, w, hg, ?_,
            mem_values_erase.mpr ⟨k, hkv, hk⟩, rfl⟩⟩
          rw [hlookup, if_pos rfl, hl]
          rfl
      · refine .inl ⟨rule, hrule, .inr ⟨g, ws, w, hg, ?_, hw, rfl⟩⟩
        rw [hlookup, if_neg hgg]
        exact hgl
  · rintro (⟨rule, hrule, ⟨hn, rfl⟩ | ⟨g, ws, w, hg, hgl, hw, rfl⟩⟩ | ⟨rule, hrule, hg, rfl⟩)
    · exact ⟨p, hrule, .inl ⟨hn, rfl⟩⟩
    · rw [hlookup] at hgl
      by_cases hgg : g = groupId
      · subst hgg
        rw [if_pos rfl, hl] at hgl
        cases hgl
        obtain ⟨k, -, hk⟩ := mem_values_erase.mp hw
        exact ⟨rule, hrule, .inr ⟨g, vnics, w, hg, hl, Hash.mem_values.mpr ⟨k, hk⟩, rfl⟩⟩
      · rw [if_neg hgg] at hgl
        exact ⟨rule, hrule, .inr ⟨g, ws, w, hg, hgl, hw, rfl⟩⟩
    · exact ⟨rule, hrule, .inr ⟨groupId, vnics, m, hg, hl, Hash.mem_values.mpr ⟨vnicId, hm⟩, rfl⟩⟩

/-- The dummy group has the rules about the vnic whose source is the group's name. -/
theorem has_dummyGroup (hg : refGroupId groupId = some groupId)
    (hl : group.referencees.lookup groupId = some vnics) (hm : vnics.lookup vnicId = some m)
    (p : ParsedRule) :
    Has (dummyGroup group groupId vnicId) p ↔
      ∃ rule ∈ group.rules, rule.ipSource = groupId ∧ p = aboutVnic m rule := by
  have hlookup : (dummyGroup group groupId vnicId).referencees.lookup groupId =
      some (Hash.filterVals (fun key _ => key == vnicId) vnics) := by
    simp only [dummyGroup, Hash.lookup_modify, hl, if_true, Option.map_some]
  have hvalues (w : VnicMap) :
      w ∈ Hash.values (Hash.filterVals (fun key _ => key == vnicId) vnics) ↔ w = m := by
    rw [Hash.mem_values]
    constructor
    · rintro ⟨k, hk⟩
      rw [Hash.lookup_filterVals, Option.filter_eq_some_iff] at hk
      obtain ⟨hk, hkv⟩ := hk
      rw [beq_iff_eq.mp hkv, hm] at hk
      exact (Option.some.inj hk).symm
    · rintro rfl
      exact ⟨vnicId, by rw [Hash.lookup_filterVals, hm]; simp⟩
  constructor
  · rintro ⟨rule, hrule, h⟩
    obtain ⟨hrule, hsrc⟩ := List.mem_filter.mp hrule
    have hsrc : rule.ipSource = groupId := by simpa using hsrc
    rw [hsrc, hg] at h
    rcases h with ⟨hn, -⟩ | ⟨g, ws, w, hgg, hgl, hw, rfl⟩
    · cases hn
    · cases hgg
      rw [hlookup] at hgl
      cases hgl
      exact ⟨rule, hrule, hsrc, by rw [(hvalues w).mp hw]⟩
  · rintro ⟨rule, hrule, hsrc, rfl⟩
    refine ⟨rule, List.mem_filter.mpr ⟨hrule, by simpa using hsrc⟩, .inr ⟨groupId, _, m, ?_, hlookup,
      (hvalues m).mpr rfl, rfl⟩⟩
    rw [hsrc, hg]

/-! ## Generated rules -/

def ruleTasks (ipv4New : Text → Option IPAddr) (vnic : VnicMap) (p : ParsedRule) :
    List FirewallRule :=
  (arpRules ipv4New vnic p).map .arp ++ (ipRules p).map .ip

theorem tasks_perm (group : GroupMap) :
    (tasks ipv4New vnic group).Perm ((parsedRules group).flatMap (ruleTasks ipv4New vnic)) := by
  simp only [tasks, taskArpRules, taskIpRules, List.map_flatMap]
  exact List.flatMap_append_perm _ _ _

/-- The argument of `--dport`. -/
def dport (f t : Int) : Text := if f = t then Text.ofInt f else Text.ofInt f ++ ':' :: Text.ofInt t

theorem dport_injective {f t f' t' : Int} (h : dport f t = dport f' t') : f = f' ∧ t = t' := by
  have hcolon (n : Int) : ':' ∉ Text.ofInt n := Text.not_mem_ofInt rfl (by decide) n
  unfold dport at h
  split at h <;> split at h
  · rename_i hft hft'
    have := Text.ofInt_injective h
    exact ⟨this, hft.symm.trans (this.trans hft')⟩
  · exact absurd (by rw [h]; simp) (hcolon f)
  · exact absurd (by rw [← h]; simp) (hcolon f')
  · have hs := congrArg (List.splitOn ':') h
    rw [Text.splitOn_append (hcolon f), Text.splitOn_append (hcolon f'),
      Text.splitOn_of_not_mem (hcolon t), Text.splitOn_of_not_mem (hcolon t')] at hs
    simp only [List.cons.injEq, and_true] at hs
    exact ⟨Text.ofInt_injective hs.1, Text.ofInt_injective hs.2⟩

def icmpOption (type code : Int) : Options :=
  if type = -1 ∧ code = -1 then []
  else [("--icmp-type", Text.ofInt type ++ '/' :: Text.ofInt code)]

theorem icmpOption_injective {a b a' b' : Int} (h : icmpOption a b = icmpOption a' b') :
    a = a' ∧ b = b' := by
  have hslash (n : Int) : '/' ∉ Text.ofInt n := Text.not_mem_ofInt rfl (by decide) n
  unfold icmpOption at h
  split at h <;> split at h
  · rename_i hab hab'
    exact ⟨hab.1.trans hab'.1.symm, hab.2.trans hab'.2.symm⟩
  · cases h
  · cases h
  · simp only [List.cons.injEq, Prod.mk.injEq, true_and, and_true] at h
    have hs := congrArg (List.splitOn '/') h
    rw [Text.splitOn_append (hslash a), Text.splitOn_append (hslash a'),
      Text.splitOn_of_not_mem (hslash b), Text.splitOn_of_not_mem (hslash b')] at hs
    simp only [List.cons.injEq, and_true] at hs
    exact ⟨Text.ofInt_injective hs.1, Text.ofInt_injective hs.2⟩

def ipRule (p : ParsedRule) : IptablesRule := (ipRules p).head?.getD ⟨none, []⟩

theorem ipRules_ports {ipProtocol ipSource : Text} {f t : Int} {protocol : Option Text}
    (h : ipProtocol = "tcp".toList ∨ ipProtocol = "udp".toList) :
    ipRules ⟨ipProtocol, some f, some t, none, none, protocol, ipSource⟩ =
      [⟨some ipProtocol, [("-p", ipProtocol), ("-s", ipSource), ("--dport", dport f t),
        ("-j", "ACCEPT".toList)]⟩] := by
  unfold ipRules
  rw [if_pos h]
  by_cases hft : f = t
  · simp [hft, dport, interpolate]
  · simp [hft, dport, interpolate]

theorem ipRules_icmp {ipSource : Text} {a b : Int} {protocol : Option Text} :
    ipRules ⟨"icmp".toList, none, none, some a, some b, protocol, ipSource⟩ =
      [⟨some "icmp".toList, ("-p", "icmp".toList) :: ("-s", ipSource) :: (icmpOption a b ++
        [("-j", "ACCEPT".toList)])⟩] := by
  have hno : ¬("icmp".toList = "tcp".toList ∨ "icmp".toList = "udp".toList) := by decide
  unfold ipRules
  rw [if_neg hno, if_pos rfl]
  by_cases hab : a = -1 ∧ b = -1
  · simp [hab, icmpOption]
  · simp [hab, icmpOption, interpolate]

theorem ipRules_eq_singleton {p : ParsedRule} (h : Shape p) : ipRules p = [ipRule p] := by
  cases h with
  | ports hport =>
    unfold ipRule
    rw [ipRules_ports hport]
    rfl
  | icmp =>
    unfold ipRule
    rw [ipRules_icmp]
    rfl

/-- Rules about one vnic that differ generate different iptables rules. -/
theorem ipRule_injective {p q : ParsedRule} (hp : Shape p) (hq : Shape q)
    (hprotocol : p.protocol = q.protocol) (h : ipRule p = ipRule q) : p = q := by
  have hl : ipRules p = ipRules q := by rw [ipRules_eq_singleton hp, ipRules_eq_singleton hq, h]
  cases hp with
  | ports hport =>
    cases hq with
    | ports hport' =>
      rw [ipRules_ports hport, ipRules_ports hport'] at hl
      simp only [List.cons.injEq, IptablesRule.mk.injEq, Option.some.injEq, Prod.mk.injEq, true_and,
        and_true] at hl
      obtain ⟨rfl, -, rfl, hd⟩ := hl
      obtain ⟨rfl, rfl⟩ := dport_injective hd
      cases hprotocol
      rfl
    | icmp =>
      rw [ipRules_ports hport, ipRules_icmp] at hl
      simp only [List.cons.injEq, IptablesRule.mk.injEq, Option.some.injEq, and_true] at hl
      rcases hport with rfl | rfl
      · exact absurd hl.1 (by decide)
      · exact absurd hl.1 (by decide)
  | icmp =>
    cases hq with
    | ports hport =>
      rw [ipRules_ports hport, ipRules_icmp] at hl
      simp only [List.cons.injEq, IptablesRule.mk.injEq, Option.some.injEq, and_true] at hl
      rcases hport with rfl | rfl
      · exact absurd hl.1 (by decide)
      · exact absurd hl.1 (by decide)
    | icmp =>
      rw [ipRules_icmp, ipRules_icmp] at hl
      simp only [List.cons.injEq, IptablesRule.mk.injEq, Prod.mk.injEq, true_and, and_true,
        List.append_cancel_right_eq] at hl
      obtain ⟨rfl, ho⟩ := hl
      obtain ⟨rfl, rfl⟩ := icmpOption_injective ho
      cases hprotocol
      rfl

theorem shape_aboutVnic {p : ParsedRule} (h : Shape p) : Shape (aboutVnic m p) := by
  cases h with
  | ports hport => exact .ports hport
  | icmp => exact .icmp

/-- Among the rules about one vnic an iptables rule is generated by one only. -/
theorem count_ruleTasks {e a : ParsedRule} (he : Shape e) (ha : Shape a)
    (hprotocol : a.protocol = e.protocol) :
    (ruleTasks ipv4New vnic a).count (.ip (ipRule e)) = if a = e then 1 else 0 := by
  have harp : ((arpRules ipv4New vnic a).map FirewallRule.arp).count (.ip (ipRule e)) = 0 := by
    rw [List.count_eq_zero]
    simp
  rw [ruleTasks, List.count_append, harp, Nat.zero_add, ipRules_eq_singleton ha, List.map_singleton,
    List.count_singleton]
  by_cases hae : a = e
  · simp [hae]
  · have hne : ipRule a ≠ ipRule e := fun h => hae (ipRule_injective ha he hprotocol h)
    simp [hae, hne]

/-! ## Both ways -/

/-- The rules `handle_ref_group_vnic` adds. -/
def added (vnic : VnicMap) (group : GroupMap) (groupId vnicId : Text) : List ParsedRule :=
  if vnic.uuid = vnicId then [] else parsedRules (dummyGroup group groupId vnicId)

theorem refGroupVnicTasks_perm (hl : group.referencees.lookup groupId = some vnics) :
    (refGroupVnicTasks ipv4New vnic group groupId vnicId).Perm
      ((added vnic group groupId vnicId).flatMap (ruleTasks ipv4New vnic)) := by
  simp only [refGroupVnicTasks, hl, added]
  split
  · rfl
  · exact tasks_perm _

theorem mem_added (hg : refGroupId groupId = some groupId)
    (hl : group.referencees.lookup groupId = some vnics) (hm : vnics.lookup vnicId = some m)
    (p : ParsedRule) :
    p ∈ added vnic group groupId vnicId ↔
      vnic.uuid ≠ vnicId ∧ ∃ rule ∈ group.rules, rule.ipSource = groupId ∧ p = aboutVnic m rule := by
  unfold added
  by_cases hv : vnic.uuid = vnicId
  · simp [hv]
  · rw [if_neg hv, mem_parsedRules, has_dummyGroup hg hl hm]
    simp [hv]

theorem grows_parsedRules (hl : group.referencees.lookup groupId = some vnics)
    (hm : vnics.lookup vnicId = some m) :
    Grows (parsedRules group) (parsedRules (withoutVnic group groupId vnicId))
      (made group groupId m) where
  fullNodup := nodup_eraseDups _
  oldNodup := nodup_eraseDups _
  madeNodup := nodup_eraseDups _
  mem := fun p => by rw [mem_parsedRules, mem_parsedRules, has_iff hl hm]

theorem addsNew_iff (hg : refGroupId groupId = some groupId)
    (hl : group.referencees.lookup groupId = some vnics) (hm : vnics.lookup vnicId = some m) :
    AddsNew (parsedRules (withoutVnic group groupId vnicId)) (made group groupId m)
        (added vnic group groupId vnicId) ↔
      AllNew vnic group groupId vnicId m := by
  simp only [AddsNew, mem_parsedRules, mem_made, mem_added hg hl hm]
  constructor
  · rintro ⟨hnamed, hnew⟩
    refine ⟨fun hv rule hrule hsrc => hnew _ ⟨hv, rule, hrule, hsrc, rfl⟩, fun rule hrule href => ?_⟩
    by_cases hold : Has (withoutVnic group groupId vnicId) (aboutVnic m rule)
    · exact .inl hold
    · obtain ⟨hv, rule', hrule', hsrc, he⟩ := hnamed _ ⟨rule, hrule, href, rfl⟩ hold
      exact .inr ⟨hv, rule', hrule', hsrc, he.symm⟩
  · rintro ⟨hnew, hnamed⟩
    constructor
    · rintro p ⟨rule, hrule, href, rfl⟩ hold
      rcases hnamed rule hrule href with h | ⟨hv, rule', hrule', hsrc, he⟩
      · exact absurd h hold
      · exact ⟨hv, rule', hrule', hsrc, he.symm⟩
    · rintro p ⟨hv, rule, hrule, hsrc, rfl⟩
      exact hnew hv rule hrule hsrc

theorem count_applyTasks (rules ts : List FirewallRule) (r : FirewallRule) :
    (applyTasks rules ts).count r = rules.count r + ts.count r := by
  rw [applyTasks, List.count_append, List.count_reverse, Nat.add_comm]

/-- Incremental and full generation agree just when every rule about the vnic
that is added is a new one. -/
theorem agrees_iff {ipAddress : Text → Option IPAddr} (hg : refGroupId groupId = some groupId)
    (hrules : ∀ rule ∈ group.rules, ∃ line, parseRule ipAddress line = .ok (some rule))
    (hl : group.referencees.lookup groupId = some vnics) (hm : vnics.lookup vnicId = some m) :
    Agrees ipv4New vnic group groupId vnicId ↔ AllNew vnic group groupId vnicId m := by
  have hgrows := grows_parsedRules hl hm
  have hnodup : (added vnic group groupId vnicId).Nodup := by
    unfold added
    split
    · exact List.nodup_nil
    · exact nodup_eraseDups _
  have hsub : added vnic group groupId vnicId ⊆ made group groupId m := by
    intro p hp
    obtain ⟨-, rule, hrule, hsrc, he⟩ := (mem_added hg hl hm p).mp hp
    exact mem_made.mpr ⟨rule, hrule, by rw [hsrc, hg], he⟩
  have hmarks : ∀ e ∈ made group groupId m, ∀ a ∈ made group groupId m,
      (ruleTasks ipv4New vnic a).count (.ip (ipRule e)) = if a = e then 1 else 0 := by
    intro e he a ha
    obtain ⟨r, hr, -, rfl⟩ := mem_made.mp he
    obtain ⟨r', hr', -, rfl⟩ := mem_made.mp ha
    obtain ⟨line, hline⟩ := hrules r hr
    obtain ⟨line', hline'⟩ := hrules r' hr'
    exact count_ruleTasks (shape_aboutVnic (parseRule_shape hline))
      (shape_aboutVnic (parseRule_shape hline')) rfl
  have hiff := removed_iff (f := ruleTasks ipv4New vnic) (x := fun e => .ip (ipRule e)) hgrows hnodup
    hsub hmarks
  have hcounts (r : FirewallRule) :
      (tasks ipv4New vnic group).count r =
          ((parsedRules group).flatMap (ruleTasks ipv4New vnic)).count r ∧
        (refGroupVnicTasks ipv4New vnic group groupId vnicId).count r =
          ((added vnic group groupId vnicId).flatMap (ruleTasks ipv4New vnic)).count r ∧
        (tasks ipv4New vnic (withoutVnic group groupId vnicId)).count r =
          ((parsedRules (withoutVnic group groupId vnicId)).flatMap
            (ruleTasks ipv4New vnic)).count r :=
    ⟨(tasks_perm _).count_eq r, (refGroupVnicTasks_perm hl).count_eq r, (tasks_perm _).count_eq r⟩
  rw [← addsNew_iff hg hl hm]
  constructor
  · intro h
    refine hiff.mp fun r => ?_
    have hr := h.removedFull.count_eq r
    rw [removeTasks, List.count_diff, (hcounts r).1, (hcounts r).2.1, (hcounts r).2.2] at hr
    exact hr
  · intro hnew
    have hperm := (hnew.perm hgrows hnodup hsub).flatMap_right (ruleTasks ipv4New vnic)
    rw [List.flatMap_append] at hperm
    have hsum (r : FirewallRule) :
        (tasks ipv4New vnic group).count r =
          (tasks ipv4New vnic (withoutVnic group groupId vnicId)).count r +
            (refGroupVnicTasks ipv4New vnic group groupId vnicId).count r := by
      rw [(hcounts r).1, (hcounts r).2.1, (hcounts r).2.2, hperm.count_eq, List.count_append]
    refine ⟨fun r => ?_, List.perm_iff_count.mpr fun r => ?_, List.perm_iff_count.mpr fun r => ?_⟩
    · rw [← List.count_pos_iff, ← List.count_pos_iff, count_applyTasks, hsum]
    · rw [removeTasks, List.count_diff, count_applyTasks]
      omega
    · rw [removeTasks, List.count_diff, hsum]
      omega

/-! ## A group that refers to another -/

def sshFrom (protocol : Option Text) (ipSource : Text) : ParsedRule :=
  ⟨"tcp".toList, some 22, some 22, none, none, protocol, ipSource⟩

def joining : VnicMap :=
  ⟨"vif-j".toList, some (BitVec.ofNat 32 0x0a000005), none, none, none, ["sg-r".toList]⟩

def localVnic : VnicMap := ⟨"vif-l".toList, none, none, none, none, ["sg-g".toList]⟩

/-- The vnic `joining` is in the referenced group. -/
def referring (rules : List ParsedRule) : GroupMap :=
  ⟨"sg-g".toList, rules, ∅, ∅,
    AList.insert "sg-r".toList (AList.insert "vif-j".toList joining ∅) ∅, ∅⟩

theorem agrees_referring :
    Agrees readAddress localVnic (referring [sshFrom none "sg-r".toList]) "sg-r".toList
      "vif-j".toList := by
  have hrules : ∀ rule ∈ (referring [sshFrom none "sg-r".toList]).rules,
      ∃ line, parseRule readAddress line = .ok (some rule) := by
    intro rule hrule
    rw [List.mem_singleton.mp hrule]
    exact ⟨"tcp:22,22,sg-r".toList, by decide +kernel⟩
  refine (agrees_iff (by decide) hrules (AList.lookup_insert _) (AList.lookup_insert _)).mpr ?_
  have hnew : ¬ Has (withoutVnic (referring [sshFrom none "sg-r".toList]) "sg-r".toList
      "vif-j".toList) (aboutVnic joining (sshFrom none "sg-r".toList)) := by
    rw [← mem_parsedRules]
    decide
  refine ⟨fun _ rule hrule _ => ?_, fun rule hrule _ => .inr ⟨by decide, rule, hrule, ?_, rfl⟩⟩
  · rw [List.mem_singleton.mp hrule]
    exact hnew
  · rw [List.mem_singleton.mp hrule]
    rfl

/-- The address of the vnic that leaves is also written out. -/
theorem not_agrees :
    ¬ ∀ (ipAddress ipv4New : Text → Option IPAddr) (vnic m : VnicMap) (group : GroupMap)
      (groupId vnicId : Text) (vnics : Hash Text VnicMap),
      refGroupId groupId = some groupId →
      (∀ rule ∈ group.rules, ∃ line, parseRule ipAddress line = .ok (some rule)) →
      group.referencees.lookup groupId = some vnics → vnics.lookup vnicId = some m →
      Agrees ipv4New vnic group groupId vnicId := by
  intro h
  have hrules : ∀ rule ∈ (referring [sshFrom (some "ip4".toList) "10.0.0.5/32".toList,
      sshFrom none "sg-r".toList]).rules,
      ∃ line, parseRule readAddress line = .ok (some rule) := by
    intro rule hrule
    simp only [referring, List.mem_cons, List.not_mem_nil, or_false] at hrule
    rcases hrule with rfl | rfl
    · exact ⟨"tcp:22,22,ip4:10.0.0.5".toList, by decide +kernel⟩
    · exact ⟨"tcp:22,22,sg-r".toList, by decide +kernel⟩
  have ha := h readAddress readAddress localVnic joining
    (referring [sshFrom (some "ip4".toList) "10.0.0.5/32".toList, sshFrom none "sg-r".toList])
    "sg-r".toList "vif-j".toList _ (by decide) hrules (AList.lookup_insert _)
    (AList.lookup_insert _)
  exact absurd ha.removedFull.length_eq (by decide +kernel)

end SecurityGroup

end WakameVdc
