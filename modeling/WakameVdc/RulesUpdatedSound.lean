import WakameVdc.RulesUpdated
import WakameVdc.SubscriptionHandler
import WakameVdc.TaskManagerSound

/-!
# What new rules of a group do to the chains

The rules of the security group tasks are exchanged. The ARP rules of the referencees are left
alone, since hashes of vnics have no address; and a vnic whose network mode does not build the
tasks ends the handler.
-/

namespace WakameVdc

open Lib

namespace TaskManager

open Netfilter (Cache NetworkMode NetfilterError)

/-! ## Where the rules of a group go -/

section
variable {hva : Hva} {vnic : VnicMap}

theorem toSym_cases (protocol : Text) :
    toSym protocol = none ∨ ∃ p ∈ iptablesProtocols, toSym protocol = some p := by
  unfold toSym iptablesProtocols
  split
  · simp
  · split
    · simp
    · split
      · simp
      · simp

theorem tailored_ip {p : Protocol} (hp : p ∈ iptablesProtocols) (rule : Options) :
    (⟨.iptables, .filter, (tailored (iptablesChains vnic)
      (iptablesRule .filter .forward (some p) .incoming rule)).chain⟩ : ChainId) ∈
        vnicChains vnic := by
  simp only [iptablesProtocols, List.mem_cons, List.not_mem_nil, or_false] at hp
  rcases hp with rfl | rfl | rfl <;>
    simp [tailored, iptablesChains, Chain.tailor, dVnicIpChain, sVnicIpChain, plainChain,
      vnicIpChainTCP, vnicIpChainUDP, vnicIpChainICMP, forwardChain, vnicIpSnat,
      vnicIpSnatExceptions, iptablesRule, vnicChains]

/-- The protocol of a rule that is not copied is one of those with a chain. -/
theorem place_ip {protocol : Option Protocol}
    (hprotocol : protocol = none ∨ ∃ p ∈ iptablesProtocols, protocol = some p) {rule : Options}
    {r : Rule} (h : r ∈ ruleCopies hva vnic (iptablesRule .filter .forward protocol .incoming rule)) :
    r.place.1 ∈ vnicChains vnic := by
  obtain ⟨protocol', hr, hcopy⟩ := mem_ruleCopies h
  have hp : ∃ p ∈ iptablesProtocols, protocol' = some p := by
    rcases hcopy with ⟨-, hp⟩ | ⟨hcopied, hsame⟩
    · exact hp
    · rcases hprotocol with hnone | hp
      · simp [Rule.copied, iptablesRule, hnone] at hcopied
      · rw [hsame]
        exact hp
  obtain ⟨p, hp, hsome⟩ := hp
  rw [hr, hsome, Rule.place, tailored_tool, tailored_table]
  exact tailored_ip hp rule

theorem place_secgroup {ipv4New : Text → Option IPAddr} {group : GroupMap} {y : ChainId × Options}
    (h : y ∈ applied hva vnic (netfilterSecgroupTasks ipv4New vnic group)) :
    y.1 ∈ vnicChains vnic := by
  obtain ⟨t, ht, rule, hrule, r, hr, rfl⟩ := mem_applied h
  rw [List.mem_singleton.mp ht] at hrule
  simp only [securityGroup, List.mem_flatMap, List.mem_append, List.mem_map] at hrule
  obtain ⟨parsed, -, ⟨a, -, rfl⟩ | ⟨a, -, rfl⟩⟩ := hrule
  · rw [place_arp (by simp) hr]
    exact List.mem_cons_self
  · refine place_ip ?_ hr
    cases a.protocol with
    | none => exact .inl rfl
    | some protocol => exact toSym_cases protocol

/-! ## The ARP rules of friends -/

def friendAccept (vnic : VnicMap) (ip : Ipv4) : Options :=
  arpRequest ++ [("--arp-ip-src", ip.quad), ("--arp-ip-dst", vnic.addressText)] ++ jump "ACCEPT"

def friendLog (vnic : VnicMap) (ip : Ipv4) : Options :=
  arpRequest ++ [("--arp-ip-src", ip.quad), ("--arp-ip-dst", vnic.addressText)] ++
    logArp true (logPrefix "A arp friend " vnic "") ++ jump "CONTINUE"

def friendRules (hva : Hva) (vnic : VnicMap) (ip : Ipv4) : List Options :=
  (if hva.packetDropLog then [friendLog vnic ip] else []) ++ [friendAccept vnic ip]

theorem ruleCopies_arp {chain : PreMade} (hchain : chain ∈ [.forward, .input, .output])
    (bound : Bound) (rule : Options) :
    (ruleCopies hva vnic (ebtablesRule .filter chain .arp bound rule)).map Rule.place =
      if hva.enableEbtables then
        [(⟨.ebtables, .filter, .custom (arpChain vnic chain bound)⟩, rule)]
      else [] := by
  have hcopied : (ebtablesRule .filter chain .arp bound rule).copied = false := by
    simp [Rule.copied, ebtablesRule]
  unfold ruleCopies
  rw [hcopied]
  by_cases h : hva.enableEbtables
  · have henabled : hva.enabled (ebtablesRule .filter chain .arp bound rule).tool = true := h
    have hplace : (tailored (ebtablesChains vnic) (ebtablesRule .filter chain .arp bound rule)).chain =
        .custom (arpChain vnic chain bound) := tailored_arp hchain bound rule
    simp only [henabled, h, if_true, Bool.false_eq_true, if_false, List.map_cons, List.map_nil,
      Rule.place, tailored_tool, tailored_table, tailored_rule]
    rw [← hplace]
    rfl
  · have henabled : ¬ hva.enabled (ebtablesRule .filter chain .arp bound rule).tool = true := h
    rw [if_neg henabled, if_neg h]
    rfl

theorem rules_friends (friends : List Friend) :
    netfilterArpIsolationTasks hva vnic friends =
      [⟨(friends.filterMap Friend.address).flatMap fun ip =>
        (friendRules hva vnic ip).map (ebtablesRule .filter .forward .arp .incoming)⟩] := by
  unfold netfilterArpIsolationTasks acceptARPFromFriends
  rw [List.flatMap_map]
  congr 2
  refine List.flatMap_congr fun ip _ => ?_
  unfold friendRules
  cases hva.packetDropLog with
  | true => rfl
  | false => rfl

theorem applied_friends (friends : List Friend) :
    applied hva vnic (netfilterArpIsolationTasks hva vnic friends) =
      if hva.enableEbtables then
        (friends.filterMap Friend.address).flatMap fun ip =>
          (friendRules hva vnic ip).map fun rule => (incomingArp vnic, rule)
      else [] := by
  rw [rules_friends]
  simp only [applied, List.flatMap_cons, List.flatMap_nil, List.append_nil, List.flatMap_assoc,
    List.flatMap_map, ruleCopies_arp (show PreMade.forward ∈ [.forward, .input, .output] by simp)]
  by_cases h : hva.enableEbtables
  · simp only [h, if_true]
    refine List.flatMap_congr fun ip _ => ?_
    induction friendRules hva vnic ip with
    | nil => rfl
    | cons rule rules ih => simpa [arpChain, incomingArp] using ih
  · simp [h]

theorem applied_referenceeVnics (group : GroupMap) :
    applied hva vnic (netfilterArpIsolationTasks hva vnic (referenceeVnics group)) = [] := by
  have hnone : (referenceeVnics group).filterMap Friend.address = [] := by
    simp [referenceeVnics, Friend.address]
  rw [applied_friends, hnone]
  simp

theorem quad_injective : Function.Injective Ipv4.quad := by
  intro a b h
  have hquad := Ipv4.ofQuad_quad a
  rw [h, Ipv4.ofQuad_quad] at hquad
  exact (Option.some.inj hquad).symm

theorem friendAccept_inj {a b : Ipv4} : friendAccept vnic a = friendAccept vnic b ↔ a = b := by
  simp [friendAccept, quad_injective.eq_iff]

theorem friendAccept_ne_friendLog (a b : Ipv4) : friendAccept vnic a ≠ friendLog vnic b := by
  simp [friendAccept, friendLog, logArp, jump]

theorem count_friendAccept (ips : List Ipv4) (ip : Ipv4) :
    (ips.flatMap (friendRules hva vnic)).count (friendAccept vnic ip) = ips.count ip := by
  induction ips with
  | nil => rfl
  | cons a ips ih =>
    have hone : (friendRules hva vnic a).count (friendAccept vnic ip) = if a = ip then 1 else 0 := by
      have hlog : (if hva.packetDropLog then [friendLog vnic a] else []).count
          (friendAccept vnic ip) = 0 := by
        refine List.count_eq_zero_of_not_mem fun h => ?_
        split at h
        · exact friendAccept_ne_friendLog ip a (List.mem_singleton.mp h)
        · cases h
      rw [friendRules, List.count_append, hlog, Nat.zero_add, List.count_singleton]
      simp [friendAccept_inj]
    rw [List.flatMap_cons, List.count_append, ih, hone, List.count_cons, Nat.add_comm]
    simp

/-- The ARP rules of two lists of friends are the same if their addresses are. -/
theorem perm_friendRules_iff {l m : List Ipv4} :
    (l.flatMap (friendRules hva vnic)).Perm (m.flatMap (friendRules hva vnic)) ↔ l.Perm m := by
  constructor
  · intro h
    rw [List.perm_iff_count]
    intro ip
    rw [← count_friendAccept, ← count_friendAccept, h.count_eq]
  · exact fun h => h.flatMap_right _

def referenceeAddresses (group : GroupMap) : List Ipv4 :=
  (allReferenceeVnics group).filterMap VnicMap.address

def wantedArp (hva : Hva) (vnic : VnicMap) (group : GroupMap) : List (ChainId × Options) :=
  applied hva vnic (netfilterArpIsolationTasks hva vnic ((allReferenceeVnics group).map Friend.vnic))

theorem wantedArp_eq (group : GroupMap) :
    wantedArp hva vnic group =
      if hva.enableEbtables then
        ((referenceeAddresses group).flatMap (friendRules hva vnic)).map fun rule =>
          (incomingArp vnic, rule)
      else [] := by
  unfold wantedArp referenceeAddresses
  rw [applied_friends, List.filterMap_map, List.map_flatMap]
  rfl

theorem perm_wantedArp_iff {old new : GroupMap} :
    (wantedArp hva vnic old).Perm (wantedArp hva vnic new) ↔
      hva.enableEbtables = false ∨ (referenceeAddresses old).Perm (referenceeAddresses new) := by
  rw [wantedArp_eq, wantedArp_eq]
  cases hva.enableEbtables with
  | false => simp
  | true =>
    have hinj : Function.Injective fun rule : Options => (incomingArp vnic, rule) :=
      fun a b h => (Prod.mk.inj h).2
    simp only [if_true, List.map_perm_map_iff hinj, perm_friendRules_iff, Bool.true_eq_false,
      false_or]

theorem place_wantedArp {group : GroupMap} {y : ChainId × Options}
    (h : y ∈ wantedArp hva vnic group) : y.1 ∈ vnicChains vnic := by
  rw [wantedArp_eq] at h
  split at h
  · obtain ⟨rule, -, rfl⟩ := List.mem_map.mp h
    exact List.mem_cons_self
  · cases h

end

/-! ## Chains of different vnics -/

theorem uuid_of_mem_vnicChains {v w : VnicMap} {c : ChainId} (hv : c ∈ vnicChains v)
    (hw : c ∈ vnicChains w) : v.uuid = w.uuid := by
  simp only [vnicChains, List.map_cons, List.map_nil, List.mem_cons, List.not_mem_nil,
    or_false] at hv hw
  have hname : ∀ a b : String, chainName v .incoming a = chainName w .incoming b →
      a.toList.reverse ++ v.uuid.reverse = b.toList.reverse ++ w.uuid.reverse := by
    intro a b h
    have hrev := congrArg List.reverse h
    simp only [chainName, List.reverse_append, List.reverse_cons, ← List.append_assoc] at hrev
    exact List.append_cancel_right (List.append_cancel_right hrev)
  rcases hv with rfl | rfl | rfl | rfl <;> rcases hw with hw | hw | hw | hw <;>
    simp only [ChainId.mk.injEq, ChainName.custom.injEq, reduceCtorEq, true_and, false_and,
      vnicEbChainARP, vnicIpChainTCP, vnicIpChainUDP, vnicIpChainICMP, forwardChain] at hw
  all_goals simpa using hname _ _ hw

/-! ## The commands of the handler -/

def buildsTasks (mode : Except NetfilterError NetworkMode) : Bool :=
  match mode with
  | .ok .securityGroup => true
  | _ => false

section
variable (hva : Hva) (ipv4New : Text → Option IPAddr) (c : Cache) (old new : GroupMap)

def secgroupRules (group : GroupMap) (vnic : VnicMap) : List (ChainId × Options) :=
  applied hva vnic (netfilterSecgroupTasks ipv4New vnic group)

def vnicCommands (vnic : VnicMap) : List (ChainCommand ChainId Options) :=
  Chains.exchange (secgroupRules hva ipv4New old vnic) (secgroupRules hva ipv4New new vnic)

variable {hva ipv4New c old new}

theorem runs_runTasks (vnic : VnicMap) (tasks : List Task) (action : Action)
    (commands : List (ChainCommand ChainId Options)) :
    Proc.Runs (runTasks hva vnic tasks action) commands ()
      (commands ++ handleVnicTasks hva vnic tasks action) := rfl

/-- The ARP rules of the referencees are neither inserted nor deleted. -/
theorem handle_arpIsolation (mode : NetworkMode) (vnic : VnicMap) (group : GroupMap)
    (action : Action) :
    handleVnicTasks hva vnic (modeArpIsolationTasks hva mode vnic (referenceeVnics group)) action =
      [] := by
  have hnone : handleVnicTasks hva vnic
      (netfilterArpIsolationTasks hva vnic (referenceeVnics group)) action = [] := by
    cases action with
    | apply => rw [handle_apply, applied_referenceeVnics, Chains.inserts, List.map_nil]
    | remove => rw [handle_remove, applied_referenceeVnics, Chains.deletes, List.map_nil]
  cases mode with
  | securityGroup => exact hnone
  | l2Overlay => exact hnone
  | passThrough => rfl

theorem runs_arpIsolation (mode : NetworkMode) (vnic : VnicMap) (group : GroupMap) (action : Action)
    (commands : List (ChainCommand ChainId Options)) :
    Proc.Runs (runTasks hva vnic (modeArpIsolationTasks hva mode vnic (referenceeVnics group)) action)
      commands () commands := by
  have hruns : Proc.Runs (runTasks hva vnic
      (modeArpIsolationTasks hva mode vnic (referenceeVnics group)) action) commands ()
      (commands ++ handleVnicTasks hva vnic
        (modeArpIsolationTasks hva mode vnic (referenceeVnics group)) action) :=
    runs_runTasks _ _ _ _
  rwa [handle_arpIsolation, List.append_nil] at hruns

theorem mode_of_buildsTasks {mode : Except NetfilterError NetworkMode} (h : buildsTasks mode) :
    mode = .ok .securityGroup := by
  cases mode with
  | error e => cases h
  | ok mode => cases mode <;> first | rfl | cases h

theorem runs_updateVnic {vnic : VnicMap} (hmode : buildsTasks (c.getVnicNetworkMode vnic.uuid))
    (commands : List (ChainCommand ChainId Options)) :
    Proc.Runs (updateVnic hva ipv4New c old new vnic) commands ()
      (commands ++ vnicCommands hva ipv4New old new vnic) := by
  have hcommands : commands ++ vnicCommands hva ipv4New old new vnic =
      commands ++ handleVnicTasks hva vnic (netfilterSecgroupTasks ipv4New vnic new) .apply ++
        handleVnicTasks hva vnic (netfilterSecgroupTasks ipv4New vnic old) .remove := by
    rw [handle_apply, handle_remove, List.append_assoc]
    rfl
  unfold updateVnic
  rw [mode_of_buildsTasks hmode, hcommands]
  exact (Proc.runs_pure _ _).bind ((runs_arpIsolation _ _ _ _ _).bind ((Proc.runs_pure _ _).bind
    ((runs_runTasks _ _ _ _).bind ((runs_arpIsolation _ _ _ _ _).bind ((Proc.runs_pure _ _).bind
      (runs_runTasks _ _ _ _))))))

/-- A vnic whose mode does not build the tasks raises before any command. -/
theorem exec_updateVnic_error {vnic : VnicMap}
    (hmode : buildsTasks (c.getVnicNetworkMode vnic.uuid) = false)
    (commands : List (ChainCommand ChainId Options)) :
    ∃ e, Proc.exec (updateVnic hva ipv4New c old new vnic) commands = (.error e, commands) := by
  unfold updateVnic
  cases h : c.getVnicNetworkMode vnic.uuid with
  | error e => exact ⟨e, rfl⟩
  | ok mode =>
    refine ⟨.argumentError, ?_⟩
    rw [Proc.exec_bind, show Proc.exec (liftM (.ok mode)) commands = (.ok mode, commands) from rfl]
    dsimp only
    rw [Proc.exec_bind, runs_arpIsolation mode vnic new .apply commands]
    cases mode with
    | securityGroup => simp [h, buildsTasks] at hmode
    | l2Overlay => rfl
    | passThrough => rfl

/-- The handler runs the commands of the vnics in front of the first that raises. -/
theorem final_updateVnics (vnics : List VnicMap) (commands : List (ChainCommand ChainId Options)) :
    Proc.final (vnics.forM (updateVnic hva ipv4New c old new)) commands =
      commands ++ (vnics.takeWhile fun v => buildsTasks (c.getVnicNetworkMode v.uuid)).flatMap
        (vnicCommands hva ipv4New old new) := by
  induction vnics generalizing commands with
  | nil => exact (List.append_nil commands).symm
  | cons v vnics ih =>
    have hcons : (v :: vnics).forM (updateVnic hva ipv4New c old new) =
        updateVnic hva ipv4New c old new v >>= fun _ =>
          vnics.forM (updateVnic hva ipv4New c old new) := rfl
    rw [hcons]
    by_cases hmode : buildsTasks (c.getVnicNetworkMode v.uuid)
    · rw [(runs_updateVnic hmode commands).final_bind, ih, List.takeWhile_cons, if_pos hmode,
        List.flatMap_cons, List.append_assoc]
    · have herror : ∃ e, Proc.exec (updateVnic hva ipv4New c old new v) commands =
          (.error e, commands) := exec_updateVnic_error (by simpa using hmode) commands
      obtain ⟨e, he⟩ := herror
      rw [List.takeWhile_cons, if_neg hmode, List.flatMap_nil, List.append_nil]
      unfold Proc.final
      rw [Proc.exec_bind, he]

/-- The commands the handler has run when it ends or raises. -/
def trace (hva : Hva) (ipv4New : Text → Option IPAddr) (c : Cache) (groupId : Text)
    (rules : List ParsedRule) (referencees : Hash Text (Hash Text VnicMap)) :
    List (ChainCommand ChainId Options) :=
  Proc.final (rulesUpdated hva ipv4New c groupId rules referencees) []

theorem trace_eq {groupId : Text} {group : GroupMap}
    (hgroup : c.securityGroups.lookup groupId = some group) (rules : List ParsedRule)
    (referencees : Hash Text (Hash Text VnicMap)) :
    trace hva ipv4New c groupId rules referencees =
      ((c.getLocalVnicsInGroup groupId).takeWhile fun v =>
        buildsTasks (c.getVnicNetworkMode v.uuid)).flatMap
          (vnicCommands hva ipv4New group (updatedGroup rules referencees group)) := by
  have hlocal : ∀ g, (updatedGroup rules referencees g).localVnics = g.localVnics := fun _ => rfl
  have hupdated : (Hash.modify groupId (updatedGroup rules referencees) c.securityGroups).lookup
      groupId = some (updatedGroup rules referencees group) := by
    rw [Hash.lookup_modify, if_pos rfl, hgroup, Option.map_some]
  unfold trace rulesUpdated
  simp only [hgroup, hupdated]
  rw [final_updateVnics, List.nil_append]
  have hvnics := Netfilter.getLocalVnicsInGroup_modify (c := c) (g := groupId) hlocal groupId
  have hmode : ∀ v, (c.modifyGroup groupId (updatedGroup rules referencees)).getVnicNetworkMode v =
      c.getVnicNetworkMode v := fun v => Netfilter.getVnicNetworkMode_modify hlocal
  unfold Cache.modifyGroup at hvnics hmode
  rw [hvnics]
  simp only [hmode]

theorem chain_of_mem_vnicCommands {vnic : VnicMap} {x : ChainCommand ChainId Options}
    (h : x ∈ vnicCommands hva ipv4New old new vnic) : x.chain ∈ vnicChains vnic := by
  rcases List.mem_append.mp h with h | h
  · obtain ⟨y, hy, rfl⟩ := List.mem_map.mp h
    exact place_secgroup hy
  · obtain ⟨y, hy, rfl⟩ := List.mem_map.mp h
    exact place_secgroup hy

/-- Commands for vnics with other names leave the chains of a vnic alone. -/
theorem chain_ne_of_others {vnics : List VnicMap} {vnic : VnicMap} {d : ChainId}
    (hvnics : ∀ w ∈ vnics, w.uuid ≠ vnic.uuid) (hd : d ∈ vnicChains vnic) :
    ∀ x ∈ vnics.flatMap (vnicCommands hva ipv4New old new), x.chain ≠ d := by
  intro x hx heq
  obtain ⟨w, hw, hx⟩ := List.mem_flatMap.mp hx
  exact hvnics w hw (uuid_of_mem_vnicChains (chain_of_mem_vnicCommands hx) (heq ▸ hd))

end

/-! ## When the new rules take the place of the old ones -/

def wanted (hva : Hva) (ipv4New : Text → Option IPAddr) (c : Cache) (vnic : VnicMap)
    (group : GroupMap) : List (ChainId × Options) :=
  applied hva vnic (wantedTasks hva ipv4New (c.getVnicNetworkMode vnic.uuid) vnic group)

/-- Chains of a vnic that have the old rules come to have the new ones. -/
def Renewed (hva : Hva) (ipv4New : Text → Option IPAddr) (c : Cache) (old new : GroupMap)
    (vnic : VnicMap) (commands : List (ChainCommand ChainId Options)) : Prop :=
  ∀ k : Kernel, (∀ d, (Chains.rulesFor d (wanted hva ipv4New c vnic old) : Multiset Options) ≤ k d) →
    Replaces commands (vnicChains vnic) (wanted hva ipv4New c vnic old)
      (wanted hva ipv4New c vnic new) k

section
variable {hva : Hva} {ipv4New : Text → Option IPAddr} {c : Cache} {old new : GroupMap}
  {vnic : VnicMap}

theorem wanted_eq (hmode : buildsTasks (c.getVnicNetworkMode vnic.uuid)) (group : GroupMap) :
    wanted hva ipv4New c vnic group =
      secgroupRules hva ipv4New group vnic ++ wantedArp hva vnic group := by
  unfold wanted
  rw [mode_of_buildsTasks hmode]
  exact applied_append _ _

theorem place_wanted {group : GroupMap} {y : ChainId × Options}
    (h : y ∈ wanted hva ipv4New c vnic group) : y.1 ∈ vnicChains vnic := by
  unfold wanted wantedTasks at h
  split at h
  · cases h
  · exact place_wantedArp h
  · rw [applied_append] at h
    rcases List.mem_append.mp h with h | h
    · exact place_secgroup h
    · exact place_wantedArp h

theorem rulesFor_of_not_mem {l : List (ChainId × Options)} (hl : ∀ y ∈ l, y.1 ∈ vnicChains vnic)
    {d : ChainId} (hd : d ∉ vnicChains vnic) : Chains.rulesFor d l = [] :=
  Chains.rulesFor_of_none fun y hy heq => hd (heq ▸ hl y hy)

/-- Lists of rules for the chains of a vnic are the same if they are so in these chains. -/
theorem perm_of_chains {l m : List (ChainId × Options)} (hl : ∀ y ∈ l, y.1 ∈ vnicChains vnic)
    (hm : ∀ y ∈ m, y.1 ∈ vnicChains vnic)
    (h : ∀ d ∈ vnicChains vnic,
      (Chains.rulesFor d l : Multiset Options) = Chains.rulesFor d m) : l.Perm m := by
  rw [Chains.perm_iff_rulesFor]
  intro d
  by_cases hd : d ∈ vnicChains vnic
  · exact Multiset.coe_eq_coe.mp (h d hd)
  · rw [rulesFor_of_not_mem hl hd, rulesFor_of_not_mem hm hd]

/-- If the commands for the vnic are run, its rules are renewed if the ARP rules are the same. -/
theorem renewed_of_run_iff (hmode : buildsTasks (c.getVnicNetworkMode vnic.uuid))
    {front back : List (ChainCommand ChainId Options)}
    (hfront : ∀ d ∈ vnicChains vnic, ∀ x ∈ front, x.chain ≠ d)
    (hback : ∀ d ∈ vnicChains vnic, ∀ x ∈ back, x.chain ≠ d) :
    Renewed hva ipv4New c old new vnic (front ++ (vnicCommands hva ipv4New old new vnic ++ back)) ↔
      (wantedArp hva vnic old).Perm (wantedArp hva vnic new) := by
  unfold Renewed
  rw [wanted_eq hmode, wanted_eq hmode]
  constructor
  · intro h
    refine perm_of_chains (fun _ => place_wantedArp) (fun _ => place_wantedArp) fun d hd => ?_
    have hcontent := (h (fun d => Chains.rulesFor d (secgroupRules hva ipv4New old vnic ++
      wantedArp hva vnic old)) fun _ => le_refl _).content d hd
    rw [vnicCommands, Chains.coe_execAll_within (hfront d hd) (hback d hd), Chains.rulesFor_append,
      Chains.rulesFor_append, ← Multiset.coe_add, ← Multiset.coe_add] at hcontent
    ext rule
    have hcount := congrArg (Multiset.count rule) hcontent
    simp only [Multiset.count_add, Multiset.count_sub] at hcount
    omega
  · intro h k hk
    have hcontent : ∀ d, (k d : Multiset Options) +
        Chains.rulesFor d (secgroupRules hva ipv4New new vnic) -
          Chains.rulesFor d (secgroupRules hva ipv4New old vnic) =
        (k d : Multiset Options) - (Chains.rulesFor d (secgroupRules hva ipv4New old vnic ++
          wantedArp hva vnic old) : Multiset Options) +
          Chains.rulesFor d (secgroupRules hva ipv4New new vnic ++ wantedArp hva vnic new) := by
      intro d
      have hle := hk d
      have harp := Multiset.coe_eq_coe.mpr ((Chains.perm_iff_rulesFor.mp h) d)
      rw [Chains.rulesFor_append, ← Multiset.coe_add] at hle ⊢
      rw [Chains.rulesFor_append, ← Multiset.coe_add]
      ext rule
      have hcount := Multiset.le_iff_count.mp hle rule
      have hsame := congrArg (Multiset.count rule) harp
      simp only [Multiset.count_add, Multiset.count_sub] at hcount ⊢
      omega
    refine ⟨fun d hd => ?_, fun p hp d hd => ?_⟩
    · rw [vnicCommands, Chains.coe_execAll_within (hfront d hd) (hback d hd)]
      exact hcontent d
    · refine Chains.le_execAll_within (hfront d hd) (hback d hd) ?_ ?_ hp
      · exact (Multiset.inter_le_left).trans (hk d)
      · rw [hcontent d]
        exact (Multiset.inter_le_right).trans (Multiset.le_add_left _ _)

/-- If nothing is run for the vnic, its rules are renewed if they are the same. -/
theorem renewed_of_not_run_iff {commands : List (ChainCommand ChainId Options)}
    (hcommands : ∀ d ∈ vnicChains vnic, ∀ x ∈ commands, x.chain ≠ d) :
    Renewed hva ipv4New c old new vnic commands ↔
      (wanted hva ipv4New c vnic old).Perm (wanted hva ipv4New c vnic new) := by
  constructor
  · intro h
    refine perm_of_chains (fun _ => place_wanted) (fun _ => place_wanted) fun d hd => ?_
    have hcontent := (h (fun d => Chains.rulesFor d (wanted hva ipv4New c vnic old))
      fun _ => le_refl _).content d hd
    rw [Chains.execAll_of_none (hcommands d hd)] at hcontent
    simpa using hcontent
  · intro h k hk
    refine ⟨fun d hd => ?_, fun p hp d hd => ?_⟩
    · rw [Chains.execAll_of_none (hcommands d hd),
        ← Multiset.coe_eq_coe.mpr ((Chains.perm_iff_rulesFor.mp h) d)]
      exact (tsub_add_cancel_of_le (hk d)).symm
    · rw [Chains.execAll_of_none fun x hx => hcommands d hd x (hp.subset hx)]
      exact (Multiset.inter_le_left).trans (hk d)

/-- The vnics whose commands are run stand in front of one that stops the loop, or of those whose
commands are not run because of it. -/
theorem mem_front_of_takeWhile {p : VnicMap → Bool} {front back : List VnicMap} {v : VnicMap}
    (h : ¬ ∀ w ∈ front ++ [v], p w) : ∀ w ∈ (front ++ v :: back).takeWhile p, w ∈ front := by
  induction front with
  | nil =>
    have hv : ¬ p v := by simpa using h
    simp [hv]
  | cons a front ih =>
    intro w hw
    by_cases ha : p a
    · rw [List.cons_append, List.takeWhile_cons, if_pos ha] at hw
      rcases List.mem_cons.mp hw with rfl | hw
      · exact List.mem_cons_self
      · refine List.mem_cons_of_mem _ (ih (fun hall => h ?_) w hw)
        intro x hx
        rcases List.mem_cons.mp hx with rfl | hx
        · exact ha
        · exact hall x hx
    · rw [List.cons_append, List.takeWhile_cons, if_neg ha] at hw
      cases hw

theorem uuid_ne_of_keyed {group : GroupMap} (hkeyed : ∀ e ∈ group.localVnics.entries, e.2.uuid = e.1)
    {front back : List VnicMap} {v : VnicMap}
    (hlocal : Hash.values group.localVnics = front ++ v :: back) :
    (∀ w ∈ front, w.uuid ≠ v.uuid) ∧ ∀ w ∈ back, w.uuid ≠ v.uuid := by
  have hnodup : ((front ++ v :: back).map VnicMap.uuid).Nodup := by
    have hkeys : (Hash.values group.localVnics).map VnicMap.uuid = group.localVnics.entries.keys := by
      rw [Hash.values, List.map_map]
      exact List.map_congr_left hkeyed
    rw [← hlocal, hkeys]
    exact group.localVnics.nodupKeys
  rw [List.map_append, List.map_cons, List.nodup_append] at hnodup
  obtain ⟨-, hback, hdisjoint⟩ := hnodup
  refine ⟨fun w hw => ?_, fun w hw heq => ?_⟩
  · exact hdisjoint _ (List.mem_map_of_mem hw) _ List.mem_cons_self
  · exact (List.nodup_cons.mp hback).1 (heq ▸ List.mem_map_of_mem hw)

/-- The rules of a local vnic are renewed exactly if its commands are run and the vnics of the
referencees have the addresses they had, or if they are not run and its rules are the same; the
chains of other vnics than those of the group stay as they are. -/
theorem rules_updated_iff {groupId : Text} {group : GroupMap}
    (hgroup : c.securityGroups.lookup groupId = some group)
    (hkeyed : ∀ e ∈ group.localVnics.entries, e.2.uuid = e.1) (rules : List ParsedRule)
    (referencees : Hash Text (Hash Text VnicMap)) :
    (∀ front v back, c.getLocalVnicsInGroup groupId = front ++ v :: back →
      (Renewed hva ipv4New c group (updatedGroup rules referencees group) v
          (trace hva ipv4New c groupId rules referencees) ↔
        if ∀ w ∈ front ++ [v], buildsTasks (c.getVnicNetworkMode w.uuid) then
          hva.enableEbtables = false ∨ (referenceeAddresses group).Perm
            (referenceeAddresses (updatedGroup rules referencees group))
        else (wanted hva ipv4New c v group).Perm
          (wanted hva ipv4New c v (updatedGroup rules referencees group)))) ∧
    ∀ k d, (∀ w ∈ c.getLocalVnicsInGroup groupId, d ∉ vnicChains w) →
      Chains.execAll k (trace hva ipv4New c groupId rules referencees) d = k d := by
  have hvalues : c.getLocalVnicsInGroup groupId = Hash.values group.localVnics := by
    unfold Cache.getLocalVnicsInGroup
    rw [hgroup]
  refine ⟨fun front v back hlocal => ?_, fun k d hd => ?_⟩
  · obtain ⟨hfront, hback⟩ := uuid_ne_of_keyed hkeyed (hvalues ▸ hlocal)
    rw [trace_eq hgroup, hlocal]
    by_cases hall : ∀ w ∈ front ++ [v], buildsTasks (c.getVnicNetworkMode w.uuid)
    · have hpos : ∀ w ∈ front, buildsTasks (c.getVnicNetworkMode w.uuid) :=
        fun w hw => hall w (by simp [hw])
      have hv : buildsTasks (c.getVnicNetworkMode v.uuid) := hall v (by simp)
      rw [if_pos hall, ← perm_wantedArp_iff, List.takeWhile_append_of_pos hpos, List.takeWhile_cons,
        if_pos hv, List.flatMap_append, List.flatMap_cons]
      refine renewed_of_run_iff hv (fun d hd => chain_ne_of_others hfront hd) fun d hd =>
        chain_ne_of_others (fun w hw => hback w ((List.takeWhile_subset _) hw)) hd
    · rw [if_neg hall]
      refine renewed_of_not_run_iff fun d hd => chain_ne_of_others (fun w hw => ?_) hd
      exact hfront w (mem_front_of_takeWhile hall w hw)
  · rw [trace_eq hgroup]
    refine Chains.execAll_of_none fun x hx heq => ?_
    obtain ⟨w, hw, hx⟩ := List.mem_flatMap.mp hx
    exact hd w (List.takeWhile_subset _ hw) (heq ▸ chain_of_mem_vnicCommands hx)

end

/-! ## A group that comes to refer to another -/

def sampleLocal : VnicMap :=
  ⟨"vif-1".toList, some 5, none, some "i-1".toList, some "nw-1".toList, ["sg-a".toList]⟩

def sampleForeign : VnicMap :=
  ⟨"vif-2".toList, some 9, none, some "i-2".toList, some "nw-1".toList, ["sg-b".toList]⟩

def sampleGroup : GroupMap where
  uuid := "sg-a".toList
  rules := []
  localVnics := AList.singleton "vif-1".toList sampleLocal
  foreignVnics := ∅
  referencees := ∅
  referencers := ∅

def sampleCache : Cache where
  emptyVnics := ∅
  securityGroups := AList.singleton "sg-a".toList sampleGroup
  networks := AList.singleton "nw-1".toList ⟨.securityGroup⟩

def sampleRead (t : Text) : Option IPAddr :=
  (Ipv4.Prefix.ofText t).map fun b => ⟨t, b.addr, b.len⟩

def sampleRule (source : String) : ParsedRule :=
  ⟨"tcp".toList, some 22, some 22, none, none, some "ip4".toList, source.toList⟩

def sampleReferencees : Hash Text (Hash Text VnicMap) :=
  AList.singleton "sg-b".toList (AList.singleton "vif-2".toList sampleForeign)

/-- A rule about addresses is put in place. -/
theorem rules_renewed_sample :
    Renewed defaultHva sampleRead sampleCache sampleGroup
      (updatedGroup [sampleRule "10.0.0.0/8"] ∅ sampleGroup) sampleLocal
      (trace defaultHva sampleRead sampleCache "sg-a".toList [sampleRule "10.0.0.0/8"] ∅) :=
  ((rules_updated_iff rfl (by decide) [sampleRule "10.0.0.0/8"] ∅).1 [] sampleLocal []
    (by decide +kernel)).mpr (by decide +kernel)

/-- With a rule about another group the ARP rule for that group's vnic is not inserted. -/
theorem referencees_left_out :
    ¬ Renewed defaultHva sampleRead sampleCache sampleGroup
      (updatedGroup [sampleRule "sg-b"] sampleReferencees sampleGroup) sampleLocal
      (trace defaultHva sampleRead sampleCache "sg-a".toList [sampleRule "sg-b"]
        sampleReferencees) := by
  intro h
  have hnone : wanted defaultHva sampleRead sampleCache sampleLocal sampleGroup = [] := by
    decide +kernel
  have hcontent := (h (fun _ => []) (by simp [hnone])).content (incomingArp sampleLocal)
    List.mem_cons_self
  rw [hnone] at hcontent
  have hcount := congrArg (Multiset.count (friendAccept sampleLocal 9)) hcontent
  revert hcount
  decide +kernel

end TaskManager

end WakameVdc
