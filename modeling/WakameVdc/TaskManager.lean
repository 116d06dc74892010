import WakameVdc.Lib.Chains
import WakameVdc.NetfilterTask

/-!
# The task manager

`VNicProtocolTaskManager` of `edge_networking/netfilter/task_manager.rb`: the custom chains of a
vnic, which of them a rule is for, and the commands that apply and remove the rules of tasks.
-/

namespace WakameVdc

open Lib

namespace TaskManager

/-! ## Custom chains -/

/-- A chain of a vnic and the rules `tailor!` leads into it. -/
structure Chain where
  table : Table
  name : Text
  takes : Rule → Bool

def Chain.tailor (c : Chain) (rule : Rule) : Rule :=
  if c.takes rule then { rule with chain := .custom c.name } else rule

def Bound.letter : Bound → Char
  | .incoming => 'd'
  | .outgoing => 's'

section
variable (vnic : VnicMap)

/-- `d_<uuid>` and `s_<uuid>`, with what comes after the name of the vnic. -/
def chainName (bound : Bound) (after : String) : Text :=
  bound.letter :: '_' :: vnic.uuid ++ after.toList

/-- A chain that only leads to others. -/
def plainChain (bound : Bound) (after : String) : Chain :=
  ⟨.filter, chainName vnic bound after, fun _ => false⟩

/-- A chain for the rules of one protocol and direction of `FORWARD`. -/
def forwardChain (tool : Tool) (protocol : Protocol) (bound : Bound) (after : String) : Chain :=
  ⟨.filter, chainName vnic bound after, fun r =>
    r.tool = tool && r.table = .filter && r.chain = .preMade .forward && r.protocol = some protocol &&
      r.bound = some bound⟩

def hostChain (chain : PreMade) (protocol : Protocol) (bound : Bound) (after : String) : Chain :=
  ⟨.filter, chainName vnic bound after, fun r =>
    r.tool = .ebtables && r.table = .filter && r.chain = .preMade chain &&
      r.protocol = some protocol⟩

def dVnicIpChain : Chain := plainChain vnic .incoming ""

def sVnicIpChain : Chain := plainChain vnic .outgoing ""

def vnicIpChainTCP (bound : Bound) : Chain := forwardChain vnic .iptables .tcp bound "_tcp"

def vnicIpChainUDP (bound : Bound) : Chain := forwardChain vnic .iptables .udp bound "_udp"

def vnicIpChainICMP (bound : Bound) : Chain := forwardChain vnic .iptables .icmp bound "_icmp"

/-- `rule.rule.include? "-j SNAT"` -/
def isSnat (rule : Rule) : Bool := ("-j", "SNAT".toList) ∈ rule.rule

def vnicIpSnat : Chain :=
  ⟨.nat, vnic.uuid ++ "_snat".toList, fun r =>
    r.table = .nat && r.chain = .preMade .postrouting && isSnat r⟩

def vnicIpSnatExceptions : Chain :=
  ⟨.nat, vnic.uuid ++ "_snat_exceptions".toList, fun r =>
    r.table = .nat && r.chain = .preMade .postrouting && !isSnat r⟩

def sVnicEbChain : Chain := plainChain vnic .outgoing ""

def dVnicEbChain : Chain := plainChain vnic .incoming ""

def vnicEbChainARP (bound : Bound) : Chain := forwardChain vnic .ebtables .arp bound "_arp"

def vnicEbChainIPV4 (bound : Bound) : Chain := forwardChain vnic .ebtables .ip4 bound "_ipv4"

def vnicEbChainToHost : Chain := plainChain vnic .outgoing "_d_host"

def vnicEbChainFromHost : Chain := plainChain vnic .incoming "_s_host"

def vnicEbChainToHostARP : Chain := hostChain vnic .input .arp .outgoing "_d_host_arp"

def vnicEbChainFromHostARP : Chain := hostChain vnic .output .arp .incoming "_s_host_arp"

def vnicEbChainToHostIPV4 : Chain := hostChain vnic .input .ip4 .outgoing "_d_host_ipv4"

/-- It takes the rules of `INPUT`, as the chain before it. -/
def vnicEbChainFromHostIPV4 : Chain := hostChain vnic .input .ip4 .incoming "_s_host_ipv4"

def iptablesChains : List Chain :=
  [dVnicIpChain vnic, sVnicIpChain vnic] ++
    ([.incoming, .outgoing].flatMap fun bound =>
      [vnicIpChainTCP vnic bound, vnicIpChainUDP vnic bound, vnicIpChainICMP vnic bound]) ++
    [vnicIpSnat vnic, vnicIpSnatExceptions vnic]

def ebtablesChains : List Chain :=
  [sVnicEbChain vnic, dVnicEbChain vnic] ++
    ([.incoming, .outgoing].flatMap fun bound =>
      [vnicEbChainARP vnic bound, vnicEbChainIPV4 vnic bound]) ++
    [vnicEbChainFromHost vnic, vnicEbChainFromHostARP vnic, vnicEbChainFromHostIPV4 vnic,
      vnicEbChainToHost vnic, vnicEbChainToHostARP vnic, vnicEbChainToHostIPV4 vnic]

def tailored (chains : List Chain) (rule : Rule) : Rule :=
  chains.foldl (fun rule chain => chain.tailor rule) rule

end

/-! ## Commands -/

structure ChainId where
  tool : Tool
  table : Table
  chain : ChainName
  deriving DecidableEq, Repr

def Rule.place (rule : Rule) : ChainId × Options := (⟨rule.tool, rule.table, rule.chain⟩, rule.rule)

abbrev Kernel := ChainId → List Options

inductive Action
  | apply | remove
  deriving DecidableEq, Repr

def getRuleCommand (rule : Rule) : Action → ChainCommand ChainId Options
  | .apply => .insert rule.place.1 rule.place.2
  | .remove => .delete rule.place.1 rule.place.2

def iptablesProtocols : List Protocol := [.tcp, .udp, .icmp]

/-- Protocol independent, and not for the nat table. -/
def Rule.copied (rule : Rule) : Bool :=
  rule.tool = .iptables && rule.protocol.isNone && rule.table = .filter

section
variable (hva : Hva) (vnic : VnicMap)

def Hva.enabled : Tool → Bool
  | .iptables => hva.enableIptables
  | .ebtables => hva.enableEbtables

def chainsOf : Tool → List Chain
  | .iptables => iptablesChains vnic
  | .ebtables => ebtablesChains vnic

/-- The rules whose commands one rule stands for: a protocol independent one is copied for each
protocol. -/
def ruleCopies (rule : Rule) : List Rule :=
  if hva.enabled rule.tool then
    if rule.copied then
      iptablesProtocols.map fun p => tailored (chainsOf vnic rule.tool) { rule with protocol := some p }
    else [tailored (chainsOf vnic rule.tool) rule]
  else []

def handleVnicTasks (tasks : List Task) (action : Action) : List (ChainCommand ChainId Options) :=
  tasks.flatMap fun task =>
    task.rules.flatMap fun rule => (ruleCopies hva vnic rule).map fun r => getRuleCommand r action

/-- The rules that are not copied are tailored in place. -/
def tailorInPlace (rule : Rule) : Rule :=
  if hva.enabled rule.tool && !rule.copied then tailored (chainsOf vnic rule.tool) rule else rule

/-- What `handle_vnic_tasks` leaves of the tasks it is given. -/
def handled (tasks : List Task) : List Task :=
  tasks.map fun task => ⟨task.rules.map (tailorInPlace hva vnic)⟩

def applyVnicTasks (tasks : List Task) (k : Kernel) : Kernel :=
  Chains.execAll k (handleVnicTasks hva vnic tasks .apply)

def removeVnicTasks (tasks : List Task) (k : Kernel) : Kernel :=
  Chains.execAll k (handleVnicTasks hva vnic tasks .remove)

end

/-! ## What a rule does with a packet -/

def Accepting (rule : Options) : Prop := ("-j", "ACCEPT".toList) ∈ rule

def Dropping (rule : Options) : Prop := ("-j", "DROP".toList) ∈ rule

instance (rule : Options) : Decidable (Accepting rule) := inferInstanceAs (Decidable (_ ∈ rule))

instance (rule : Options) : Decidable (Dropping rule) := inferInstanceAs (Decidable (_ ∈ rule))

/-- `LOG`, `CONTINUE` and the translations of the nat table leave it to the rules that follow. -/
def verdict (rule : Options) : Option Bool :=
  if Accepting rule then some true else if Dropping rule then some false else none

/-- A task none of whose rules drops. -/
structure AcceptTask extends Task where
  accepts : ∀ r ∈ rules, ¬ Dropping r.rule

end TaskManager

end WakameVdc
