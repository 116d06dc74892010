import WakameVdc.SecurityGroupTask

/-!
# The tasks of a vnic

`edge_networking/tasks` with the two rule classes of `edge_networking/netfilter`, and
`netfilter_all_tasks` of `network_modes/security_group.rb`. The text of a rule is the list of its
options as the shell hands them on.
-/

namespace WakameVdc

open Lib

namespace TaskManager

/-! ## Rules -/

inductive Tool
  | iptables | ebtables
  deriving DecidableEq, Repr

inductive Table
  | filter | nat
  deriving DecidableEq, Repr

inductive PreMade
  | input | output | forward | prerouting | postrouting
  deriving DecidableEq, Repr

/-- A chain of the kernel's own or one made for a vnic. -/
inductive ChainName
  | preMade (chain : PreMade)
  | custom (name : Text)
  deriving DecidableEq, Repr

inductive Bound
  | incoming | outgoing
  deriving DecidableEq, Repr

inductive Protocol
  | tcp | udp | icmp | arp | ip4
  deriving DecidableEq, Repr

/-- `IptablesRule` and `EbtablesRule`, by their tool. -/
structure Rule where
  tool : Tool
  table : Table
  chain : ChainName
  protocol : Option Protocol
  bound : Option Bound
  rule : Options
  deriving DecidableEq, Repr

structure Task where
  rules : List Rule
  deriving DecidableEq, Repr

def iptablesRule (table : Table) (chain : PreMade) (protocol : Option Protocol) (bound : Bound)
    (rule : Options) : Rule :=
  ⟨.iptables, table, .preMade chain, protocol, some bound, rule⟩

def ebtablesRule (table : Table) (chain : PreMade) (protocol : Protocol) (bound : Bound)
    (rule : Options) : Rule :=
  ⟨.ebtables, table, .preMade chain, some protocol, some bound, rule⟩

def jump (target : String) : Options := [("-j", target.toList)]

/-- `EbtablesRule.log_arp(prefix) if enable_logging` -/
def logArp (enableLogging : Bool) (logPrefix : Text) : Options :=
  if enableLogging then [("--log-ip", []), ("--log-arp", []), ("--log-prefix", logPrefix)] else []

def arpRequest : Options := [("--protocol", "arp".toList), ("--arp-opcode", "Request".toList)]

/-! ## Tasks that drop -/

def dropIpFromAnywhere : Task := ⟨[iptablesRule .filter .forward none .incoming (jump "DROP")]⟩

def dropArpForwarding (enableLogging : Bool) (logPrefix : Text) : Task :=
  ⟨[ebtablesRule .filter .forward .arp .incoming (logArp enableLogging logPrefix ++ jump "DROP")]⟩

/-- Its `enable_logging` is never set. -/
def dropArpToHost : Task := ⟨[ebtablesRule .filter .input .arp .outgoing (jump "DROP")]⟩

def dropSpoofing (src dst : String) (value : Text) (enableLogging : Bool) (logPrefix : Text) :
    Task :=
  let rest := logArp enableLogging logPrefix ++ jump "DROP"
  ⟨[ebtablesRule .filter .forward .arp .outgoing
      ([("--protocol", "arp".toList), (src, value)] ++ rest),
    ebtablesRule .filter .input .arp .outgoing
      ([("--protocol", "arp".toList), (src, value)] ++ rest),
    ebtablesRule .filter .output .arp .incoming
      ([("--protocol", "arp".toList), (dst, value)] ++ rest)]⟩

def dropIpSpoofing (ip : Text) (enableLogging : Bool) (logPrefix : Text) : Task :=
  dropSpoofing "--arp-ip-src !" "--arp-ip-dst !" ip enableLogging logPrefix

def dropMacSpoofing (mac : Text) (enableLogging : Bool) (logPrefix : Text) : Task :=
  dropSpoofing "--arp-mac-src !" "--arp-mac-dst !" mac enableLogging logPrefix

/-! ## Tasks that accept arp -/

def acceptArpBroadcast (hvaIp : Text) (enableLogging : Bool) (logPrefix : Text) : Task :=
  ⟨[ebtablesRule .filter .output .arp .outgoing
      (arpRequest ++ [("--arp-ip-src", hvaIp)] ++ logArp enableLogging logPrefix ++ jump "ACCEPT")]⟩

def acceptArpRequest (source ip : Text) (enableLogging : Bool) (logPrefix : Text) : Task :=
  ⟨[ebtablesRule .filter .forward .arp .incoming
      (arpRequest ++ [("--arp-ip-src", source), ("--arp-ip-dst", ip)] ++
        logArp enableLogging logPrefix ++ jump "ACCEPT")]⟩

def acceptARPFromGateway (gwIp ip : Text) (enableLogging : Bool) (logPrefix : Text) : Task :=
  acceptArpRequest gwIp ip enableLogging logPrefix

def acceptARPFromDNS (dnsServerIp ip : Text) (enableLogging : Bool) (logPrefix : Text) : Task :=
  acceptArpRequest dnsServerIp ip enableLogging logPrefix

def acceptARPFromFriends (instIp : Text) (friendIps : List Text) (enableLogging : Bool)
    (logPrefix : Text) : Task :=
  ⟨friendIps.flatMap fun friendIp =>
    let request := arpRequest ++ [("--arp-ip-src", friendIp), ("--arp-ip-dst", instIp)]
    (if enableLogging then
      [ebtablesRule .filter .forward .arp .incoming
        (request ++ logArp true logPrefix ++ jump "CONTINUE")]
    else []) ++
      [ebtablesRule .filter .forward .arp .incoming (request ++ jump "ACCEPT")]⟩

def acceptARPReply (ip macaddr : Text) (enableLogging : Bool) (logPrefix : Text) : Task :=
  ⟨[ebtablesRule .filter .forward .arp .incoming
      ([("--protocol", "arp".toList), ("--arp-opcode", "Reply".toList), ("--arp-ip-dst", ip),
        ("--arp-mac-dst", macaddr)] ++ logArp enableLogging logPrefix ++ jump "ACCEPT")]⟩

/-- The host's address is in the line that logs only. -/
def acceptARPToHost (hostIp instIp : Text) (enableLogging : Bool) (logPrefix : Text) : Task :=
  ⟨(if enableLogging then
      [ebtablesRule .filter .input .arp .outgoing
        ([("--protocol", "arp".toList), ("--arp-ip-src", instIp), ("--arp-ip-dst", hostIp)] ++
          logArp true logPrefix ++ jump "CONTINUE")]
    else []) ++
    [ebtablesRule .filter .input .arp .outgoing
      ([("--protocol", "arp".toList), ("--arp-ip-src", instIp)] ++ jump "ACCEPT")]⟩

def acceptGARPFromGateway (gwIp : Text) (enableLogging : Bool) (logPrefix : Text) : Task :=
  ⟨[ebtablesRule .filter .forward .arp .incoming
      ([("--protocol", "arp".toList), ("--arp-gratuitous", []), ("--arp-ip-src", gwIp)] ++
        logArp enableLogging logPrefix ++ jump "ACCEPT")]⟩

/-! ## Tasks that accept ip -/

def acceptIpFromFriends (friendIps : List Text) : Task :=
  ⟨friendIps.map fun friendIp =>
    iptablesRule .filter .forward none .incoming (("-s", friendIp) :: jump "ACCEPT")⟩

def acceptState (protocol : Protocol) (name state : String) : Task :=
  ⟨[iptablesRule .filter .forward (some protocol) .incoming
      ([("-m", "state".toList), ("--state", state.toList), ("-p", name.toList)] ++ jump "ACCEPT")]⟩

def acceptTcpRelatedEstablished : Task := acceptState .tcp "tcp" "RELATED,ESTABLISHED"

def acceptIcmpRelatedEstablished : Task := acceptState .icmp "icmp" "RELATED,ESTABLISHED"

def acceptUdpEstablished : Task := acceptState .udp "udp" "ESTABLISHED"

def acceptWakameDNSOnly (dnsServerIp : Text) : Task :=
  let rule := [("-p", "udp".toList), ("-d", dnsServerIp), ("--dport", "53".toList)] ++ jump "ACCEPT"
  ⟨[iptablesRule .filter .forward (some .udp) .outgoing rule,
    iptablesRule .filter .forward (some .udp) .incoming rule]⟩

def foreignDhcp (dhcpServerIp : Text) : Options :=
  [("-p", "udp".toList), ("! -s", dhcpServerIp), ("--sport", "67:68".toList)] ++ jump "DROP"

def acceptWakameDHCPOnly (dhcpServerIp : Text) : Task :=
  ⟨[iptablesRule .filter .forward (some .udp) .incoming (foreignDhcp dhcpServerIp),
    iptablesRule .filter .forward (some .udp) .incoming
      ([("-p", "udp".toList), ("-s", dhcpServerIp), ("--sport", "67:68".toList)] ++
        jump "ACCEPT")]⟩

/-! ## Address translation -/

def excludeFromNat (ips : List Text) (selfIp : Text) : Task :=
  ⟨ips.map fun ip =>
    iptablesRule .nat .postrouting none .outgoing ([("-d", ip), ("-s", selfIp)] ++ jump "ACCEPT")⟩

def staticNatLog (insideIp outsideIp snatLogPrefix dnatLogPrefix : Text) : Task :=
  ⟨[iptablesRule .nat .prerouting none .incoming
      ([("-d", outsideIp)] ++ jump "LOG" ++ [("--log-prefix", dnatLogPrefix)]),
    iptablesRule .nat .postrouting none .outgoing
      ([("-s", insideIp)] ++ jump "LOG" ++ [("--log-prefix", snatLogPrefix)])]⟩

def staticNat (insideIp outsideIp macAddress : Text) : Task :=
  ⟨[ebtablesRule .nat .prerouting .arp .incoming
      ([("-p", "arp".toList), ("--arp-ip-dst", outsideIp), ("--arp-opcode", "REQUEST".toList)] ++
        jump "arpreply" ++ [("--arpreply-mac", macAddress)]),
    iptablesRule .nat .postrouting none .outgoing
      ([("-s", insideIp)] ++ jump "SNAT" ++ [("--to", outsideIp)]),
    iptablesRule .nat .prerouting none .incoming
      ([("-d", outsideIp)] ++ jump "DNAT" ++ [("--to", insideIp)])]⟩

def translateMetadataAddress (vnicId metadataIp metadataPort : Text) : Task :=
  ⟨[iptablesRule .nat .prerouting (some .tcp) .outgoing
      ([("-m", "physdev".toList), ("--physdev-in", vnicId), ("-d", "169.254.169.254".toList),
        ("-p", "tcp".toList), ("--dport", "80".toList)] ++ jump "DNAT" ++
        [("--to-destination", metadataIp ++ ':' :: metadataPort)]),
    iptablesRule .filter .forward (some .tcp) .outgoing
      ([("-p", "tcp".toList), ("-d", metadataIp), ("--dport", metadataPort)] ++ jump "ACCEPT"),
    ebtablesRule .filter .forward .arp .incoming
      (arpRequest ++ [("--arp-ip-src", metadataIp)] ++ jump "ACCEPT")]⟩

def translateLoggingAddress (vnicId hostIp loggingIp loggingPort : Text) : Task :=
  ⟨[(Protocol.udp, "udp"), (Protocol.tcp, "tcp")].flatMap fun p =>
    [iptablesRule .nat .prerouting none .incoming
      ([("-m", "physdev".toList), ("--physdev-in", vnicId), ("-d", loggingIp),
        ("-p", p.2.toList), ("--dport", loggingPort)] ++ jump "DNAT" ++
        [("--to-destination", hostIp ++ ':' :: loggingPort)]),
    iptablesRule .filter .forward (some p.1) .outgoing
      ([("-p", p.2.toList), ("-d", hostIp), ("--dport", loggingPort)] ++ jump "ACCEPT")]⟩

/-! ## The tasks of a security group -/

/-- `to_sym` of a protocol `Tasks::SecurityGroup` makes a rule for. -/
def toSym (protocol : Text) : Option Protocol :=
  if protocol = "tcp".toList then some .tcp
  else if protocol = "udp".toList then some .udp
  else if protocol = "icmp".toList then some .icmp
  else none

/-- `Tasks::SecurityGroup.new(vnic, group_map)` -/
def securityGroup (ipv4New : Text → Option IPAddr) (vnic : VnicMap) (group : GroupMap) : Task :=
  ⟨(SecurityGroup.parsedRules group).flatMap fun rule =>
    (SecurityGroup.arpRules ipv4New vnic rule).map
        (fun r => ebtablesRule .filter .forward .arp .incoming r.rule) ++
      (SecurityGroup.ipRules rule).map fun r =>
        iptablesRule .filter .forward (r.protocol.bind toSym) .incoming r.rule⟩

/-! ## `netfilter_all_tasks` -/

structure Vnic extends VnicMap where
  macAddr : Text
  deriving DecidableEq, Repr

/-- `Network#to_netfilter_document` -/
structure NetworkMap where
  ipv4Gw : Option Text
  dnsServer : Option Text
  dhcpServer : Option Text
  metadataServer : Option Text
  metadataServerPort : Option Nat
  deriving DecidableEq, Repr

structure Hva where
  enableIptables : Bool
  enableEbtables : Bool
  packetDropLog : Bool
  useIpset : Bool
  useLoggingService : Bool
  loggingServiceHostIp : Option Text
  loggingServiceIp : Option Text
  loggingServicePort : Option Nat
  deriving DecidableEq, Repr

/-- `mac.unpack('A2'*6).join(delim)` -/
def cleanMac (mac : Text) : Text :=
  [':'].intercalate ((List.range 6).map fun i => (mac.drop (2 * i)).take 2)

def logPrefix (what : String) (vnic : VnicMap) (after : String) : Text :=
  what.toList ++ vnic.uuid ++ after.toList

/-- What a list of friends may hold: the document of a vnic, or a hash of such documents, which
has no address of its own. -/
inductive Friend
  | vnic (map : VnicMap)
  | vnics (maps : Hash Text VnicMap)

def Friend.address : Friend → Option Ipv4
  | .vnic map => map.address
  | .vnics _ => none

def netfilterArpIsolationTasks (hva : Hva) (vnic : VnicMap) (friends : List Friend) : List Task :=
  [acceptARPFromFriends vnic.addressText ((friends.filterMap Friend.address).map Ipv4.quad)
    hva.packetDropLog (logPrefix "A arp friend " vnic "")]

def netfilterSecgroupTasks (ipv4New : Text → Option IPAddr) (vnic : VnicMap) (secgroup : GroupMap) :
    List Task :=
  [securityGroup ipv4New vnic secgroup]

section
variable (hva : Hva) (vnic : Vnic)

def netfilterDropTasks : List Task :=
  [dropIpFromAnywhere, dropArpForwarding hva.packetDropLog (logPrefix "D arp " vnic.toVnicMap ": "),
    dropArpToHost]

def spoofingTasks : List Task :=
  [dropIpSpoofing vnic.addressText hva.packetDropLog (logPrefix "D arp sp " vnic.toVnicMap ": "),
    dropMacSpoofing (cleanMac vnic.macAddr) hva.packetDropLog
      (logPrefix "D ip sp " vnic.toVnicMap ": ")]

def netfilterIsolationTasks (friends : List VnicMap) : List Task :=
  let friendIps := (friends.filterMap VnicMap.address).map Ipv4.quad
  [acceptARPFromFriends vnic.addressText friendIps hva.packetDropLog
      (logPrefix "A arp friend " vnic.toVnicMap ""),
    acceptIpFromFriends friendIps] ++
    (if vnic.natIpLease.isSome && !hva.useIpset then [excludeFromNat friendIps vnic.addressText]
    else [])

def netfilterNatTasks (network : NetworkMap) : List Task :=
  (vnic.natIpLease.toList.flatMap fun lease =>
    (if hva.packetDropLog then
      [staticNatLog vnic.addressText lease.quad (logPrefix "SNAT " vnic.toVnicMap "")
        (logPrefix "DNAT " vnic.toVnicMap "")]
    else []) ++
      [staticNat vnic.addressText lease.quad (cleanMac vnic.macAddr)]) ++
    network.metadataServer.toList.map fun server =>
      translateMetadataAddress vnic.uuid server (Text.ofNat (network.metadataServerPort.getD 80))

def netfilterLoggingServiceTasks : List Task :=
  match hva.useLoggingService, hva.loggingServiceHostIp, hva.loggingServiceIp,
    hva.loggingServicePort with
  | true, some hostIp, some ip, some port =>
    [translateLoggingAddress vnic.uuid hostIp ip (Text.ofNat port)]
  | _, _, _, _ => []

/-- The rules of a group and the ARP rules for the groups that reference it. -/
def groupTasks (ipv4New : Text → Option IPAddr) (secgroup : GroupMap) : List Task :=
  netfilterSecgroupTasks ipv4New vnic.toVnicMap secgroup ++
    netfilterArpIsolationTasks hva vnic.toVnicMap
      (((Hash.values secgroup.referencers).flatMap Hash.values).eraseDups.map Friend.vnic)

def linkTasks (network : NetworkMap) : List Task :=
  netfilterDropTasks hva vnic ++
  (hva.loggingServiceHostIp.toList.map fun hostAddr =>
    acceptARPToHost hostAddr vnic.addressText hva.packetDropLog
      (logPrefix "A arp to_host " vnic.toVnicMap ": ")) ++
  (network.ipv4Gw.toList.map fun gw =>
    acceptARPFromGateway gw vnic.addressText hva.packetDropLog
      (logPrefix "A arp from_gw " vnic.toVnicMap ": ")) ++
  (network.dnsServer.toList.map fun dns =>
    acceptARPFromDNS dns vnic.addressText hva.packetDropLog
      (logPrefix "A arp from_dns " vnic.toVnicMap ": "))

def netfilterAllTasks (ipv4New : Text → Option IPAddr) (network : NetworkMap)
    (friends : List VnicMap) (securityGroups : List GroupMap) : List Task :=
  -- General data link layer tasks
  linkTasks hva vnic network ++
  spoofingTasks hva vnic ++
  (network.ipv4Gw.toList.map fun gw =>
    acceptGARPFromGateway gw hva.packetDropLog (logPrefix "A garp from_gw " vnic.toVnicMap ": ")) ++
  (hva.loggingServiceHostIp.toList.map fun hostAddr =>
    acceptArpBroadcast hostAddr hva.packetDropLog (logPrefix "A arp bc " vnic.toVnicMap ": ")) ++
  -- General ip layer tasks
  [acceptIcmpRelatedEstablished, acceptTcpRelatedEstablished, acceptUdpEstablished] ++
  network.dnsServer.toList.map acceptWakameDNSOnly ++
  network.dhcpServer.toList.map acceptWakameDHCPOnly ++
  -- VM isolation based
  netfilterIsolationTasks hva vnic friends ++
  netfilterNatTasks hva vnic network ++
  netfilterLoggingServiceTasks hva vnic ++
  -- Security group rules
  securityGroups.flatMap (groupTasks hva vnic ipv4New) ++
  [acceptARPReply vnic.addressText (cleanMac vnic.macAddr) hva.packetDropLog
    (logPrefix "A arp reply " vnic.toVnicMap ": ")]

end

end TaskManager

end WakameVdc
