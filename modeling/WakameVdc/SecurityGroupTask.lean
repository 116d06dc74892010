import WakameVdc.Lib.Hash
import WakameVdc.SecurityGroupRule

/-!
# The tasks of a security group

`edge_networking/tasks/security_group.rb`. A netfilter rule is kept as the list
of its options, each with its argument, in the order of its text.
-/

namespace WakameVdc

open Lib

/-- The document of a vnic, `NetworkVif#to_netfilter_document`. -/
structure VnicMap where
  uuid : Text
  address : Option Ipv4
  natIpLease : Option Ipv4
  instanceUuid : Option Text
  networkId : Option Text
  securityGroups : List Text
  deriving DecidableEq, Repr

/-- The document of a group, `SecurityGroup#to_netfilter_document`. -/
structure GroupMap where
  uuid : Text
  rules : List ParsedRule
  localVnics : Hash Text VnicMap
  foreignVnics : Hash Text VnicMap
  referencees : Hash Text (Hash Text VnicMap)
  referencers : Hash Text (Hash Text VnicMap)

def VnicMap.addressText (vnic : VnicMap) : Text := (vnic.address.map Ipv4.quad).getD []

abbrev Options := List (String × Text)

structure IptablesRule where
  protocol : Option Text
  rule : Options
  deriving DecidableEq, Repr

structure EbtablesRule where
  protocol : Text
  rule : Options
  deriving DecidableEq, Repr

namespace SecurityGroup

/-- `ip_source.scan(/sg-\w+/).first` -/
def refGroupId : Text → Option Text
  | [] => none
  | c :: t =>
    match c, t with
    | 's', 'g' :: '-' :: w :: u =>
      if Text.isWord w then some ('s' :: 'g' :: '-' :: (w :: u).takeWhile Text.isWord)
      else refGroupId ('g' :: '-' :: w :: u)
    | _, t => refGroupId t

def expandRule (group : GroupMap) (rule : ParsedRule) : List ParsedRule :=
  match refGroupId rule.ipSource with
  | none => [rule]
  | some g =>
    match group.referencees.lookup g with
    | none => []
    | some vnics => vnics.entries.map fun e =>
        { rule with
          protocol := some "ip4".toList, ipSource := e.2.addressText ++ "/32".toList }

def parsedRules (group : GroupMap) : List ParsedRule :=
  (group.rules.flatMap (expandRule group)).eraseDups

/-- The text of an interpolated value; nil is empty. -/
def interpolate (n : Option Int) : Text := (n.map Text.ofInt).getD []

/-- The ebtables rule for one parsed rule; a source `IPAddress::IPv4` does not
read is only reported. -/
def arpRules (ipv4New : Text → Option IPAddr) (vnic : VnicMap) (rule : ParsedRule) :
    List EbtablesRule :=
  match ipv4New rule.ipSource with
  | none => []
  | some ip =>
    if ip.u32 = 0 then
      [⟨"arp".toList, [("--protocol", "arp".toList), ("--arp-opcode", "Request".toList),
        ("--arp-ip-dst", vnic.addressText), ("-j", "ACCEPT".toList)]⟩]
    else
      [⟨"arp".toList, [("--protocol", "arp".toList), ("--arp-opcode", "Request".toList),
        ("--arp-ip-src", rule.ipSource), ("--arp-ip-dst", vnic.addressText),
        ("-j", "ACCEPT".toList)]⟩]

def ipRules (rule : ParsedRule) : List IptablesRule :=
  if rule.ipProtocol = "tcp".toList ∨ rule.ipProtocol = "udp".toList then
    if rule.ipFport = rule.ipTport then
      [⟨some rule.ipProtocol, [("-p", rule.ipProtocol), ("-s", rule.ipSource),
        ("--dport", interpolate rule.ipFport), ("-j", "ACCEPT".toList)]⟩]
    else
      [⟨some rule.ipProtocol, [("-p", rule.ipProtocol), ("-s", rule.ipSource),
        ("--dport", interpolate rule.ipFport ++ ':' :: interpolate rule.ipTport),
        ("-j", "ACCEPT".toList)]⟩]
  else if rule.ipProtocol = "icmp".toList then
    if rule.icmpType = some (-1) ∧ rule.icmpCode = some (-1) then
      [⟨some rule.ipProtocol, [("-p", rule.ipProtocol), ("-s", rule.ipSource),
        ("-j", "ACCEPT".toList)]⟩]
    else
      [⟨some rule.ipProtocol, [("-p", rule.ipProtocol), ("-s", rule.ipSource),
        ("--icmp-type", interpolate rule.icmpType ++ '/' :: interpolate rule.icmpCode),
        ("-j", "ACCEPT".toList)]⟩]
  else []

/-- The rules of `Tasks::SecurityGroup.new(vnic, group_map)`. -/
def taskArpRules (ipv4New : Text → Option IPAddr) (vnic : VnicMap) (group : GroupMap) :
    List EbtablesRule :=
  (parsedRules group).flatMap (arpRules ipv4New vnic)

def taskIpRules (group : GroupMap) : List IptablesRule := (parsedRules group).flatMap ipRules

end SecurityGroup

/-! ## What the commands match -/

/-- A packet as far as the generated rules look at it. -/
inductive Packet
  | tcp (src : Ipv4) (dport : BitVec 16)
  | udp (src : Ipv4) (dport : BitVec 16)
  | icmp (src : Ipv4) (type code : BitVec 8)
  deriving DecidableEq, Repr

namespace Packet

def protocol : Packet → Text
  | .tcp .. => "tcp".toList
  | .udp .. => "udp".toList
  | .icmp .. => "icmp".toList

def src : Packet → Ipv4
  | .tcp src _ => src
  | .udp src _ => src
  | .icmp src _ _ => src

/-- The destination port; icmp has none. -/
def dport : Packet → Option Nat
  | .tcp _ dport => some dport.toNat
  | .udp _ dport => some dport.toNat
  | .icmp .. => none

def icmpTypeCode : Packet → Option (Nat × Nat)
  | .icmp _ type code => some (type.toNat, code.toNat)
  | _ => none

end Packet

namespace Iptables

/-- `port[:port]` -/
def portRange (t : Text) : Option (Nat × Nat) :=
  match t.splitOn ':' with
  | [p] => (Text.nat? p).map fun p => (p, p)
  | [f, t] =>
    match Text.nat? f, Text.nat? t with
    | some f, some t => some (f, t)
    | _, _ => none
  | _ => none

/-- `type/code`; only numbers without a sign are accepted. -/
def typeCode (t : Text) : Option (Nat × Nat) :=
  match t.splitOn '/' with
  | [a, b] =>
    match Text.nat? a, Text.nat? b with
    | some a, some b => some (a, b)
    | _, _ => none
  | _ => none

/-- The packets an option lets through; `none` when iptables refuses it. -/
def matchOption : String × Text → Option (Packet → Bool)
  | ("-p", x) => some fun pkt => pkt.protocol == x
  | ("-s", x) => (Ipv4.Prefix.ofText x).map fun b pkt => b.contains pkt.src
  | ("--dport", x) => (portRange x).map fun r pkt =>
      pkt.dport.any fun p => r.1 ≤ p && p ≤ r.2
  | ("--icmp-type", x) => (typeCode x).map fun tc pkt => pkt.icmpTypeCode == some tc
  | ("-j", x) => if x = "ACCEPT".toList then some fun _ => true else none
  | _ => none

/-- A rule is installed when every option is accepted, and matches the packets
all of them let through. -/
def ruleMatches (rule : Options) (pkt : Packet) : Bool :=
  rule.all fun o => (matchOption o).isSome && (matchOption o).all fun m => m pkt

def accepts (rules : List IptablesRule) (pkt : Packet) : Bool :=
  rules.any fun r => ruleMatches r.rule pkt

end Iptables

end WakameVdc
