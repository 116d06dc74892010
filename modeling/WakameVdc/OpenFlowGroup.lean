import WakameVdc.OpenFlow
import WakameVdc.SecurityGroupPacket
import WakameVdc.SecurityGroupSyntax

/-!
# Security groups on a switch

Which frames the flows match that `add_security_group` installs for the groups of a vif on a
physical network, and what `ovs-ofctl` makes of flows it cannot read.
-/

namespace WakameVdc

open Lib

/-! ## Frames -/

def Packet.nwProto : Packet → Nat
  | .tcp .. => 6
  | .udp .. => 17
  | .icmp .. => 1

/-- A frame that holds an IPv4 packet, as far as tags look at it. Its registers are zero. -/
structure Frame where
  inPort : Nat
  dlSrc : Text
  dlDst : Text
  nwDst : Ipv4
  tpSrc : BitVec 16
  packet : Packet

namespace OpenFlow

/-- `ovs-ofctl` reads the value of the tag. -/
def Tag.readable : Tag → Bool
  | .nwDst t | .nwSrc t => (Ipv4.Prefix.ofText t).isSome
  | .icmpType n | .icmpCode n => 0 ≤ n && n < 256
  | .tpDst p | .tpSrc p => p.any fun p => 0 ≤ p && p < 65536
  | _ => true

/-- The frames a tag leaves; none, if its value cannot be read. -/
def Tag.admits (frame : Frame) : Tag → Bool
  | .ip => true
  | .arp => false
  | .icmp => frame.packet.nwProto == 1
  | .icmpType n => frame.packet.icmpTypeCode.any fun tc => (tc.1 : Int) == n
  | .icmpCode n => frame.packet.icmpTypeCode.any fun tc => (tc.2 : Int) == n
  | .tcp => frame.packet.nwProto == 6
  | .udp => frame.packet.nwProto == 17
  | .dlDst mac => frame.dlDst == mac
  | .dlSrc mac => frame.dlSrc == mac
  | .dlType n => n == 0x0800
  | .nwDst t => (Ipv4.Prefix.ofText t).any fun b => b.contains frame.nwDst
  | .nwSrc t => (Ipv4.Prefix.ofText t).any fun b => b.contains frame.packet.src
  | .nwProto n => frame.packet.nwProto == n
  | .tpDst p => p.any fun p => frame.packet.dport.any fun (d : Nat) => (d : Int) == p
  | .tpSrc p => p.any fun p => (frame.tpSrc.toNat : Int) == p
  | .arpSha _ => false
  | .arpTha _ => false
  | .inPort n => frame.inPort == n
  | .reg1 n => n == 0
  | .reg2 n => n == 0

def readable (f : Flow) : Bool := f.pattern.tags.all Tag.readable

def admits (f : Flow) (frame : Frame) : Bool := f.pattern.tags.all (Tag.admits frame)

def accepts (number : Nat) (flows : List Flow) (frame : Frame) : Bool :=
  flows.any fun f => f.table == tableLoadDst && f.actions.contains (.loadReg0 number) &&
    admits f frame

/-- What becomes of the flows of a batch. They are all installed if all of them can be read.
If not, which of the others are installed depends on the version. -/
structure OvsOfctl where
  installs : List Flow → List Flow
  installs_all : ∀ fs, (∀ f ∈ fs, readable f = true) → installs fs = fs
  mem_installs : ∀ fs, ∀ f ∈ installs fs, f ∈ fs ∧ readable f = true

/-- Nothing of a batch is installed unless all of it can be read. -/
def OvsOfctl.whole : OvsOfctl where
  installs fs := if ∀ f ∈ fs, readable f = true then fs else []
  installs_all _ h := if_pos h
  mem_installs fs f hf := by
    split at hf
    · rename_i h
      exact ⟨hf, h f hf⟩
    · cases hf

def OvsOfctl.single : OvsOfctl where
  installs fs := fs.filter readable
  installs_all _ h := List.filter_eq_self.mpr h
  mem_installs _ _ hf := List.mem_filter.mp hf

/-! ## The groups of a vif -/

/-- The rule as `add_security_group` takes it apart; `parse_rule` sets the numbers of its
protocol. -/
def Rule.ofParsed (rule : ParsedRule) : Rule :=
  if rule.ipProtocol = "tcp".toList ∨ rule.ipProtocol = "udp".toList then
    .transport (rule.ipFport.getD 0) (rule.ipTport.getD 0) rule.ipSource
  else if rule.ipProtocol = "icmp".toList then
    .icmp (rule.icmpType.getD 0) (rule.icmpCode.getD 0) rule.ipSource
  else .other

/-- A vif with an instance: its port on the switch, and its leases. -/
structure Vif where
  number : Nat
  mac : Text
  address : Ipv4

def ruleFlows (vif : Vif) (rule : ParsedRule) : List Flow :=
  (Rule.ofParsed rule).install vif.number vif.mac (Ipv4.quad vif.address)

def groupFlows (vif : Vif) (groups : List GroupMap) : List Flow :=
  addSecurityGroup vif.number vif.mac (Ipv4.quad vif.address)
    (some (groups.map fun group => group.rules.map Rule.ofParsed))

def Frame.Towards (frame : WakameVdc.Frame) (vif : Vif) : Prop :=
  frame.dlDst = vif.mac ∧ frame.nwDst = vif.address

/-- The switch accepts the packets that the netfilter tasks of the groups accept. -/
def SameVerdict (vif : Vif) (groups : List GroupMap) : Prop :=
  ∀ (ovs : OvsOfctl) (frame : Frame), Frame.Towards frame vif →
    (accepts vif.number (ovs.installs (groupFlows vif groups)) frame = true ↔
      ∃ group ∈ groups, Iptables.accepts (SecurityGroup.taskIpRules group) frame.packet = true)

/-! ## Kinds of rules -/

def Transport.text : Transport → Text
  | .tcp => "tcp".toList
  | .udp => "udp".toList

/-- The packets a rule is about, its source apart. `anyType` is what the parser makes of a
type without a code. -/
inductive Kind
  | port (p : Transport) (n : Nat)
  | anyPort (p : Transport)
  | anyIcmp
  | anyType (code : Nat)
  | icmp (type code : Nat)

inductive HasKind (rule : ParsedRule) : Kind → Prop
  | port {p : Transport} {n : Nat} (proto : rule.ipProtocol = p.text)
      (fport : rule.ipFport = some (n : Int)) (tport : rule.ipTport = some (n : Int))
      (low : 1 ≤ n) (high : n < 65536) : HasKind rule (.port p n)
  | anyPort {p : Transport} (proto : rule.ipProtocol = p.text) (fport : rule.ipFport = some 1)
      (tport : rule.ipTport = some 65535) : HasKind rule (.anyPort p)
  | anyIcmp (proto : rule.ipProtocol = "icmp".toList) (type : rule.icmpType = some (-1))
      (code : rule.icmpCode = some (-1)) : HasKind rule .anyIcmp
  | anyType {c : Nat} (proto : rule.ipProtocol = "icmp".toList) (type : rule.icmpType = some (-1))
      (code : rule.icmpCode = some (c : Int)) (high : c < 256) : HasKind rule (.anyType c)
  | icmp {t c : Nat} (proto : rule.ipProtocol = "icmp".toList)
      (type : rule.icmpType = some (t : Int)) (code : rule.icmpCode = some (c : Int))
      (typeHigh : t < 16) (codeHigh : c < 256) : HasKind rule (.icmp t c)

namespace Kind

def task : Kind → Packet → Prop
  | .port p n, pkt => pkt.protocol = p.text ∧ pkt.dport = some n
  | .anyPort p, pkt => pkt.protocol = p.text ∧ ∃ d, pkt.dport = some d ∧ 1 ≤ d
  | .anyIcmp, pkt => pkt.protocol = "icmp".toList
  | .anyType _, _ => False
  | .icmp t c, pkt => pkt.icmpTypeCode = some (t, c)

def flow : Kind → Packet → Prop
  | .port _ n, pkt => pkt.protocol = "tcp".toList ∧ pkt.dport = some n
  | .anyPort _, pkt => pkt.protocol = "tcp".toList
  | .anyIcmp, pkt => pkt.protocol = "icmp".toList
  | .anyType c, pkt => ∃ t, pkt.icmpTypeCode = some (t, c)
  | .icmp t c, pkt => pkt.icmpTypeCode = some (t, c)

end Kind

/-! ## When the verdicts agree -/

section
variable (ipAddress : Text → Option IPAddr) (groups : List GroupMap)

/-- The rules of a group are parsed lines, each about one port or about all of them. -/
structure Supported (group : GroupMap) : Prop where
  parsed : ∀ rule ∈ group.rules, ∃ line, SecurityGroup.parseRule ipAddress line = .ok (some rule)
  ports : ∀ rule ∈ group.rules, rule.ipFport = rule.ipTport ∨
    rule.ipFport = some 1 ∧ rule.ipTport = some 65535

def AnyType (rule : ParsedRule) : Prop :=
  rule.ipProtocol = "icmp".toList ∧ rule.icmpType = some (-1) ∧ rule.icmpCode ≠ some (-1)

def AnyIcmp (rule : ParsedRule) : Prop :=
  rule.ipProtocol = "icmp".toList ∧ rule.icmpType = some (-1) ∧ rule.icmpCode = some (-1)

/-- All rules are about addresses, and none is of a kind the two sides differ on, unless
another rule makes up for it. -/
structure Addressed : Prop where
  address : ∀ group ∈ groups, ∀ rule ∈ group.rules, SecurityGroup.refGroupId rule.ipSource = none
  tcp : ∀ group ∈ groups, ∀ rule ∈ group.rules, rule.ipProtocol ≠ "udp".toList
  port : ∀ group ∈ groups, ∀ rule ∈ group.rules, rule.ipFport = rule.ipTport
  covered : ∀ group ∈ groups, ∀ rule ∈ group.rules, AnyType rule →
    ∀ x ∈ SecurityGroup.sourceSet rule.ipSource, ∃ group ∈ groups, ∃ rule ∈ group.rules,
      AnyIcmp rule ∧ x ∈ SecurityGroup.sourceSet rule.ipSource

/-- All rules are about groups, and netfilter accepts nothing for any of them. -/
def Silent : Prop :=
  ∀ group ∈ groups, ∀ rule ∈ group.rules, (SecurityGroup.refGroupId rule.ipSource).isSome = true ∧
    (AnyType rule ∨ SecurityGroup.ruleSources group rule = ∅)

end

end OpenFlow

end WakameVdc
