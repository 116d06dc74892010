import WakameVdc.Lib.FlowTable
import WakameVdc.Lib.Hash
import WakameVdc.Lib.Text

/-!
# The OpenFlow controller

One bridge of a node: the switch the controller keeps its ports and networks in, and the
flow table `ovs-ofctl` writes (`edge_networking/openflow`). The work of
`node_modules/service_openflow.rb` is done job by job.
-/

namespace WakameVdc

open Lib

namespace OpenFlow

def ofppMax : Nat := 0xff00
def ofppLocal : Nat := 65534

def tableClassifier : Nat := 0
def tableRouteDirectly : Nat := 3
def tableLoadDst : Nat := 4
def tableLoadSrc : Nat := 5
def tableVirtualSrc : Nat := 6
def tableVirtualDst : Nat := 7
def tableArpAntispoof : Nat := 10
def tableArpRoute : Nat := 11
def tableMetadataOutgoing : Nat := 12
def tableMetadataIncoming : Nat := 13
def tableMacRoute : Nat := 14

/-! ## Flows -/

/-- `match_tags`, as far as flows use them. -/
inductive Tag
  | ip
  | arp
  | icmp
  | icmpType (n : Int)
  | icmpCode (n : Int)
  | tcp
  | udp
  | dlDst (mac : Text)
  | dlSrc (mac : Text)
  | dlType (n : Nat)
  | nwDst (ip : Text)
  | nwSrc (ip : Text)
  | nwProto (n : Nat)
  | tpDst (port : Option Int)
  | tpSrc (port : Option Int)
  | arpSha (mac : Text)
  | arpTha (mac : Text)
  | inPort (n : Nat)
  | reg1 (n : Nat)
  | reg2 (n : Nat)
  deriving DecidableEq, Repr

/-- How specific a match is, `ovs-ofctl` decides. -/
structure Match where
  tags : List Tag
  deriving DecidableEq, Repr

inductive Nxm
  | inPort
  | ethSrc
  | ethDst
  | ipSrc
  | ipDst
  | tcpSrc
  | tcpDst
  | udpSrc
  | udpDst
  | reg0
  | reg2
  deriving DecidableEq, Repr

/-- The argument of `learn`: the flow it makes, with the fields taken from others. -/
structure Learn where
  priority : Nat
  idleTimeout : Nat
  table : Nat
  tags : List Tag
  fields : List (Nxm × Nxm)
  output : Nxm
  deriving DecidableEq, Repr

/-- `action_tags` -/
inductive Action
  | controller
  | drop
  | learn (l : Learn)
  | local
  | loadReg0 (n : Nat)
  | loadReg1 (n : Nat)
  | loadReg2 (n : Nat)
  | modDlDst (mac : Text)
  | output (port : Nat)
  | outputReg0
  | resubmit (table : Nat)
  deriving DecidableEq, Repr

abbrev Flow := Entry Nat Match (List Action)

def Flow.new (table priority : Nat) (tags : List Tag) (actions : List Action) : Flow :=
  ⟨table, priority, ⟨tags⟩, actions⟩

def broadcast : Text := "ff:ff:ff:ff:ff:ff".toList

/-! ## Ports -/

/-- What the name of a port begins with. `vnetId` is the number after `t-…-`, or zero. -/
inductive PortName
  | eth
  | vif
  | tunnel (vnetId : Nat)
  | other
  deriving DecidableEq, Repr

structure PortInfo where
  number : Nat
  name : PortName
  hwAddr : Text

/-- `earlier` counts the flows that were active when the last instance was started; the
source does not keep it. -/
structure Port where
  info : PortInfo
  hasInstance : Bool
  ip : Option Text
  mac : Option Text
  networks : List Nat
  activeFlows : List Flow
  earlier : Nat

namespace Port

def create (info : PortInfo) : Port := ⟨info, false, none, none, [], [], 0⟩

/-- The flows of an eth port or of a tunnel, and of the instance on a vif. -/
def flows (p : Port) : List Flow :=
  if p.info.name = .vif ∧ p.hasInstance = false then [] else p.activeFlows.drop p.earlier

end Port

def initEth (number : Nat) : List Flow :=
  [.new tableClassifier 6 [.udp, .inPort ofppLocal, .dlDst broadcast, .nwSrc "0.0.0.0".toList,
      .nwDst "255.255.255.255".toList, .tpSrc (some 68), .tpDst (some 67)] [.output number],
    .new tableClassifier 5 [.udp, .inPort number, .dlDst broadcast, .nwSrc "0.0.0.0".toList,
      .nwDst "255.255.255.255".toList, .tpSrc (some 68), .tpDst (some 67)] [.local],
    .new tableClassifier 2 [.inPort number] [.resubmit tableRouteDirectly],
    .new tableMacRoute 0 [] [.output number],
    .new tableRouteDirectly 0 [] [.output number],
    .new tableLoadDst 0 [] [.loadReg0 number, .resubmit tableLoadSrc],
    .new tableLoadSrc 4 [.inPort number] [.outputReg0],
    .new tableArpAntispoof 1 [.arp, .inPort number] [.resubmit tableArpRoute],
    .new tableArpRoute 0 [.arp] [.output number],
    .new tableMetadataIncoming 2 [.inPort ofppLocal] [.output number],
    .new tableMetadataOutgoing 4 [.inPort number] [.local]]

def initGreTunnel (number network : Nat) : List Flow :=
  [.new tableClassifier 8 [.inPort number]
    [.loadReg1 network, .loadReg2 number, .resubmit tableVirtualSrc]]

/-! ## Instances on physical networks -/

section
variable (number : Nat) (hw ip : Text)

def initInstanceNet : List Flow :=
  [.new tableMacRoute 1 [.dlDst hw] [.output number],
    .new tableClassifier 2 [.inPort number, .dlSrc hw] [.resubmit tableRouteDirectly],
    .new tableRouteDirectly 1 [.dlDst hw] [.output number],
    .new tableLoadDst 1 [.dlDst hw] [.drop]]

def installArpAntispoof : List Flow :=
  [.new tableArpAntispoof 3 [.arp, .inPort number, .arpSha hw, .nwSrc ip]
      [.resubmit tableArpRoute],
    .new tableArpAntispoof 2 [.arp, .arpSha hw] [.drop],
    .new tableArpAntispoof 2 [.arp, .nwSrc ip] [.drop],
    .new tableArpRoute 2 [.arp, .dlDst hw, .nwDst ip] [.output number]]

def installCatchIp (nwProto : Nat) (tags : List Tag) : List Flow :=
  [.new tableLoadDst 3 (tags ++ [Tag.inPort number, .dlType 0x0800, .nwProto nwProto]) [.controller]]

/-- `ip =~ /\/0$/` -/
def anywhere (ip : Text) : Bool := "/0".toList.isSuffixOf ip

def installTransport (incoming outgoing : List Tag) : List Flow :=
  [.new tableLoadDst 3 ([Tag.dlDst hw, .nwDst ip] ++ incoming)
      [.loadReg0 number, .resubmit tableLoadSrc],
    .new tableLoadSrc 3 ([Tag.inPort number, .dlSrc hw, .nwSrc ip] ++ outgoing) [.outputReg0]]

def installStaticDTransport (nwProto : Nat) (remoteIp : Text) (remotePort : Int) : List Flow :=
  installTransport number hw ip
    ([Tag.dlType 0x0800, .nwProto nwProto] ++
      (if anywhere remoteIp then [] else [Tag.nwSrc remoteIp]) ++
      if remotePort = 0 then [] else [Tag.tpSrc (some remotePort)])
    ([Tag.dlType 0x0800, .nwProto nwProto] ++
      (if anywhere remoteIp then [] else [Tag.nwDst remoteIp]) ++
      if remotePort = 0 then [] else [Tag.tpDst (some remotePort)])

def installStaticTransport (nwProto : Nat) (localPort : Int) (remoteIp : Text) : List Flow :=
  installTransport number hw ip
    ([Tag.dlType 0x0800, .nwProto nwProto] ++
      (if anywhere remoteIp then [] else [Tag.nwSrc remoteIp]) ++
      if localPort = 0 then [] else [Tag.tpDst (some localPort)])
    ([Tag.dlType 0x0800, .nwProto nwProto] ++
      (if anywhere remoteIp then [] else [Tag.nwDst remoteIp]) ++
      if localPort = 0 then [] else [Tag.tpSrc (some localPort)])

def installStaticIcmp (icmpType icmpCode : Int) (srcIp : Text) : List Flow :=
  let matchType : List Tag := [Tag.dlType 0x0800, .nwProto 1] ++
    (if icmpType ≥ 0 then [Tag.icmpType icmpType] else []) ++
    if icmpCode ≥ 0 then [Tag.icmpCode icmpCode] else []
  installTransport number hw ip
    (matchType ++ if anywhere srcIp then [] else [Tag.nwSrc srcIp])
    (matchType ++ if anywhere srcIp then [] else [Tag.nwDst srcIp])

def installLocal (nwProto idleTimeout : Nat) (ports : List (Nxm × Nxm)) : List Flow :=
  let learnOutgoing : Learn :=
    ⟨2, idleTimeout, tableLoadDst, [.dlType 0x0800, .nwProto nwProto],
      [(Nxm.inPort, Nxm.inPort), (Nxm.ethSrc, Nxm.ethSrc), (Nxm.ethDst, Nxm.ethDst),
        (Nxm.ipSrc, Nxm.ipSrc), (Nxm.ipDst, Nxm.ipDst)] ++ ports.map fun p => (p.1, p.1), .reg0⟩
  let learnIncoming : Learn :=
    ⟨2, idleTimeout, tableLoadDst, [.dlType 0x0800, .nwProto nwProto],
      [(Nxm.inPort, Nxm.reg0), (Nxm.ethSrc, Nxm.ethDst), (Nxm.ethDst, Nxm.ethSrc),
        (Nxm.ipSrc, Nxm.ipDst), (Nxm.ipDst, Nxm.ipSrc)] ++ ports, .inPort⟩
  [.new tableLoadSrc 1
    [.dlType 0x0800, .nwProto nwProto, .inPort number, .dlSrc hw, .nwSrc ip]
    [.learn learnOutgoing, .learn learnIncoming, .outputReg0]]

def installLocalIcmp : List Flow := installLocal number hw ip 1 60 []

inductive Transport
  | tcp
  | udp

def installLocalTransport : Transport → List Flow
  | .tcp => installLocal number hw ip 6 7200 [(.tcpSrc, .tcpDst), (.tcpDst, .tcpSrc)]
  | .udp => installLocal number hw ip 17 600 [(.udpSrc, .udpDst), (.udpDst, .udpSrc)]

/-- A rule of a security group, by its `ip_protocol`. -/
inductive Rule
  | transport (ipFport ipTport : Int) (ipSource : Text)
  | icmp (icmpType icmpCode : Int) (ipSource : Text)
  | other

/-- Also the rules for udp are installed for tcp; ranges of ports are left out. -/
def Rule.install : Rule → List Flow
  | .transport ipFport ipTport ipSource =>
    if ipFport = ipTport then installStaticTransport number hw ip 6 ipFport ipSource
    else if ipFport ≤ 1 ∧ ipTport ≥ 65535 then installStaticTransport number hw ip 6 0 ipSource
    else []
  | .icmp icmpType icmpCode ipSource =>
    installStaticIcmp number hw ip icmpType icmpCode ipSource
  | .other => []

/-- `none` if the collector knows no groups for the vnic. -/
def addSecurityGroup (groups : Option (List (List Rule))) : List Flow :=
  (groups.getD []).flatMap fun rules => rules.flatMap (Rule.install number hw ip)

/-! ## Instances on virtual networks -/

def initInstanceVnet (network : Nat) : List Flow :=
  [.new tableClassifier 8 [.inPort number] [.loadReg1 network, .resubmit tableVirtualSrc],
    .new tableVirtualSrc 7 [.inPort number, .ip, .dlSrc hw, .nwSrc ip] [.resubmit tableVirtualDst],
    .new tableVirtualSrc 7 [.inPort number, .ip, .dlSrc hw, .nwSrc "0.0.0.0".toList]
      [.resubmit tableVirtualDst],
    .new tableVirtualSrc 9 [.inPort number, .arp, .dlSrc hw, .nwSrc ip, .arpSha hw]
      [.resubmit tableVirtualDst],
    .new tableVirtualDst 2 [.reg1 network, .dlDst hw] [.output number]]

end

end OpenFlow

end WakameVdc
