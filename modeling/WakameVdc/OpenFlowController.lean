import WakameVdc.OpenFlow

/-!
# The jobs of the OpenFlow controller

The ports, networks and services of one switch, and what becomes of its flow table when the
controller handles an event (`controller.rb`, `switch.rb`, `network*.rb` and `service*.rb` of
`edge_networking/openflow`, and `node_modules/service_openflow.rb`). A job that raises leaves
what it did before.
-/

namespace WakameVdc

open Lib

namespace OpenFlow

/-! ## What the collector answers -/

/-- A service, by its name. `external-ip` is stored under another name than it is looked up by,
and installs nothing. -/
structure ServiceMap where
  name : Text
  macAddr : Option Text
  address : Option Text
  incomingPort : Option Int

structure NetworkMap where
  id : Nat
  virtual : Bool
  /-- `create_network` has nothing to raise about. -/
  valid : Bool
  services : List ServiceMap
  ipv4Gw : Option Text
  /-- `dhcp_server`, or the first address of the network. -/
  dhcpAddress : Text
  dnsServer : Option Text
  metadata : Option (Text × Int)
  broadcastAddr : Text

structure NicMap where
  network : NetworkMap
  address : Option Text
  mac : Text
  dnsServer : Option Text
  dhcpServer : Option Text
  groups : Option (List (List Rule))

/-- `subnet` is the eth port of the switch if MAC subnets are enabled. -/
structure Env where
  localHw : Text
  bridgeIpv4 : Option Text
  enableGre : Bool
  subnet : Option Nat
  physicalNetworks : List NetworkMap

/-! ## The switch -/

structure Service where
  ip : Option Text
  activeFlows : List Flow

structure Network where
  id : Nat
  virtual : Bool
  ports : List Nat
  localPorts : List Nat
  broadcastAddr : Text
  services : Hash Text Service

/-- `flooded` tells whether the flood flows of the physical networks were made yet. -/
structure Switch where
  ports : Hash Nat Port
  networks : Hash Nat Network
  ethPorts : List Nat
  flooded : Bool
  ready : Bool
  table : List Flow

def Switch.empty : Switch := ⟨∅, ∅, [], false, false, []⟩

/-! ## Flows of the switch and of its networks -/

def baseFlows (env : Env) : List Flow :=
  [Flow.new tableClassifier 3 [.arp] [.resubmit tableArpAntispoof],
    .new tableClassifier 3 [.icmp] [.resubmit tableLoadDst],
    .new tableClassifier 3 [.tcp] [.resubmit tableLoadDst],
    .new tableClassifier 3 [.udp] [.resubmit tableLoadDst],
    .new tableClassifier 2 [.inPort ofppLocal] [.resubmit tableRouteDirectly],
    .new tableMacRoute 1 [.dlDst env.localHw] [.local],
    .new tableRouteDirectly 1 [.dlDst env.localHw] [.local],
    .new tableLoadDst 1 [.dlDst env.localHw] [.loadReg0 ofppLocal, .resubmit tableLoadSrc],
    .new tableLoadSrc 6 [.inPort ofppLocal] [.outputReg0],
    .new tableLoadSrc 5 [.dlSrc env.localHw] [.drop]] ++
  env.bridgeIpv4.toList.map (fun ip => Flow.new tableLoadSrc 5 [.ip, .nwSrc ip] [.drop]) ++
  [Flow.new tableArpAntispoof 1 [.arp, .inPort ofppLocal] [.resubmit tableArpRoute],
    .new tableArpAntispoof 0 [.arp] [.drop],
    .new tableArpRoute 1 [.arp, .dlDst env.localHw] [.local]]

def physicalFloodFlows (ethPorts : List Nat) : List Flow :=
  [.new tableMacRoute 1 [.dlDst "FF:FF:FF:FF:FF:FF".toList] (.local :: ethPorts.map .output),
    .new tableRouteDirectly 1 [.dlDst "FF:FF:FF:FF:FF:FF".toList] (.local :: ethPorts.map .output),
    .new tableLoadDst 1 [.dlDst "FF:FF:FF:FF:FF:FF".toList]
      (.loadReg0 ofppLocal :: .resubmit tableLoadSrc ::
        ethPorts.flatMap fun p => [.loadReg0 p, .resubmit tableLoadSrc]),
    .new tableArpRoute 1 [.arp, .dlDst "FF:FF:FF:FF:FF:FF".toList,
      .arpTha "00:00:00:00:00:00".toList] (.local :: ethPorts.map .output)]

namespace Network

def create (map : NetworkMap) : Network := ⟨map.id, map.virtual, [], [], map.broadcastAddr, ∅⟩

def installVirtualNetwork (n : Network) : List Flow :=
  [.new tableVirtualSrc 8 [.arp, .reg1 n.id, .reg2 0] [.drop],
    .new tableVirtualSrc 4 [.reg1 n.id, .reg2 0] [.drop],
    .new tableVirtualSrc 2 [.reg1 n.id, .arp]
      [.learn ⟨1, 36000, tableVirtualDst, [.reg1 n.id, .reg2 0], [(.ethDst, .ethSrc)], .reg2⟩,
        .resubmit tableVirtualDst],
    .new tableVirtualSrc 0 [.reg1 n.id] [.resubmit tableVirtualDst]]

def installMacSubnet (env : Env) (n : Network) : List Flow :=
  if env.subnet.isSome then
    [.new tableClassifier 7 [.dlDst n.broadcastAddr] [.drop],
      .new tableVirtualSrc 10 [.dlDst n.broadcastAddr] [.drop]]
  else []

def installFlows (env : Env) (n : Network) : List Flow :=
  n.installVirtualNetwork ++ n.installMacSubnet env

/-- The flood flows of a virtual network; no other host has told its address. -/
def floodFlows (env : Env) (n : Network) : List Flow :=
  [Flow.new tableVirtualDst 0 [.reg1 n.id, .dlDst broadcast] (n.localPorts.map .output),
    .new tableVirtualDst 1 [.reg1 n.id, .reg2 0, .dlDst broadcast] (n.ports.map .output)] ++
  env.subnet.toList.map fun ethPort =>
    Flow.new tableClassifier 8 [.inPort ethPort, .dlDst n.broadcastAddr]
      [.modDlDst broadcast, .loadReg1 n.id, .loadReg2 ethPort, .resubmit tableVirtualSrc]

def addPort (number : Nat) (isLocal : Bool) (n : Network) : Network :=
  { n with
    ports := n.ports ++ [number]
    localPorts := if isLocal then n.localPorts ++ [number] else n.localPorts }

def removePort (number : Nat) (n : Network) : Network :=
  { n with ports := n.ports.filter (· ≠ number), localPorts := n.localPorts.filter (· ≠ number) }

end Network

/-! ## Services -/

def dhcpFlows (id : Nat) (map : ServiceMap) : List Flow :=
  [.new tableVirtualDst 3 [.reg1 id, .udp, .dlDst (map.macAddr.getD []),
      .nwDst (map.address.getD []), .tpSrc (some 68), .tpDst (some 67)] [.controller],
    .new tableVirtualDst 3 [.reg1 id, .udp, .dlDst broadcast, .nwDst "255.255.255.255".toList,
      .tpSrc (some 68), .tpDst (some 67)] [.controller]]

def metadataFlows (map : ServiceMap) : List Flow :=
  [.new tableClassifier 5 [.tcp, .nwDst "169.254.169.254".toList, .tpDst (some 80)]
      [.resubmit tableMetadataOutgoing],
    .new tableClassifier 5 [.tcp, .nwSrc (map.address.getD []), .tpSrc map.incomingPort]
      [.resubmit tableMetadataIncoming],
    .new tableMetadataOutgoing 1 [] [.controller]]

/-- The flow of `request_mac`. -/
def requestMacFlow (env : Env) (number : Nat) (hw : Text) (ip : Option Text) : Flow :=
  .new tableArpRoute 3 [.inPort number, .arp, .dlDst hw, .nwDst (env.bridgeIpv4.getD []),
    .nwSrc (ip.getD [])] [.controller, .local]

/-- What a service installs; those for the gateway and for names install nothing. -/
def serviceFlows (n : Network) (map : ServiceMap) : List Flow :=
  if map.name = "dhcp".toList then if n.virtual then dhcpFlows n.id map else []
  else if map.name = "metadata".toList then metadataFlows map
  else []

def knownServices : List Text :=
  ["dhcp".toList, "dns".toList, "gateway".toList, "metadata".toList]

def Network.addService (n : Network) (map : ServiceMap) : Network × List Flow :=
  if (n.services.lookup map.name).isSome ∨ map.name ∉ knownServices then (n, [])
  else
    ({ n with services := n.services.insert map.name ⟨map.address, serviceFlows n map⟩ },
      serviceFlows n map)

def Network.addServices (n : Network) : List ServiceMap → Network × List (List Flow)
  | [] => (n, [])
  | map :: maps =>
    ((n.addService map).1.addServices maps |>.1,
      (n.addService map).2 :: ((n.addService map).1.addServices maps).2)

/-- The services a physical network gets if it has none of the name. -/
def NetworkMap.defaultServices (map : NetworkMap) : List ServiceMap :=
  (map.ipv4Gw.toList.filter (· ≠ [])).map (fun ip => ⟨"gateway".toList, none, some ip, none⟩) ++
  [⟨"dhcp".toList, none, some map.dhcpAddress, none⟩] ++
  (map.dnsServer.toList.filter (· ≠ [])).map (fun ip => ⟨"dns".toList, none, some ip, none⟩) ++
  map.metadata.toList.map fun m => ⟨"metadata".toList, none, some m.1, some m.2⟩

/-- `create_network`: the network, and the flows of each call it adds some with, but for the
flood flows of the physical networks. -/
def createNetwork (env : Env) (map : NetworkMap) : Network × List (List Flow) :=
  let (n, calls) := (Network.create map).addServices map.services
  if map.virtual then
    (n, calls ++ [n.installVirtualNetwork, n.installMacSubnet env, n.floodFlows env])
  else
    let (n, calls') := (n.addPort ofppLocal true).addServices map.defaultServices
    (n, calls ++ calls')

/-! ## What `ovs-ofctl` makes of flows -/

/-- What one call reads of its flows: all of them, if it can read the match of each. If not,
which of the others it takes depends on the version. -/
structure Reading (reads : Match → Bool) where
  read : List Flow → List Flow
  read_all : ∀ fs, (∀ f ∈ fs, reads f.pattern = true) → read fs = fs
  mem_read : ∀ fs, ∀ f ∈ read fs, f ∈ fs ∧ reads f.pattern = true

/-- How specific a match is, and whether its text can be read at all. An address that is the
name of a group or missing cannot. -/
class Ofctl extends Preorder Match where
  reads : Match → Bool
  reads_congr : ∀ {m m' : Match}, m ≤ m' → m' ≤ m → reads m = reads m'
  addFlow : Reading reads
  delFlows : Reading reads

/-! ## Jobs -/

section
variable [Ofctl] [DecidableLE Match]

/-- `add_flows_from_list`, call by call. -/
def addCalls (table : List Flow) (calls : List (List Flow)) : List Flow :=
  calls.foldl (fun table fs => FlowTable.addAll table (Ofctl.addFlow.read fs)) table

namespace Switch

def addFlows (fs : List Flow) (sw : Switch) : Switch :=
  { sw with table := addCalls sw.table [fs] }

def delFlows (fs : List Flow) (sw : Switch) : Switch :=
  { sw with table := FlowTable.del sw.table (Ofctl.delFlows.read fs) }

def modifyPort (number : Nat) (f : Port → Port) (sw : Switch) : Switch :=
  { sw with ports := Hash.modify number f sw.ports }

def modifyNetwork (id : Nat) (f : Network → Network) (sw : Switch) : Switch :=
  { sw with networks := Hash.modify id f sw.networks }

/-- `queue_flow` for each of the flows, and `flush_flows`. -/
def queueFlows (number : Nat) (fs : List Flow) (sw : Switch) : Switch :=
  (sw.modifyPort number fun p => { p with activeFlows := p.activeFlows ++ fs }).addFlows fs

/-- `add_flows(physical_flood_flows)` -/
def flood (sw : Switch) : Switch :=
  { sw with flooded := true }.addFlows (physicalFloodFlows sw.ethPorts)

def addEthPort (number : Nat) (sw : Switch) : Switch :=
  { sw with ethPorts := if number ∈ sw.ethPorts then sw.ethPorts else sw.ethPorts ++ [number] }

end Switch

variable (env : Env)

namespace Switch

def update (id : Nat) (sw : Switch) : Switch :=
  match sw.networks.lookup id with
  | none => sw
  | some n => if n.virtual then sw.addFlows (n.floodFlows env) else sw.flood

def addPort (id number : Nat) (isLocal : Bool) (sw : Switch) : Switch :=
  (sw.modifyNetwork id (Network.addPort number isLocal)).update env id

/-- `remove_port`, and the update that follows it wherever it is called. -/
def removePort (number id : Nat) (sw : Switch) : Switch :=
  match sw.networks.lookup id with
  | none => sw
  | some n =>
    let sw := sw.modifyNetwork id (Network.removePort number)
    (if n.virtual then sw else { sw with ethPorts := sw.ethPorts.filter (· ≠ number) }).update env id

/-- `get_network_from_map`; nothing if the network cannot be created. -/
def getNetwork (map : NetworkMap) (sw : Switch) : Option Switch :=
  if (sw.networks.lookup map.id).isSome then some sw
  else if map.valid then
    let sw' : Switch :=
      { sw with
        networks := sw.networks.insert map.id (createNetwork env map).1
        table := addCalls sw.table (createNetwork env map).2 }
    some (if map.virtual then sw' else sw'.flood)
  else none

def joinNetwork (number id : Nat) (sw : Switch) : Switch :=
  sw.modifyPort number fun p => { p with networks := p.networks ++ [id] }

def requestMac (number : Nat) (hw : Text) (id : Nat) (sw : Switch) : Switch :=
  match sw.networks.lookup id with
  | none => sw
  | some n =>
    match n.services.lookup "metadata".toList with
    | none => sw
    | some s =>
      if some (s.ip.getD []) ≠ env.bridgeIpv4 then
        let f := requestMacFlow env number hw s.ip
        (sw.modifyNetwork id fun n =>
          { n with
            services := Hash.modify "metadata".toList
              (fun s => { s with activeFlows := s.activeFlows ++ [f] }) n.services }).addFlows [f]
      else sw

def joinPhysical (number : Nat) (hw : Text) : List NetworkMap → Switch → Switch
  | [], sw => sw
  | map :: maps, sw =>
    match sw.getNetwork env map with
    | none => sw
    | some sw => joinPhysical number hw maps
        (((sw.joinNetwork number map.id).addPort env map.id number true).requestMac env number hw
          map.id)

def addEth (info : PortInfo) (sw : Switch) : Switch :=
  let sw := sw.queueFlows info.number (initEth info.number)
  let sw := if info.number ∈ sw.ethPorts then sw else (sw.addEthPort info.number).flood
  sw.joinPhysical env info.number info.hwAddr env.physicalNetworks

/-- The flows `add_instance_now` queues. -/
def instanceFlows (number : Nat) (hw ip : Text) (nic : NicMap) : List Flow :=
  if nic.network.virtual then
    initInstanceVnet number hw ip nic.network.id ++ env.subnet.toList.map fun ethPort =>
      .new tableClassifier 8 [.inPort ethPort, .dlDst hw]
        [.loadReg1 nic.network.id, .loadReg2 ethPort, .resubmit tableVirtualSrc]
  else
    initInstanceNet number hw ++ installArpAntispoof number hw ip ++
    (nic.dnsServer.toList.flatMap fun dns => installStaticDTransport number hw ip 17 dns 53) ++
    (match nic.dhcpServer with
      | some dhcp =>
        installCatchIp number 17 [.dlSrc hw, .nwDst dhcp, .tpDst (some 67)] ++
        installCatchIp number 17 [.dlSrc hw, .nwDst dhcp, .tpDst (some 68)] ++
        installCatchIp number 17 [.dlSrc hw, .nwDst "255.255.255.255".toList, .tpDst (some 67)] ++
        installCatchIp number 17 [.dlSrc hw, .nwDst "255.255.255.255".toList, .tpDst (some 68)]
      | none =>
        installStaticDTransport number hw ip 17 "0.0.0.0/0".toList 67 ++
        installStaticDTransport number hw ip 17 "0.0.0.0/0".toList 68) ++
    addSecurityGroup number hw ip nic.groups ++
    installLocalIcmp number hw ip ++ installLocalTransport number hw ip .tcp ++
    installLocalTransport number hw ip .udp

/-- `add_instance_now` -/
def addInstance (number : Nat) (nic : Option NicMap) (sw : Switch) : Switch :=
  match sw.ports.lookup number, nic with
  | some p, some nic =>
    match nic.address with
    | none => sw
    | some ip =>
      if p.hasInstance then sw
      else
        let sw := sw.modifyPort number fun p =>
          { p with ip := some ip, mac := some nic.mac, hasInstance := true,
                   earlier := p.activeFlows.length }
        match sw.getNetwork env nic.network with
        | none => sw
        | some sw =>
          let sw := sw.joinNetwork number nic.network.id
          let sw := if nic.network.virtual then sw else (sw.addEthPort number).flood
          (sw.addPort env nic.network.id number true).queueFlows number
            (instanceFlows env number nic.mac ip nic)
  | _, _ => sw

/-- `delete_instance_now` -/
def deleteInstance (number : Nat) (sw : Switch) : Switch :=
  let sw := sw.modifyPort number fun p => { p with ip := none, mac := none, hasInstance := false }
  sw.networks.keys.foldl (fun sw id =>
    if (sw.networks.lookup id).any fun n => number ∈ n.ports then sw.removePort env number id
    else sw) sw

/-- `add_tunnel_now` -/
def addTunnel (number vnetId : Nat) (map : Option NetworkMap) (sw : Switch) : Switch :=
  if env.enableGre = false ∨ vnetId = 0 then sw
  else if (sw.networks.lookup vnetId).isSome then join vnetId sw
  else
    match map with
    | none => sw
    | some map => ((sw.getNetwork env map).map (join map.id)).getD sw
where
  join (id : Nat) (sw : Switch) : Switch :=
    ((sw.joinNetwork number id).addPort env id number false).queueFlows number
      (initGreTunnel number id)

def deletePort (number : Nat) (sw : Switch) : Switch :=
  match sw.ports.lookup number with
  | none => sw
  | some p =>
    let sw := (p.networks.foldl (fun sw id => sw.removePort env number id) sw).delFlows p.activeFlows
    { sw with ports := sw.ports.erase number }

def addService (id : Nat) (map : ServiceMap) (sw : Switch) : Switch :=
  match sw.networks.lookup id with
  | none => sw
  | some n => (sw.modifyNetwork id fun n => (n.addService map).1).addFlows (n.addService map).2

omit env in
def deleteService (id : Nat) (name : Text) (sw : Switch) : Switch :=
  match sw.networks.lookup id with
  | none => sw
  | some n =>
    match n.services.lookup name with
    | none => sw
    | some s =>
      (sw.modifyNetwork id fun n => { n with services := n.services.erase name }).delFlows
        s.activeFlows

end Switch

/-- The events, each with what the collector answers meanwhile. -/
inductive Op
  | featuresReply
  | addPort (info : PortInfo) (nic : Option NicMap) (network : Option NetworkMap)
  | startInstance (number : Nat) (nic : Option NicMap)
  | terminateInstance (number : Nat)
  | addService (network : Nat) (map : ServiceMap)
  | deleteService (network : Nat) (name : Text)
  | deletePort (number : Nat)

def Switch.insertPort (info : PortInfo) (nic : Option NicMap) (network : Option NetworkMap)
    (sw : Switch) : Switch :=
  if info.number ≥ ofppMax then sw
  else
    match info.name with
    | .eth => sw.addEth env info
    | .vif => sw.addInstance env info.number nic
    | .tunnel vnetId => sw.addTunnel env info.number vnetId network
    | .other => sw

def Switch.isVif (sw : Switch) (number : Nat) : Bool :=
  (sw.ports.lookup number).any fun p => p.info.name == .vif

def step (sw : Switch) : Op → Switch
  | .featuresReply => { sw with ready := true }.addFlows (baseFlows env)
  | .addPort info nic network =>
    if (sw.ports.lookup info.number).isSome then sw
    else { sw with ports := sw.ports.insert info.number (.create info) }.insertPort env info nic
      network
  | .startInstance number nic => if sw.isVif number then sw.addInstance env number nic else sw
  | .terminateInstance number =>
    if sw.isVif number ∧ (sw.ports.lookup number).any Port.hasInstance then
      sw.deleteInstance env number
    else sw
  | .addService id map => sw.addService id map
  | .deleteService id name => sw.deleteService id name
  | .deletePort number => sw.deletePort env number

end

/-! ## What the table is to hold -/

variable (env : Env)

def Network.flows (n : Network) : List Flow :=
  (if n.virtual then n.installFlows env ++ n.floodFlows env else []) ++
  (Hash.values n.services).flatMap Service.activeFlows

/-- The flows of the switch itself, and of the networks, services, ports and instances there
are. -/
def Switch.wanted (sw : Switch) : List Flow :=
  (if sw.ready then baseFlows env else []) ++
  (if sw.flooded then physicalFloodFlows sw.ethPorts else []) ++
  (Hash.values sw.networks).flatMap (Network.flows env) ++
  (Hash.values sw.ports).flatMap Port.flows

end OpenFlow

end WakameVdc
