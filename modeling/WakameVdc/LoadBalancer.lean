import Mathlib.Data.List.Dedup
import WakameVdc.Haproxy
import WakameVdc.Lib.Text

/-!
# Load balancer requests

`PUT /load_balancers/:id/register`, `/unregister` and `/:id` of
`endpoints/12.03/load_balancers.rb`, with the targets and inbounds of
`models/load_balancer.rb`. Each request is one transaction, and publishes a proxy
configuration when it is committed.
-/

namespace WakameVdc

open Lib

namespace LoadBalancer

/-- The addresses of a network vif: its own leases, and all rows it ever had. -/
structure Vif where
  directIpLease : List Text
  ip : List Text
  deriving DecidableEq, Repr

structure Target where
  id : Nat
  vif : Text
  fallbackMode : Text
  deleted : Bool
  deriving DecidableEq, Repr

/-- A port as Ruby has it: a number of the database, or the text of a parameter. -/
inductive Port
  | num (n : Int)
  | text (t : Text)
  deriving DecidableEq, Repr

def Port.toText : Port → Text
  | .num n => Text.ofInt n
  | .text t => t

structure Inbound where
  protocol : Text
  port : Port
  deriving DecidableEq, Repr

/-- The row, with its inbounds and all its targets; ids count up. -/
structure Lb where
  instanceProtocol : Text
  instancePort : Int
  balanceAlgorithm : Text
  cookieName : Option Text
  httpchkPath : Option Text
  inboundRows : List (Text × Int)
  targets : List Target
  deriving DecidableEq, Repr

/-- Without `:backup` a server is a primary one. -/
structure Server where
  ipv4 : Text
  backup : Option Bool
  deriving DecidableEq, Repr

structure Config where
  instanceProtocol : Text
  instancePort : Int
  ports : List Text
  protocols : List Text
  securePort : Option Int
  secureProtocol : Option Text
  balanceAlgorithm : Text
  cookieName : Option Text
  servers : List Server
  httpchkPath : Option Text
  deriving DecidableEq, Repr

/-- The servers `update_load_balancer_config` adds to the proxy. -/
def Config.proxyServers (c : Config) : Haproxy.Servers :=
  c.servers.foldl (fun s t => s.addServer t.ipv4 c.instancePort
    { Haproxy.Options.none with backup := t.backup }) ∅

/-- What the requests only read. `first` is the row a query without an order
returns first, given the ids of the rows; `valid` stands for the validations of
texts and keys that say nothing about the configuration. -/
structure Env where
  vif : Text → Option Vif
  typecast : Text → Option Int
  first : List Nat → Option Nat
  first_mem : ∀ ids id, first ids = some id → id ∈ ids
  first_isSome : ∀ ids, ids ≠ [] → (first ids).isSome = true
  valid : Lb → Bool

/-! ## Inbounds -/

def secureProtocols : List Text := ["https".toList, "ssl".toList]

def supportedProtocols : List Text := ["http".toList, "tcp".toList] ++ secureProtocols

def Lb.inbounds (lb : Lb) : List Inbound := lb.inboundRows.map fun r => ⟨r.1, .num r.2⟩

def secureInbound (inbounds : List Inbound) : Option Inbound :=
  inbounds.find? fun i => secureProtocols.contains i.protocol

def acceptPort (inbounds : List Inbound) : Option Port := (secureInbound inbounds).map Inbound.port

/-- A text is never equal to the number. -/
def connectPort (inbounds : List Inbound) : Option Int :=
  (secureInbound inbounds).map fun i => if i.port = .num 4433 then 443 else 4433

def secureProtocol (inbounds : List Inbound) : Option Text :=
  (secureInbound inbounds).map Inbound.protocol

/-- `config_params`; `lb_ports - [accept_port]` drops every equal port. -/
def configParams (lb : Lb) (inbounds : List Inbound) (servers : List Server) : Config where
  instanceProtocol := lb.instanceProtocol
  instancePort := lb.instancePort
  ports := ((inbounds.map Inbound.port).filter fun p => acceptPort inbounds != some p).map Port.toText
  protocols := inbounds.map Inbound.protocol
  securePort := connectPort inbounds
  secureProtocol := secureProtocol inbounds
  balanceAlgorithm := lb.balanceAlgorithm
  cookieName := lb.cookieName
  servers := servers
  httpchkPath := lb.httpchkPath

/-! ## Targets -/

/-- `load_balancer_targets`, without the deleted ones. -/
def Lb.live (lb : Lb) : List Target := lb.targets.filter fun t => !t.deleted

def Lb.holdVifs (lb : Lb) : List Text := lb.live.map Target.vif

def Lb.addTarget (lb : Lb) (vif : Text) : Lb :=
  { lb with targets := lb.targets ++ [⟨lb.targets.length, vif, "off".toList, false⟩] }

def Lb.removeTargets (lb : Lb) (vifs : List Text) : Lb :=
  { lb with
    targets := lb.targets.map fun t => if t.vif ∈ vifs then { t with deleted := true } else t }

/-- The row `target_network` finds; deleted rows are not left out. -/
def targetNetwork (env : Env) (lb : Lb) (vif : Text) : Option Nat :=
  env.first ((lb.targets.filter fun t => t.vif == vif).map Target.id)

def Lb.setFallbackMode (lb : Lb) (id : Nat) (mode : Text) : Lb :=
  { lb with targets := lb.targets.map fun t => if t.id = id then { t with fallbackMode := mode } else t }

def backup (fallbackMode : Text) : Bool := fallbackMode == "on".toList

/-! ## Register and unregister -/

/-- The servers of the vifs that have a lease; an unknown vif is `nil`. -/
def leasedServers (env : Env) : List Text → Option (List Server)
  | [] => some []
  | uuid :: uuids => do
    let vif ← env.vif uuid
    let servers ← leasedServers env uuids
    match vif.directIpLease with
    | [] => return servers
    | ip :: _ => return ⟨ip, none⟩ :: servers

/-- The vifs that are registered; the index on the targets refuses a second row. -/
def registerTargets (env : Env) (lb : Lb) : List Text → Option Lb
  | [] => some lb
  | uuid :: uuids => do
    let vif ← env.vif uuid
    if vif.directIpLease = [] then registerTargets env lb uuids
    else if uuid ∈ lb.holdVifs then none
    else registerTargets env (lb.addTarget uuid) uuids

def register (env : Env) (lb : Lb) (requestVifs : List Text) : Option (Lb × Option Config) := do
  let holdVifs := lb.holdVifs
  let targetVifs := requestVifs.filter fun uuid => uuid ∉ holdVifs
  if targetVifs = [] then none
  else
    let lb' ← registerTargets env lb targetVifs
    let servers ← leasedServers env (requestVifs ++ holdVifs).dedup
    if servers = [] then none else return (lb', some (configParams lb lb.inbounds servers))

def unregister (env : Env) (lb : Lb) (requestVifs : List Text) : Option (Lb × Option Config) := do
  let holdVifs := lb.holdVifs
  if holdVifs = [] then none
  else
    let lb' := lb.removeTargets (holdVifs.filter fun uuid => uuid ∈ requestVifs)
    let servers ← leasedServers env (holdVifs.filter fun uuid => uuid ∉ requestVifs)
    return (lb', some (configParams lb lb.inbounds servers))

/-! ## Update -/

inductive Param
  | absent
  | text (t : Text)
  | list (ts : List Text)
  deriving DecidableEq, Repr

def blank (t : Option Text) : Bool := (t.getD []).all Text.isSpace

def Param.blank : Param → Bool
  | .absent => true
  | .text t => t.all Text.isSpace
  | .list ts => ts.isEmpty

/-- The keys and texts that no configuration shows are left out. -/
structure UpdateParams where
  port : Param
  protocol : Param
  balanceAlgorithm : Option Text
  allowList : Option (List Text)
  instanceProtocol : Option Text
  instancePort : Option Text
  httpchkPath : Option Text
  httpchk : Option Text
  cookieName : Option Text
  targetVifs : List (Text × Text)
  deriving DecidableEq, Repr

def UpdateParams.givesInbounds (p : UpdateParams) : Bool := !p.port.blank && !p.protocol.blank

/-- A port without a protocol is refused when it is saved. -/
def getInbounds (p : UpdateParams) : Option (List Inbound) :=
  match p.port, p.protocol with
  | .list ports, .list protocols =>
    if ports.length ≤ protocols.length then
      some ((ports.zip protocols).map fun i => ⟨i.2, .text i.1⟩)
    else none
  | .text port, .text protocol => some [⟨protocol, .text port⟩]
  | _, _ => none

/-- `add_inbound`, with its validations. -/
def inboundRow (env : Env) (i : Inbound) : Option (Text × Int) := do
  let n ← match i.port with
    | .num n => some n
    | .text t => env.typecast t
  if i.protocol ∈ supportedProtocols ∧ 0 ≤ n ∧ n ≤ 65535 then return (i.protocol, n) else none

def requestInbounds (p : UpdateParams) (lb : Lb) : Option (List Inbound) :=
  if p.givesInbounds then getInbounds p else some lb.inbounds

/-- `remove_inbound` and `add_inbound`, when the inbounds are given. -/
def saveInbounds (env : Env) (p : UpdateParams) (inbounds : List Inbound) (lb : Lb) :
    Option (List (Text × Int)) :=
  if p.givesInbounds then inbounds.mapM (inboundRow env) else some lb.inboundRows

def setBalanceAlgorithm (p : UpdateParams) (lb : Lb) : Option Lb :=
  if blank p.balanceAlgorithm then some lb
  else
    let algorithm := p.balanceAlgorithm.getD []
    if algorithm = "leastconn".toList ∨ algorithm = "source".toList then
      some { lb with balanceAlgorithm := algorithm }
    else none

def setInstancePort (env : Env) (p : UpdateParams) (lb : Lb) : Option Lb :=
  if blank p.instancePort then some lb
  else (env.typecast (p.instancePort.getD [])).map fun n => { lb with instancePort := n }

def setTexts (p : UpdateParams) (lb : Lb) : Lb :=
  { lb with
    instanceProtocol :=
      if blank p.instanceProtocol then lb.instanceProtocol else p.instanceProtocol.getD []
    httpchkPath := if blank p.httpchkPath then lb.httpchkPath else p.httpchkPath
    cookieName := if blank p.cookieName then lb.cookieName else p.cookieName }

/-- The loop over `params[:target_vifs]`. -/
def setModes (env : Env) (lb : Lb) : List (Text × Text) → Option (Lb × List Server)
  | [] => some (lb, [])
  | tv :: tvs => do
    let id ← targetNetwork env lb tv.1
    if tv.2 ≠ "on".toList ∧ tv.2 ≠ "off".toList then none
    else
      let vif ← env.vif tv.1
      let ip ← vif.ip.head?
      let (lb, servers) ← setModes env (lb.setFallbackMode id tv.2) tvs
      return (lb, ⟨ip, some (backup tv.2)⟩ :: servers)

def listTargets (env : Env) (lb : Lb) : List Target → Option (List Server)
  | [] => some []
  | t :: ts =>
    match env.vif t.vif with
    | none => listTargets env lb ts
    | some vif => do
      let id ← targetNetwork env lb t.vif
      let tv ← lb.targets.find? fun tv => tv.id == id
      let ip ← vif.ip.head?
      let servers ← listTargets env lb ts
      return ⟨ip, some (backup tv.fallbackMode)⟩ :: servers

def updateServers (env : Env) (p : UpdateParams) (lb : Lb) : Option (Lb × List Server) :=
  if p.targetVifs ≠ [] then setModes env lb p.targetVifs
  else (listTargets env lb lb.live).map fun servers => (lb, servers)

def configUpdatable (p : UpdateParams) : Bool :=
  !p.port.blank || !p.protocol.blank || !blank p.balanceAlgorithm || !blank p.cookieName ||
    !p.targetVifs.isEmpty || !blank p.httpchk

def update (env : Env) (lb : Lb) (p : UpdateParams) : Option (Lb × Option Config) := do
  let inbounds ← requestInbounds p lb
  if ¬ (inbounds.map Inbound.port).Nodup then none
  else
    let lb ← setBalanceAlgorithm p lb
    -- without a port `params[:allow_list].empty?` is asked
    if inbounds = [] ∧ p.allowList = none then none
    else
      let lb ← setInstancePort env p lb
      let (lb, servers) ← updateServers env p lb
      let lb := setTexts p lb
      if env.valid lb = false then none
      else
        let rows ← saveInbounds env p inbounds lb
        let lb := { lb with inboundRows := rows }
        return (lb, if configUpdatable p then some (configParams lb inbounds servers) else none)

/-! ## Requests -/

/-- A text of vifs is given as the list of its lines. -/
inductive Request
  | register (vifs : Option (List Text))
  | unregister (vifs : Option (List Text))
  | update (params : UpdateParams)
  deriving DecidableEq, Repr

/-- What a request stores and publishes; one that raises is rolled back. -/
def perform (env : Env) (lb : Lb) : Request → Option (Lb × Option Config)
  | .register vifs => vifs.bind (register env lb)
  | .unregister vifs => vifs.bind (unregister env lb)
  | .update params => update env lb params

structure Sys where
  lb : Lb
  published : Option Config
  deriving DecidableEq, Repr

def step (env : Env) (s : Sys) (req : Request) : Sys :=
  match perform env s.lb req with
  | none => s
  | some (lb, config) => ⟨lb, config.or s.published⟩

end LoadBalancer

end WakameVdc
