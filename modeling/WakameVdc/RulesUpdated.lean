import WakameVdc.Lib.Proc
import WakameVdc.NetfilterCache
import WakameVdc.TaskManager

/-!
# The rules of a group change

The handler of `rules_updated` in `node_modules/service_netfilter.rb`, by the commands it has run
when it ends or raises. What the collector answers is given.
-/

namespace WakameVdc

open Lib

namespace TaskManager

open Netfilter (Cache NetworkMode NetfilterError)

abbrev CommandM := Proc NetfilterError (List (ChainCommand ChainId Options))

def liftM {α : Type} (x : Except NetfilterError α) : CommandM α :=
  match x with
  | .ok a => pure a
  | .error e => throw e

/-- `netfilter_arp_isolation_tasks` of the network mode. -/
def modeArpIsolationTasks (hva : Hva) (mode : NetworkMode) (vnic : VnicMap) (friends : List Friend) :
    List Task :=
  match mode with
  | .securityGroup | .l2Overlay => netfilterArpIsolationTasks hva vnic friends
  | .passThrough => []

/-- `netfilter_secgroup_tasks(vnic, secgroup)` of the network mode; those without security groups
take one argument only. -/
def modeSecgroupTasks (ipv4New : Text → Option IPAddr) (mode : NetworkMode) (vnic : VnicMap)
    (secgroup : GroupMap) : Except NetfilterError (List Task) :=
  match mode with
  | .securityGroup => .ok (netfilterSecgroupTasks ipv4New vnic secgroup)
  | .l2Overlay | .passThrough => .error .argumentError

/-- `get_referencee_vnics`: the vnics of each referencee stay in a hash of their own. -/
def referenceeVnics (group : GroupMap) : List Friend :=
  (Hash.values group.referencees).map Friend.vnics

/-- `update_rules` and `update_referencees` -/
def updatedGroup (rules : List ParsedRule) (referencees : Hash Text (Hash Text VnicMap))
    (group : GroupMap) : GroupMap :=
  { group with rules := rules, referencees := referencees }

section
variable (hva : Hva) (ipv4New : Text → Option IPAddr)

def runTasks (vnic : VnicMap) (tasks : List Task) (action : Action) : CommandM Unit :=
  modify fun commands => commands ++ handleVnicTasks hva vnic tasks action

/-- The body of the loop over the local vnics; nothing in it changes the cache. -/
def updateVnic (c : Cache) (oldGroup updatedGroup : GroupMap) (vnic : VnicMap) : CommandM Unit := do
  let mode ← liftM (c.getVnicNetworkMode vnic.uuid)
  runTasks hva vnic (modeArpIsolationTasks hva mode vnic (referenceeVnics updatedGroup)) .apply
  let tasks ← liftM (modeSecgroupTasks ipv4New mode vnic updatedGroup)
  runTasks hva vnic tasks .apply
  runTasks hva vnic (modeArpIsolationTasks hva mode vnic (referenceeVnics oldGroup)) .remove
  let tasks ← liftM (modeSecgroupTasks ipv4New mode vnic oldGroup)
  runTasks hva vnic tasks .remove

def rulesUpdated (c : Cache) (groupId : Text) (rules : List ParsedRule)
    (referencees : Hash Text (Hash Text VnicMap)) : CommandM Unit := do
  let updated : Cache :=
    { c with securityGroups := Hash.modify groupId (updatedGroup rules referencees) c.securityGroups }
  match c.securityGroups.lookup groupId, updated.securityGroups.lookup groupId with
  | some oldGroup, some group =>
    (updated.getLocalVnicsInGroup groupId).forM (updateVnic hva ipv4New updated oldGroup group)
  | _, _ => throw (.groupNotFound groupId)

end

/-! ## What a vnic is to have -/

/-- The vnics of all referencees, each once. -/
def allReferenceeVnics (group : GroupMap) : List VnicMap :=
  ((Hash.values group.referencees).flatMap Hash.values).eraseDups

/-- The secgroup and ARP tasks of a group for a vnic, by the mode of its network; networks without
security groups have no rules of groups, those without firewalls none at all. -/
def wantedTasks (hva : Hva) (ipv4New : Text → Option IPAddr) (mode : Except NetfilterError NetworkMode)
    (vnic : VnicMap) (group : GroupMap) : List Task :=
  match mode with
  | .ok .passThrough => []
  | .ok .l2Overlay =>
    netfilterArpIsolationTasks hva vnic ((allReferenceeVnics group).map Friend.vnic)
  | _ =>
    netfilterSecgroupTasks ipv4New vnic group ++
      netfilterArpIsolationTasks hva vnic ((allReferenceeVnics group).map Friend.vnic)

/-- Chains that have the old rules come to have the new ones in place of them and are the same
otherwise, and no rule that is both old and new is missing on the way. -/
structure Replaces (trace : List (ChainCommand ChainId Options)) (chains : List ChainId)
    (old new : List (ChainId × Options)) (k : Kernel) : Prop where
  content : ∀ c ∈ chains, (Chains.execAll k trace c : Multiset Options) =
    (k c : Multiset Options) - (Chains.rulesFor c old : Multiset Options) + Chains.rulesFor c new
  kept : ∀ p, p <+: trace → ∀ c ∈ chains,
    (Chains.rulesFor c old : Multiset Options) ∩ (Chains.rulesFor c new : Multiset Options) ≤
      Chains.execAll k p c

def vnicChains (vnic : VnicMap) : List ChainId :=
  ⟨.ebtables, .filter, .custom (vnicEbChainARP vnic .incoming).name⟩ ::
    [vnicIpChainTCP vnic .incoming, vnicIpChainUDP vnic .incoming, vnicIpChainICMP vnic .incoming].map
      fun c => ⟨.iptables, .filter, .custom c.name⟩

end TaskManager

end WakameVdc
