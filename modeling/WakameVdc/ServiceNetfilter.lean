import WakameVdc.Lib.Run
import WakameVdc.NetfilterCache

/-!
# The netfilter service of a host node

The event handlers of `node_modules/service_netfilter.rb`, and the changes of
the database that publish the events (`rpc/hva_handler.rb` and the endpoints
`network_vifs.rb` and `security_groups.rb`). Of the rules in the chains, those
of `AcceptIpFromFriends` are kept; of the other tasks, whether they raise.
-/

namespace WakameVdc

open Lib

namespace Netfilter

/-! ## Network modes -/

namespace NetworkMode

/-- The addresses `netfilter_isolation_tasks` accepts. -/
def isolationTasks (mode : NetworkMode) (friends : List VnicMap) : List Ipv4 :=
  match mode with
  | securityGroup | l2Overlay => friends.filterMap VnicMap.address
  | passThrough => []

/-- `netfilter_secgroup_tasks(vnic, secgroup)`; the modes without security groups
take one argument only. -/
def secgroupTasks (mode : NetworkMode) (group : Option GroupMap) : Except NetfilterError Unit :=
  match mode with
  | securityGroup => if group.isSome then .ok () else .error .noMethodError
  | l2Overlay | passThrough => .error .argumentError

/-- `netfilter_arp_isolation_tasks`; a friend that is nil has no address to read. -/
def arpIsolationTasks (mode : NetworkMode) (friends : List (Option VnicMap)) :
    Except NetfilterError Unit :=
  match mode with
  | securityGroup | l2Overlay =>
    if friends.all Option.isSome then .ok () else .error .noMethodError
  | passThrough => .ok ()

/-- The addresses `netfilter_all_tasks` accepts. -/
def allTasks (mode : NetworkMode) (friends : List VnicMap) (securityGroups : List (Option GroupMap)) :
    Except NetfilterError (List Ipv4) :=
  match mode with
  | securityGroup | l2Overlay => do
    securityGroups.forM mode.secgroupTasks
    return mode.isolationTasks friends
  | passThrough => .ok []

end NetworkMode

/-! ## The task manager -/

def modifyChains (f : Hash Text (List Ipv4) → Hash Text (List Ipv4)) : NodeM Unit :=
  modify fun node => { node with chains := f node.chains }

/-- `iptables -N` fails on a chain that exists. -/
def applyVnicChains (vnicId : Text) : NodeM Unit :=
  modifyChains fun chains =>
    if (chains.lookup vnicId).isSome then chains else AList.insert vnicId [] chains

def removeVnicChains (vnicId : Text) : NodeM Unit := modifyChains (AList.erase vnicId)

/-- `iptables -I` for each address. -/
def applyAccepts (vnicId : Text) (ips : List Ipv4) : NodeM Unit :=
  modifyChains (Hash.modify vnicId fun chain => ips.foldl (fun chain ip => ip :: chain) chain)

/-- `iptables -D` for each address. -/
def removeAccepts (vnicId : Text) (ips : List Ipv4) : NodeM Unit :=
  modifyChains (Hash.modify vnicId fun chain => ips.foldl List.erase chain)

/-! ## Handlers -/

def vnicNetworkMode (vnicId : Text) : NodeM NetworkMode := do
  let c ← getCache
  lift (c.getVnicNetworkMode vnicId)

def applyIsolation (vnicId : Text) (friends : List VnicMap) : NodeM Unit := do
  let mode ← vnicNetworkMode vnicId
  applyAccepts vnicId (mode.isolationTasks friends)

def removeIsolation (vnicId : Text) (friends : List VnicMap) : NodeM Unit := do
  let mode ← vnicNetworkMode vnicId
  removeAccepts vnicId (mode.isolationTasks friends)

def secgroupTasksFor (vnicId : Text) (group : Option GroupMap) : NodeM Unit := do
  let mode ← vnicNetworkMode vnicId
  lift (mode.secgroupTasks group)

def arpIsolationFor (vnicId : Text) (friends : List (Option VnicMap)) : NodeM Unit := do
  let mode ← vnicNetworkMode vnicId
  lift (mode.arpIsolationTasks friends)

def vnicHasIp (vnicId : Text) : NodeM Bool := do
  let c ← getCache
  let vnic ← lift (c.getVnic vnicId)
  return match vnic with
    | none => false
    | some vnic => vnic.address.isSome

def vnicIsNatted (vnicId : Text) : NodeM Bool := do
  let c ← getCache
  match ← lift (c.getVnic vnicId) with
  | none => throw .noMethodError
  | some vnic => pure vnic.natIpLease.isSome

def initializeVnic (vnic : VnicMap) (friends : List VnicMap)
    (securityGroups : List (Option GroupMap)) : NodeM Unit := do
  applyVnicChains vnic.uuid
  let mode ← vnicNetworkMode vnic.uuid
  let ips ← lift (mode.allTasks friends securityGroups)
  applyAccepts vnic.uuid ips
  let c ← getCache
  let localFriends ← lift (c.getAllLocalFriends vnic.uuid)
  localFriends.forM fun friend => applyIsolation friend.uuid [vnic]

/-- The other vnics of the instance leave the groups that are new to the cache
until their own event is handled. -/
def forgetSiblings (vnic : VnicMap) (newGroups : List Text) : NodeM Unit :=
  newGroups.forM fun groupId => do
    let c ← getCache
    (c.getLocalVnicsInGroup groupId).forM fun other =>
      if vnic.instanceUuid = other.instanceUuid ∧ vnic.uuid ≠ other.uuid then
        removeLocalVnicFromGroup other.uuid groupId
      else pure ()

section
variable (db : Db) (nodeId : Text)

def vnicCreated (vnicId : Text) : NodeM Unit := do
  let old ← getCache
  addVnic db nodeId vnicId
  let c ← getCache
  match c.getLocalVnic vnicId with
  | some vnic => do
    forgetSiblings vnic (vnic.securityGroups.filter fun g => !old.isLocalGroup g)
    let c ← getCache
    let friends ← lift (c.getAllFriends vnicId)
    initializeVnic vnic friends (vnic.securityGroups.map fun g => c.securityGroups.lookup g)
  | none =>
    match c.getEmptyVnic vnicId with
    | none => throw .noMethodError
    | some vnic => initializeVnic vnic [] []

/-- The chains of the friends, and those of the vnic itself where its NAT rules
are concerned. -/
def cleanUpIsolation (vif : VnicMap) (vnicId : Text) : NodeM Unit := do
  let c ← getCache
  let localFriends ← lift (c.getAllLocalFriends vnicId)
  localFriends.forM fun friend => do
    let hasIp ← vnicHasIp friend.uuid
    Proc.when hasIp (removeIsolation friend.uuid [vif])
  let natted ← vnicIsNatted vnicId
  Proc.when natted do
    let allFriends ← lift (c.getAllFriends vnicId)
    removeIsolation vif.uuid allFriends
  let _ ← vnicNetworkMode vif.uuid
  pure ()

def vnicDestroyed (vnicId : Text) : NodeM Unit := do
  let c ← getCache
  match (c.getLocalVnic vnicId).or (c.getEmptyVnic vnicId) with
  | none => pure ()
  | some vif => do
    let hasIp ← vnicHasIp vnicId
    Proc.when hasIp (cleanUpIsolation vif vnicId)
    removeVnicChains vif.uuid
    modifyCache (Cache.removeVnic vnicId)
    vif.securityGroups.forM fun groupId => do
      let c ← getCache
      Proc.when (!c.otherLocalVnicsLeftInGroup vnicId groupId)
        (modifyCache (Cache.removeSecurityGroup groupId))
    modifyCache fun c =>
      if c.localVnicsLeftInNetwork vif.networkId || c.emptyVnicsLeftInNetwork vif.networkId then c
      else c.removeNetwork vif.networkId

def joinedGroup (vnicId groupId : Text) : NodeM Unit := do
  addVnicToSecurityGroup db nodeId vnicId groupId
  let c ← getCache
  if c.isLocalVnicInGroup vnicId groupId then
    match c.getLocalVnic vnicId with
    | none => pure ()
    | some vnic => do
      secgroupTasksFor vnic.uuid (c.securityGroups.lookup groupId)
      let localFriends ← lift (c.getLocalFriendsInGroup vnicId groupId)
      localFriends.forM fun friend => applyIsolation friend.uuid [vnic]
      let friends ← lift (c.getFriendsInGroup vnicId groupId)
      applyIsolation vnic.uuid friends
  else throw (.failedToAdd vnicId groupId)

/-- What `left_group` does if the vnic is a local one. -/
def leaveAsLocal (vnicId groupId : Text) : NodeM Unit := do
  let c ← getCache
  match c.getLocalVnic vnicId with
  | none => pure ()
  | some vnic => do
    secgroupTasksFor vnic.uuid (c.securityGroups.lookup groupId)
    let localFriends ← lift (c.getLocalFriendsInGroup vnicId groupId)
    localFriends.forM fun friend => removeIsolation friend.uuid [vnic]
    let friends ← lift (c.getFriendsInGroup vnicId groupId)
    removeIsolation vnic.uuid friends
    removeLocalVnicFromGroup vnicId groupId
    modifyCache (Cache.removeVnicFromReferencees groupId vnicId)

def leftGroup (vnicId groupId : Text) : NodeM Unit := do
  leaveAsLocal vnicId groupId
  modifyCache fun c =>
    if c.localVnicsLeftInGroup groupId then c else c.removeSecurityGroup groupId

/-- For each local group that references the group, the tasks about the vnic. -/
def handleRefGroupVnic (groupId vnicId : Text) : NodeM Unit := do
  let c ← getCache
  (Hash.values c.securityGroups).forM fun secg =>
    match secg.referencees.lookup groupId with
    | none => pure ()
    | some vnics =>
      (c.getLocalVnicsInGroup secg.uuid).forM fun vnic =>
        if vnic.uuid = vnicId then pure ()
        else do
          arpIsolationFor vnic.uuid [vnics.lookup vnicId]
          secgroupTasksFor vnic.uuid (some secg)

/-- The isolation tasks for a foreign vnic that was not known before. -/
def isolateForeign (refGroupId vnicId : Text) (wasForeign : Bool) : NodeM Unit := do
  let c ← getCache
  match (c.securityGroups.lookup refGroupId).bind fun g => g.foreignVnics.lookup vnicId with
  | none => pure ()
  | some foreign =>
    Proc.when (!wasForeign) do
      let localFriends ← lift (c.getLocalFriendsInGroup vnicId refGroupId)
      localFriends.forM fun friend => applyIsolation friend.uuid [foreign]

def arpForReferenced (refGroupId vnicId : Text) : NodeM Unit := do
  let c ← getCache
  (Hash.values c.securityGroups).forM fun secg =>
    match secg.referencers.lookup refGroupId with
    | none => pure ()
    | some vnics =>
      (c.getLocalVnicsInGroup refGroupId).forM fun vnic =>
        arpIsolationFor vnic.uuid [vnics.lookup vnicId]

def vnicJoined (refGroupId vnicId : Text) : NodeM Unit := do
  let old ← getCache
  Proc.when (old.isLocalGroup refGroupId && !old.isLocalVnicInGroup vnicId refGroupId)
    (addVnicToSecurityGroup db nodeId vnicId refGroupId)
  addVnicToReferencersAndReferenceesForGroup db vnicId refGroupId
  let c ← getCache
  Proc.when (!(c.isForeignVnicInGroup vnicId refGroupId || (c.getLocalVnic vnicId).isSome ||
    c.isReferenceeVnicInGroup vnicId refGroupId)) (throw (.unknownVnic vnicId))
  isolateForeign refGroupId vnicId (old.isForeignVnicInGroup vnicId refGroupId)
  arpForReferenced refGroupId vnicId
  handleRefGroupVnic refGroupId vnicId

def forgetForeign (refGroupId vnicId : Text) : NodeM Unit := do
  let c ← getCache
  match (c.securityGroups.lookup refGroupId).bind fun g => g.foreignVnics.lookup vnicId with
  | none => pure ()
  | some foreign => do
    let localFriends ← lift (c.getLocalFriendsInGroup vnicId refGroupId)
    localFriends.forM fun friend => removeIsolation friend.uuid [foreign]

def vnicLeft (refGroupId vnicId : Text) : NodeM Unit := do
  forgetForeign refGroupId vnicId
  handleRefGroupVnic refGroupId vnicId
  modifyCache fun c => ((c.removeForeignVnic refGroupId vnicId).removeVnicFromReferencees
    refGroupId vnicId).removeVnicFromReferencers refGroupId vnicId

def arpForReferencer (groupId refGroupId : Text) : NodeM Unit := do
  let c ← getCache
  let referencer ← lift (c.getReferencer groupId refGroupId)
  (c.getLocalVnicsInGroup groupId).forM fun vnic => do
    match referencer with
    | none => throw .noMethodError
    | some vnics => arpIsolationFor vnic.uuid ((Hash.values vnics).map some)

def referencerAdded (groupId refGroupId : Text) : NodeM Unit := do
  updateReferencers db groupId
  updateReferencees db groupId
  arpForReferencer groupId refGroupId

def referencerRemoved (groupId refGroupId : Text) : NodeM Unit := do
  arpForReferencer groupId refGroupId
  updateReferencers db groupId
  updateReferencees db groupId

/-- The vnics of the referencees are read as hashes of hashes, none of which has
an address. -/
def rulesUpdated (groupId : Text) : NodeM Unit := do
  let c ← getCache
  Proc.when (!c.isLocalGroup groupId) (throw (.groupNotFound groupId))
  updateRules db groupId
  updateReferencees db groupId
  let updated ← getCache
  (updated.getLocalVnicsInGroup groupId).forM fun vnic => do
    secgroupTasksFor vnic.uuid (updated.securityGroups.lookup groupId)
    secgroupTasksFor vnic.uuid (c.securityGroups.lookup groupId)

/-! ## Events -/

end

inductive Event
  | vnicCreated (vnicId : Text)
  | vnicDestroyed (vnicId : Text)
  | joinedGroup (vnicId groupId : Text)
  | leftGroup (vnicId groupId : Text)
  | vnicJoined (refGroupId vnicId : Text)
  | vnicLeft (refGroupId vnicId : Text)
  | referencerAdded (groupId refGroupId : Text)
  | referencerRemoved (groupId refGroupId : Text)
  | rulesUpdated (groupId : Text)
  deriving DecidableEq, Repr

def Event.handler (db : Db) (nodeId : Text) : Event → NodeM Unit
  | vnicCreated v => Netfilter.vnicCreated db nodeId v
  | vnicDestroyed v => Netfilter.vnicDestroyed v
  | joinedGroup v g => Netfilter.joinedGroup db nodeId v g
  | leftGroup v g => Netfilter.leftGroup v g
  | vnicJoined r v => Netfilter.vnicJoined db nodeId r v
  | vnicLeft r v => Netfilter.vnicLeft r v
  | referencerAdded g r => Netfilter.referencerAdded db g r
  | referencerRemoved g r => Netfilter.referencerRemoved db g r
  | rulesUpdated g => Netfilter.rulesUpdated db g

/-! ## Changes of the database -/

/-- `others` are the groups the database finds under names the rules spell in another way. -/
inductive Cause
  | startInstance (vnics : List (Text × VnicRecord))
  | terminateInstance (vnicIds : List Text)
  | addSecurityGroup (vnicId groupId : Text)
  | removeSecurityGroup (vnicId groupId : Text)
  | updateRules (groupId : Text) (rules : List ParsedRule) (others : List Text)

namespace Db

def accepts (db : Db) (vnicId : Text) (r : VnicRecord) : Bool :=
  (db.vnics.lookup vnicId).isNone && r.vnic.uuid == vnicId &&
    r.vnic.securityGroups.all fun g => (db.groups.lookup g).isSome

/-- `group.referencees` -/
def referenceeIds (db : Db) (groupId : Text) : List Text :=
  db.groups.keys.filter fun g => db.references.contains (groupId, g)

/-- A group is saved with new rules: `handle_refs` leaves it a row for each group they name. -/
def saveRules (db : Db) (groupId : Text) (rules : List ParsedRule) (others : List Text) : Db :=
  { db with
    groups := AList.insert groupId rules db.groups
    references := (db.references.filter fun r => r.1 != groupId) ++
      ((ruleGroups rules ++ others).filter fun g => (db.groups.lookup g).isSome).map (groupId, ·) }

def isHere (db : Db) (nodeId vnicId : Text) : Bool :=
  match db.vnics.lookup vnicId with
  | none => false
  | some r => r.onNode nodeId fun _ => true

/-- `create_instance_vnics`; `vnic_created` goes to the node of the instance. -/
def startVnic (nodeId : Text) (db : Db) (vnicId : Text) (r : VnicRecord) : Db × List Event :=
  if db.accepts vnicId r then
    ({ db with vnics := AList.insert vnicId r db.vnics },
      (if r.onNode nodeId fun _ => true then [.vnicCreated vnicId] else []) ++
        r.vnic.securityGroups.map fun g => .vnicJoined g vnicId)
  else (db, [])

/-- `destroy_instance_vnics` -/
def terminateVnic (nodeId : Text) (db : Db) (vnicId : Text) : Db × List Event :=
  match db.vnics.lookup vnicId with
  | none => (db, [])
  | some r =>
    ({ db with vnics := AList.erase vnicId db.vnics },
      (if r.onNode nodeId fun _ => true then [.vnicDestroyed vnicId] else []) ++
        r.vnic.securityGroups.map fun g => .vnicLeft g vnicId)

def setGroups (db : Db) (vnicId : Text) (f : List Text → List Text) : Db :=
  { db with
    vnics := Hash.modify vnicId (fun r => { r with
      vnic := { r.vnic with securityGroups := f r.vnic.securityGroups } }) db.vnics }

theorem lookup_setGroups (db : Db) (v : Text) (f : List Text → List Text) (u : Text) :
    (db.setGroups v f).vnics.lookup u =
      if u = v then (db.vnics.lookup u).map fun r => { r with
        vnic := { r.vnic with securityGroups := f r.vnic.securityGroups } }
      else db.vnics.lookup u := Hash.lookup_modify v _ db.vnics u

end Db

/-- The database after the change, and the events it publishes to the node; those
about a vnic's own groups go to its host node. -/
def Cause.run (nodeId : Text) (db : Db) : Cause → Db × List Event
  | startInstance vnics =>
    vnics.foldl (fun acc v =>
      let next := Db.startVnic nodeId acc.1 v.1 v.2
      (next.1, acc.2 ++ next.2)) (db, [])
  | terminateInstance vnicIds =>
    vnicIds.foldl (fun acc v =>
      let next := Db.terminateVnic nodeId acc.1 v
      (next.1, acc.2 ++ next.2)) (db, [])
  | addSecurityGroup v g =>
    match db.vnics.lookup v, db.groups.lookup g with
    | some r, some _ =>
      if r.inGroup g then (db, [])
      else
        (db.setGroups v fun gs => gs ++ [g],
          .vnicJoined g v :: (if db.isHere nodeId v then [.joinedGroup v g] else []) ++
            (db.referenceeIds g).map fun ref => .referencerAdded ref g)
    | _, _ => (db, [])
  | removeSecurityGroup v g =>
    match db.vnics.lookup v, db.groups.lookup g with
    | some r, some _ =>
      if r.inGroup g then
        (db.setGroups v fun gs => gs.filter fun x => x != g,
          .vnicLeft g v :: (if db.isHere nodeId v then [.leftGroup v g] else []) ++
            (db.referenceeIds g).map fun ref => .referencerRemoved ref g)
      else (db, [])
    | _, _ => (db, [])
  | updateRules g rules others =>
    if (db.groups.lookup g).isSome then
      let saved := db.saveRules g rules others
      (saved,
        .rulesUpdated g ::
          ((db.referenceeIds g).filter fun ref => !(saved.referenceeIds g).contains ref).map
            (fun ref => .referencerRemoved ref g) ++
          ((saved.referenceeIds g).filter fun ref => !(db.referenceeIds g).contains ref).map
            fun ref => .referencerAdded ref g)
    else (db, [])

end Netfilter

end WakameVdc
