import WakameVdc.Lib.Proc
import WakameVdc.SecurityGroupTask

/-!
# The netfilter cache of a host node

`edge_networking/netfilter/cache.rb`, with the answers of `hva-collector` it is
filled from (`node_modules/hva_collector.rb`, `models/security_group.rb`). An
answer is computed from the database as it is when the request is made.
-/

namespace WakameVdc

open Lib

namespace Netfilter

inductive NetworkMode
  | securityGroup | l2Overlay | passThrough
  deriving DecidableEq, Repr

structure NetworkMap where
  networkMode : NetworkMode
  deriving DecidableEq, Repr

inductive NetfilterError
  | groupNotFound (groupId : Text)
  | vnicNotFound (vnicId : Text)
  | networkNotFound (networkId : Option Text)
  | failedToAdd (vnicId groupId : Text)
  | unknownVnic (vnicId : Text)
  | noMethodError
  | argumentError
  | typeError
  deriving DecidableEq, Repr

/-! ## The collector -/

structure InstanceRecord where
  nodeId : Text
  running : Bool
  runningOrInitializing : Bool
  alive : Bool
  deriving DecidableEq, Repr

/-- A vnic with its document and the instance it belongs to. -/
structure VnicRecord where
  vnic : VnicMap
  instance? : Option InstanceRecord
  deriving DecidableEq, Repr

def VnicRecord.inGroup (r : VnicRecord) (groupId : Text) : Bool :=
  r.vnic.securityGroups.contains groupId

/-- Whether the vnic's instance meets `p` and has the host node. -/
def VnicRecord.onNode (r : VnicRecord) (nodeId : Text) (p : InstanceRecord → Bool) : Bool :=
  match r.instance? with
  | none => false
  | some i => i.nodeId == nodeId && p i

/-- A group is stored as its rules. `references` are the rows of `security_group_references`,
a referencer and its referencee each. -/
structure Db where
  vnics : Hash Text VnicRecord
  groups : Hash Text (List ParsedRule)
  networks : Hash Text NetworkMap
  references : List (Text × Text)

/-- The groups named by rules, by `ip_source.scan(/sg-\w+/).first`. -/
def ruleGroups (rules : List ParsedRule) : List Text :=
  rules.filterMap fun r => SecurityGroup.refGroupId r.ipSource

namespace Db

/-- The vnics of a group, `ref.network_vif`. -/
def members (db : Db) (groupId : Text) : Hash Text VnicMap :=
  Hash.mapVals (fun _ r => r.vnic) (Hash.filterVals (fun _ r => r.inGroup groupId) db.vnics)

def getReferenceesOfSecurityGroup (db : Db) (groupId : Text) : Hash Text (Hash Text VnicMap) :=
  Hash.mapVals (fun g _ => db.members g)
    (Hash.filterVals (fun g _ => db.references.contains (groupId, g)) db.groups)

def getReferencersOfSecurityGroup (db : Db) (groupId : Text) : Hash Text (Hash Text VnicMap) :=
  Hash.mapVals (fun g _ => db.members g)
    (Hash.filterVals (fun g _ => db.references.contains (g, groupId)) db.groups)

def toNetfilterDocument (db : Db) (groupId : Text) (rules : List ParsedRule) (nodeId : Text) :
    GroupMap where
  uuid := groupId
  rules := rules
  localVnics := Hash.mapVals (fun _ r => r.vnic) (Hash.filterVals
    (fun _ r => r.inGroup groupId && r.onNode nodeId InstanceRecord.runningOrInitializing) db.vnics)
  foreignVnics := Hash.mapVals (fun _ r => r.vnic) (Hash.filterVals
    (fun _ r => r.inGroup groupId && !r.onNode nodeId InstanceRecord.alive) db.vnics)
  referencees := db.getReferenceesOfSecurityGroup groupId
  referencers := db.getReferencersOfSecurityGroup groupId

def getNetfilterSecurityGroup (db : Db) (groupId nodeId : Text) : Option GroupMap :=
  (db.groups.lookup groupId).map fun rules => db.toNetfilterDocument groupId rules nodeId

def startsWith (r : VnicRecord) (nodeId : Text) : Bool :=
  r.onNode nodeId InstanceRecord.running && r.vnic.networkId.isSome

end Db

/-! ## The cache -/

structure Cache where
  emptyVnics : Hash Text VnicMap
  securityGroups : Hash Text GroupMap
  networks : Hash Text NetworkMap

def Db.getNetfilterData (db : Db) (nodeId : Text) : Cache where
  emptyVnics := Hash.mapVals (fun _ r => r.vnic) (Hash.filterVals
    (fun _ r => Db.startsWith r nodeId && r.vnic.securityGroups.isEmpty) db.vnics)
  securityGroups := Hash.mapVals (fun g rules => db.toNetfilterDocument g rules nodeId)
    (Hash.filterVals (fun g _ => (Hash.values db.vnics).any fun r =>
      Db.startsWith r nodeId && r.inGroup g) db.groups)
  networks := Hash.filterVals (fun n _ => (Hash.values db.vnics).any fun r =>
    Db.startsWith r nodeId && r.vnic.networkId == some n) db.networks

/-- What a handler works on: the cache, and for each vnic the addresses its
chains for incoming packets accept, one entry for each `-s address -j ACCEPT`. -/
structure Node where
  cache : Cache
  chains : Hash Text (List Ipv4)

abbrev NodeM := Proc NetfilterError Node

def getCache : NodeM Cache := do
  let node ← get
  pure node.cache

theorem final_bind_getCache {α : Type} (f : Cache → NodeM α) (node : Node) :
    Proc.final (getCache >>= f) node = Proc.final (f node.cache) node := by
  unfold Proc.final
  rw [Proc.exec_bind]
  rfl

def modifyCache (f : Cache → Cache) : NodeM Unit :=
  modify fun node => { node with cache := f node.cache }

def replaceVnic (vnicId : Text) (vnic : VnicMap) (vnics : Hash Text VnicMap) : Hash Text VnicMap :=
  Hash.modify vnicId (fun _ => vnic) vnics

/-- The part the methods that add a vnic share: it joins the entry of the group
where there is one, and its document is refreshed everywhere. -/
def putVnic (groupId vnicId : Text) (vnic : VnicMap) (group : GroupMap) : GroupMap :=
  { group with
    referencees := Hash.mapVals (fun _ vnics => replaceVnic vnicId vnic vnics)
      (Hash.modify groupId (AList.insert vnicId vnic) group.referencees)
    referencers := Hash.mapVals (fun _ vnics => replaceVnic vnicId vnic vnics)
      (Hash.modify groupId (AList.insert vnicId vnic) group.referencers)
    localVnics := replaceVnic vnicId vnic group.localVnics
    foreignVnics := replaceVnic vnicId vnic group.foreignVnics }

/-- `:local_vnics` or `:foreign_vnics`, by the host node of the vnic. -/
def addMember (isLocal : Bool) (vnicId : Text) (vnic : VnicMap) (group : GroupMap) : GroupMap :=
  if isLocal then { group with localVnics := AList.insert vnicId vnic group.localVnics }
  else { group with foreignVnics := AList.insert vnicId vnic group.foreignVnics }

def removeGroupOf (groupId : Text) (vnic : VnicMap) : VnicMap :=
  { vnic with securityGroups := vnic.securityGroups.filter fun g => g != groupId }

def leaveGroup (groupId vnicId : Text) (group : GroupMap) : GroupMap :=
  { group with
    localVnics := Hash.modify vnicId (removeGroupOf groupId) group.localVnics
    foreignVnics := Hash.modify vnicId (removeGroupOf groupId) group.foreignVnics
    referencers :=
      Hash.modify groupId (Hash.modify vnicId (removeGroupOf groupId)) group.referencers
    referencees :=
      Hash.modify groupId (Hash.modify vnicId (removeGroupOf groupId)) group.referencees }

/-- A vnic goes from the entry of a group, and the entry with the last vnic. -/
def removeReference (groupId vnicId : Text) (refs : Hash Text (Hash Text VnicMap)) :
    Hash Text (Hash Text VnicMap) :=
  Hash.filterVals (fun g vnics => !(g == groupId && Hash.isEmpty vnics))
    (Hash.modify groupId (AList.erase vnicId) refs)

namespace Cache

def mapGroups (f : GroupMap → GroupMap) (c : Cache) : Cache :=
  { c with securityGroups := Hash.mapVals (fun _ g => f g) c.securityGroups }

/-- `delete_if {|sg_id, v| v[:local_vnics].empty? }` -/
def dropEmptyGroups (c : Cache) : Cache :=
  { c with
    securityGroups := Hash.filterVals (fun _ g => !Hash.isEmpty g.localVnics) c.securityGroups }

def removeVnic (vnicId : Text) (c : Cache) : Cache :=
  dropEmptyGroups { c with
    emptyVnics := AList.erase vnicId c.emptyVnics
    securityGroups := Hash.mapVals (fun _ group => { group with
      localVnics := AList.erase vnicId group.localVnics
      foreignVnics := AList.erase vnicId group.foreignVnics
      referencers := Hash.mapVals (fun _ sg => AList.erase vnicId sg) group.referencers
      referencees := Hash.mapVals (fun _ sg => AList.erase vnicId sg) group.referencees })
      c.securityGroups }

def removeForeignVnic (groupId vnicId : Text) (c : Cache) : Cache :=
  mapGroups (leaveGroup groupId vnicId) { c with
    securityGroups := Hash.modify groupId
      (fun group => { group with foreignVnics := AList.erase vnicId group.foreignVnics })
      c.securityGroups }

def removeVnicFromReferencees (groupId vnicId : Text) : Cache → Cache :=
  mapGroups fun group =>
    { group with referencees := removeReference groupId vnicId group.referencees }

def removeVnicFromReferencers (groupId vnicId : Text) : Cache → Cache :=
  mapGroups fun group =>
    { group with referencers := removeReference groupId vnicId group.referencers }

def removeSecurityGroup (groupId : Text) (c : Cache) : Cache :=
  { c with securityGroups := AList.erase groupId c.securityGroups }

def removeNetwork (networkId : Option Text) (c : Cache) : Cache :=
  match networkId with
  | none => c
  | some n => { c with networks := AList.erase n c.networks }

/-! ### Boolean methods -/

def isLocalGroup (c : Cache) (groupId : Text) : Bool := (c.securityGroups.lookup groupId).isSome

def isLocalVnicInGroup (c : Cache) (vnicId groupId : Text) : Bool :=
  match c.securityGroups.lookup groupId with
  | none => false
  | some group => (group.localVnics.lookup vnicId).isSome

def isForeignVnicInGroup (c : Cache) (vnicId groupId : Text) : Bool :=
  match c.securityGroups.lookup groupId with
  | none => false
  | some group => (group.foreignVnics.lookup vnicId).isSome

def isReferenceeVnicInGroup (c : Cache) (vnicId refGroupId : Text) : Bool :=
  (Hash.values c.securityGroups).any fun group =>
    match group.referencees.lookup refGroupId with
    | none => false
    | some vnics => (vnics.lookup vnicId).isSome

def localVnicsLeftInGroup (c : Cache) (groupId : Text) : Bool :=
  match c.securityGroups.lookup groupId with
  | none => false
  | some group => !Hash.isEmpty group.localVnics

def otherLocalVnicsLeftInGroup (c : Cache) (vnicId groupId : Text) : Bool :=
  match c.securityGroups.lookup groupId with
  | none => false
  | some group => !Hash.isEmpty (AList.erase vnicId group.localVnics : Hash Text VnicMap)

def localVnicsLeftInNetwork (c : Cache) (networkId : Option Text) : Bool :=
  (Hash.values c.securityGroups).any fun group =>
    (Hash.values group.localVnics).any fun vnic => vnic.networkId == networkId

def emptyVnicsLeftInNetwork (c : Cache) (networkId : Option Text) : Bool :=
  (Hash.values c.emptyVnics).any fun vnic => vnic.networkId == networkId

/-! ### Get methods -/

def getLocalVnic (c : Cache) (vnicId : Text) : Option VnicMap :=
  (Hash.values c.securityGroups).findSome? fun group => group.localVnics.lookup vnicId

def getEmptyVnic (c : Cache) (vnicId : Text) : Option VnicMap := c.emptyVnics.lookup vnicId

/-- The search among the foreign vnics reads a pair of key and value as a hash,
and raises as soon as there is a group. -/
def getVnic (c : Cache) (vnicId : Text) : Except NetfilterError (Option VnicMap) :=
  match c.getEmptyVnic vnicId with
  | some vnic => .ok (some vnic)
  | none =>
    match c.getLocalVnic vnicId with
    | some vnic => .ok (some vnic)
    | none => if Hash.isEmpty c.securityGroups then .ok none else .error .typeError

def getLocalVnicsInGroup (c : Cache) (groupId : Text) : List VnicMap :=
  match c.securityGroups.lookup groupId with
  | none => []
  | some group => Hash.values group.localVnics

def getReferencer (c : Cache) (groupId refId : Text) :
    Except NetfilterError (Option (Hash Text VnicMap)) :=
  match c.securityGroups.lookup groupId with
  | none => .error (.groupNotFound groupId)
  | some group => .ok (group.referencers.lookup refId)

/-- Friends but the vnic itself, each once. -/
def withoutSelf (vnicId : Text) (friends : List VnicMap) : List VnicMap :=
  (friends.foldl (fun acc f => if acc.any fun g => g.uuid == f.uuid then acc else acc ++ [f])
    []).filter fun f => f.uuid != vnicId

def getAllLocalFriends (c : Cache) (vnicId : Text) : Except NetfilterError (List VnicMap) := do
  match ← c.getVnic vnicId with
  | none => throw (.vnicNotFound vnicId)
  | some vnic =>
    return withoutSelf vnicId (vnic.securityGroups.flatMap c.getLocalVnicsInGroup)

def getAllFriends (c : Cache) (vnicId : Text) : Except NetfilterError (List VnicMap) := do
  match ← c.getVnic vnicId with
  | none => throw (.vnicNotFound vnicId)
  | some vnic =>
    let friends ← vnic.securityGroups.mapM fun groupId =>
      match c.securityGroups.lookup groupId with
      | none => throw .noMethodError
      | some group => pure (Hash.values group.localVnics ++ Hash.values group.foreignVnics)
    return withoutSelf vnicId friends.flatten

def getLocalFriendsInGroup (c : Cache) (vnicId groupId : Text) :
    Except NetfilterError (List VnicMap) :=
  match c.securityGroups.lookup groupId with
  | none => .error .noMethodError
  | some group => .ok (Hash.values (AList.erase vnicId group.localVnics : Hash Text VnicMap))

def getFriendsInGroup (c : Cache) (vnicId groupId : Text) :
    Except NetfilterError (List VnicMap) :=
  match c.securityGroups.lookup groupId with
  | none => .error .noMethodError
  | some group =>
    .ok (Hash.values (AList.erase vnicId (group.foreignVnics ∪ group.localVnics) : Hash Text VnicMap))

def getVnicNetworkMode (c : Cache) (vnicId : Text) : Except NetfilterError NetworkMode := do
  match ← c.getVnic vnicId with
  | none => throw .noMethodError
  | some vnic =>
    match vnic.networkId.bind c.networks.lookup with
    | none => throw .noMethodError
    | some network => return network.networkMode

end Cache

/-! ## Methods that ask the collector -/

section
variable (db : Db)

def addNetwork (networkId : Option Text) : NodeM Unit := do
  let c ← getCache
  if (networkId.bind c.networks.lookup).isSome then pure ()
  else
    match networkId, networkId.bind db.networks.lookup with
    | some n, some nw =>
      modifyCache fun c => { c with networks := AList.insert n nw c.networks }
    | _, _ => throw (.networkNotFound networkId)

def addSecurityGroup (nodeId groupId : Text) : NodeM Unit :=
  match db.getNetfilterSecurityGroup groupId nodeId with
  | none => pure ()
  | some group => do
    modifyCache fun c => { c with
      securityGroups := AList.insert groupId group c.securityGroups }
    (Hash.values group.localVnics).forM fun vnic => addNetwork db vnic.networkId

/-- `get_netfilter_vnic_with_node_id`; a vnic without an instance has no node. -/
def vnicWithNodeId (vnicId : Text) : Except NetfilterError (VnicMap × Text) :=
  match db.vnics.lookup vnicId with
  | none => .error (.vnicNotFound vnicId)
  | some r =>
    match r.instance? with
    | none => .error .noMethodError
    | some i => .ok (r.vnic, i.nodeId)

/-- What an answer or a getter raises is raised by the handler. -/
def lift {α : Type} (x : Except NetfilterError α) : NodeM α :=
  match x with
  | .ok a => pure a
  | .error e => throw e

def addToGroup (isLocal : Bool) (vnicId groupId : Text) (vnic : VnicMap) (c : Cache) : Cache :=
  Cache.mapGroups (putVnic groupId vnicId vnic) { c with
    securityGroups := Hash.modify groupId (addMember isLocal vnicId vnic) c.securityGroups }

theorem isLocalGroup_addToGroup (c : Cache) (isLocal : Bool) (v g : Text) (vnic : VnicMap)
    (g' : Text) : (addToGroup isLocal v g vnic c).isLocalGroup g' = c.isLocalGroup g' := by
  simp only [addToGroup, Cache.isLocalGroup, Cache.mapGroups, Hash.lookup_mapVals,
    Option.isSome_map, Hash.isSome_lookup_modify]

def addVnicToGroups (nodeId vnicId : Text) (vnic : VnicMap) (isLocal : Bool) : NodeM Unit :=
  if vnic.securityGroups.isEmpty then
    modifyCache fun c => { c with emptyVnics := AList.insert vnicId vnic c.emptyVnics }
  else
    vnic.securityGroups.forM fun groupId => do
      let c ← getCache
      if c.isLocalGroup groupId then modifyCache (addToGroup isLocal vnicId groupId vnic)
      else addSecurityGroup db nodeId groupId

def addVnic (nodeId vnicId : Text) : NodeM Unit := do
  let result ← lift (vnicWithNodeId db vnicId)
  addVnicToGroups db nodeId vnicId result.1 (result.2 == nodeId)
  addNetwork db result.1.networkId

def addVnicToSecurityGroup (nodeId vnicId groupId : Text) : NodeM Unit := do
  let c ← getCache
  Proc.when (!c.isLocalGroup groupId) (addSecurityGroup db nodeId groupId)
  let result ← lift (vnicWithNodeId db vnicId)
  let c ← getCache
  if c.isLocalGroup groupId then
    modifyCache (addToGroup (result.2 == nodeId) vnicId groupId result.1)
  else throw .noMethodError

def addVnicToReferencersAndReferenceesForGroup (vnicId groupId : Text) : NodeM Unit :=
  match db.vnics.lookup vnicId with
  | none => throw (.vnicNotFound vnicId)
  | some r => modifyCache (Cache.mapGroups (putVnic groupId vnicId r.vnic))

def updateGroup (groupId : Text) (f : List ParsedRule → GroupMap → GroupMap) : NodeM Unit := do
  let c ← getCache
  match c.securityGroups.lookup groupId, db.groups.lookup groupId with
  | some _, some rules => modifyCache fun c => { c with
      securityGroups := Hash.modify groupId (f rules) c.securityGroups }
  | _, _ => throw .noMethodError

def updateRules (groupId : Text) : NodeM Unit :=
  updateGroup db groupId fun rules group => { group with rules := rules }

def updateReferencees (groupId : Text) : NodeM Unit :=
  updateGroup db groupId fun _ group =>
    { group with referencees := db.getReferenceesOfSecurityGroup groupId }

def updateReferencers (groupId : Text) : NodeM Unit :=
  updateGroup db groupId fun _ group =>
    { group with referencers := db.getReferencersOfSecurityGroup groupId }

end

/-- A vnic that left a group goes from the group, and the group from its documents. -/
def removeLocalVnicFromGroup (vnicId groupId : Text) : NodeM Unit := do
  let c ← getCache
  if c.isLocalGroup groupId then
    modifyCache fun c => Cache.dropEmptyGroups (Cache.mapGroups (leaveGroup groupId vnicId) { c with
      securityGroups := Hash.modify groupId
        (fun group => { group with localVnics := AList.erase vnicId group.localVnics })
        c.securityGroups })
  else throw .noMethodError

end Netfilter

end WakameVdc
