import WakameVdc.VnicStore

/-!
# What the netfilter service listens to

The events `node_modules/service_netfilter.rb` subscribes to. Its handlers
subscribe to the events of a group when a local vnic joins it, and to the vnics
of the groups its rules name; they unsubscribe by tests on the cache. An event
reaches its handler as long as the node is subscribed to it.
-/

namespace WakameVdc

open Lib

namespace Netfilter

/-! ## Subscriptions -/

/-- The names of events. `vnicsJoined` and `vnicsLeft` are those of no group: what
stands before the slash is a hash of vnics. -/
inductive Topic
  | vnicCreated
  | vnicDestroyed
  | joinedGroup (vnicId : Text)
  | leftGroup (vnicId : Text)
  | vnicJoined (groupId : Text)
  | vnicLeft (groupId : Text)
  | referencerAdded (groupId : Text)
  | referencerRemoved (groupId : Text)
  | rulesUpdated (groupId : Text)
  | vnicsJoined (vnics : Hash Text VnicMap)
  | vnicsLeft (vnics : Hash Text VnicMap)
  deriving DecidableEq

def Event.topic : Event → Topic
  | vnicCreated _ => .vnicCreated
  | vnicDestroyed _ => .vnicDestroyed
  | joinedGroup v _ => .joinedGroup v
  | leftGroup v _ => .leftGroup v
  | vnicJoined r _ => .vnicJoined r
  | vnicLeft r _ => .vnicLeft r
  | referencerAdded g _ => .referencerAdded g
  | referencerRemoved g _ => .referencerRemoved g
  | rulesUpdated g => .rulesUpdated g

/-- The service: what its handlers work on, and `@subscribed_events`. -/
structure Service where
  node : Node
  subscribedEvents : List Topic

abbrev ServiceM := Proc NetfilterError Service

def onNode {α : Type} (x : NodeM α) : ServiceM α :=
  ExceptT.mk fun s => ((Proc.exec x s.node).1, { s with node := (Proc.exec x s.node).2 })

def subscribeToEvent (ev : Topic) : ServiceM Unit :=
  modify fun s =>
    if ev ∈ s.subscribedEvents then s
    else { s with subscribedEvents := s.subscribedEvents ++ [ev] }

def unsubscribeFromEvent (ev : Topic) : ServiceM Unit :=
  modify fun s => { s with subscribedEvents := s.subscribedEvents.filter fun x => x != ev }

def subscribeToLocalVnic (vnicId : Text) : ServiceM Unit := do
  subscribeToEvent (.joinedGroup vnicId)
  subscribeToEvent (.leftGroup vnicId)

def unsubscribeFromLocalVnic (vnicId : Text) : ServiceM Unit := do
  unsubscribeFromEvent (.joinedGroup vnicId)
  unsubscribeFromEvent (.leftGroup vnicId)

def subscribeToReferencees (refGroupId : Text) : ServiceM Unit := do
  subscribeToEvent (.vnicJoined refGroupId)
  subscribeToEvent (.vnicLeft refGroupId)

def subscribeToSecurityGroup (groupId : Text) : ServiceM Unit := do
  subscribeToReferencees groupId
  subscribeToEvent (.referencerAdded groupId)
  subscribeToEvent (.referencerRemoved groupId)
  subscribeToEvent (.rulesUpdated groupId)

/-! ## What is still needed -/

namespace Cache

def localReferencersLeft (c : Cache) (groupId : Text) : Bool :=
  (Hash.values c.securityGroups).any fun group => (group.referencers.lookup groupId).isSome

def localReferenceesLeft (c : Cache) (groupId : Text) : Bool :=
  (Hash.values c.securityGroups).any fun group => (group.referencees.lookup groupId).isSome

/-- Whether another group has its own id among its referencees; the referencee
that is asked about is not looked at. -/
def otherGroupsReferencingGroup (c : Cache) (referencerId : Text) : Bool :=
  (AList.erase referencerId c.securityGroups).entries.any fun e =>
    (e.2.referencees.lookup e.1).isSome

def getLocalGroupsThatReferenceGroup (c : Cache) (refGroupId : Text) : List GroupMap :=
  (Hash.values c.securityGroups).filter fun group => (group.referencees.lookup refGroupId).isSome

/-- `get_group(group_id)[:referencees].keys` -/
def referenceeIds (c : Cache) (groupId : Text) : List Text :=
  match c.securityGroups.lookup groupId with
  | none => []
  | some group => group.referencees.keys

end Cache

def unsubscribeFromReferencedSecurityGroup (groupId : Text) : ServiceM Unit := do
  unsubscribeFromEvent (.vnicJoined groupId)
  unsubscribeFromEvent (.vnicLeft groupId)

def unsubscribeFromSecurityGroup (groupId : Text) : ServiceM Unit := do
  let c ← onNode getCache
  Proc.when (!c.localReferenceesLeft groupId) (unsubscribeFromReferencedSecurityGroup groupId)
  unsubscribeFromEvent (.referencerAdded groupId)
  unsubscribeFromEvent (.referencerRemoved groupId)
  unsubscribeFromEvent (.rulesUpdated groupId)

/-! ## Handlers -/

def subscribeToGroupAndReferencees (groupId : Text) : ServiceM Unit := do
  subscribeToSecurityGroup groupId
  let c ← onNode getCache
  match c.securityGroups.lookup groupId with
  | none => throw .noMethodError
  | some group => group.referencees.keys.forM subscribeToReferencees

section
variable (db : Db) (nodeId : Text)

/-- What `vnic_created` does before it subscribes, with the vnic it goes on with. -/
def createVnicTasks (vnicId : Text) : NodeM VnicMap := do
  let old ← getCache
  addVnic db nodeId vnicId
  let c ← getCache
  match c.getLocalVnic vnicId with
  | some vnic => do
    forgetSiblings vnic (vnic.securityGroups.filter fun g => !old.isLocalGroup g)
    let c ← getCache
    let friends ← lift (c.getAllFriends vnicId)
    initializeVnic vnic friends (vnic.securityGroups.map fun g => c.securityGroups.lookup g)
    pure vnic
  | none =>
    match c.getEmptyVnic vnicId with
    | none => throw .noMethodError
    | some vnic => do
      initializeVnic vnic [] []
      pure vnic

def Service.vnicCreated (vnicId : Text) : ServiceM Unit := do
  let vnic ← onNode (createVnicTasks db nodeId vnicId)
  vnic.securityGroups.forM subscribeToGroupAndReferencees
  subscribeToLocalVnic vnic.uuid

/-- `group[:referencees].values.each {|ref_id, ref| ..}`: a value is a hash of
vnics, which is not taken apart, so `ref_id` is the hash. -/
def unsubscribeFromReferencees (c : Cache) (groupId : Text) : ServiceM Unit :=
  match c.securityGroups.lookup groupId with
  | none => pure ()
  | some group =>
    (Hash.values group.referencees).forM fun vnics =>
      Proc.when (!c.otherGroupsReferencingGroup groupId) do
        unsubscribeFromEvent (.vnicsJoined vnics)
        unsubscribeFromEvent (.vnicsLeft vnics)

def unsubscribeFromGroupsOf (vnicId : Text) (groups : List Text) : ServiceM Unit :=
  groups.forM fun groupId => do
    let c ← onNode getCache
    Proc.when (!c.otherLocalVnicsLeftInGroup vnicId groupId) do
      unsubscribeFromSecurityGroup groupId
      unsubscribeFromReferencees c groupId

def Service.vnicDestroyed (vnicId : Text) : ServiceM Unit := do
  let c ← onNode getCache
  match (c.getLocalVnic vnicId).or (c.getEmptyVnic vnicId) with
  | none => pure ()
  | some vif => do
    unsubscribeFromGroupsOf vnicId vif.securityGroups
    unsubscribeFromLocalVnic vif.uuid
    onNode (Netfilter.vnicDestroyed vnicId)

def Service.joinedGroup (vnicId groupId : Text) : ServiceM Unit := do
  onNode (Netfilter.joinedGroup db nodeId vnicId groupId)
  subscribeToGroupAndReferencees groupId

def Service.leftGroup (vnicId groupId : Text) : ServiceM Unit := do
  onNode (leaveAsLocal vnicId groupId)
  let c ← onNode getCache
  Proc.when (c.getLocalVnicsInGroup groupId).isEmpty do
    onNode (modifyCache (Cache.removeSecurityGroup groupId))
    unsubscribeFromSecurityGroup groupId
    let c ← onNode getCache
    Proc.when (c.getLocalGroupsThatReferenceGroup groupId).isEmpty
      (unsubscribeFromReferencedSecurityGroup groupId)
  onNode (modifyCache fun c =>
    if c.localVnicsLeftInGroup groupId then c else c.removeSecurityGroup groupId)

def Service.referencerAdded (groupId refGroupId : Text) : ServiceM Unit := do
  onNode (Netfilter.referencerAdded db groupId refGroupId)
  subscribeToReferencees groupId

def Service.referencerRemoved (groupId refGroupId : Text) : ServiceM Unit := do
  onNode (Netfilter.referencerRemoved db groupId refGroupId)
  let c ← onNode getCache
  Proc.when (!(c.localReferencersLeft refGroupId || c.localVnicsLeftInGroup refGroupId))
    (unsubscribeFromReferencedSecurityGroup refGroupId)

/-- A group that is named no longer is unsubscribed from if there are local vnics
in it and a local group it is a referencer of. -/
def Service.rulesUpdated (groupId : Text) : ServiceM Unit := do
  let old ← onNode getCache
  onNode (Netfilter.rulesUpdated db groupId)
  let updated ← onNode getCache
  (updated.referenceeIds groupId).forM fun ref =>
    Proc.when (!(old.referenceeIds groupId).contains ref) (subscribeToReferencees ref)
  (old.referenceeIds groupId).forM fun ref =>
    Proc.when (!(updated.referenceeIds groupId).contains ref && updated.localVnicsLeftInGroup ref &&
      updated.localReferencersLeft ref) (unsubscribeFromReferencedSecurityGroup ref)

def Event.serve : Event → ServiceM Unit
  | .vnicCreated v => Service.vnicCreated db nodeId v
  | .vnicDestroyed v => Service.vnicDestroyed v
  | .joinedGroup v g => Service.joinedGroup db nodeId v g
  | .leftGroup v g => Service.leftGroup v g
  | .vnicJoined r v => onNode (Netfilter.vnicJoined db nodeId r v)
  | .vnicLeft r v => onNode (Netfilter.vnicLeft r v)
  | .referencerAdded g r => Service.referencerAdded db g r
  | .referencerRemoved g r => Service.referencerRemoved db g r
  | .rulesUpdated g => Service.rulesUpdated db g

end

/-! ## Runs -/

/-- An event, and the database as it is while its handler runs. A document has the
id it is stored under. -/
structure Delivery where
  event : Event
  db : Db
  uuids : ∀ v r, db.vnics.lookup v = some r → r.vnic.uuid = v

def Service.step (nodeId : Text) (s : Service) (d : Delivery) : Service :=
  if d.event.topic ∈ s.subscribedEvents then Proc.final (d.event.serve d.db nodeId) s else s

/-- `netfilter_all_tasks` for a vnic of the cache when the node starts. -/
def initialTasks (c : Cache) (vif : VnicMap) : NodeM Unit := do
  let friends ← lift (c.getAllFriends vif.uuid)
  applyVnicChains vif.uuid
  let mode ← vnicNetworkMode vif.uuid
  let ips ← lift (mode.allTasks friends (vif.securityGroups.map fun g => c.securityGroups.lookup g))
  applyAccepts vif.uuid ips

def Service.initializeHook (nodeId : Text) (db : Db) : ServiceM Unit := do
  onNode (modifyCache fun _ => db.getNetfilterData nodeId)
  let c ← onNode getCache
  (((Hash.values c.securityGroups).flatMap fun g => Hash.values g.localVnics).dedup ++
      Hash.values c.emptyVnics).forM fun vif => do
    onNode (initialTasks c vif)
    subscribeToLocalVnic vif.uuid
  c.securityGroups.keys.forM subscribeToGroupAndReferencees

def Service.start (nodeId : Text) (db : Db) : Service :=
  Proc.final (Service.initializeHook nodeId db) ⟨⟨⟨∅, ∅, ∅⟩, ∅⟩, [.vnicCreated, .vnicDestroyed]⟩

/-! ## What the node should listen to -/

/-- The rules of a group with a local vnic name the group. -/
def Cache.names (c : Cache) (r : Text) : Prop :=
  ∃ g group, c.securityGroups.lookup g = some group ∧ c.localVnicsLeftInGroup g = true ∧
    r ∈ ruleGroups group.rules

/-- The node listens to exactly the groups it needs to hear of. -/
structure InStep (s : Service) : Prop where
  vnicJoined : ∀ r, .vnicJoined r ∈ s.subscribedEvents ↔
    s.node.cache.localVnicsLeftInGroup r = true ∨ s.node.cache.names r
  vnicLeft : ∀ r, .vnicLeft r ∈ s.subscribedEvents ↔
    s.node.cache.localVnicsLeftInGroup r = true ∨ s.node.cache.names r
  rulesUpdated : ∀ g, .rulesUpdated g ∈ s.subscribedEvents ↔
    s.node.cache.localVnicsLeftInGroup g = true
  referencerAdded : ∀ g, .referencerAdded g ∈ s.subscribedEvents ↔
    s.node.cache.localVnicsLeftInGroup g = true
  referencerRemoved : ∀ g, .referencerRemoved g ∈ s.subscribedEvents ↔
    s.node.cache.localVnicsLeftInGroup g = true

end Netfilter

end WakameVdc
