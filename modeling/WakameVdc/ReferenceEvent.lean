import WakameVdc.SecurityGroupReferenceRun

/-!
# Referencer events

The requests that publish `referencer_added` and `referencer_removed`: those of
`endpoints/12.03/security_groups.rb`, and the ones of `network_vifs.rb` and
`instances.rb` by which vifs join groups and leave them. The events go to the netfilter
services of the nodes with vnics in the referenced group.
-/

namespace WakameVdc

open Lib

namespace ReferenceEvent

open GroupModel SecurityGroup

/-- Groups by their keys, which stand for the uuids in the names of the events. -/
inductive Event
  | securityGroupUpdated (group : Nat)
  | rulesUpdated (group : Nat)
  | vnicJoined (group vif : Nat)
  | vnicLeft (group vif : Nat)
  | joinedGroup (vif group : Nat)
  | leftGroup (vif group : Nat)
  | referencerAdded (group referencer : Nat)
  | referencerRemoved (group referencer : Nat)
  deriving DecidableEq, Repr

/-! ## Requests -/

variable {collate : Text → List Nat}

def securityGroups (db : Db collate) (vif : Nat) : List GroupRow :=
  (db.vnics.filter fun p => p.1 == vif).filterMap fun p => db.groups.find p.2

/-- The differences of the two lists, which tell objects apart by all their columns. -/
def sendReferenceEvents (group : Nat) (oldReferencees newReferencees : List GroupRow) :
    List Event :=
  ((oldReferencees.filter fun ref => !newReferencees.contains ref).map fun ref =>
      Event.referencerRemoved ref.id group) ++
    (newReferencees.filter fun ref => !oldReferencees.contains ref).map fun ref =>
      Event.referencerAdded ref.id group

def joinEvents (db : Db collate) (vif group : Nat) : List Event :=
  [Event.vnicJoined group vif, .joinedGroup vif group] ++
    (db.referencees group).map fun ref => .referencerAdded ref.id group

def leaveEvents (db : Db collate) (vif group : Nat) : List Event :=
  [Event.vnicLeft group vif, .leftGroup vif group] ++
    (db.referencees group).map fun ref => .referencerRemoved ref.id group

/-- `PUT /instances/:id` with `security_groups`: the vifs of the instance, the groups
that have its service type, and the uuids asked for. -/
structure InstanceGroups where
  nic : List Nat
  sameServiceType : Nat → Bool
  uuids : List Text

/-- `labels` is whether the labels of the new group can be set, `others` whether another
column changes, and `accepted` whether vif and group are of one account. -/
inductive Request
  | postGroup (uuid : Text) (rule : Option Text) (labels : Bool)
  | putGroup (id : Nat) (rule : Option Text) (others : Bool)
  | deleteGroup (id : Nat)
  | addSecurityGroup (vif id : Nat) (accepted : Bool)
  | removeSecurityGroup (vif id : Nat)
  | putInstance (r : InstanceGroups)

def addVnic (db : Db collate) (vif group : Nat) : Db collate := { db with vnics := db.vnics ++ [(vif, group)] }

/-- `remove_security_group` destroys the first row it finds; nothing keeps a vif from being
in a group by two. -/
def removeVnic (db : Db collate) (vif group : Nat) : Db collate :=
  { db with vnics := db.vnics.erase (vif, group) }

namespace InstanceGroups

def leaves (db : Db collate) (r : InstanceGroups) : List (Nat × Nat) :=
  r.nic.flatMap fun vif =>
    ((securityGroups db vif).filter fun g =>
      r.sameServiceType g.id && !r.uuids.contains g.canonicalUuid).map fun g => (vif, g.id)

def left (db : Db collate) (r : InstanceGroups) : Db collate :=
  (r.leaves db).foldl (fun db p => removeVnic db p.1 p.2) db

/-- The groups the first vif is not in go to all of them. -/
def joins (db : Db collate) (r : InstanceGroups) (groups : List GroupRow) : List (Nat × Nat) :=
  let current := (r.nic.head?.map (securityGroups (r.left db))).getD []
  (groups.filter fun g => !(current.map GroupRow.canonicalUuid).contains g.canonicalUuid).flatMap
    fun g => r.nic.map fun vif => (vif, g.id)

def run (db : Db collate) (r : InstanceGroups) : Db collate × List Event :=
  match r.uuids.mapM db.byUuid with
  | none => (db, [])
  | some groups =>
    if r.nic.isEmpty then (db, [])
    else
      ((r.joins db groups).foldl (fun db p => addVnic db p.1 p.2) (r.left db),
        (r.leaves db).flatMap (fun p => leaveEvents db p.1 p.2) ++
          (r.joins db groups).flatMap fun p => joinEvents db p.1 p.2)

end InstanceGroups

section
variable (ipAddress : Text → Option IPAddr) (column : Text → Option Text) (openvnet : Bool)

/-- `POST /security_groups` publishes before the request is through. -/
def postGroup (db : Db collate) (uuid : Text) (rule : Option Text) (labels : Bool) : Db collate × List Event :=
  match create ipAddress column openvnet db uuid rule with
  | .error _ => (db, [])
  | .ok db' =>
    (if labels then db' else db,
      sendReferenceEvents db.groups.next [] (db'.referencees db.groups.next))

/-- `PUT /security_groups/:id`; the hooks run when a column changes, and the association
they have cached in the object is what is new. -/
def putGroup (db : Db collate) (id : Nat) (rule : Option Text) (others : Bool) : Db collate × List Event :=
  match db.groups.find id with
  | none => (db, [])
  | some g =>
    match if others || rule.any (fun t => g.rule != some t) then
        save ipAddress column openvnet db id (rule.or g.rule) else .ok ⟨db, some id, none, []⟩ with
    | .error _ => (db, [])
    | .ok s =>
      (s.db, [.securityGroupUpdated id, .rulesUpdated id] ++
        if rule.isSome then sendReferenceEvents id (db.referencees id) s.referencees else [])

/-- `DELETE /security_groups/:id` -/
def deleteGroup (db : Db collate) (id : Nat) : Db collate × List Event :=
  match db.groups.find id with
  | none => (db, [])
  | some _ =>
    match destroy db id with
    | .error _ => (db, [])
    | .ok db' => (db', [])

/-- `PUT /network_vifs/:vif_id/add_security_group` -/
def addSecurityGroup (db : Db collate) (vif id : Nat) (accepted : Bool) : Db collate × List Event :=
  if accepted && (db.groups.find id).isSome && !db.vnics.contains (vif, id) then
    (addVnic db vif id, joinEvents db vif id)
  else (db, [])

/-- `PUT /network_vifs/:vif_id/remove_security_group` -/
def removeSecurityGroup (db : Db collate) (vif id : Nat) : Db collate × List Event :=
  if (db.groups.find id).isSome && db.vnics.contains (vif, id) then
    (removeVnic db vif id, leaveEvents db vif id)
  else (db, [])

def Request.run (db : Db collate) : Request → Db collate × List Event
  | .postGroup uuid rule labels =>
    ReferenceEvent.postGroup ipAddress column openvnet db uuid rule labels
  | .putGroup id rule others => ReferenceEvent.putGroup ipAddress column openvnet db id rule others
  | .deleteGroup id => ReferenceEvent.deleteGroup db id
  | .addSecurityGroup vif id accepted => ReferenceEvent.addSecurityGroup db vif id accepted
  | .removeSecurityGroup vif id => ReferenceEvent.removeSecurityGroup db vif id
  | .putInstance r => r.run db

def Request.step (db : Db collate) (r : Request) : Db collate :=
  (r.run ipAddress column openvnet db).1

end

/-! ## A node that hears of referencers -/

/-- A group of the netfilter cache, with its local vnics and the vnics of the groups it
refers to and of those that refer to it. -/
structure CachedGroup where
  id : Nat
  localVnics : List Nat
  referencees : List (Nat × List Nat)
  referencers : List (Nat × List Nat)
  deriving DecidableEq, Repr

/-- An ARP opening is a rule that accepts the requests of the second vnic to the first. The
subscriptions are to the `vnic_joined` and `vnic_left` of groups. -/
structure Listener where
  groups : List CachedGroup
  arpOpenings : List (Nat × Nat)
  subscribed : List Nat
  deriving DecidableEq, Repr

def members (db : Db collate) (group : Nat) : List Nat :=
  (db.vnics.filter fun p => p.2 == group).map Prod.fst

namespace CachedGroup

def referencer (c : CachedGroup) (ref : Nat) : Option (List Nat) :=
  (c.referencers.find? fun e => e.1 == ref).map Prod.snd

/-- The rules `netfilter_arp_isolation_tasks` has for the local vnics. -/
def arpTasks (c : CachedGroup) (vnics : List Nat) : List (Nat × Nat) :=
  c.localVnics.flatMap fun l => vnics.map fun v => (l, v)

/-- `update_referencers` and `update_referencees` -/
def update (db : Db collate) (c : CachedGroup) : CachedGroup :=
  { c with
    referencers := (db.referencers c.id).map fun g => (g.id, members db g.id)
    referencees := (db.referencees c.id).map fun g => (g.id, members db g.id) }

end CachedGroup

namespace Listener

def group (n : Listener) (id : Nat) : Option CachedGroup := n.groups.find? fun c => c.id == id

def update (db : Db collate) (id : Nat) (n : Listener) : Listener :=
  { n with groups := n.groups.map fun c => if c.id = id then c.update db else c }

def localReferencersLeft (n : Listener) (group : Nat) : Bool :=
  n.groups.any fun c => (c.referencer group).isSome

def localVnicsLeftInGroup (n : Listener) (group : Nat) : Bool :=
  (n.group group).any fun c => !c.localVnics.isEmpty

/-- The handler of `referencer_added`; without the group it raises. -/
def referencerAdded (db : Db collate) (group ref : Nat) (n : Listener) : Listener :=
  match n.group group with
  | none => n
  | some c =>
    let updated := n.update db group
    match (c.update db).referencer ref with
    | none =>
      if c.localVnics.isEmpty then { updated with subscribed := updated.subscribed.insert group }
      else updated
    | some vnics =>
      { updated with
        arpOpenings := (c.arpTasks vnics) ++ updated.arpOpenings
        subscribed := updated.subscribed.insert group }

/-- The handler of `referencer_removed`; it raises if there are local vnics whose
openings to close, but no entry of the referencer. -/
def referencerRemoved (db : Db collate) (group ref : Nat) (n : Listener) : Listener :=
  match n.group group with
  | none => n
  | some c =>
    if (c.referencer ref).isNone && !c.localVnics.isEmpty then n
    else
      let closed := { n with
        arpOpenings := (c.arpTasks ((c.referencer ref).getD [])).foldl List.erase n.arpOpenings }
      let updated := closed.update db group
      if updated.localReferencersLeft ref || updated.localVnicsLeftInGroup ref then updated
      else { updated with subscribed := updated.subscribed.filter fun g => g != ref }

/-- The handlers of the other events work on the vnic they name and on the rules. -/
def handle (db : Db collate) (n : Listener) : Event → Listener
  | .referencerAdded group ref => n.referencerAdded db group ref
  | .referencerRemoved group ref => n.referencerRemoved db group ref
  | _ => n

end Listener

/-! ## What the events promise -/

/-- The events tell which references are new and which are gone. -/
structure Follow (db db' : Db collate) (events : List Event) : Prop where
  added : ∀ group ref, .referencerAdded ref group ∈ events ↔
    (group, ref) ∉ db.references ∧ (group, ref) ∈ db'.references
  removed : ∀ group ref, .referencerRemoved ref group ∈ events ↔
    (group, ref) ∈ db.references ∧ (group, ref) ∉ db'.references

def Request.leaving (db : Db collate) : Request → List Nat
  | removeSecurityGroup vif _ => [vif]
  | putInstance r => (r.leaves db).map Prod.fst
  | _ => []

/-- What a node keeps for the other vnics of a group that still refers to one of its own:
the openings, and the subscription to the group. -/
structure Spared (db' : Db collate) (leaving : List Nat) (n n' : Listener) : Prop where
  arpOpenings : ∀ group ref, (group, ref) ∈ db'.references → ∀ c, n.group ref = some c →
    ∀ l ∈ c.localVnics, ∀ v ∈ members db' group, v ∉ leaving →
      (l, v) ∈ n.arpOpenings → (l, v) ∈ n'.arpOpenings
  subscribed : ∀ group ref, (group, ref) ∈ db'.references → (n.group ref).isSome →
    group ∈ n.subscribed → group ∈ n'.subscribed

section
variable (ipAddress : Text → Option IPAddr) (column : Text → Option Text) (openvnet : Bool)

/-- The events of the request follow the references, and if vifs leave by it, no node
drops anything of the others. -/
structure Kept (db : Db collate) (r : Request) : Prop where
  follow : Follow db (r.run ipAddress column openvnet db).1 (r.run ipAddress column openvnet db).2
  spared : r.leaving db ≠ [] → ∀ n : Listener,
    Spared (r.run ipAddress column openvnet db).1 (r.leaving db) n
      ((r.run ipAddress column openvnet db).2.foldl
        (Listener.handle (r.run ipAddress column openvnet db).1) n)

/-! ## Events that do not follow -/

/-- The rules name an existing group, or the new one with the uuid itself. -/
def NamesGroup (db : Db collate) (uuid : Text) (rules : List ParsedRule) : Prop :=
  (∃ x ∈ db.groups.rows, x.Named collate (Netfilter.ruleGroups rules)) ∨
    GroupRow.Named collate (Netfilter.ruleGroups rules) ⟨db.groups.next, uuid, none, 0⟩

/-- A `PUT` with these values saves the group, whose hooks read these rules. -/
structure Saves (db : Db collate) (id : Nat) (rule : Option Text) (others : Bool) (g : GroupRow)
    (rules : List ParsedRule) : Prop where
  found : db.groups.find id = some g
  changed : others = true ∨ ∃ t ∈ rule, g.rule ≠ some t
  valid : validate ipAddress openvnet (rule.or g.rule) = .ok ()
  rules : rulesArray ipAddress ((rule.or g.rule).getD []) = .ok rules
  stores : Stores column db id (rule.or g.rule)

/-- A group that refers to itself is named by a text that is not its uuid as Ruby compares
texts. -/
def Respelled (db : Db collate) (id : Nat) (g : GroupRow) (rules : List ParsedRule) : Prop :=
  g ∈ db.referencees id ∧
    ∃ name ∈ Netfilter.ruleGroups rules, name ≠ g.canonicalUuid ∧ g.answersTo collate name = true

/-- A group that refers to others is deleted, or a vif joins or leaves one; a new group
that refers to others is given up for its labels; a group is saved without new rules
while its references are not what its rules name; or it is saved with new rules that spell
the reference to itself in another way. -/
def Request.Misreports (db : Db collate) : Request → Prop
  | postGroup uuid rule labels => labels = false ∧ ¬ db.hasUuid uuid ∧
      validate ipAddress openvnet rule = .ok () ∧ (∀ t ∈ rule, (column t).isSome) ∧
      ∃ rules, rulesArray ipAddress (rule.getD []) = .ok rules ∧ NamesGroup db uuid rules
  | putGroup id rule others => ∃ g rules, Saves ipAddress column openvnet db id rule others g rules ∧
      match rule with
      | none => ¬ ∀ x ∈ db.groups.rows,
          x.Named collate (Netfilter.ruleGroups rules) ↔ x ∈ db.referencees id
      | some _ => Respelled db id g rules
  | deleteGroup id => (db.groups.find id).isSome ∧ (∀ p ∈ db.vnics, p.2 ≠ id) ∧
      db.referencers id = [] ∧ db.referencees id ≠ []
  | addSecurityGroup vif id accepted => accepted = true ∧ (db.groups.find id).isSome ∧
      (vif, id) ∉ db.vnics ∧ db.referencees id ≠ []
  | removeSecurityGroup vif id => (db.groups.find id).isSome ∧ (vif, id) ∈ db.vnics ∧
      db.referencees id ≠ []
  | putInstance r => r.nic ≠ [] ∧ ∃ groups, r.uuids.mapM db.byUuid = some groups ∧
      ∃ p ∈ r.leaves db ++ r.joins db groups, db.referencees p.2 ≠ []

end

end ReferenceEvent

end WakameVdc
