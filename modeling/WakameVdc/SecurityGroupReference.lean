import WakameVdc.Lib.Run
import WakameVdc.Lib.Table
import WakameVdc.NetfilterCache
import WakameVdc.SecurityGroupText
import WakameVdc.Taggable

/-!
# References between security groups

The hooks of `models/security_group.rb`. Saving a group strikes its references
to groups its rules no longer name before the row is written, and adds those to
the groups they do name afterwards; the association is cached in the object in
between. A group is not destroyed while any group refers to it. The hooks
compare names as Ruby does and look groups up as the database does, which tells
texts apart by the weights of its collation.
-/

namespace WakameVdc

open Lib

namespace GroupModel

open SecurityGroup

/-- `saves` stands for the columns no hook reads, `updated_at` among them, by which a
row differs from what was read of it before a save. -/
structure GroupRow where
  id : Nat
  uuid : Text
  rule : Option Text
  saves : Nat
  deriving DecidableEq, Repr

instance : Row GroupRow := ⟨GroupRow.id⟩

def groupPrefix : Text := "sg".toList

def GroupRow.canonicalUuid (g : GroupRow) : Text := Taggable.canonicalUuid groupPrefix g.uuid

def GroupRow.answersTo (collate : Text → List Nat) (g : GroupRow) (uuid : Text) : Bool :=
  (Taggable.trimUuid groupPrefix uuid).any fun u => collate g.uuid == collate u

/-- A reference is the pair of a referencer and a referencee, a vnic one of a
vif and its group. -/
structure Db (collate : Text → List Nat) where
  groups : Table GroupRow
  references : List (Nat × Nat)
  vnics : List (Nat × Nat)
  /-- The unique index of the table. -/
  uuids : (groups.rows.map fun g => collate g.uuid).Nodup

inductive GroupError
  | rule (e : RuleError)
  | duplicateUuid
  | refused
  | unknown
  | hookFailed
  deriving DecidableEq, Repr

section
variable {collate : Text → List Nat}

namespace Db

def referencees (db : Db collate) (id : Nat) : List GroupRow :=
  (db.references.filter fun p => p.1 == id).filterMap fun p => db.groups.find p.2

def referencers (db : Db collate) (id : Nat) : List GroupRow :=
  (db.references.filter fun p => p.2 == id).filterMap fun p => db.groups.find p.1

/-- `SecurityGroup[uuid]` -/
def byUuid (db : Db collate) (uuid : Text) : Option GroupRow :=
  (Taggable.trimUuid groupPrefix uuid).bind fun u =>
    db.groups.first fun g => collate g.uuid == collate u

/-- A group has the uuid, as far as the database can tell. -/
def hasUuid (db : Db collate) (uuid : Text) : Prop :=
  collate uuid ∈ db.groups.rows.map fun g => collate g.uuid

instance (db : Db collate) (uuid : Text) : Decidable (db.hasUuid uuid) :=
  inferInstanceAs (Decidable (_ ∈ _))

def insertGroup (db : Db collate) (uuid : Text) (rule : Option Text) (h : ¬ db.hasUuid uuid) :
    Db collate :=
  { db with
    groups := db.groups.create (fun id => ⟨id, uuid, rule, 0⟩) fun _ => rfl
    uuids := by
      simp only [Table.create, List.map_append, List.map_cons, List.map_nil]
      rw [List.nodup_append]
      refine ⟨db.uuids, List.nodup_singleton _, ?_⟩
      intro a ha b hb heq
      rw [List.mem_singleton.mp hb] at heq
      rw [heq] at ha
      exact h ha }

def writeRule (db : Db collate) (id : Nat) (rule : Option Text) : Db collate :=
  { db with
    groups := db.groups.modify id (fun g => { g with rule, saves := g.saves + 1 }) fun _ => rfl
    uuids := by
      have h : ((db.groups.modify id (fun g => { g with rule, saves := g.saves + 1 }) fun _ =>
          rfl).rows.map fun g => collate g.uuid) = db.groups.rows.map fun g => collate g.uuid := by
        simp only [Table.modify, Table.update, List.map_map]
        refine List.map_congr_left fun g _ => ?_
        by_cases hg : Row.pk g = id <;> simp [hg]
      rw [h]
      exact db.uuids }

def deleteGroup (db : Db collate) (id : Nat) : Db collate :=
  { db with
    groups := db.groups.delete fun g => g.id == id
    uuids := db.uuids.sublist (List.filter_sublist.map _) }

end Db

end

/-! ## The hooks -/

inductive Action
  | create | delete
  deriving DecidableEq, Repr

/-- The object being saved, which has no key before its row is written, with the
database and the groups named so far. -/
structure Refs (collate : Text → List Nat) where
  db : Db collate
  id : Option Nat
  cached : Option (List GroupRow)
  current : List Text

variable {collate : Text → List Nat}

namespace Refs

/-- What `self.referencees` answers. -/
def referencees (s : Refs collate) : List GroupRow :=
  s.cached.getD ((s.id.map s.db.referencees).getD [])

/-- `self.referencees` -/
def load (s : Refs collate) : Refs collate := { s with cached := some s.referencees }

/-- `add_referencee`, called once the row is written. Objects are the same if all their
columns are. -/
def addReferencee (s : Refs collate) (g : GroupRow) : Refs collate :=
  match s.id with
  | none => s
  | some id =>
    { s with
      db := { s.db with references := s.db.references ++ [(id, g.id)] }
      cached := s.cached.map fun l => if g ∈ l then l else l ++ [g] }

def removeReferencee (s : Refs collate) (g : GroupRow) : Refs collate :=
  match s.id with
  | none => s
  | some id =>
    { s with
      db := { s.db with references := s.db.references.filter fun p => p != (id, g.id) }
      cached := s.cached.map fun l => l.filter fun x => x.id != g.id }

def refer (s : Refs collate) (action : Action) (refGroupId : Text) : Refs collate :=
  let s := { s.load with current := s.current ++ [refGroupId] }
  match s.referencees.find? fun g => g.canonicalUuid == refGroupId with
  | some _ => s
  | none =>
    match s.db.byUuid refGroupId with
    | none => s
    | some g => if action = .create then s.addReferencee g else s

def strike (s : Refs collate) (g : GroupRow) : Refs collate :=
  if s.current.contains g.canonicalUuid then s else s.removeReferencee g

end Refs

variable (ipAddress : Text → Option IPAddr)

def handleLine (action : Action) (s : Refs collate) (line : Text) : Except RuleError (Refs collate) :=
  if isComment line then .ok s
  else do
    match ← parseRule ipAddress line with
    | none => return s
    | some parsedRule =>
      match refGroupId parsedRule.ipSource with
      | none => return s
      | some group => return s.refer action group

def handleRefs (action : Action) (rule : Option Text) (s : Refs collate) :
    Except RuleError (Refs collate) := do
  let s ← (eachLine (rule.getD [])).foldlM (handleLine ipAddress action) { s with current := [] }
  let s := s.load
  if s.referencees.isEmpty || action != .delete then return s
  return ((s.id.map s.db.referencees).getD []).foldl Refs.strike s

/-! ## The operations -/

/-- `column` is what the column `rule`, a `text`, keeps of a text; `none` is refused. -/
def storeRule (column : Text → Option Text) : Option Text → Except GroupError (Option Text)
  | none => .ok none
  | some t =>
    match column t with
    | none => .error .refused
    | some stored => .ok (some stored)

variable (column : Text → Option Text)

/-- The hooks read the rules that are given, whatever the column keeps of them. -/
def create (openvnet : Bool) (db : Db collate) (uuid : Text) (rule : Option Text) :
    Except GroupError (Db collate) := do
  (validate ipAddress openvnet rule).mapError .rule
  let s ← (handleRefs ipAddress .delete rule ⟨db, none, none, []⟩).mapError .rule
  let stored ← storeRule column rule
  if h : s.db.hasUuid uuid then throw .duplicateUuid
  else
    let id := s.db.groups.next
    let s ← (handleRefs ipAddress .create rule
      { s with db := s.db.insertGroup uuid stored h, id := some id }).mapError .rule
    return s.db

/-- A column that has not changed is not written. -/
def storeChanged (db : Db collate) (id : Nat) (rule : Option Text) : Except GroupError (Option Text) :=
  if (db.groups.find id).any fun g => g.rule == rule then .ok rule else storeRule column rule

/-- `save` of the row with this rule. -/
def save (openvnet : Bool) (db : Db collate) (id : Nat) (rule : Option Text) :
    Except GroupError (Refs collate) := do
  (validate ipAddress openvnet rule).mapError .rule
  let s ← (handleRefs ipAddress .delete rule ⟨db, some id, none, []⟩).mapError .rule
  let stored ← storeChanged column db id rule
  (handleRefs ipAddress .create rule { s with db := s.db.writeRule id stored }).mapError .rule

/-- `before_destroy` and the deletion of the row. -/
def destroy (db : Db collate) (id : Nat) : Except GroupError (Db collate) :=
  if db.vnics.any fun p => p.2 == id then .error .hookFailed
  else if !(db.referencers id).isEmpty then .error .hookFailed
  else
    .ok (({ db with references := db.references.filter fun p => p.1 != id } : Db collate).deleteGroup
      id)

/-! ## Runs -/

/-- Vnics also join groups and leave them, which strikes the first row there is. -/
inductive Op
  | create (uuid : Text) (rule : Option Text)
  | update (id : Nat) (rule : Option Text)
  | destroy (id : Nat)
  | vnicJoined (vif id : Nat)
  | vnicLeft (vif id : Nat)
  deriving DecidableEq, Repr

/-- The rules a save is given. -/
def Op.rule : Op → Option Text
  | .create _ rule => rule
  | .update _ rule => rule
  | _ => none

/-- The new state with the key of the group that was saved. An update that
changes nothing saves nothing. -/
def Op.run (openvnet : Bool) (db : Db collate) : Op → Except GroupError (Db collate × Option Nat)
  | .create uuid rule => do
    let db' ← GroupModel.create ipAddress column openvnet db uuid rule
    return (db', some db.groups.next)
  | .update id rule =>
    match db.groups.find id with
    | none => .error .unknown
    | some g =>
      if g.rule = rule then .ok (db, none)
      else do
        let s ← save ipAddress column openvnet db id rule
        return (s.db, some id)
  | .destroy id =>
    match db.groups.find id with
    | none => .error .unknown
    | some _ => do
      let db' ← GroupModel.destroy db id
      return (db', none)
  | .vnicJoined vif id =>
    if (db.groups.find id).isSome then .ok ({ db with vnics := db.vnics ++ [(vif, id)] }, none)
    else .error .unknown
  | .vnicLeft vif id => .ok ({ db with vnics := db.vnics.erase (vif, id) }, none)

/-- An operation that raises is rolled back. -/
def step (openvnet : Bool) (db : Db collate) (op : Op) : Db collate :=
  match op.run ipAddress column openvnet db with
  | .ok (db', _) => db'
  | .error _ => db

theorem Db.uuids_empty (collate : Text → List Nat) :
    ((Table.empty : Table GroupRow).rows.map fun g => collate g.uuid).Nodup := List.nodup_nil

def Db.empty : Db collate := ⟨.empty, [], [], Db.uuids_empty collate⟩

end GroupModel

end WakameVdc
