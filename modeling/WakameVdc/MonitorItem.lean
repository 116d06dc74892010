import Mathlib.Logic.Function.Basic
import WakameVdc.Lib.Like
import WakameVdc.Lib.Run
import WakameVdc.ResourceLabelMap

/-!
# Monitoring items of an instance

The methods of `models/instance.rb` that keep the monitoring items of an instance as labels.
An item is three labels, whose names hold the uuid of the item, and the uuid of a call goes
into the pattern of a `LIKE` as it is.
-/

namespace WakameVdc

open Lib
open ResourceLabel (Bytes Engine LabelRow ResourceLabels)

namespace MonitorItem

variable {P : Type}

/-! ## Hashes of items -/

/-- What is dumped is loaded again; `empty` is the hash without keys. -/
structure MultiJson (P : Type) where
  dump : P → Bytes
  load : Bytes → Option P
  empty : P
  load_dump : ∀ p, load (dump p) = some p

inductive Key
  | title
  | enabled
  | params
  deriving DecidableEq

def Key.text : Key → Text
  | title => "title".toList
  | enabled => "enabled".toList
  | params => "params".toList

inductive Field (P : Type)
  | enabled (b : Bool)
  | params (p : P)
  | text (v : Option Bytes)

abbrev Hash (P : Type) := Text → Option (Field P)

/-- `h[key] = v` -/
def Hash.store (h : Hash P) (key : Text) (v : Field P) : Hash P := Function.update h key (some v)

def ascii (s : String) : Bytes := s.toList.map fun c => UInt8.ofNat c.toNat

/-- `{:enabled=>enabled, :title=>title, :params=>params}` -/
def hashOf (enabled : Bool) (title : Option Bytes) (params : P) : Hash P := fun key =>
  if key = Key.enabled.text then some (.enabled enabled)
  else if key = Key.title.text then some (.text title)
  else if key = Key.params.text then some (.params params)
  else none

/-- None raises. -/
def readValue (j : MultiJson P) (key : Text) (v : Option Bytes) : Option (Field P) :=
  if key = Key.enabled.text then some (.enabled (v = some (ascii "true")))
  else if key = Key.params.text then (v.bind j.load).map .params
  else some (.text v)

/-- The uuid, the key and the value that a label tells. A name with too few dots has no key,
which raises. -/
def readLabel (j : MultiJson P) (l : LabelRow) : Option (Text × Text × Field P) :=
  match Text.splitMax '.' 3 l.name with
  | [_, _, uuid, key] => (readValue j key l.value).map fun v => (uuid, key, v)
  | _ => none

/-! ## Methods -/

/-- The `uuid` column keeps word characters. -/
structure Instance where
  uuid : Text
  word : ∀ c ∈ uuid, Text.isWord c = true

def Instance.canonicalUuid (i : Instance) : Text := Taggable.canonicalUuid "i".toList i.uuid

def head : Text := "monitoring.items.".toList

def itemName (uuid : Text) (key : Key) : Text := head ++ (uuid ++ '.' :: key.text)

def itemPattern (uuid : Text) : Text := head ++ (uuid ++ ".%".toList)

/-- The fields that are given to `update_monitor_item`. -/
structure Data (P : Type) where
  title : Option Bytes
  enabled : Option Bool
  params : Option P

def enabledText (enabled : Bool) : Bytes := if enabled then ascii "true" else ascii "false"

section
variable {e : Engine} (i : Instance) (j : MultiJson P) (t : ResourceLabels e)

def grep (e : Engine) (pattern : Text) (l : LabelRow) : Bool :=
  e.same l.resourceUuid i.canonicalUuid && like pattern l.name

/-- None raises. -/
def monitorItem (uuid : Text) : Option (Option (Hash P)) :=
  let labels := t.table.rows.filter (grep i e (itemPattern uuid))
  if labels.isEmpty then some none
  else (labels.foldlM (fun (h : Hash P) l => (readLabel j l).map fun r => h.store r.2.1 r.2.2)
    (hashOf false none j.empty)).map some

def monitorItems : Option (Text → Option (Hash P)) :=
  (t.table.rows.filter (grep i e (head ++ ['%']))).foldlM (fun (hlist : Text → Option (Hash P)) l =>
    (readLabel j l).map fun r =>
      Function.update hlist r.1 (some (((hlist r.1).getD (hashOf false none j.empty)).store r.2.1 r.2.2)))
    fun _ => none

/-- The largest label id of all resources, zero without any. -/
def maxId : Nat := (t.table.rows.getLast?.map LabelRow.id).getD 0

def imonUuid (n : Nat) : Text := "imon-".toList ++ (i.uuid ++ Text.ofNat n)

def taken (uuid : Text) : Bool := t.table.rows.any fun l => e.same l.name (itemName uuid .title)

/-- The loop counts down, and raises at zero even when the last uuid is free. -/
def generateUuid : Nat → Option Text
  | 0 => none
  | retryCount + 1 =>
    let uuid := imonUuid i (maxId t + (retryCount + 1))
    if taken t uuid && 0 < retryCount then generateUuid retryCount
    else if retryCount ≤ 0 then none
    else some uuid

def addMonitorItem (title : Bytes) (enabled : Bool) (params : P) : Option (ResourceLabels e × Text) := do
  let uuid ← generateUuid i t 3
  let t ← t.setLabel i.canonicalUuid (itemName uuid .title) title
  let t ← t.setLabel i.canonicalUuid (itemName uuid .enabled) (enabledText enabled)
  let t ← t.setLabel i.canonicalUuid (itemName uuid .params) (j.dump params)
  return (t, uuid)

def setGiven (set : ResourceLabels e → Bytes → Option (ResourceLabels e)) (v : Option Bytes) :
    Option (ResourceLabels e) :=
  match v with
  | some v => set t v
  | none => some t

def updateMonitorItem (uuid : Text) (data : Data P) : Option (ResourceLabels e × Option (Hash P)) := do
  match ← monitorItem i j t uuid with
  | none => return (t, none)
  | some _ =>
    let t ← setGiven t (fun t v => t.setLabel i.canonicalUuid (itemName uuid .title) v) data.title
    let t ← setGiven t (fun t v => t.setLabel i.canonicalUuid (itemName uuid .enabled) v)
      (data.enabled.map enabledText)
    let t ← setGiven t (fun t v => t.setBlobLabel i.canonicalUuid (itemName uuid .params) v)
      (data.params.map j.dump)
    let item ← monitorItem i j t uuid
    return (t, item)

def deleteMonitorItem (uuid : Text) : Option (ResourceLabels e × Option (Hash P)) := do
  match ← monitorItem i j t uuid with
  | none => return (t, none)
  | some item => return (t.destroy (grep i e (itemPattern uuid)), some item)

end

inductive Call (P : Type)
  | add (title : Bytes) (enabled : Bool) (params : P)
  | update (uuid : Text) (data : Data P)
  | delete (uuid : Text)
  | get (uuid : Text)

inductive Answer (P : Type)
  | added (uuid : Text) (title : Bytes) (enabled : Bool) (params : P)
  | item (h : Option (Hash P))

/-- What a call leaves and answers; none if it raises. -/
def perform {e : Engine} (i : Instance) (j : MultiJson P) (t : ResourceLabels e) :
    Call P → Option (ResourceLabels e × Answer P)
  | .add title enabled params =>
    (addMonitorItem i j t title enabled params).map fun a => (a.1, .added a.2 title enabled params)
  | .update uuid data => (updateMonitorItem i j t uuid data).map fun a => (a.1, .item a.2)
  | .delete uuid => (deleteMonitorItem i j t uuid).map fun a => (a.1, .item a.2)
  | .get uuid => (monitorItem i j t uuid).map fun h => (t, .item h)

/-! ## What the methods are for -/

structure Item (P : Type) where
  title : Bytes
  enabled : Bool
  params : P

/-- The items that are added and not deleted, by uuid. -/
abbrev Items (P : Type) := Text → Option (Item P)

def Item.hash (item : Item P) : Hash P := hashOf item.enabled (some item.title) item.params

def Item.patch (item : Item P) (data : Data P) : Item P :=
  ⟨data.title.getD item.title, data.enabled.getD item.enabled, data.params.getD item.params⟩

/-- What a call is to do to the items, told the uuid that an added item got. -/
def Call.effect (c : Call P) (answer : Option (Answer P)) (items : Items P) : Items P :=
  match c, answer with
  | add title enabled params, some (.added uuid _ _ _) =>
    Function.update items uuid (some ⟨title, enabled, params⟩)
  | update uuid data, _ => Function.update items uuid ((items uuid).map fun item => item.patch data)
  | delete uuid, _ => Function.update items uuid none
  | _, _ => items

/-- `generate_uuid` finds both of the uuids it looks for taken. -/
def Full {e : Engine} (i : Instance) (t : ResourceLabels e) : Prop :=
  ∀ n, 2 ≤ n → n ≤ 3 → taken t (imonUuid i (maxId t + n)) = true

/-- A call of a uuid answers with the item of exactly this uuid, and an added item gets a
uuid that no other item has. -/
def Call.Answers (c : Call P) (full : Prop) (answer : Option (Answer P)) (items items' : Items P) :
    Prop :=
  match c with
  | add title enabled params => answer = none ∧ full ∨
    ∃ uuid, answer = some (.added uuid title enabled params) ∧ items uuid = none
  | update uuid _ => answer = some (.item ((items' uuid).map Item.hash))
  | delete uuid => answer = some (.item ((items uuid).map Item.hash))
  | get uuid => answer = some (.item ((items uuid).map Item.hash))

def Data.value (j : MultiJson P) (data : Data P) : Key → Option Bytes
  | .title => data.title
  | .enabled => data.enabled.map enabledText
  | .params => data.params.map j.dump

structure State (P : Type) (e : Engine) where
  labels : ResourceLabels e
  items : Items P

namespace State

variable {e : Engine} (i : Instance) (j : MultiJson P) (s : State P e)

/-- A call that raises leaves the labels. -/
def step (c : Call P) : State P e where
  labels := ((perform i j s.labels c).map Prod.fst).getD s.labels
  items := c.effect ((perform i j s.labels c).map Prod.snd) s.items

structure Right (c : Call P) : Prop where
  answers : c.Answers (Full i s.labels) ((perform i j s.labels c).map Prod.snd) s.items
    (step i j s c).items
  lists : monitorItems i j (step i j s c).labels =
    some fun uuid => ((step i j s c).items uuid).map Item.hash

/-- The pattern of the uuid takes no label of an item with another uuid. -/
def Apart (items : Items P) (uuid : Text) : Prop :=
  ∀ u, items u ≠ none → u ≠ uuid → ∀ key, like (itemPattern uuid) (itemName u key) = false

/-- The names and values of the call fit their columns, and its uuid is apart. -/
def Plain : Call P → Prop
  | .add title enabled params => ∀ n ≤ 3, ∀ key v,
    Data.value j ⟨some title, some enabled, some params⟩ key = some v →
      ResourceLabels.Fits e i.canonicalUuid (itemName (imonUuid i (maxId s.labels + n)) key) v
  | .update uuid data => Apart s.items uuid ∧
    ∀ key v, data.value j key = some v → ResourceLabels.Fits e i.canonicalUuid (itemName uuid key) v
  | .delete uuid => Apart s.items uuid
  | .get uuid => Apart s.items uuid

end State

end MonitorItem

end WakameVdc
