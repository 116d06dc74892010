import WakameVdc.Lib.Window

/-!
# Monitoring of host nodes

`node_modules/ha_manager.rb`: the items a HaManager polls, the bounded history
of each item, and the condition tree evaluated after every result.
-/

namespace WakameVdc

namespace HaManager

inductive Value
  | success | failure
  deriving DecidableEq, Repr

structure HistoryRow where
  value : Value
  hostUuid : String
  deriving DecidableEq, Repr

inductive HaError
  | argumentError (text : String)
  | duplicateMonitorItem (name : String)
  | noMethodError
  deriving DecidableEq, Repr

structure SizedArray (α : Type) where
  array : List α
  maxSize : Nat
  deriving DecidableEq, Repr

namespace SizedArray

def new {α : Type} (maxSize : Nat) : SizedArray α := ⟨[], maxSize⟩

/-- The array gives up its oldest elements when the new ones reach its size. -/
def push {α : Type} (a : SizedArray α) (obj : List α) : SizedArray α :=
  { a with array :=
      (if a.array.length + obj.length ≥ a.maxSize then a.array.drop obj.length else a.array) ++ obj }

def unshift {α : Type} (a : SizedArray α) (obj : List α) : SizedArray α :=
  { a with array :=
      obj ++ if a.array.length + obj.length ≥ a.maxSize then a.array.rdrop obj.length else a.array }

end SizedArray

/-! ## The condition tree -/

/-- A target value is any object, `none` for one that no result is equal to. -/
inductive NodeKind
  | lastNtime (result : Value) (ntimes : Nat) (monitorItemName : String)
  | monitorItem (monitorItemName : String)
  | equal (targetValue : Option Value)
  | and
  deriving DecidableEq, Repr

inductive Node
  | mk (kind : NodeKind) (children : List Node)

/-- `LastNtimeNode.new(:failure, ntimes, monitor_item_name)` -/
def lastNtimesFailure (ntimes : Nat) (monitorItemName : String) : Except HaError Node :=
  if ntimes > 0 then .ok (.mk (.lastNtime .failure ntimes monitorItemName) [])
  else .error (.argumentError "ntimes must be larger than 0")

structure MonitorTarget where
  monitorItems : String → Option (SizedArray HistoryRow)
  /-- The children of the root node. -/
  condition : List Node

namespace MonitorTarget

def addMonitorItem (m : MonitorTarget) (name : String) (historySize : Nat) :
    Except HaError MonitorTarget :=
  if (m.monitorItems name).isSome then .error (.duplicateMonitorItem name)
  else
    .ok { m with
      monitorItems := fun x =>
        if x = name then some (SizedArray.new historySize) else m.monitorItems x }

def addHistory (m : MonitorTarget) (name : String) (row : HistoryRow) :
    Except HaError MonitorTarget :=
  match m.monitorItems name with
  | none => .error (.argumentError "monitor_item_name")
  | some history =>
    .ok { m with
      monitorItems := fun x => if x = name then some (history.push [row]) else m.monitorItems x }

def query (m : MonitorTarget) (hostUuid monitorItemName : String) :
    Except HaError (List HistoryRow) :=
  match m.monitorItems monitorItemName with
  | none => .error .noMethodError
  | some history => .ok (history.array.filter fun r => r.hostUuid == hostUuid)

def evaluate (m : MonitorTarget) (hostUuid : String) (kind : NodeKind) (result : List Value) :
    Except HaError Value :=
  match kind with
  | .lastNtime value ntimes name => do
    let items ← m.query hostUuid name
    let lastNItems := items.rtake ntimes
    if lastNItems.length ≥ ntimes then
      return (if (lastNItems.all fun i => i.value == value) then .failure else .success)
    else return .success
  | .monitorItem name => do
    let items ← m.query hostUuid name
    match items.head? with
    | some row => return row.value
    | none => return .failure
  | .equal targetValue =>
    .ok (if result.all fun i => some i == targetValue then .failure else .success)
  | .and => .ok (if result.all fun i => some i == result.head? then .success else .failure)

mutual

/-- `Condition#_walk` below the root node. -/
def walk (m : MonitorTarget) (hostUuid : String) : Node → Except HaError Value
  | .mk kind children => do
    let results ← walkAll m hostUuid children
    m.evaluate hostUuid kind results

def walkAll (m : MonitorTarget) (hostUuid : String) : List Node → Except HaError (List Value)
  | [] => .ok []
  | node :: nodes => do
    let value ← walk m hostUuid node
    let values ← walkAll m hostUuid nodes
    return value :: values

end

/-- The root node hands its first result on: a failure is an evacuation request
for the host. -/
def evaluateCondition (m : MonitorTarget) (hostUuid : String) : Except HaError Bool := do
  let results ← m.walkAll hostUuid m.condition
  return results.head? == some .failure

end MonitorTarget

/-- `Trigger#success` and `Trigger#failure` of a monitor item. -/
structure TriggerCall where
  itemName : String
  value : Value
  hostUuid : String
  deriving DecidableEq, Repr

namespace TriggerCall

def step (m : MonitorTarget) (c : TriggerCall) : MonitorTarget :=
  match m.addHistory c.itemName ⟨c.value, c.hostUuid⟩ with
  | .ok m => m
  | .error _ => m

def run (m : MonitorTarget) (c : TriggerCall) : Except HaError Bool := do
  let m ← m.addHistory c.itemName ⟨c.value, c.hostUuid⟩
  m.evaluateCondition c.hostUuid

end TriggerCall

/-- The default of the `:history_size` option. -/
def defaultHistorySize : Nat := 100

/-- The configured items are added one by one, then the conditions are built. -/
def initializeHook (items : List (String × Nat)) (conditions : List (Except HaError Node)) :
    Except HaError MonitorTarget := do
  let m ← items.foldlM (fun m i => m.addMonitorItem i.1 i.2) (⟨fun _ => none, []⟩ : MonitorTarget)
  let condition ← conditions.mapM id
  return { m with condition := condition }

end HaManager

end WakameVdc
