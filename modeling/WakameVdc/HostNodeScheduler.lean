import WakameVdc.Evacuate

/-!
# Host node schedulers

`LeastUsage` and `PipedRules` of `scheduler/host_node`, with the rules of
`scheduler/host_node/rules` and the capacity of `models/host_node.rb`.
-/

namespace WakameVdc

open Lib

namespace Scheduler

structure Spec where
  cpuCores : Nat
  memorySize : Nat
  quotaWeight : ℚ
  arch : String
  hypervisor : String
  accountId : String
  requestParams : List (String × String)

structure Offer where
  cpuCores : Nat
  memorySize : Nat
  arch : String
  hypervisor : String

/-- Ruby's `sort_by`, which may put rows with equal keys in any order. -/
structure SortBy where
  sort : (HostNodeRow → ℚ) → List HostNodeRow → List HostNodeRow
  perm : ∀ key rows, (sort key rows).Perm rows
  sorted : ∀ key rows, (sort key rows).Pairwise fun a b => key a ≤ key b

instance : Inhabited SortBy where
  default :=
    { sort := fun key rows => rows.mergeSort fun a b => key a ≤ key b
      perm := fun key rows => List.mergeSort_perm rows _
      sorted := fun key rows => by
        have h : (rows.mergeSort fun a b => decide (key a ≤ key b)).Pairwise fun a b =>
            decide (key a ≤ key b) = true :=
          List.pairwise_mergeSort
            (fun a b c hab hbc => by simp only [decide_eq_true_eq] at *; exact hab.trans hbc)
            (fun a b => by simpa using le_total (key a) (key b)) rows
        exact h.imp fun hab => by simpa using hab }

/-- What no scheduling changes: the columns of instances and host nodes, by id,
and the members of the host node groups. -/
structure Domain where
  spec : Nat → Spec
  offer : Nat → Offer
  group : String → Option (List Nat)
  sortBy : SortBy

namespace Domain

variable (d : Domain) (vdc : Vdc)

/-! ## Capacity -/

def instancesUsage (column : Spec → Nat) (host : Nat) : Nat :=
  ((vdc.aliveInstances host).map fun i => column (d.spec i.id)).sum

def availableCpuCores (host : Nat) : Int :=
  (d.offer host).cpuCores - (d.instancesUsage vdc Spec.cpuCores host : Int)

def availableMemorySize (host : Nat) : Int :=
  (d.offer host).memorySize - (d.instancesUsage vdc Spec.memorySize host : Int)

def checkCapacity (host inst : Nat) : Bool :=
  (d.offer host).cpuCores ≥ d.instancesUsage vdc Spec.cpuCores host + (d.spec inst).cpuCores &&
    (d.offer host).memorySize ≥ d.instancesUsage vdc Spec.memorySize host + (d.spec inst).memorySize

/-- The first host node of the list, and an exception if there is none. -/
def firstHostNode : List HostNodeRow → Except ScheduleError HostNodeRow
  | [] => .error .hostNodeSchedulingError
  | hn :: _ => .ok hn

/-! ## LeastUsage -/

inductive SortPriority
  | cpu | memory
  deriving DecidableEq, Repr

def hostNodesInPriorityOrder (sortPriority : SortPriority) (inst : Nat) :
    Except ScheduleError (List HostNodeRow) :=
  let ds := vdc.onlineNodes.filter fun hn =>
    (d.offer hn.id).arch == (d.spec inst).arch && (d.offer hn.id).hypervisor == (d.spec inst).hypervisor
  let key (hn : HostNodeRow) : ℚ :=
    match sortPriority with
    | .cpu => d.availableCpuCores vdc hn.id
    | .memory => d.availableMemorySize vdc hn.id
  match (d.sortBy.sort key ds).reverse with
  | [] => .error .hostNodeSchedulingError
  | hn :: hns => .ok (hn :: hns)

def leastUsage (sortPriority : SortPriority) (inst : Nat) : Except ScheduleError HostNodeRow := do
  let ary ← d.hostNodesInPriorityOrder vdc sortPriority inst
  firstHostNode (ary.filter fun hn =>
    d.availableCpuCores vdc hn.id ≥ (d.spec inst).cpuCores &&
      d.availableMemorySize vdc hn.id ≥ (d.spec inst).memorySize)

/-! ## PipedRules -/

inductive UsageKey
  | cpuCores | memorySize | quotaWeight
  deriving DecidableEq, Repr

def UsageKey.column (s : Spec) : UsageKey → ℚ
  | .cpuCores => s.cpuCores
  | .memorySize => s.memorySize
  | .quotaWeight => s.quotaWeight

inductive Rule
  | common
  | leastUsageBy (key : UsageKey)
  | requestParamToGroup (key : String) (default : Option String) (pairs : List (String × String))
  | scatterBy
  deriving DecidableEq, Repr

/-- `RequestParamToGroup#get_host_node_ids`; a parameter that was not given is
not in the pairs either. -/
def getHostNodeIds (key : String) (default : Option String) (pairs : List (String × String))
    (inst : Nat) : Except ScheduleError (List Nat) :=
  match default with
  | none => .error .hostNodeSchedulingError
  | some default =>
    let requestParam := (d.spec inst).requestParams.lookup key
    let tagId := (requestParam.bind fun value => pairs.lookup value).getD default
    match d.group tagId with
    | none => .error .hostNodeSchedulingError
    | some ids => .ok ids

namespace Rule

def filter (ds : List HostNodeRow) (inst : Nat) : Rule → Except ScheduleError (List HostNodeRow)
  | .common =>
    .ok (ds.filter fun hn => hn.online && hn.schedulingEnabled &&
      (d.offer hn.id).hypervisor == (d.spec inst).hypervisor)
  | .requestParamToGroup key default pairs => do
    let ids ← d.getHostNodeIds key default pairs inst
    return ds.filter fun hn => ids.contains hn.id
  | .leastUsageBy _ | .scatterBy => .ok ds

def reorder (ary : List HostNodeRow) (inst : Nat) : Rule → Except ScheduleError (List HostNodeRow)
  | .common => .ok (ary.filter fun hn => d.checkCapacity vdc hn.id inst)
  | .requestParamToGroup key default pairs => do
    let ids ← d.getHostNodeIds key default pairs inst
    return ary.filter fun hn => ids.contains hn.id
  | .leastUsageBy key =>
    .ok (d.sortBy.sort
      (fun hn => ((vdc.aliveInstances hn.id).map fun i => key.column (d.spec i.id)).sum) ary)
  | .scatterBy =>
    .ok (d.sortBy.sort
      (fun hn => ((vdc.aliveInstances hn.id).filter fun i =>
        (d.spec i.id).accountId == (d.spec inst).accountId).length) ary)

end Rule

def pipedRules (rules : List Rule) (maxResults : Nat) (inst : Nat) :
    Except ScheduleError HostNodeRow := do
  let rules := .common :: rules
  let ds ← rules.foldlM (fun ds r => r.filter d ds inst) vdc.hostNodes.rows
  let ary ← rules.foldlM (fun ary r => r.reorder d vdc ary inst) (ds.take maxResults)
  firstHostNode ary

inductive HostNodeScheduler
  | leastUsage (sortPriority : SortPriority)
  | pipedRules (rules : List Rule) (maxResults : Nat)
  deriving DecidableEq, Repr

def HostNodeScheduler.schedule (inst : Nat) : HostNodeScheduler → Except ScheduleError HostNodeRow
  | .leastUsage sortPriority => d.leastUsage vdc sortPriority inst
  | .pipedRules rules maxResults => d.pipedRules vdc rules maxResults inst

end Domain

/-! ## Runs -/

def Vdc.terminate (vdc : Vdc) (i : Nat) : Vdc :=
  { vdc with
    instances := vdc.instances.modify i (fun r => { r with state := .terminated, terminated := true })
      fun _ => rfl }

/-- The end of a `stop` job. -/
def Vdc.stop (vdc : Vdc) (i : Nat) : Vdc :=
  { vdc with
    instances := vdc.instances.modify i (fun r => { r with state := .stopped, hostNodeId := none })
      fun _ => rfl }

/-- `completes` says that the rest of the call raises nothing. An evacuation
that does not over-commit has piped rules for its scheduler. -/
inductive Act
  | create (haEnabled : Bool) (bootDevType : BootDev)
  | scheduleInstance (by_ : Domain.HostNodeScheduler) (inst : Nat) (completes : Bool)
  | scheduleStartInstance (by_ : Domain.HostNodeScheduler) (inst : Nat) (completes : Bool)
  | terminate (inst : Nat)
  | stop (inst : Nat)
  | evacuate (rules : List Domain.Rule) (maxResults : Nat) (volumeValid : Vdc → VolumeRow → Bool)
    (src : Nat) (keepNodeOffline : Bool)

namespace Domain

variable (d : Domain)

/-- A call that raises is rolled back and the instance destroyed. -/
def assign (vdc : Vdc) (by_ : HostNodeScheduler) (inst : Nat) (completes : Bool) : Vdc :=
  match by_.schedule d vdc inst with
  | .error _ => vdc.terminate inst
  | .ok host =>
    if completes then (vdc.setInstanceHost inst host.id).setInstanceState inst .pending
    else vdc.terminate inst

def haEnv (rules : List Rule) (maxResults : Nat) (volumeValid : Vdc → VolumeRow → Bool) : Env where
  haSchedule vdc inst := d.pipedRules vdc rules maxResults inst.id
  volumeValid := volumeValid

def step (vdc : Vdc) : Act → Vdc
  | .create haEnabled bootDevType =>
    { vdc with
      instances := vdc.instances.create
        (fun id => ⟨id, none, .scheduling, haEnabled, false, bootDevType⟩) fun _ => rfl }
  | .scheduleInstance by_ i completes =>
    match vdc.instances.find i with
    | none => vdc
    | some inst =>
      if inst.hostNodeId.isNone then d.assign vdc by_ i completes
      else if completes then vdc.setInstanceState i .pending
      else vdc.terminate i
  | .scheduleStartInstance by_ i completes => d.assign vdc by_ i completes
  | .terminate i => vdc.terminate i
  | .stop i => vdc.stop i
  | .evacuate rules maxResults volumeValid src keepNodeOffline =>
    match evacuateFrom (d.haEnv rules maxResults volumeValid) vdc src keepNodeOffline with
    | .ok p => p.vdc
    | .error _ => vdc

end Domain

end Scheduler

end WakameVdc
