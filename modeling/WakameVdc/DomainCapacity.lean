import WakameVdc.Evacuate

/-!
# The capacity of the domain

`HostNode.check_domain_capacity?` decides whether new instances fit. It sums up
the instances whose host node is online. Stopping an instance takes its host node
away, so the part of the sums about stopped instances is always empty.
-/

namespace WakameVdc

open Lib

namespace HostNode

open Scheduler (InstanceState)

structure NodeRow where
  id : Nat
  online : Bool
  schedulingEnabled : Bool
  offeringCpuCores : Nat
  offeringMemorySize : Nat
  deriving DecidableEq, Repr

structure InstanceRow where
  id : Nat
  state : InstanceState
  hostNodeId : Option Nat
  terminated : Bool
  cpuCores : Nat
  memorySize : Nat
  deriving DecidableEq, Repr

structure Domain where
  nodes : List NodeRow
  instances : List InstanceRow
  deriving DecidableEq, Repr

/-- `stopped_instance_usage_factor` -/
structure UsageFactor where
  val : Rat
  nonneg : 0 ≤ val
  le_one : val ≤ 1

def UsageFactor.reserve (f : UsageFactor) (n : Nat) : Int := ((n : Rat) * f.val).floor

namespace Domain

def onlineNodes (d : Domain) : List NodeRow :=
  d.nodes.filter fun n => n.online && n.schedulingEnabled

def alives (d : Domain) : List InstanceRow := d.instances.filter fun i => !i.terminated

/-- `:host_node => HostNode.online_nodes` -/
def OnOnlineNode (d : Domain) (i : InstanceRow) : Prop :=
  ∃ n ∈ d.onlineNodes, i.hostNodeId = some n.id

instance (d : Domain) (i : InstanceRow) : Decidable (d.OnOnlineNode i) :=
  inferInstanceAs (Decidable (∃ n ∈ d.onlineNodes, i.hostNodeId = some n.id))

def sum {ρ : Type} (column : ρ → Nat) (rows : List ρ) : Nat := (rows.map column).sum

def available (d : Domain) (f : UsageFactor) (offering : NodeRow → Nat)
    (column : InstanceRow → Nat) : Int :=
  let ds := d.alives.filter (d.OnOnlineNode ·)
  let alives := sum column ds
  let stopped := sum column (ds.filter (·.state = .stopped))
  sum offering d.onlineNodes - ((alives - stopped : Int) + f.reserve stopped)

def checkDomainCapacity (d : Domain) (f : UsageFactor) (cpuCores memorySize num : Nat) : Bool :=
  decide ((memorySize * num : Nat) ≤ d.available f (·.offeringMemorySize) (·.memorySize) ∧
    (cpuCores * num : Nat) ≤ d.available f (·.offeringCpuCores) (·.cpuCores))

/-! ## Lifecycles -/

/-- The states a job or the scheduler leads an instance through besides the ones
with a step of their own. -/
inductive Progress
  | initializing | scheduling | starting | running | shuttingdown | halting | halted
  deriving DecidableEq, Repr

def Progress.state : Progress → InstanceState
  | .initializing => .initializing
  | .scheduling => .scheduling
  | .starting => .starting
  | .running => .running
  | .shuttingdown => .shuttingdown
  | .halting => .halting
  | .halted => .halted

inductive Action
  | setNodes (nodes : List NodeRow)
  /-- A new instance, on a node the request may name. -/
  | create (id cpuCores memorySize : Nat) (host : Option Nat)
  /-- `schedule_instance` and `schedule_start_instance` -/
  | schedule (id host : Nat)
  | progress (id : Nat) (p : Progress)
  /-- The first update of the `stop` job. -/
  | stop (id : Nat)
  /-- Its last one. -/
  | stopped (id : Nat)
  /-- `PUT /instances/:id/start` -/
  | start (id : Nat)
  | terminate (id : Nat)

def update (d : Domain) (id : Nat) (f : InstanceRow → InstanceRow) : Domain :=
  { d with instances := d.instances.map fun i => if i.id = id then f i else i }

def step (d : Domain) : Action → Domain
  | .setNodes nodes => { d with nodes }
  | .create id cpuCores memorySize host =>
    { d with
      instances := d.instances ++ [⟨id, .initializing, host, false, cpuCores, memorySize⟩] }
  | .schedule id host =>
    d.update id fun i =>
      if i.state = .scheduling then { i with hostNodeId := some host, state := .pending } else i
  | .progress id p =>
    d.update id fun i =>
      if i.state = .stopped ∨ i.state = .terminated then i else { i with state := p.state }
  | .stop id => d.update id fun i => if i.state = .running then { i with state := .stopping } else i
  | .stopped id =>
    d.update id fun i =>
      if i.state = .stopping then { i with state := .stopped, hostNodeId := none } else i
  | .start id => d.update id fun i =>
    if i.state = .stopped then { i with state := .scheduling } else i
  | .terminate id => d.update id fun i => { i with state := .terminated, terminated := true }

def empty : Domain := ⟨[], []⟩

def run (as : List Action) : Domain := as.foldl step empty

/-- A stopped instance has no host node. -/
def StoppedAway (d : Domain) : Prop := ∀ i ∈ d.instances, i.state = .stopped → i.hostNodeId = none

theorem StoppedAway.update {d : Domain} (h : d.StoppedAway) (id : Nat)
    {f : InstanceRow → InstanceRow}
    (hf : ∀ i, (i.state = .stopped → i.hostNodeId = none) →
      (f i).state = .stopped → (f i).hostNodeId = none) : (d.update id f).StoppedAway := by
  intro i hi
  obtain ⟨j, hj, rfl⟩ := List.mem_map.mp hi
  split
  · exact hf j (h j hj)
  · exact h j hj

theorem StoppedAway.step {d : Domain} (h : d.StoppedAway) (a : Action) :
    (d.step a).StoppedAway := by
  cases a with
  | setNodes nodes => exact h
  | create id cpuCores memorySize host =>
    intro i hi hs
    rcases List.mem_append.mp hi with hi | hi
    · exact h i hi hs
    · rw [List.mem_singleton.mp hi] at hs
      cases hs
  | schedule id host =>
    refine h.update id fun i hi => ?_
    split
    · intro hs
      cases hs
    · exact hi
  | progress id p =>
    refine h.update id fun i hi => ?_
    split
    · exact hi
    · intro hs
      cases p <;> cases hs
  | stop id =>
    refine h.update id fun i hi => ?_
    split
    · intro hs
      cases hs
    · exact hi
  | stopped id =>
    refine h.update id fun i hi => ?_
    split
    · exact fun _ => rfl
    · exact hi
  | start id =>
    refine h.update id fun i hi => ?_
    split
    · intro hs
      cases hs
    · exact hi
  | terminate id => exact h.update id fun i _ hs => by cases hs

theorem stoppedAway_run (as : List Action) : (run as).StoppedAway :=
  invariant StoppedAway (fun _ a h => h.step a) as fun _ h => absurd h List.not_mem_nil

/-! ## The formula of the comment -/

def nonStopped (d : Domain) : List InstanceRow := d.alives.filter (·.state ≠ .stopped)

def stoppeds (d : Domain) : List InstanceRow := d.alives.filter (·.state = .stopped)

/-- What the alive instances leave of the offering, with the given part reserved
for the stopped ones. -/
def spare (d : Domain) (f : UsageFactor) (offering : NodeRow → Nat) (column : InstanceRow → Nat) :
    Int :=
  sum offering d.onlineNodes - sum column d.nonStopped - f.reserve (sum column d.stoppeds)

def Fits (d : Domain) (f : UsageFactor) (cpuCores memorySize num : Nat) : Prop :=
  (num * cpuCores : Nat) ≤ d.spare f (·.offeringCpuCores) (·.cpuCores) ∧
    (num * memorySize : Nat) ≤ d.spare f (·.offeringMemorySize) (·.memorySize)

instance (d : Domain) (f : UsageFactor) (c m n : Nat) : Decidable (d.Fits f c m n) :=
  inferInstanceAs (Decidable (_ ∧ _))

/-- The resources of the instances that run on no online node. -/
def leftOut (d : Domain) (column : InstanceRow → Nat) : Nat :=
  sum column (d.nonStopped.filter (¬ d.OnOnlineNode ·))

/-- The instances on the online nodes have more than the nodes offer. -/
def OverCommitted (d : Domain) (offering : NodeRow → Nat) (column : InstanceRow → Nat) : Prop :=
  sum offering d.onlineNodes < sum column (d.nonStopped.filter (d.OnOnlineNode ·))

theorem sum_filter_add {ρ : Type} (column : ρ → Nat) (p : ρ → Prop) [DecidablePred p]
    (rows : List ρ) :
    sum column (rows.filter (p ·)) + sum column (rows.filter (¬ p ·)) = sum column rows := by
  induction rows with
  | nil => rfl
  | cons r rows ih =>
    unfold sum at ih ⊢
    by_cases hp : p r
    · simp only [hp, not_true_eq_false, decide_true, decide_false, List.filter_cons_of_pos,
        List.filter_cons_of_neg, List.map_cons, List.sum_cons, Bool.false_eq_true,
        not_false_eq_true]
      omega
    · simp only [hp, not_false_eq_true, decide_true, decide_false, List.filter_cons_of_pos,
        List.filter_cons_of_neg, List.map_cons, List.sum_cons, Bool.false_eq_true]
      omega

section
variable {d : Domain} (f : UsageFactor) (offering : NodeRow → Nat) (column : InstanceRow → Nat)

theorem reserve_zero : f.reserve 0 = 0 := by
  rw [UsageFactor.reserve, Nat.cast_zero, zero_mul]
  rfl

theorem reserve_nonneg (n : Nat) : 0 ≤ f.reserve n := by
  unfold UsageFactor.reserve
  rw [Rat.le_floor_iff]
  have := mul_nonneg (Nat.cast_nonneg (α := Rat) n) f.nonneg
  simpa using this

/-- No stopped instance is on an online node, so the sums are over the others. -/
theorem filter_online_of_away (h : d.StoppedAway) :
    d.alives.filter (d.OnOnlineNode ·) = d.nonStopped.filter (d.OnOnlineNode ·) ∧
      (d.alives.filter (d.OnOnlineNode ·)).filter (·.state = .stopped) = [] := by
  have hs : ∀ i ∈ d.alives, d.OnOnlineNode i → i.state ≠ .stopped := by
    rintro i hi ⟨n, -, hn⟩ hst
    rw [h i (List.mem_filter.mp hi).1 hst] at hn
    cases hn
  constructor
  · rw [nonStopped, List.filter_filter]
    refine List.filter_congr fun i hi => ?_
    by_cases ho : d.OnOnlineNode i
    · simp [ho, hs i hi ho]
    · simp [ho]
  · rw [List.filter_eq_nil_iff]
    intro i hi hst
    obtain ⟨hi, ho⟩ := List.mem_filter.mp hi
    exact hs i hi (of_decide_eq_true ho) (of_decide_eq_true hst)

theorem available_eq (h : d.StoppedAway) :
    d.available f offering column =
      sum offering d.onlineNodes - (sum column (d.nonStopped.filter (d.OnOnlineNode ·)) : Int) := by
  obtain ⟨h1, h2⟩ := filter_online_of_away h
  unfold available
  dsimp only
  rw [h2, h1, show sum column [] = 0 from rfl, reserve_zero]
  omega

theorem spare_eq (h : d.StoppedAway) :
    d.spare f offering column =
      d.available f offering column - (d.leftOut column + f.reserve (sum column d.stoppeds)) := by
  have hsum := sum_filter_add column d.OnOnlineNode d.nonStopped
  rw [available_eq f offering column h]
  unfold spare leftOut
  omega

theorem available_neg_iff (h : d.StoppedAway) :
    d.available f offering column < 0 ↔ d.OverCommitted offering column := by
  rw [available_eq f offering column h]
  unfold OverCommitted
  omega

end

/-- Two rectangles of naturals, one inside the other, are equal if both are empty
or their sides agree. -/
theorem rectangles_eq_iff {x y a b : Int} (ha : 0 ≤ a) (hb : 0 ≤ b) :
    (∀ c m n : Nat, ((m * n : Nat) ≤ y ∧ (c * n : Nat) ≤ x) ↔
        ((n * c : Nat) ≤ x - a ∧ (n * m : Nat) ≤ y - b)) ↔
      x < 0 ∨ y < 0 ∨ a = 0 ∧ b = 0 := by
  constructor
  · intro h
    by_contra hn
    have hc := (h x.toNat 0 1).mp
    have hm := (h 0 y.toNat 1).mp
    simp only [Nat.mul_one, Nat.one_mul, Nat.mul_zero] at hc hm
    omega
  · rintro h c m n
    rw [Nat.mul_comm m n, Nat.mul_comm c n]
    omega

/-- `check_domain_capacity?` answers by the formula. -/
def Checks (d : Domain) (f : UsageFactor) : Prop :=
  ∀ c m n : Nat, d.checkDomainCapacity f c m n = true ↔ d.Fits f c m n

theorem checks_iff_of_away {d : Domain} (h : d.StoppedAway) (f : UsageFactor) :
    d.Checks f ↔
      d.OverCommitted (·.offeringCpuCores) (·.cpuCores) ∨
      d.OverCommitted (·.offeringMemorySize) (·.memorySize) ∨
      (d.leftOut (·.cpuCores) = 0 ∧ f.reserve (sum (·.cpuCores) d.stoppeds) = 0) ∧
      (d.leftOut (·.memorySize) = 0 ∧ f.reserve (sum (·.memorySize) d.stoppeds) = 0) := by
  have hcpu := reserve_nonneg f (sum (·.cpuCores) d.stoppeds)
  have hmem := reserve_nonneg f (sum (·.memorySize) d.stoppeds)
  unfold Checks checkDomainCapacity Fits
  simp only [decide_eq_true_eq]
  rw [spare_eq f (·.offeringCpuCores) (·.cpuCores) h,
    spare_eq f (·.offeringMemorySize) (·.memorySize) h,
    rectangles_eq_iff (by omega) (by omega), available_neg_iff _ _ _ h, available_neg_iff _ _ _ h]
  refine or_congr_right (or_congr_right (and_congr ?_ ?_))
  · omega
  · omega

/-- After every lifecycle the check follows the formula exactly when no instance
is left out of its sums, or nothing fits anyway. -/
theorem checks_capacity_iff (as : List Action) (f : UsageFactor) :
    (run as).Checks f ↔
      (run as).OverCommitted (·.offeringCpuCores) (·.cpuCores) ∨
      (run as).OverCommitted (·.offeringMemorySize) (·.memorySize) ∨
      ((run as).leftOut (·.cpuCores) = 0 ∧
        f.reserve (sum (·.cpuCores) (run as).stoppeds) = 0) ∧
      ((run as).leftOut (·.memorySize) = 0 ∧
        f.reserve (sum (·.memorySize) (run as).stoppeds) = 0) :=
  checks_iff_of_away (stoppedAway_run as) f

def stopSample : List Action :=
  [.setNodes [⟨1, true, true, 4, 4096⟩], .create 1 2 2048 none, .progress 1 .scheduling,
    .schedule 1 1, .progress 1 .starting, .progress 1 .running, .stop 1, .stopped 1]

def fullFactor : UsageFactor := ⟨1, by decide, by decide⟩

theorem not_checks_capacity :
    (run stopSample).checkDomainCapacity fullFactor 4 4096 1 = true ∧
    ¬ (run stopSample).Fits fullFactor 4 4096 1 ∧ ¬ (run stopSample).Checks fullFactor := by
  have hc : (run stopSample).checkDomainCapacity fullFactor 4 4096 1 = true := by decide +kernel
  have hf : ¬ (run stopSample).Fits fullFactor 4 4096 1 := by decide +kernel
  exact ⟨hc, hf, fun h => hf ((h 4 4096 1).mp hc)⟩

end Domain
end HostNode
end WakameVdc
