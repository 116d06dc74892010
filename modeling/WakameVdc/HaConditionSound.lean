import WakameVdc.Lib.Proc
import WakameVdc.HaCondition

/-!
# What a condition means

An expression read as it is written, over all results of a host, against what the walk of the
tree yields over the histories that are left.
-/

namespace WakameVdc

open Lib

namespace HaManager

/-- The items with the sizes of their histories, all calls of their triggers so far, and the host
whose result is evaluated. -/
structure Monitored where
  sizes : String → Option Nat
  calls : List TriggerCall
  hostUuid : String

namespace Monitored

variable (c : Monitored)

def target (condition : List Node) : MonitorTarget :=
  c.calls.foldl TriggerCall.step ⟨fun x => (c.sizes x).map SizedArray.new, condition⟩

def recorded (name : String) : Option (List HistoryRow) :=
  (c.sizes name).map fun historySize =>
    hostResults c.hostUuid ((results name c.calls).rtake (window historySize))

/-- The most recent result of an item for the host, a failure when there is none. -/
def mostRecent (name : String) : Value :=
  ((hostResults c.hostUuid (results name c.calls)).getLast?.map HistoryRow.value).getD .failure

def reading : NodeKind → List Value → Value
  | .lastNtime result ntimes name, _ =>
    let rows := (c.recorded name).getD []
    if ntimes ≤ rows.length ∧ ∀ r ∈ rows.rtake ntimes, r.value = result then .failure else .success
  | .monitorItem name, _ => c.mostRecent name
  | .equal targetValue, values =>
    if ∀ v ∈ values, some v = targetValue then .failure else .success
  | .and, values => if ∀ v ∈ values, v = .failure then .failure else .success

def Agrees : NodeKind → List Value → Prop
  | .lastNtime _ _ name, _ => (c.recorded name).isSome
  | .monitorItem name, _ =>
    ∃ rows, c.recorded name = some rows ∧
      (rows.head?.map HistoryRow.value).getD .failure = c.mostRecent name
  | .equal _, _ => True
  | .and, values => values ≠ [] ∧ ∀ v ∈ values, v = .success

def report (condition : List Node) : Except HaError (Option Value) := do
  let results ← (c.target condition).walkAll c.hostUuid condition
  return results.head?

theorem evaluateCondition_eq (condition : List Node) :
    (c.target condition).evaluateCondition c.hostUuid =
      (c.report condition).map (· == some .failure) := by
  unfold MonitorTarget.evaluateCondition report
  have hcond : (c.target condition).condition = condition := condition_run ..
  rw [hcond]
  cases (c.target condition).walkAll c.hostUuid condition <;> rfl

/-! ## The items -/

def Empty (m : MonitorTarget) : Prop :=
  ∃ sizes : String → Option Nat, m.monitorItems = fun x => (sizes x).map SizedArray.new

theorem addMonitorItem_empty {m m' : MonitorTarget} {name : String} {historySize : Nat}
    (hm : Empty m) (h : m.addMonitorItem name historySize = .ok m') : Empty m' := by
  obtain ⟨sizes, hsizes⟩ := hm
  unfold MonitorTarget.addMonitorItem at h
  by_cases hnew : (m.monitorItems name).isSome
  · rw [if_pos hnew] at h
    cases h
  · rw [if_neg hnew] at h
    cases h
    refine ⟨fun x => if x = name then some historySize else sizes x, ?_⟩
    funext x
    by_cases hx : x = name
    · simp [hx]
    · simp [hx, hsizes]

theorem addMonitorItems_empty {items : List (String × Nat)} {m m' : MonitorTarget} (hm : Empty m)
    (h : items.foldlM (fun m i => m.addMonitorItem i.1 i.2) m = .ok m') : Empty m' :=
  foldlM_invariant Empty (fun _ _ _ => addMonitorItem_empty) h hm

theorem initializeHook_target {items : List (String × Nat)} {m : MonitorTarget}
    (h : initializeHook items [] = .ok m) (hostUuid : String) :
    ∃ sizes, m = (⟨sizes, [], hostUuid⟩ : Monitored).target [] := by
  unfold initializeHook at h
  cases hf : items.foldlM (fun m i => m.addMonitorItem i.1 i.2)
      (⟨fun _ => none, []⟩ : MonitorTarget) with
  | error e => rw [hf] at h; cases h
  | ok m₁ =>
    rw [hf] at h
    cases h
    obtain ⟨sizes, hsizes⟩ := addMonitorItems_empty ⟨fun _ => none, rfl⟩ hf
    exact ⟨sizes, by simp [target, hsizes]⟩

/-! ## One node -/

variable {c}

theorem monitorItems_none {m : MonitorTarget} {name : String} (h : m.monitorItems name = none)
    (calls : List TriggerCall) : (calls.foldl TriggerCall.step m).monitorItems name = none := by
  induction calls generalizing m with
  | nil => exact h
  | cons call calls ih =>
    refine ih ?_
    rw [step_monitorItems, h]
    rfl

theorem query_target (condition : List Node) (name : String) :
    (c.target condition).query c.hostUuid name =
      match c.recorded name with
      | none => .error .noMethodError
      | some rows => .ok rows := by
  unfold MonitorTarget.query target recorded
  cases hsize : c.sizes name with
  | none =>
    rw [monitorItems_none (by simp [hsize])]
    rfl
  | some historySize =>
    have hnew : (c.sizes name).map SizedArray.new =
        some (⟨[], historySize⟩ : SizedArray HistoryRow) := by
      simp [hsize, SizedArray.new]
    rw [history_run hnew]
    rfl

theorem evaluate_and (values : List Value) :
    ((if values.all fun i => some i == values.head? then Value.success else .failure) =
      if ∀ v ∈ values, v = .failure then .failure else .success) ↔
      values ≠ [] ∧ ∀ v ∈ values, v = .success := by
  cases values with
  | nil => simp
  | cons v values =>
    cases v with
    | success => simp
    | failure =>
      by_cases h : ∀ v ∈ values, v = .failure
      · have hall : (values.all fun i => i == .failure) = true := by simpa using h
        simpa [hall] using h
      · have hall : ¬ (values.all fun i => i == .failure) = true := by simpa using h
        simp [hall, h]

theorem evaluate_iff (condition : List Node) (kind : NodeKind) (values : List Value) :
    (c.target condition).evaluate c.hostUuid kind values = .ok (c.reading kind values) ↔
      c.Agrees kind values := by
  cases kind with
  | lastNtime result ntimes name =>
    simp only [MonitorTarget.evaluate, reading, Agrees, query_target]
    cases hrows : c.recorded name with
    | none => simp [bind, Except.bind]
    | some rows =>
      have hlen := length_rtake rows ntimes
      by_cases hn : ntimes ≤ rows.length
      · simp only [bind, Except.bind, pure, Except.pure, Option.getD_some, Option.isSome_some]
        rw [if_pos (by omega)]
        simp [hn]
      · simp only [bind, Except.bind, pure, Except.pure, Option.getD_some, Option.isSome_some]
        rw [if_neg (by omega)]
        simp [hn]
  | monitorItem name =>
    simp only [MonitorTarget.evaluate, reading, Agrees, query_target]
    cases hrows : c.recorded name with
    | none => simp [bind, Except.bind]
    | some rows =>
      cases rows with
      | nil => simp [bind, Except.bind, pure, Except.pure]
      | cons row rows => simp [bind, Except.bind, pure, Except.pure]
  | equal targetValue => simp [MonitorTarget.evaluate, reading, Agrees]
  | and =>
    simp only [MonitorTarget.evaluate, reading, Agrees, Except.ok.injEq]
    exact evaluate_and values

end Monitored

/-! ## An expression -/

namespace Expr

def kind : Expr → NodeKind
  | .monitorItem name => .monitorItem name
  | .lastNtimesFailure ntimes _ name => .lastNtime .failure ntimes name
  | .opEqAll targetValue _ _ => .equal targetValue
  | .opAnd _ _ => .and

def operands : Expr → List Expr
  | .monitorItem _ => []
  | .lastNtimesFailure _ _ _ => []
  | .opEqAll _ node nodes => node :: nodes
  | .opAnd node nodes => node :: nodes

section Reading

variable (c : Monitored)

mutual

def value : Expr → Value
  | .monitorItem name => c.reading (.monitorItem name) []
  | .lastNtimesFailure ntimes _ name => c.reading (.lastNtime .failure ntimes name) []
  | .opEqAll targetValue node nodes => c.reading (.equal targetValue) (node.value :: values nodes)
  | .opAnd node nodes => c.reading .and (node.value :: values nodes)

def values : List Expr → List Value
  | [] => []
  | node :: nodes => node.value :: values nodes

end

/-- The tree of a call is walked to the value of the call. -/
def Walked (e : Expr) : Prop :=
  ∀ condition, (c.target condition).walk c.hostUuid e.tree = .ok (e.value c)

def Agrees (e : Expr) : Prop := c.Agrees e.kind (values c e.operands)

structure Reads (e : Expr) : Prop where
  tree : e.parseDsl = .ok [e.tree]
  walked : ∀ x ∈ e.subs, x.Walked c
  reported : ∀ condition, e.parseDsl = .ok condition → c.report condition = .ok (some (e.value c))

end Reading

variable {c : Monitored}

theorem tree_eq (e : Expr) : e.tree = .mk e.kind (trees e.operands) := by
  cases e <;> rfl

theorem value_eq (e : Expr) : e.value c = c.reading e.kind (values c e.operands) := by
  cases e <;> rfl

theorem mem_subs_self (e : Expr) : e ∈ e.subs := by
  cases e <;> simp [subs]

theorem subsAll_of_mem {nodes : List Expr} {x : Expr} (h : x ∈ nodes) : x ∈ subsAll nodes := by
  induction nodes with
  | nil => cases h
  | cons node nodes ih =>
    rw [subsAll]
    rcases List.mem_cons.mp h with rfl | h
    · exact List.mem_append_left _ (mem_subs_self x)
    · exact List.mem_append_right _ (ih h)

theorem walkAll_trees {nodes : List Expr} (h : ∀ x ∈ nodes, x.Walked c) (condition : List Node) :
    (c.target condition).walkAll c.hostUuid (trees nodes) = .ok (values c nodes) := by
  induction nodes with
  | nil => rfl
  | cons node nodes ih =>
    simp only [trees, values, MonitorTarget.walkAll, h node (by simp) condition,
      ih fun x hx => h x (by simp [hx])]
    rfl

/-- One step up: with its operands walked right, a call is walked right if its node agrees. -/
theorem walked_iff {e : Expr} (h : ∀ x ∈ e.operands, x.Walked c) : e.Walked c ↔ e.Agrees c := by
  unfold Walked Agrees
  have hstep (condition : List Node) : (c.target condition).walk c.hostUuid e.tree =
      (c.target condition).evaluate c.hostUuid e.kind (values c e.operands) := by
    rw [tree_eq, MonitorTarget.walk, walkAll_trees h]
    rfl
  simp only [hstep, value_eq e, Monitored.evaluate_iff]
  exact ⟨fun h => h [], fun h _ => h⟩

theorem walked_append_iff {node : Expr} {nodes : List Expr}
    (hnode : (∀ x ∈ node.subs, x.Walked c) ↔ ∀ x ∈ node.subs, x.Agrees c)
    (hnodes : (∀ x ∈ subsAll nodes, x.Walked c) ↔ ∀ x ∈ subsAll nodes, x.Agrees c) :
    (∀ x ∈ subsAll (node :: nodes), x.Walked c) ↔ ∀ x ∈ subsAll (node :: nodes), x.Agrees c := by
  simp only [subsAll, List.forall_mem_append]
  exact and_congr hnode hnodes

theorem walked_cons_iff {e : Expr} (hsubs : e.subs = e :: subsAll e.operands)
    (ih : (∀ x ∈ subsAll e.operands, x.Walked c) ↔ ∀ x ∈ subsAll e.operands, x.Agrees c) :
    (∀ x ∈ e.subs, x.Walked c) ↔ ∀ x ∈ e.subs, x.Agrees c := by
  rw [hsubs, List.forall_mem_cons, List.forall_mem_cons, ← ih]
  refine and_congr_left fun hbelow => ?_
  exact walked_iff fun x hx => hbelow x (subsAll_of_mem hx)

mutual

/-- Every call is walked to its value just when every node agrees with its reading. -/
theorem walked_subs_iff :
    (e : Expr) → ((∀ x ∈ e.subs, x.Walked c) ↔ ∀ x ∈ e.subs, x.Agrees c)
  | .monitorItem _ => walked_cons_iff rfl (by simp [operands, subsAll])
  | .lastNtimesFailure _ _ _ => walked_cons_iff rfl (by simp [operands, subsAll])
  | .opEqAll _ node nodes =>
    walked_cons_iff rfl (walked_append_iff (walked_subs_iff node) (walked_subsAll_iff nodes))
  | .opAnd node nodes =>
    walked_cons_iff rfl (walked_append_iff (walked_subs_iff node) (walked_subsAll_iff nodes))

theorem walked_subsAll_iff : (nodes : List Expr) →
    ((∀ x ∈ subsAll nodes, x.Walked c) ↔ ∀ x ∈ subsAll nodes, x.Agrees c)
  | [] => by simp [subsAll]
  | node :: nodes => walked_append_iff (walked_subs_iff node) (walked_subsAll_iff nodes)

end

theorem report_of_walked {e : Expr} (h : e.Walked c) (condition : List Node)
    (htree : condition = [e.tree]) : c.report condition = .ok (some (e.value c)) := by
  subst htree
  simp only [Monitored.report, MonitorTarget.walkAll, h [e.tree]]
  rfl

/-- A condition is built and evaluated as it is written just when every operator in it is the
first operand of its own operator, and every node agrees with the reading of its call: the item
is registered, `monitor_item` finds at the old end of the history what was recorded last, and the
operands of `op_and` are all successes. -/
theorem reads_iff (c : Monitored) (e : Expr) :
    e.Reads c ↔ e.Straight ∧ ∀ x ∈ e.subs, x.Agrees c := by
  constructor
  · intro h
    exact ⟨(parseDsl_iff e).mp h.tree, (walked_subs_iff e).mp h.walked⟩
  · rintro ⟨hstraight, hagrees⟩
    have htree := (parseDsl_iff e).mpr hstraight
    have hwalked := (walked_subs_iff e).mpr hagrees
    refine ⟨htree, hwalked, ?_⟩
    intro condition hparse
    rw [htree] at hparse
    cases hparse
    exact report_of_walked (hwalked e (mem_subs_self e)) _ rfl

/-- `ping` failed for a host, then it succeeded; `zabbix` failed. -/
def recovered : Monitored where
  sizes x := if x = "ping" ∨ x = "zabbix" then some 100 else none
  calls := [⟨"ping", .failure, "hn-1"⟩, ⟨"ping", .success, "hn-1"⟩, ⟨"zabbix", .failure, "hn-1"⟩]
  hostUuid := "hn-1"

def zabbixFailed : Expr := .lastNtimesFailure 1 (by decide) "zabbix"

/-- A second operator takes the first one for its operand, `monitor_item` gives the old failure,
and `op_and` of two failures is a success. -/
theorem condition_misread :
    (opAnd (opEqAll (some .failure) zabbixFailed []) [opEqAll (some .failure) zabbixFailed []]).parseDsl =
        .ok [.mk .and [.mk (.equal (some .failure))
          [.mk (.equal (some .failure)) [zabbixFailed.tree], zabbixFailed.tree]]] ∧
      ¬ (opAnd (opEqAll (some .failure) zabbixFailed [])
        [opEqAll (some .failure) zabbixFailed []]).Reads recovered ∧
      recovered.report [(monitorItem "ping").tree] = .ok (some .failure) ∧
      (monitorItem "ping").value recovered = .success ∧
      recovered.report [(opAnd zabbixFailed [zabbixFailed]).tree] = .ok (some .success) ∧
      (opAnd zabbixFailed [zabbixFailed]).value recovered = .failure := by
  refine ⟨rfl, ?_, rfl, by decide, rfl, by decide⟩
  intro h
  have hstraight := (parseDsl_iff _).mp h.tree
  exact hstraight.2 _ (List.mem_singleton.mpr rfl)

end Expr

end HaManager

end WakameVdc
