import WakameVdc.HaManager

/-!
# What the HaManager detects

The history of an item is a window on the results of all hosts. For the host a
result is about, the last results in the window are its last results of the
whole run, as far as the window reaches.
-/

namespace WakameVdc

open Lib

namespace HaManager

def results (name : String) (calls : List TriggerCall) : List HistoryRow :=
  (calls.filter fun c => c.itemName = name).map fun c => ⟨c.value, c.hostUuid⟩

def hostResults (hostUuid : String) (rows : List HistoryRow) : List HistoryRow :=
  rows.filter fun r => r.hostUuid == hostUuid

/-- At least `n` results, the last `n` of them failures. -/
def LastFailed (n : Nat) (rows : List HistoryRow) : Prop :=
  n ≤ rows.length ∧ ∀ r ∈ rows.rtake n, r.value = .failure

def window (historySize : Nat) : Nat := max 1 (historySize - 1)

/-! ## The configuration -/

theorem addMonitorItem_ok {m m' : MonitorTarget} {name : String} {historySize : Nat}
    (h : m.addMonitorItem name historySize = .ok m') :
    m'.condition = m.condition ∧ m'.monitorItems name = some ⟨[], historySize⟩ ∧
      ∀ x a, m.monitorItems x = some a → m'.monitorItems x = some a := by
  unfold MonitorTarget.addMonitorItem at h
  split at h
  · cases h
  · rename_i hnew
    cases h
    refine ⟨rfl, by simp [SizedArray.new], fun x a ha => ?_⟩
    have hx : x ≠ name := by
      rintro rfl
      exact hnew (by simp [ha])
    simp [hx, ha]

theorem addMonitorItems_ok {items : List (String × Nat)} {m m' : MonitorTarget}
    (h : items.foldlM (fun m i => m.addMonitorItem i.1 i.2) m = .ok m') :
    m'.condition = m.condition ∧ (∀ x a, m.monitorItems x = some a → m'.monitorItems x = some a) ∧
      ∀ i ∈ items, m'.monitorItems i.1 = some ⟨[], i.2⟩ := by
  induction items generalizing m with
  | nil => cases h; exact ⟨rfl, fun _ _ h => h, by simp⟩
  | cons i items ih =>
    rw [List.foldlM_cons] at h
    cases ha : m.addMonitorItem i.1 i.2 with
    | error e => rw [ha] at h; cases h
    | ok m₁ =>
      rw [ha] at h
      obtain ⟨hc, hi, hold⟩ := addMonitorItem_ok ha
      obtain ⟨hc', hold', hitems⟩ := ih h
      refine ⟨hc'.trans hc, fun x a hx => hold' x a (hold x a hx), fun j hj => ?_⟩
      rcases List.mem_cons.mp hj with rfl | hj
      · exact hold' _ _ hi
      · exact hitems j hj

theorem initializeHook_ok {items : List (String × Nat)} {n : Nat} {name : String}
    {m : MonitorTarget} (h : initializeHook items [lastNtimesFailure n name] = .ok m) :
    m.condition = [.mk (.lastNtime .failure n name) []] ∧
      ∀ i ∈ items, m.monitorItems i.1 = some ⟨[], i.2⟩ := by
  unfold initializeHook at h
  cases hf : items.foldlM (fun m i => m.addMonitorItem i.1 i.2)
      (⟨fun _ => none, []⟩ : MonitorTarget) with
  | error e => rw [hf] at h; cases h
  | ok m₁ =>
    rw [hf] at h
    by_cases hn : n > 0
    · simp only [lastNtimesFailure, if_pos hn] at h
      cases h
      exact ⟨rfl, (addMonitorItems_ok hf).2.2⟩
    · simp only [lastNtimesFailure, if_neg hn] at h
      cases h

/-! ## The history over a run -/

theorem push_window {α : Type} (l : List α) (historySize : Nat) (row : α) :
    (⟨l.rtake (window historySize), historySize⟩ : SizedArray α).push [row] =
      ⟨(l ++ [row]).rtake (window historySize), historySize⟩ := by
  have hlen := length_rtake l (window historySize)
  rw [rtake_concat l row (by unfold window; omega)]
  simp only [SizedArray.push, List.length_singleton, SizedArray.mk.injEq, and_true]
  congr 1
  by_cases hfull : (l.rtake (window historySize)).length = window historySize
  · rw [if_pos hfull, if_pos (by rw [hfull]; unfold window; omega)]
  · rw [if_neg hfull]
    by_cases hsize : (l.rtake (window historySize)).length + 1 ≥ historySize
    · -- a history of at most one result, still empty
      rw [if_pos hsize]
      have h0 : l.rtake (window historySize) = [] := by
        rw [← List.length_eq_zero_iff]
        unfold window at hlen hfull hsize ⊢
        omega
      rw [h0]; rfl
    · rw [if_neg hsize]

theorem step_condition (m : MonitorTarget) (c : TriggerCall) : (c.step m).condition = m.condition := by
  unfold TriggerCall.step MonitorTarget.addHistory
  cases m.monitorItems c.itemName <;> rfl

theorem step_monitorItems (m : MonitorTarget) (c : TriggerCall) (name : String) :
    (c.step m).monitorItems name = (m.monitorItems name).map fun history =>
      if c.itemName = name then history.push [⟨c.value, c.hostUuid⟩] else history := by
  unfold TriggerCall.step MonitorTarget.addHistory
  cases hc : m.monitorItems c.itemName with
  | none =>
    by_cases h : c.itemName = name
    · rw [← h]; simp [hc]
    · simp [h]
  | some history =>
    by_cases h : c.itemName = name
    · subst h; simp [hc]
    · simp [h, Ne.symm h]

theorem results_concat (name : String) (calls : List TriggerCall) (c : TriggerCall) :
    results name (calls ++ [c]) =
      results name calls ++ if c.itemName = name then [⟨c.value, c.hostUuid⟩] else [] := by
  unfold results
  rw [List.filter_append, List.map_append]
  by_cases h : c.itemName = name
  · simp [h]
  · simp [h]

theorem condition_run (m : MonitorTarget) (calls : List TriggerCall) :
    (calls.foldl TriggerCall.step m).condition = m.condition := by
  induction calls generalizing m with
  | nil => rfl
  | cons c calls ih => rw [List.foldl_cons, ih, step_condition]

theorem history_run {m : MonitorTarget} {name : String} {historySize : Nat}
    (h : m.monitorItems name = some ⟨[], historySize⟩) (calls : List TriggerCall) :
    (calls.foldl TriggerCall.step m).monitorItems name =
      some ⟨(results name calls).rtake (window historySize), historySize⟩ := by
  induction calls using List.reverseRecOn with
  | nil => simpa [results, List.rtake] using h
  | append_singleton calls c ih =>
    rw [List.foldl_append, List.foldl_cons, List.foldl_nil, step_monitorItems, ih, Option.map_some,
      results_concat]
    by_cases hc : c.itemName = name
    · rw [if_pos hc, if_pos hc, push_window]
    · rw [if_neg hc, if_neg hc, List.append_nil]

theorem run_of_registered {m : MonitorTarget} {c : TriggerCall} {a : SizedArray HistoryRow}
    (h : m.monitorItems c.itemName = some a) : c.run m = (c.step m).evaluateCondition c.hostUuid := by
  unfold TriggerCall.run TriggerCall.step MonitorTarget.addHistory
  rw [h]; rfl

theorem evaluate_lastNtimes {m : MonitorTarget} {n : Nat} {name hostUuid : String}
    {history : SizedArray HistoryRow} (hc : m.condition = [.mk (.lastNtime .failure n name) []])
    (hh : m.monitorItems name = some history) :
    m.evaluateCondition hostUuid = .ok true ↔ LastFailed n (hostResults hostUuid history.array) := by
  have hq : m.query hostUuid name = .ok (hostResults hostUuid history.array) := by
    simp only [MonitorTarget.query, hh, hostResults]
  simp only [MonitorTarget.evaluateCondition, hc, MonitorTarget.walkAll, MonitorTarget.walk,
    MonitorTarget.evaluate, hq, bind, Except.bind, pure, Except.pure]
  generalize hostResults hostUuid history.array = rows
  have hlen := length_rtake rows n
  by_cases hn : (rows.rtake n).length ≥ n
  · have hall : ((rows.rtake n).all fun i => i.value == .failure) = true ↔
        ∀ r ∈ rows.rtake n, r.value = .failure := by simp
    by_cases ha : ((rows.rtake n).all fun i => i.value == .failure) = true
    · rw [if_pos hn, if_pos ha]
      exact iff_of_true rfl ⟨by omega, hall.mp ha⟩
    · rw [if_pos hn, if_neg ha]
      exact iff_of_false (by simp) fun h => ha (hall.mpr h.2)
  · rw [if_neg hn]
    exact iff_of_false (by simp) fun h => hn (by have := h.1; omega)

/-! ## The verdict -/

/-- The exact verdict: only the results of the host inside the window count. -/
theorem run_iff {items : List (String × Nat)} {n : Nat} {name : String} {historySize : Nat}
    {m : MonitorTarget} (hm : initializeHook items [lastNtimesFailure n name] = .ok m)
    (hname : (name, historySize) ∈ items) (calls : List TriggerCall) (c : TriggerCall)
    (hc : c.itemName ∈ items.map Prod.fst) :
    c.run (calls.foldl TriggerCall.step m) = .ok true ↔
      LastFailed n (hostResults c.hostUuid
        ((results name (calls ++ [c])).rtake (window historySize))) := by
  obtain ⟨hcond, hitems⟩ := initializeHook_ok hm
  obtain ⟨i, hi, hic⟩ := List.mem_map.mp hc
  have hreg := history_run (hitems i hi) calls
  rw [hic] at hreg
  rw [run_of_registered hreg]
  have hhist := history_run (hitems _ hname) (calls ++ [c])
  rw [List.foldl_append] at hhist
  refine evaluate_lastNtimes ?_ hhist
  rw [List.foldl_cons, List.foldl_nil, step_condition, condition_run, hcond]

theorem lastFailed_window (n k : Nat) (hostUuid : String) (rows : List HistoryRow) :
    LastFailed n (hostResults hostUuid (rows.rtake k)) ↔
      LastFailed n (hostResults hostUuid rows) ∧ n ≤ (hostResults hostUuid (rows.rtake k)).length := by
  have hsuf : hostResults hostUuid (rows.rtake k) <:+ hostResults hostUuid rows :=
    filter_rtake_suffix _ rows k
  unfold LastFailed
  by_cases hn : n ≤ (hostResults hostUuid (rows.rtake k)).length
  · rw [rtake_of_suffix hsuf hn]
    have := hsuf.length_le
    simp only [hn, true_and, and_true, iff_and_self]
    exact fun _ => by omega
  · simp [hn]

theorem hostResults_mono {j k : Nat} (h : j ≤ k) (hostUuid : String) (rows : List HistoryRow) :
    (hostResults hostUuid (rows.rtake j)).length ≤ (hostResults hostUuid (rows.rtake k)).length :=
  ((rtake_suffix_rtake rows h).filter _).length_le

/-- With `last_ntimes_failure(n, name)` the result of a host triggers its
evacuation only if its last `n` results are failures; it does if these lie
within the most recent `historySize - 1` results of the item, and does not if
they reach beyond the most recent `historySize`. -/
theorem evacuation_triggered {items : List (String × Nat)} {n : Nat} {name : String}
    {historySize : Nat} {m : MonitorTarget}
    (hm : initializeHook items [lastNtimesFailure n name] = .ok m)
    (hname : (name, historySize) ∈ items) (calls : List TriggerCall) (c : TriggerCall)
    (hc : c.itemName ∈ items.map Prod.fst) :
    let rows := results name (calls ++ [c])
    let triggers := c.run (calls.foldl TriggerCall.step m) = .ok true
    (triggers → LastFailed n (hostResults c.hostUuid rows)) ∧
      (LastFailed n (hostResults c.hostUuid rows) →
        n ≤ (hostResults c.hostUuid (rows.rtake (historySize - 1))).length → triggers) ∧
      (0 < historySize → (hostResults c.hostUuid (rows.rtake historySize)).length < n →
        ¬ triggers) := by
  intro rows triggers
  have hiff : triggers ↔ _ := (run_iff hm hname calls c hc).trans (lastFailed_window ..)
  refine ⟨fun h => (hiff.mp h).1, fun hl hn => hiff.mpr ⟨hl, ?_⟩, fun hpos hn h => ?_⟩
  · exact hn.trans (hostResults_mono (by unfold window; omega) _ _)
  · have hle := hostResults_mono (show window historySize ≤ historySize by unfold window; omega)
      c.hostUuid rows
    have := (hiff.mp h).2.trans hle
    omega

def pingMonitor : MonitorTarget where
  monitorItems x := if x = "ping" then some ⟨[], 100⟩ else none
  condition := [.mk (.lastNtime .failure 2 "ping") []]

theorem pingMonitor_init :
    initializeHook [("ping", defaultHistorySize)] [lastNtimesFailure 2 "ping"] = .ok pingMonitor := rfl

/-- Two failures of one host trigger the evacuation. -/
theorem evacuation_triggered_twice :
    (⟨"ping", .failure, "a"⟩ : TriggerCall).run
      ([⟨"ping", .failure, "a"⟩].foldl TriggerCall.step pingMonitor) = .ok true := by
  refine (evacuation_triggered pingMonitor_init (List.mem_singleton.mpr rfl)
    [⟨"ping", .failure, "a"⟩] ⟨"ping", .failure, "a"⟩ (by simp)).2.1 ?_ ?_
  · simp [results, hostResults, LastFailed, List.rtake]
  · simp [results, hostResults, List.rtake, defaultHistorySize]

/-- A failure of `a`, then ninety-nine results of another host. -/
def crowdedOut : List TriggerCall :=
  ⟨"ping", .failure, "a"⟩ :: List.replicate 99 ⟨"ping", .success, "b"⟩

theorem results_crowdedOut :
    results "ping" (crowdedOut ++ [⟨"ping", .failure, "a"⟩]) =
      ⟨.failure, "a"⟩ :: (List.replicate 99 ⟨.success, "b"⟩ ++ [⟨.failure, "a"⟩]) := by
  simp [crowdedOut, results]

/-- With another failure the last two results of `a` are failures, and nothing
is triggered; without the results of `b` the same two failures do trigger. -/
theorem crowded_out :
    initializeHook [("ping", defaultHistorySize)] [lastNtimesFailure 2 "ping"] = .ok pingMonitor ∧
      LastFailed 2 (hostResults "a" (results "ping" (crowdedOut ++ [⟨"ping", .failure, "a"⟩]))) ∧
      (⟨"ping", .failure, "a"⟩ : TriggerCall).run (crowdedOut.foldl TriggerCall.step pingMonitor) ≠
        .ok true ∧
      (⟨"ping", .failure, "a"⟩ : TriggerCall).run
        ([⟨"ping", .failure, "a"⟩].foldl TriggerCall.step pingMonitor) = .ok true := by
  refine ⟨pingMonitor_init, ?_, fun h => ?_, ?_⟩
  · rw [results_crowdedOut]
    simp [hostResults, LastFailed, List.rtake]
  · rw [run_iff pingMonitor_init (List.mem_singleton.mpr rfl) crowdedOut _ (by simp),
      results_crowdedOut] at h
    simp [hostResults, LastFailed, List.rtake, window, defaultHistorySize] at h
  · rw [run_iff pingMonitor_init (List.mem_singleton.mpr rfl) _ _ (by simp)]
    simp [results, hostResults, LastFailed, List.rtake, window, defaultHistorySize]

end HaManager

end WakameVdc
