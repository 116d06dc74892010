import WakameVdc.HostNodeSchedulerSound

/-!
# The host node that piped rules pick

The filters of all rules are one condition on a host node. The rows that meet it are cut off at
`max_results`, and of those that are left the reorder pass keeps the ones with room for the
instance.
-/

namespace WakameVdc

open Lib

namespace Scheduler

namespace Domain

variable (d : Domain) (vdc : Vdc)

/-- Whether the filter of a rule lets a host node through; a filter that raises lets none. -/
def Rule.passes (inst : Nat) (hn : HostNodeRow) : Rule → Bool
  | .common =>
    hn.online && hn.schedulingEnabled && (d.offer hn.id).hypervisor == (d.spec inst).hypervisor
  | .requestParamToGroup key default pairs =>
    match d.getHostNodeIds key default pairs inst with
    | .ok ids => ids.contains hn.id
    | .error _ => false
  | .leastUsageBy _ | .scatterBy => true

def candidates (rules : List Rule) (inst : Nat) : List HostNodeRow :=
  vdc.hostNodes.rows.filter fun hn => (.common :: rules).all fun r => r.passes d inst hn

def reorderAll (rules : List Rule) (inst : Nat) (ary : List HostNodeRow) :
    Except ScheduleError (List HostNodeRow) :=
  (.common :: rules).foldlM (fun ary r => r.reorder d vdc ary inst) ary

structure PicksFirst (rules : List Rule) (maxResults inst : Nat) : Prop where
  found : (∃ hn, d.pipedRules vdc rules maxResults inst = .ok hn) ↔
    ∃ hn ∈ (d.candidates vdc rules inst).take maxResults, d.checkCapacity vdc hn.id inst
  passes : ∀ hn, d.pipedRules vdc rules maxResults inst = .ok hn →
    hn ∈ vdc.hostNodes.rows ∧ (∀ r ∈ Rule.common :: rules, r.passes d inst hn) ∧
      d.checkCapacity vdc hn.id inst
  first : ∀ hn, d.pipedRules vdc rules maxResults inst = .ok hn →
    ∃ ary, d.reorderAll vdc rules inst ((d.candidates vdc rules inst).take maxResults) = .ok ary ∧
      ary.find? (fun hn => d.checkCapacity vdc hn.id inst) = some hn

variable {d vdc} {inst : Nat}

/-! ## The filters -/

def Rule.Known (d : Domain) (inst : Nat) : Rule → Prop
  | .requestParamToGroup key default pairs =>
    ∃ ids, d.getHostNodeIds key default pairs inst = .ok ids
  | _ => True

theorem filter_known {r : Rule} (h : r.Known d inst) (ds : List HostNodeRow) :
    r.filter d ds inst = .ok (ds.filter fun hn => r.passes d inst hn) := by
  cases r with
  | common => rfl
  | leastUsageBy => simp [Rule.filter, Rule.passes]
  | scatterBy => simp [Rule.filter, Rule.passes]
  | requestParamToGroup key default pairs =>
    obtain ⟨ids, hids⟩ := h
    simp only [Rule.filter, Rule.passes, hids]
    rfl

theorem filter_unknown {r : Rule} (h : ¬ r.Known d inst) (ds : List HostNodeRow) :
    (∃ e, r.filter d ds inst = .error e) ∧ ∀ hn, r.passes d inst hn = false := by
  cases r with
  | common => exact absurd trivial h
  | leastUsageBy => exact absurd trivial h
  | scatterBy => exact absurd trivial h
  | requestParamToGroup key default pairs =>
    cases hids : d.getHostNodeIds key default pairs inst with
    | ok ids => exact absurd ⟨ids, hids⟩ h
    | error e =>
      simp only [Rule.filter, Rule.passes, hids]
      exact ⟨⟨e, rfl⟩, fun _ => trivial⟩

theorem filters_known {rules : List Rule} (h : ∀ r ∈ rules, r.Known d inst) (ds : List HostNodeRow) :
    rules.foldlM (fun ds r => Rule.filter d ds inst r) ds =
      .ok (ds.filter fun hn => rules.all fun r => r.passes d inst hn) := by
  induction rules generalizing ds with
  | nil => simp [pure, Except.pure]
  | cons r rules ih =>
    rw [List.foldlM_cons, filter_known (h r (by simp))]
    simp only [bind, Except.bind]
    rw [ih fun r hr => h r (by simp [hr]), List.filter_filter]
    simp [Bool.and_comm]

theorem filters_unknown {rules : List Rule} (h : ¬ ∀ r ∈ rules, r.Known d inst)
    (ds : List HostNodeRow) :
    (∃ e, rules.foldlM (fun ds r => Rule.filter d ds inst r) ds = .error e) ∧
      ∀ hn, (rules.all fun r => r.passes d inst hn) = false := by
  induction rules generalizing ds with
  | nil => simp at h
  | cons r rules ih =>
    by_cases hr : r.Known d inst
    · have hrest : ¬ ∀ r ∈ rules, r.Known d inst := fun hall => h (by simpa [hr] using hall)
      obtain ⟨he, hpasses⟩ := ih hrest (ds.filter fun hn => r.passes d inst hn)
      rw [List.foldlM_cons, filter_known hr]
      exact ⟨he, fun hn => by simp [hpasses hn]⟩
    · obtain ⟨⟨e, he⟩, hpasses⟩ := filter_unknown hr ds
      rw [List.foldlM_cons, he]
      exact ⟨⟨e, rfl⟩, fun hn => by simp [hpasses hn]⟩

/-! ## The reorder pass -/

theorem reorder_mem {r : Rule} {ary : List HostNodeRow} (h : r.Known d inst)
    (hpasses : ∀ hn ∈ ary, r.passes d inst hn) (hroom : ∀ hn ∈ ary, d.checkCapacity vdc hn.id inst) :
    ∃ ary', r.reorder d vdc ary inst = .ok ary' ∧ ∀ hn, hn ∈ ary' ↔ hn ∈ ary := by
  cases r with
  | common =>
    refine ⟨_, rfl, fun hn => ?_⟩
    simp only [List.mem_filter, and_iff_left_iff_imp]
    exact hroom hn
  | leastUsageBy => exact ⟨_, rfl, fun hn => (d.sortBy.perm _ _).mem_iff⟩
  | scatterBy => exact ⟨_, rfl, fun hn => (d.sortBy.perm _ _).mem_iff⟩
  | requestParamToGroup key default pairs =>
    obtain ⟨ids, hids⟩ := h
    simp only [Rule.reorder, hids]
    refine ⟨_, rfl, fun hn => ?_⟩
    simp only [Rule.passes, hids] at hpasses
    simp only [List.mem_filter, and_iff_left_iff_imp]
    exact hpasses hn

theorem reorders_mem {rules : List Rule} {ary : List HostNodeRow} (h : ∀ r ∈ rules, r.Known d inst)
    (hpasses : ∀ hn ∈ ary, ∀ r ∈ rules, r.passes d inst hn)
    (hroom : ∀ hn ∈ ary, d.checkCapacity vdc hn.id inst) :
    ∃ ary', rules.foldlM (fun ary r => Rule.reorder d vdc ary inst r) ary = .ok ary' ∧
      ∀ hn, hn ∈ ary' ↔ hn ∈ ary := by
  induction rules generalizing ary with
  | nil => exact ⟨ary, rfl, fun _ => Iff.rfl⟩
  | cons r rules ih =>
    obtain ⟨ary₁, hr, hmem⟩ := reorder_mem (h r (by simp)) (fun hn hm => hpasses hn hm r (by simp)) hroom
    obtain ⟨ary', hrest, hmem'⟩ := ih (fun r hr => h r (by simp [hr]))
      (fun hn hm r hr => hpasses hn ((hmem hn).mp hm) r (by simp [hr]))
      fun hn hm => hroom hn ((hmem hn).mp hm)
    rw [List.foldlM_cons, hr]
    exact ⟨ary', hrest, fun hn => (hmem' hn).trans (hmem hn)⟩

/-- The common rule drops what has no room, the others keep the rest. -/
theorem reorderAll_mem (vdc : Vdc) {rules : List Rule} {ary : List HostNodeRow}
    (h : ∀ r ∈ rules, r.Known d inst) (hpasses : ∀ hn ∈ ary, ∀ r ∈ rules, r.passes d inst hn) :
    ∃ ary', d.reorderAll vdc rules inst ary = .ok ary' ∧
      ∀ hn, hn ∈ ary' ↔ hn ∈ ary ∧ d.checkCapacity vdc hn.id inst := by
  have hroom : ∀ hn ∈ ary.filter fun hn => d.checkCapacity vdc hn.id inst,
      d.checkCapacity vdc hn.id inst := fun hn hm => (List.mem_filter.mp hm).2
  obtain ⟨ary', hreorder, hmem⟩ := reorders_mem h
    (fun hn hm => hpasses hn (List.mem_filter.mp hm).1) hroom
  exact ⟨ary', hreorder, fun hn => (hmem hn).trans List.mem_filter⟩

/-! ## The pick -/

theorem pipedRules_known {rules : List Rule} (h : ∀ r ∈ rules, r.Known d inst) (maxResults : Nat) :
    d.pipedRules vdc rules maxResults inst =
      (d.reorderAll vdc rules inst ((d.candidates vdc rules inst).take maxResults)).bind
        firstHostNode := by
  have hknown : ∀ r ∈ Rule.common :: rules, r.Known d inst := by simpa [Rule.Known] using h
  unfold pipedRules
  simp only [filters_known hknown]
  rfl

theorem pipedRules_unknown (vdc : Vdc) {rules : List Rule} (h : ¬ ∀ r ∈ rules, r.Known d inst)
    (maxResults : Nat) :
    (∃ e, d.pipedRules vdc rules maxResults inst = .error e) ∧ d.candidates vdc rules inst = [] := by
  have hknown : ¬ ∀ r ∈ Rule.common :: rules, r.Known d inst := by simpa [Rule.Known] using h
  obtain ⟨⟨e, he⟩, hpasses⟩ := filters_unknown hknown vdc.hostNodes.rows
  unfold pipedRules candidates
  simp only [he, hpasses]
  exact ⟨⟨e, rfl⟩, by simp⟩

/-- Among the first `max_results` host nodes that pass all filters the scheduler finds one if any
of them has room, and takes the first of their list as the rules have put it in order. -/
theorem picks_first (d : Domain) (vdc : Vdc) (rules : List Rule) (maxResults inst : Nat) :
    PicksFirst d vdc rules maxResults inst := by
  by_cases h : ∀ r ∈ rules, r.Known d inst
  · have hcand : ∀ hn ∈ (d.candidates vdc rules inst).take maxResults,
        hn ∈ vdc.hostNodes.rows ∧ ∀ r ∈ Rule.common :: rules, r.passes d inst hn := by
      intro hn hm
      simpa [candidates] using List.mem_of_mem_take hm
    obtain ⟨ary, hreorder, hmem⟩ := reorderAll_mem vdc h
      fun hn hm r hr => (hcand hn hm).2 r (List.mem_cons_of_mem _ hr)
    have hpick : d.pipedRules vdc rules maxResults inst = firstHostNode ary := by
      rw [pipedRules_known h, hreorder]
      rfl
    refine ⟨?_, ?_, ?_⟩
    · rw [hpick]
      constructor
      · rintro ⟨hn, hok⟩
        exact ⟨hn, (hmem hn).mp (firstHostNode_mem hok)⟩
      · rintro ⟨hn, hm⟩
        cases hary : ary with
        | nil =>
          have := (hmem hn).mpr hm
          simp [hary] at this
        | cons hn' ary' => exact ⟨hn', rfl⟩
    · intro hn hok
      rw [hpick] at hok
      obtain ⟨hm, hroom⟩ := (hmem hn).mp (firstHostNode_mem hok)
      exact ⟨(hcand hn hm).1, (hcand hn hm).2, hroom⟩
    · intro hn hok
      rw [hpick] at hok
      refine ⟨ary, hreorder, ?_⟩
      cases ary with
      | nil => cases hok
      | cons hn' ary' =>
        cases hok
        simp [((hmem hn).mp (by simp)).2]
  · obtain ⟨⟨e, he⟩, hnone⟩ := pipedRules_unknown vdc h maxResults
    refine ⟨?_, ?_, ?_⟩
    · simp [he, hnone]
    · simp [he]
    · simp [he]

/-! ## The row limit -/

def secondOffers : Domain where
  spec _ := ⟨1, 1, 1, "x86_64", "kvm", "a-1", []⟩
  offer host := if host = 1 then ⟨0, 0, "x86_64", "kvm"⟩ else ⟨8, 8, "x86_64", "kvm"⟩
  group _ := none
  sortBy := default

def twoNodes : Vdc where
  instances := Table.empty.create (fun k => ⟨k, none, .scheduling, false, false, .localDev⟩)
    fun _ => rfl
  volumes := Table.empty
  hostNodes := (Table.empty.create (fun k => ⟨k, true, true, 0⟩) fun _ => rfl).create
    (fun k => ⟨k, true, true, 0⟩) fun _ => rfl

/-- With a limit of one row only the first host node is looked at. -/
theorem beyond_max_results :
    (∃ hn ∈ twoNodes.hostNodes.rows, (∀ r ∈ [Rule.common], r.passes secondOffers 1 hn) ∧
      secondOffers.checkCapacity twoNodes hn.id 1) ∧
      secondOffers.pipedRules twoNodes [] 1 1 = .error .hostNodeSchedulingError := by
  refine ⟨⟨⟨2, true, true, 0⟩, by decide, by decide, by decide⟩, by decide⟩

end Domain

end Scheduler

end WakameVdc
