import WakameVdc.Lib.Proc
import WakameVdc.HostNodeScheduler
import WakameVdc.EvacuateRun

/-!
# Hosts have room for their instances

A scheduler only picks a host that has room for the instance, and no other step
puts an instance on a host, so in every state reached the alive instances of a
host fit into what it offers.
-/

namespace WakameVdc

open Lib

namespace Scheduler

namespace Domain

variable {d : Domain} {vdc : Vdc}

/-! ## What the steps do to the usage of a host -/

def usage (f : Nat → Nat) (host : Nat) (rows : List InstanceRow) : Nat :=
  ((rows.filter fun i => i.hostNodeId == some host && !i.terminated).map fun i => f i.id).sum

theorem instancesUsage_eq (column : Spec → Nat) (host : Nat) :
    d.instancesUsage vdc column host = usage (fun i => column (d.spec i)) host vdc.instances.rows := rfl

variable {f : Nat → Nat} {host : Nat} {rows : List InstanceRow}

theorem usage_cons (r : InstanceRow) :
    usage f host (r :: rows) =
      (if r.hostNodeId = some host ∧ r.terminated = false then f r.id else 0) + usage f host rows := by
  by_cases h : r.hostNodeId = some host ∧ r.terminated = false
  · simp [usage, h]
  · rw [if_neg h]
    simp only [usage]
    rw [List.filter_cons_of_neg (by simpa using h), Nat.zero_add]

theorem usage_map_le {g : InstanceRow → InstanceRow}
    (hg : ∀ r, (g r).id = r.id ∧ ((g r).hostNodeId = some host → (g r).terminated = false →
      r.hostNodeId = some host ∧ r.terminated = false)) :
    usage f host (rows.map g) ≤ usage f host rows := by
  induction rows with
  | nil => exact le_rfl
  | cons r rs ih =>
    rw [List.map_cons, usage_cons, usage_cons, (hg r).1]
    refine Nat.add_le_add ?_ ih
    by_cases h : (g r).hostNodeId = some host ∧ (g r).terminated = false
    · rw [if_pos h, if_pos ((hg r).2 h.1 h.2)]
    · rw [if_neg h]
      exact Nat.zero_le _

theorem usage_append (rows' : List InstanceRow) :
    usage f host (rows ++ rows') = usage f host rows + usage f host rows' := by
  simp [usage]

/-- An instance that is put on a host adds to that host at most what it has. -/
theorem usage_assign_le (hnd : (rows.map InstanceRow.id).Nodup) (i k : Nat) :
    usage f host (rows.map fun r => if r.id = i then { r with hostNodeId := some k } else r) ≤
      usage f host rows + if host = k then f i else 0 := by
  induction rows with
  | nil => exact Nat.zero_le _
  | cons r rs ih =>
    rw [List.map_cons, List.nodup_cons] at hnd
    rw [List.map_cons, usage_cons, usage_cons]
    by_cases hr : r.id = i
    · rw [map_modify_of_not_mem _ (hr ▸ hnd.1), if_pos hr]
      by_cases hk : host = k
      · simp only [hk, hr, if_true]
        split <;> split <;> omega
      · have hne : ¬(some k = some host ∧ r.terminated = false) := fun h => hk (by simpa using h.1.symm)
        rw [if_neg hne]
        omega
    · rw [if_neg hr]
      have := ih hnd.2
      omega

/-- The alive instances of every host fit into what it offers. -/
def WithinOffer (d : Domain) (vdc : Vdc) : Prop :=
  ∀ h ∈ vdc.hostNodes.rows.map HostNodeRow.id,
    d.instancesUsage vdc Spec.cpuCores h ≤ (d.offer h).cpuCores ∧
      d.instancesUsage vdc Spec.memorySize h ≤ (d.offer h).memorySize

structure Lighter (vdc vdc' : Vdc) : Prop where
  hosts : vdc'.hostNodes.rows.map HostNodeRow.id = vdc.hostNodes.rows.map HostNodeRow.id
  usage : ∀ f h, usage f h vdc'.instances.rows ≤ usage f h vdc.instances.rows

theorem Lighter.refl (vdc : Vdc) : Lighter vdc vdc := ⟨rfl, fun _ _ => le_rfl⟩

theorem Lighter.trans {vdc' vdc'' : Vdc} (h : Lighter vdc vdc') (h' : Lighter vdc' vdc'') :
    Lighter vdc vdc'' :=
  ⟨h'.hosts.trans h.hosts, fun f k => (h'.usage f k).trans (h.usage f k)⟩

theorem Lighter.withinOffer {vdc' : Vdc} (h : Lighter vdc vdc') (hw : WithinOffer d vdc) :
    WithinOffer d vdc' := by
  intro k hk
  rw [h.hosts] at hk
  simp only [instancesUsage_eq]
  exact ⟨(h.usage _ k).trans (hw k hk).1, (h.usage _ k).trans (hw k hk).2⟩

theorem lighter_modify (i : Nat) {g : InstanceRow → InstanceRow} (hid : ∀ r, (g r).id = r.id)
    (hg : ∀ r h, (g r).hostNodeId = some h → (g r).terminated = false →
      r.hostNodeId = some h ∧ r.terminated = false) :
    Lighter vdc { vdc with instances := vdc.instances.modify i g hid } where
  hosts := rfl
  usage := fun f k => usage_map_le fun r => by
    by_cases hr : Row.pk r = i
    · rw [if_pos hr]
      exact ⟨hid r, hg r k⟩
    · rw [if_neg hr]
      exact ⟨rfl, fun h h' => ⟨h, h'⟩⟩

theorem lighter_setInstanceState (i : Nat) (state : InstanceState) :
    Lighter vdc (vdc.setInstanceState i state) :=
  lighter_modify (g := fun r => { r with state }) i (fun _ => rfl) fun _ _ h h' => ⟨h, h'⟩

theorem lighter_terminate (i : Nat) : Lighter vdc (vdc.terminate i) :=
  lighter_modify (g := fun r => { r with state := .terminated, terminated := true }) i (fun _ => rfl)
    fun _ _ _ h' => by cases h'

theorem lighter_stop (i : Nat) : Lighter vdc (vdc.stop i) :=
  lighter_modify (g := fun r => { r with state := .stopped, hostNodeId := none }) i (fun _ => rfl)
    fun _ _ h _ => by cases h

theorem lighter_setSchedulingEnabled (h : Nat) (enabled : Bool) :
    Lighter vdc (vdc.setSchedulingEnabled h enabled) where
  hosts := by
    simp only [Vdc.setSchedulingEnabled, Table.modify, Table.update, List.map_map]
    refine List.map_congr_left fun r _ => ?_
    by_cases hr : Row.pk r = h <;> simp [hr]
  usage := fun _ _ => le_rfl

theorem lighter_setTargets (vols : List VolumeRow) : Lighter vdc (setTargets vdc vols) := by
  obtain ⟨hi, hh⟩ := setTargets_frame vdc vols
  exact ⟨by rw [hh], fun f k => by rw [hi]⟩

theorem withinOffer_setInstanceHost {i k : Nat} (hw : WithinOffer d vdc)
    (hc : d.checkCapacity vdc k i = true) : WithinOffer d (vdc.setInstanceHost i k) := by
  simp only [checkCapacity, Bool.and_eq_true, decide_eq_true_eq] at hc
  simp only [instancesUsage_eq] at hc
  intro h hh
  have hh' : h ∈ vdc.hostNodes.rows.map HostNodeRow.id := hh
  have hin := hw h hh'
  simp only [instancesUsage_eq] at hin ⊢
  have hassign : ∀ f : Nat → Nat, usage f h (vdc.instances.rows.map fun r =>
        if r.id = i then { r with hostNodeId := some k } else r) ≤
      usage f h vdc.instances.rows + if h = k then f i else 0 := fun f =>
    usage_assign_le vdc.instances.nodup_pk i k
  have hcpu := hassign fun i => (d.spec i).cpuCores
  have hmem := hassign fun i => (d.spec i).memorySize
  by_cases hk : h = k
  · subst hk
    rw [if_pos rfl] at hcpu hmem
    exact ⟨hcpu.trans hc.1, hmem.trans hc.2⟩
  · rw [if_neg hk] at hcpu hmem
    exact ⟨hcpu.trans hin.1, hmem.trans hin.2⟩

/-! ## What the schedulers pick -/

/-- A scheduler picks a host with room, and raises where there is none. -/
structure RoomChecked (d : Domain) (vdc : Vdc) (i : Nat) (answer : Except ScheduleError HostNodeRow) :
    Prop where
  picks : ∀ hn, answer = .ok hn → hn ∈ vdc.onlineNodes ∧ d.checkCapacity vdc hn.id i = true
  raises : (∀ hn ∈ vdc.onlineNodes, d.checkCapacity vdc hn.id i = false) →
    answer = .error .hostNodeSchedulingError

/-- The only exception is `HostNodeSchedulingError`, so what is picked decides. -/
theorem roomChecked_of_picks {i : Nat} {answer : Except ScheduleError HostNodeRow}
    (hp : ∀ hn, answer = .ok hn → hn ∈ vdc.onlineNodes ∧ d.checkCapacity vdc hn.id i = true)
    (he : ∀ e, answer = .error e → e = .hostNodeSchedulingError) : RoomChecked d vdc i answer where
  picks := hp
  raises := fun hno => by
    cases ha : answer with
    | error e => rw [he e ha]
    | ok hn =>
      obtain ⟨hm, hc⟩ := hp hn ha
      rw [hno hn hm] at hc
      cases hc

theorem firstHostNode_mem {hns : List HostNodeRow} {hn : HostNodeRow}
    (h : firstHostNode hns = .ok hn) : hn ∈ hns := by
  cases hns with
  | nil => cases h
  | cons hn' hns =>
    cases h
    exact List.mem_cons_self

theorem firstHostNode_error {hns : List HostNodeRow} {e : ScheduleError}
    (h : firstHostNode hns = .error e) : e = .hostNodeSchedulingError := by
  cases hns with
  | nil => cases h; rfl
  | cons hn' hns => cases h

theorem checkCapacity_iff (host i : Nat) :
    d.checkCapacity vdc host i = true ↔
      d.availableCpuCores vdc host ≥ (d.spec i).cpuCores ∧
        d.availableMemorySize vdc host ≥ (d.spec i).memorySize := by
  simp only [checkCapacity, availableCpuCores, availableMemorySize, Bool.and_eq_true,
    decide_eq_true_eq]
  omega

theorem mem_hostNodesInPriorityOrder {sortPriority : SortPriority} {i : Nat} {ary : List HostNodeRow}
    (h : d.hostNodesInPriorityOrder vdc sortPriority i = .ok ary) :
    ∀ hn ∈ ary, hn ∈ vdc.onlineNodes := by
  unfold hostNodesInPriorityOrder at h
  dsimp only at h
  split at h
  · cases h
  · rename_i hl
    cases h
    intro hn hm
    rw [← hl, List.mem_reverse, (d.sortBy.perm _ _).mem_iff] at hm
    exact List.mem_of_mem_filter hm

theorem roomChecked_leastUsage (sortPriority : SortPriority) (i : Nat) :
    RoomChecked d vdc i (d.leastUsage vdc sortPriority i) := by
  unfold leastUsage
  cases ho : d.hostNodesInPriorityOrder vdc sortPriority i with
  | error e =>
    refine roomChecked_of_picks (fun hn h => by cases h) fun e' h => ?_
    cases h
    unfold hostNodesInPriorityOrder at ho
    dsimp only at ho
    split at ho
    · cases ho
      rfl
    · cases ho
  | ok ary =>
    dsimp only [bind, Except.bind]
    refine roomChecked_of_picks (fun hn h => ?_) fun e h => firstHostNode_error h
    obtain ⟨hm, hroom⟩ := List.mem_filter.mp (firstHostNode_mem h)
    refine ⟨mem_hostNodesInPriorityOrder ho hn hm, (checkCapacity_iff _ _).mpr ?_⟩
    simpa using hroom

/-- A pass that drops host nodes or orders them anew. -/
structure Narrows (g : List HostNodeRow → Rule → Except ScheduleError (List HostNodeRow)) : Prop where
  subset : ∀ {hns r hns'}, g hns r = .ok hns' → hns' ⊆ hns
  raises : ∀ {hns r e}, g hns r = .error e → e = .hostNodeSchedulingError

theorem Narrows.foldlM {g : List HostNodeRow → Rule → Except ScheduleError (List HostNodeRow)}
    (hg : Narrows g) (rules : List Rule) :
    Narrows fun hns (_ : Rule) => rules.foldlM g hns where
  subset := by
    intro hns _ hns' h
    exact foldlM_invariant (fun kept => kept ⊆ hns)
      (fun _ _ _ hkept hstep => List.Subset.trans (hg.subset hstep) hkept) h (List.Subset.refl _)
  raises := by
    induction rules with
    | nil =>
      intro hns _ e h
      cases h
    | cons r rs ih =>
      intro hns x e h
      rw [List.foldlM_cons] at h
      cases hr : g hns r with
      | error e' =>
        rw [hr] at h
        cases h
        exact hg.raises hr
      | ok hns₁ =>
        rw [hr] at h
        exact ih (r := x) h

theorem getHostNodeIds_error {key : String} {default : Option String} {pairs : List (String × String)}
    {i : Nat} {e : ScheduleError} (h : d.getHostNodeIds key default pairs i = .error e) :
    e = .hostNodeSchedulingError := by
  unfold getHostNodeIds at h
  split at h
  · cases h
    rfl
  · dsimp only at h
    split at h
    · cases h
      rfl
    · cases h

theorem narrows_filter (i : Nat) : Narrows fun ds r => Rule.filter d ds i r where
  subset := by
    intro ds r ds' h
    cases r with
    | common =>
      cases h
      exact List.filter_subset_self _
    | leastUsageBy key => cases h; exact List.Subset.refl _
    | scatterBy => cases h; exact List.Subset.refl _
    | requestParamToGroup key default pairs =>
      simp only [Rule.filter, bind, Except.bind] at h
      split at h
      · cases h
      · cases h
        exact List.filter_subset_self _
  raises := by
    intro ds r e h
    cases r with
    | common | leastUsageBy | scatterBy => cases h
    | requestParamToGroup key default pairs =>
      simp only [Rule.filter, bind, Except.bind] at h
      split at h
      · rename_i hids
        cases h
        exact getHostNodeIds_error hids
      · cases h

theorem narrows_reorder (i : Nat) : Narrows fun ary r => Rule.reorder d vdc ary i r where
  subset := by
    intro ary r ary' h
    cases r with
    | common =>
      cases h
      exact List.filter_subset_self _
    | leastUsageBy key => cases h; exact (d.sortBy.perm _ _).subset
    | scatterBy => cases h; exact (d.sortBy.perm _ _).subset
    | requestParamToGroup key default pairs =>
      simp only [Rule.reorder, bind, Except.bind] at h
      split at h
      · cases h
      · cases h
        exact List.filter_subset_self _
  raises := by
    intro ary r e h
    cases r with
    | common | leastUsageBy | scatterBy => cases h
    | requestParamToGroup key default pairs =>
      simp only [Rule.reorder, bind, Except.bind] at h
      split at h
      · rename_i hids
        cases h
        exact getHostNodeIds_error hids
      · cases h

theorem pipedRules_eq (rules : List Rule) (maxResults i : Nat) :
    d.pipedRules vdc rules maxResults i = (do
      let ds ← rules.foldlM (fun ds r => Rule.filter d ds i r) (vdc.hostNodes.rows.filter fun hn =>
        hn.online && hn.schedulingEnabled && (d.offer hn.id).hypervisor == (d.spec i).hypervisor)
      let ary ← rules.foldlM (fun ary r => Rule.reorder d vdc ary i r)
        ((ds.take maxResults).filter fun hn => d.checkCapacity vdc hn.id i)
      firstHostNode ary) := rfl

theorem roomChecked_pipedRules (rules : List Rule) (maxResults i : Nat) :
    RoomChecked d vdc i (d.pipedRules vdc rules maxResults i) := by
  have hfilter := (narrows_filter (d := d) i).foldlM rules
  have hnarrow : Narrows fun ary r => Rule.reorder d vdc ary i r := narrows_reorder i
  have hreorder := hnarrow.foldlM rules
  rw [pipedRules_eq]
  cases hf : rules.foldlM (fun ds r => Rule.filter d ds i r) (vdc.hostNodes.rows.filter fun hn =>
      hn.online && hn.schedulingEnabled && (d.offer hn.id).hypervisor == (d.spec i).hypervisor) with
  | error e =>
    refine roomChecked_of_picks (fun hn h => by cases h) fun e' h => ?_
    cases h
    exact hfilter.raises (r := .common) hf
  | ok ds =>
    have hds := hfilter.subset (r := .common) hf
    dsimp only [bind, Except.bind]
    cases hr : rules.foldlM (fun ary r => Rule.reorder d vdc ary i r)
        ((ds.take maxResults).filter fun hn => d.checkCapacity vdc hn.id i) with
    | error e =>
      refine roomChecked_of_picks (fun hn h => by cases h) fun e' h => ?_
      cases h
      exact hreorder.raises (r := .common) hr
    | ok ary =>
      have hary := hreorder.subset (r := .common) hr
      refine roomChecked_of_picks (fun hn h => ?_) fun e' h => firstHostNode_error h
      obtain ⟨hm, hc⟩ := List.mem_filter.mp (hary (firstHostNode_mem h))
      obtain ⟨hrow, hon⟩ := List.mem_filter.mp (hds (List.mem_of_mem_take hm))
      simp only [Bool.and_eq_true] at hon
      exact ⟨List.mem_filter.mpr ⟨hrow, by simpa using hon.1⟩, hc⟩

theorem roomChecked_schedule (by_ : HostNodeScheduler) (i : Nat) :
    RoomChecked d vdc i (by_.schedule d vdc i) := by
  cases by_ with
  | leastUsage sortPriority => exact roomChecked_leastUsage sortPriority i
  | pipedRules rules maxResults => exact roomChecked_pipedRules rules maxResults i

/-! ## Steps and runs -/

theorem withinOffer_assign (hw : WithinOffer d vdc) (by_ : HostNodeScheduler) (i : Nat)
    (completes : Bool) : WithinOffer d (d.assign vdc by_ i completes) := by
  unfold assign
  split
  · exact (lighter_terminate i).withinOffer hw
  · rename_i hn hs
    split
    · exact (lighter_setInstanceState i _).withinOffer
        (withinOffer_setInstanceHost hw ((roomChecked_schedule by_ i).picks hn hs).2)
    · exact (lighter_terminate i).withinOffer hw

theorem withinOffer_turn {rules : List Rule} {maxResults : Nat}
    {volumeValid : Vdc → Scheduler.VolumeRow → Bool} {p p' : Progress} {inst : InstanceRow}
    (hw : WithinOffer d p.vdc) (h : turn (d.haEnv rules maxResults volumeValid) p inst = .ok p') :
    WithinOffer d p'.vdc := by
  cases turn_step h with
  | skipped _ => exact (lighter_setInstanceState _ _).withinOffer hw
  | refused _ _ => exact hw
  | full host vdc _ hs hvdc _ =>
    have hroom := ((roomChecked_pipedRules rules maxResults inst.id).picks host hs).2
    rw [hvdc]
    exact (lighter_setTargets _).withinOffer (withinOffer_setInstanceHost hw hroom)
  | moved host vdc jobs _ hs hvdc _ _ _ =>
    have hroom := ((roomChecked_pipedRules rules maxResults inst.id).picks host hs).2
    rw [hvdc]
    exact ((lighter_setTargets _).trans (lighter_setInstanceState _ _)).withinOffer
      (withinOffer_setInstanceHost hw hroom)

theorem withinOffer_loop {rules : List Rule} {maxResults : Nat}
    {volumeValid : Vdc → Scheduler.VolumeRow → Bool} {insts : List InstanceRow} {p q : Progress}
    (hw : WithinOffer d p.vdc)
    (h : insts.foldlM (turn (d.haEnv rules maxResults volumeValid)) p = .ok q) :
    WithinOffer d q.vdc := by
  induction insts generalizing p with
  | nil => cases h; exact hw
  | cons inst insts ih =>
    obtain ⟨p', ht, hl⟩ := loop_cons h
    exact ih (withinOffer_turn hw ht) hl

theorem withinOffer_evacuateFrom {rules : List Rule} {maxResults : Nat}
    {volumeValid : Vdc → Scheduler.VolumeRow → Bool} {src : Nat} {keep : Bool} {q : Progress}
    (hw : WithinOffer d vdc)
    (h : evacuateFrom (d.haEnv rules maxResults volumeValid) vdc src keep = .ok q) :
    WithinOffer d q.vdc := by
  unfold evacuateFrom at h
  split at h
  · cases h
  · rename_i row hrow
    have hb : WithinOffer d (begin vdc row.id).vdc :=
      (lighter_setSchedulingEnabled row.id false).withinOffer hw
    dsimp only [bind, Except.bind] at h
    split at h
    · cases h
    · rename_i p hl
      have hp := withinOffer_loop hb hl
      cases keep with
      | true => cases h; exact hp
      | false => cases h; exact (lighter_setSchedulingEnabled row.id true).withinOffer hp

theorem withinOffer_step (hw : WithinOffer d vdc) (a : Act) : WithinOffer d (d.step vdc a) := by
  cases a with
  | create haEnabled bootDevType =>
    have hl : Lighter vdc (d.step vdc (.create haEnabled bootDevType)) := by
      refine ⟨rfl, fun f h => ?_⟩
      simp only [step, Table.create, usage_append]
      simp [usage]
    exact hl.withinOffer hw
  | scheduleInstance by_ i completes =>
    simp only [step]
    split
    · exact hw
    · split
      · exact withinOffer_assign hw by_ i completes
      · split
        · exact (lighter_setInstanceState i _).withinOffer hw
        · exact (lighter_terminate i).withinOffer hw
  | scheduleStartInstance by_ i completes => exact withinOffer_assign hw by_ i completes
  | terminate i => exact (lighter_terminate i).withinOffer hw
  | stop i => exact (lighter_stop i).withinOffer hw
  | evacuate rules maxResults volumeValid src keep =>
    simp only [step]
    split
    · rename_i p hp
      exact withinOffer_evacuateFrom hw hp
    · exact hw

/-- A domain without instances. -/
def initial (hosts : Table HostNodeRow) (volumes : Table VolumeRow) : Vdc :=
  ⟨.empty, volumes, hosts⟩

theorem withinOffer_initial (hosts : Table HostNodeRow) (volumes : Table VolumeRow) :
    WithinOffer d (initial hosts volumes) :=
  fun _ _ => ⟨Nat.zero_le _, Nat.zero_le _⟩

/-- In every state reached the hosts have room for their instances, and there a
scheduler picks a host with room or raises. -/
theorem capacity_kept (d : Domain) (hosts : Table HostNodeRow) (volumes : Table VolumeRow)
    (acts : List Act) :
    WithinOffer d (acts.foldl d.step (initial hosts volumes)) ∧
      ∀ (by_ : HostNodeScheduler) (i : Nat),
        RoomChecked d (acts.foldl d.step (initial hosts volumes)) i
          (by_.schedule d (acts.foldl d.step (initial hosts volumes)) i) :=
  ⟨invariant (WithinOffer d) (fun _ a hw => withinOffer_step hw a) acts
    (withinOffer_initial hosts volumes), fun by_ i => roomChecked_schedule by_ i⟩

end Domain

end Scheduler

end WakameVdc
