import WakameVdc.InstanceStop
import WakameVdc.Lib.Run

/-!
# Cleaning up after an evacuation

The `cleanup` job of the host an instance was moved from, and what
`node_modules/event_hook.rb` does on the event it publishes, in any order with
the boot jobs of the host it was moved to.
-/

namespace WakameVdc

open Lib

namespace InstanceJob

open Scheduler (InstanceState VolumeState BootDev)

/-! ## Load balancers and alarms -/

structure Target where
  loadBalancer : Nat
  vif : Nat
  deleted : Bool
  deriving DecidableEq, Repr

/-- A resource label that names the security group a load balancer has with one
of its targets. -/
structure Label where
  loadBalancer : Nat
  vif : Nat
  group : Nat
  deriving DecidableEq, Repr

/-- `members` pairs security groups with vifs, `references` pairs referencers
with referencees; `leased` lists the vifs that have an ip lease row. -/
structure Registry where
  targets : List Target
  labels : List Label
  groups : List Nat
  members : List (Nat × Nat)
  references : List (Nat × Nat)
  globalVifs : List (Nat × Nat)
  leased : List Nat
  deriving DecidableEq, Repr

structure Alarm where
  resource : Nat
  isLogAlarm : Bool
  deleted : Bool
  deriving DecidableEq, Repr

namespace Registry

def globalVif (r : Registry) (lb : Nat) : Option Nat := r.globalVifs.lookup lb

/-- `SecurityGroup#destroy`; the hook of a group that is still used cancels it. -/
def destroyGroup (r : Registry) (group : Nat) : Registry × Bool :=
  if (r.members.any fun m => m.1 == group) || (r.references.any fun m => m.2 == group) then (r, false)
  else
    ({ r with
        groups := r.groups.filter fun g => g != group
        references := r.references.filter fun m => m.1 != group }, true)

def label (r : Registry) (lb vif : Nat) : Option Label :=
  r.labels.find? fun l => l.loadBalancer == lb && l.vif == vif

def unsetLabel (r : Registry) (lb group : Nat) : Registry :=
  { r with labels := r.labels.eraseP fun l => l.loadBalancer == lb && l.group == group }

/-- What it wrote before an exception stays; the flag says that there was none. -/
def removeInstanceSecurityGroup (r : Registry) (lb vif : Nat) : Registry × Bool :=
  match r.label lb vif with
  | none => (r, false)
  | some l =>
    if l.group ∉ r.groups then (r, false)
    else
      let r := r.unsetLabel lb l.group
      match r.globalVif lb with
      | none => (r, false)
      | some global =>
        if !r.members.contains (l.group, global) then (r, false)
        else { r with members := r.members.erase (l.group, global) }.destroyGroup l.group

def removeInstanceSecurityGroups (r : Registry) (lb : Nat) : List Nat → Registry × Bool
  | [] => (r, true)
  | vif :: vifs =>
    match r.removeInstanceSecurityGroup lb vif with
    | (r, true) => r.removeInstanceSecurityGroups lb vifs
    | (r, false) => (r, false)

def removeTargets (r : Registry) (lb : Nat) (vifs : List Nat) : Registry :=
  { r with
    targets := r.targets.map fun t =>
      if t.loadBalancer = lb ∧ t.vif ∈ vifs then { t with deleted := true } else t }

/-- `EventHook#unregister_instance`, which rescues every exception. -/
def unregisterInstance (r : Registry) (vifs : List Nat) (lb : Nat) : Registry :=
  match r.removeInstanceSecurityGroups lb vifs with
  | (r, true) => r.removeTargets lb vifs
  | (r, false) => r

/-- `get_reload_config` reads the first address of every target. -/
def configRaises (r : Registry) (lb : Nat) : Bool :=
  r.targets.any fun t => t.loadBalancer == lb && !t.deleted && !r.leased.contains t.vif

def getLoadBalancers (r : Registry) (vifs : List Nat) : List Nat :=
  ((r.targets.filter fun t => vifs.contains t.vif && !t.deleted).map Target.loadBalancer).dedup

/-- The load balancers of the event hook; an exception rolls everything back. -/
def updateLoadBalancers (r : Registry) (vifs : List Nat) : List Nat → Option Registry
  | [] => some r
  | lb :: lbs =>
    let r := r.unregisterInstance vifs lb
    if r.configRaises lb then none else r.updateLoadBalancers vifs lbs

end Registry

def deleteLogMonitorings (alarms : List Alarm) (instanceId : Nat) : List Alarm :=
  alarms.map fun a => if a.isLogAlarm ∧ a.resource = instanceId then { a with deleted := true } else a

/-- The uuids of `Instance#network_vif`, deleted ones among them. -/
def Db.networkVifs (db : Db) : List Nat :=
  (db.vifs.filter fun v => v.instanceId == db.inst.id).map VifRow.uuid

/-! ## The cleanup job and its event -/

inductive Progress
  | submitted
  | terminating (writes : List Write)
  | finished
  deriving DecidableEq, Repr

/-- `events` counts the `hva/instance_terminated` events that are not yet handled. -/
structure Moved where
  sys : Sys
  registry : Registry
  alarms : List Alarm
  cleanup : Progress
  events : Nat
  deriving DecidableEq, Repr

inductive Act
  | boot (j : Job)
  | cleanup
  | eventHook
  deriving DecidableEq, Repr

namespace Moved

/-- The next write of the job. It reads the instance once, when it starts. -/
def cleanupStep (deletes : Nat → Bool) (m : Moved) : Moved :=
  match m.cleanup with
  | .submitted =>
    if m.sys.db.inst.state = .terminated then { m with cleanup := .finished }
    else { m with cleanup := .terminating (terminateInstance deletes m.sys.db.volumesOf) }
  | .terminating (w :: ws) =>
    { m with sys := { m.sys with db := m.sys.db.write w }, cleanup := .terminating ws }
  | .terminating [] => { m with cleanup := .finished, events := m.events + 1 }
  | .finished => m

def eventHook (m : Moved) : Moved :=
  let vifs := m.sys.db.networkVifs
  match m.registry.updateLoadBalancers vifs (m.registry.getLoadBalancers vifs) with
  | none => m
  | some registry =>
    { m with registry, alarms := deleteLogMonitorings m.alarms m.sys.db.inst.id }

def step (deletes : Nat → Bool) (m : Moved) : Act → Moved
  | .boot j => { m with sys := m.sys.step j }
  | .cleanup => m.cleanupStep deletes
  | .eventHook => if m.events = 0 then m else { m with events := m.events - 1 }.eventHook

end Moved

/-- The states `evacuate_from` stored; the cleanup job is submitted. -/
structure Evacuated (m : Moved) : Prop where
  state : m.sys.db.inst.state = .pending ∨ m.sys.db.inst.state = .halted
  volumes : ∀ v ∈ m.sys.db.volumesOf, v.deleted = false →
    v.state = if v.isLocal then .pending else .available
  deleted : ∀ v ∈ m.sys.db.volumesOf, v.deleted = true → v.state = .deleted
  cleanup : m.cleanup = .submitted
  events : m.events = 0

/-- A step of the cleanup or of the event hook leaves all that is stored. -/
def Unchanged (deletes : Nat → Bool) (m : Moved) (a : Act) : Prop :=
  (∀ j, a ≠ .boot j) →
    (m.step deletes a).sys = m.sys ∧ (m.step deletes a).registry = m.registry ∧
      (m.step deletes a).alarms = m.alarms

def Harmless (m : Moved) : Prop :=
  ∀ (deletes : Nat → Bool) (acts : List Act), Each (Moved.step deletes) (Unchanged deletes) m acts

/-- The security group of the load balancer's label for the vif exists. -/
def Registry.Labelled (r : Registry) (lb vif : Nat) : Prop :=
  ∃ l, r.label lb vif = some l ∧ l.group ∈ r.groups

/-- No local volume to delete, no load balancer to leave, no alarm to destroy. -/
structure Quiet (m : Moved) : Prop where
  volumes : ∀ v ∈ m.sys.db.volumesOf, v.isLocal = false
  loadBalancers : ∀ lb ∈ m.registry.getLoadBalancers m.sys.db.networkVifs,
    ∀ vif ∈ m.sys.db.networkVifs.head?, ¬ m.registry.Labelled lb vif
  alarms : ∀ a ∈ m.alarms, a.isLogAlarm = true → a.resource = m.sys.db.inst.id → a.deleted = true

def Registry.Leased (r : Registry) : Prop := ∀ t ∈ r.targets, t.deleted = false → t.vif ∈ r.leased

/-! ## The event hook -/

namespace Registry

variable {r r' : Registry} {lb vif : Nat} {vifs lbs : List Nat}

theorem removeInstanceSecurityGroup_of_not_labelled (h : ¬ r.Labelled lb vif) :
    r.removeInstanceSecurityGroup lb vif = (r, false) := by
  unfold removeInstanceSecurityGroup
  cases hl : r.label lb vif with
  | none => rfl
  | some l => exact if_pos fun hg => h ⟨l, hl, hg⟩

theorem destroyGroup_labels (group : Nat) : (r.destroyGroup group).1.labels = r.labels := by
  unfold destroyGroup
  split <;> rfl

theorem label_mem {l : Label} (h : r.label lb vif = some l) :
    l ∈ r.labels ∧ l.loadBalancer = lb ∧ l.vif = vif := by
  have hp := List.find?_some h
  simp only [Bool.and_eq_true, beq_iff_eq] at hp
  exact ⟨List.mem_of_find?_eq_some h, hp.1, hp.2⟩

theorem length_unsetLabel {l : Label} (h : r.label lb vif = some l) :
    (r.unsetLabel lb l.group).labels.length < r.labels.length := by
  obtain ⟨hm, hlb, -⟩ := label_mem h
  have hlen := List.length_eraseP_of_mem (p := fun k => k.loadBalancer == lb && k.group == l.group)
    hm (by simp [hlb])
  have hpos := List.length_pos_of_mem hm
  simp only [unsetLabel, hlen]
  omega

theorem length_removeInstanceSecurityGroup_lt (h : r.Labelled lb vif) :
    (r.removeInstanceSecurityGroup lb vif).1.labels.length < r.labels.length := by
  obtain ⟨l, hl, hg⟩ := h
  have hlt := length_unsetLabel hl
  simp only [removeInstanceSecurityGroup, hl, hg, not_true_eq_false, if_false]
  split
  · exact hlt
  · split
    · exact hlt
    · rw [destroyGroup_labels]
      exact hlt

theorem length_removeInstanceSecurityGroup_le :
    (r.removeInstanceSecurityGroup lb vif).1.labels.length ≤ r.labels.length := by
  by_cases h : r.Labelled lb vif
  · exact (length_removeInstanceSecurityGroup_lt h).le
  · rw [removeInstanceSecurityGroup_of_not_labelled h]

theorem length_removeInstanceSecurityGroups_le :
    (r.removeInstanceSecurityGroups lb vifs).1.labels.length ≤ r.labels.length := by
  induction vifs generalizing r with
  | nil => exact le_rfl
  | cons v vs ih =>
    have hle : (r.removeInstanceSecurityGroup lb v).1.labels.length ≤ r.labels.length :=
      length_removeInstanceSecurityGroup_le
    unfold removeInstanceSecurityGroups
    split <;> rename_i hr <;> rw [hr] at hle
    · exact ih.trans hle
    · exact hle

theorem unregisterInstance_labels :
    (r.unregisterInstance vifs lb).labels = (r.removeInstanceSecurityGroups lb vifs).1.labels := by
  unfold unregisterInstance
  split <;> rename_i hr <;> rw [hr]
  rfl

theorem unregisterInstance_of_not_labelled (h : ¬ r.Labelled lb vif) :
    r.unregisterInstance (vif :: vifs) lb = r := by
  have hr : r.removeInstanceSecurityGroups lb (vif :: vifs) = (r, false) := by
    simp only [removeInstanceSecurityGroups, removeInstanceSecurityGroup_of_not_labelled h]
  simp only [unregisterInstance, hr]

theorem length_unregisterInstance_lt (h : r.Labelled lb vif) :
    (r.unregisterInstance (vif :: vifs) lb).labels.length < r.labels.length := by
  have hlt := length_removeInstanceSecurityGroup_lt h
  rw [unregisterInstance_labels]
  unfold removeInstanceSecurityGroups
  split <;> rename_i hr <;> rw [hr] at hlt
  · exact length_removeInstanceSecurityGroups_le.trans_lt hlt
  · exact hlt

theorem length_updateLoadBalancers_le (h : r.updateLoadBalancers vifs lbs = some r') :
    r'.labels.length ≤ r.labels.length := by
  induction lbs generalizing r with
  | nil => cases h; exact le_rfl
  | cons lb lbs ih =>
    simp only [updateLoadBalancers] at h
    split at h
    · cases h
    · refine (ih h).trans ?_
      rw [unregisterInstance_labels]
      exact length_removeInstanceSecurityGroups_le

/-- The first load balancer that has a label for the first vif loses it. -/
theorem length_updateLoadBalancers_lt (h : r.updateLoadBalancers (vif :: vifs) lbs = some r')
    (hl : ∃ lb ∈ lbs, r.Labelled lb vif) : r'.labels.length < r.labels.length := by
  induction lbs generalizing r with
  | nil => simp at hl
  | cons lb lbs ih =>
    simp only [updateLoadBalancers] at h
    split at h
    · cases h
    · by_cases hlb : r.Labelled lb vif
      · exact (length_updateLoadBalancers_le h).trans_lt (length_unregisterInstance_lt hlb)
      · rw [unregisterInstance_of_not_labelled hlb] at h
        refine ih h ?_
        obtain ⟨k, hk, hkl⟩ := hl
        rcases List.mem_cons.mp hk with rfl | hk
        · exact absurd hkl hlb
        · exact ⟨k, hk, hkl⟩

theorem updateLoadBalancers_of_not_labelled (h : ∀ lb ∈ lbs, ¬ r.Labelled lb vif)
    (hr : r.updateLoadBalancers (vif :: vifs) lbs = some r') : r' = r := by
  induction lbs with
  | nil => cases hr; rfl
  | cons lb lbs ih =>
    simp only [updateLoadBalancers, unregisterInstance_of_not_labelled (h lb (by simp))] at hr
    split at hr
    · cases hr
    · exact ih (fun k hk => h k (by simp [hk])) hr

theorem destroyGroup_targets (group : Nat) :
    (r.destroyGroup group).1.targets = r.targets ∧ (r.destroyGroup group).1.leased = r.leased := by
  unfold destroyGroup
  split <;> exact ⟨rfl, rfl⟩

theorem removeInstanceSecurityGroup_targets :
    (r.removeInstanceSecurityGroup lb vif).1.targets = r.targets ∧
      (r.removeInstanceSecurityGroup lb vif).1.leased = r.leased := by
  unfold removeInstanceSecurityGroup
  split
  · exact ⟨rfl, rfl⟩
  · split
    · exact ⟨rfl, rfl⟩
    · dsimp only
      split
      · exact ⟨rfl, rfl⟩
      · split
        · exact ⟨rfl, rfl⟩
        · exact destroyGroup_targets _

theorem removeInstanceSecurityGroups_targets :
    (r.removeInstanceSecurityGroups lb vifs).1.targets = r.targets ∧
      (r.removeInstanceSecurityGroups lb vifs).1.leased = r.leased := by
  induction vifs generalizing r with
  | nil => exact ⟨rfl, rfl⟩
  | cons v vs ih =>
    have h : (r.removeInstanceSecurityGroup lb v).1.targets = r.targets ∧
        (r.removeInstanceSecurityGroup lb v).1.leased = r.leased := removeInstanceSecurityGroup_targets
    unfold removeInstanceSecurityGroups
    split <;> rename_i hr <;> rw [hr] at h
    · exact ⟨ih.1.trans h.1, ih.2.trans h.2⟩
    · exact h

theorem Leased.unregisterInstance (h : r.Leased) : (r.unregisterInstance vifs lb).Leased := by
  have hs : (r.removeInstanceSecurityGroups lb vifs).1.targets = r.targets ∧
      (r.removeInstanceSecurityGroups lb vifs).1.leased = r.leased := removeInstanceSecurityGroups_targets
  unfold Registry.unregisterInstance
  split <;> rename_i hr <;> rw [hr] at hs <;> dsimp only at hs <;> intro t ht hd
  · simp only [removeTargets, hs.1, List.mem_map] at ht
    obtain ⟨u, hu, rfl⟩ := ht
    rw [removeTargets, hs.2]
    split at hd
    · cases hd
    · rename_i hne
      simpa [hne] using h u hu hd
  · rw [hs.1] at ht
    rw [hs.2]
    exact h t ht hd

theorem Leased.not_configRaises (h : r.Leased) : r.configRaises lb = false := by
  by_contra hne
  simp only [configRaises, Bool.not_eq_false, List.any_eq_true, Bool.and_eq_true,
    Bool.not_eq_true', List.contains_eq_mem, decide_eq_false_iff_not] at hne
  obtain ⟨t, ht, ⟨-, hd⟩, hn⟩ := hne
  exact hn (h t ht hd)

theorem Leased.updateLoadBalancers (h : r.Leased) :
    ∃ r', r.updateLoadBalancers vifs lbs = some r' := by
  induction lbs generalizing r with
  | nil => exact ⟨r, rfl⟩
  | cons lb lbs ih =>
    have hu : (r.unregisterInstance vifs lb).Leased := h.unregisterInstance
    simp only [Registry.updateLoadBalancers, hu.not_configRaises]
    exact ih hu

end Registry

end InstanceJob

end WakameVdc
