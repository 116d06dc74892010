import WakameVdc.ScheduleInstance

/-!
# After a failed scheduling

The clean-up of an instance that could not be scheduled is complete exactly if
nothing refuses to be destroyed: no backup of its volumes in progress, no volume
that is taken for attached, and, for a load balancer, no security group that is
still used.
-/

namespace WakameVdc

open Lib

namespace ScheduleInstance

open Scheduler (InstanceState VolumeState BootDev)

/-! ## Cuts of a list -/

section
variable {α : Type} {P : List α → α → Prop}

theorem forall_cut_cons {a : α} {l : List α} :
    (∀ pre x post, a :: l = pre ++ x :: post → P pre x) ↔
      P [] a ∧ ∀ pre x post, l = pre ++ x :: post → P (a :: pre) x := by
  constructor
  · intro h
    constructor
    · exact h [] a l rfl
    · intro pre x post he
      exact h (a :: pre) x post (by rw [he, List.cons_append])
  · rintro ⟨h0, h⟩ pre x post he
    cases pre with
    | nil =>
      cases he
      exact h0
    | cons b pre =>
      cases he
      exact h pre x post rfl

theorem forall_cut_append {l m : List α} :
    (∀ pre x post, l ++ m = pre ++ x :: post → P pre x) ↔
      (∀ pre x post, l = pre ++ x :: post → P pre x) ∧
        ∀ pre x post, m = pre ++ x :: post → P (l ++ pre) x := by
  induction l generalizing P with
  | nil => simp
  | cons a l ih =>
    rw [List.cons_append, forall_cut_cons, forall_cut_cons, ih, and_assoc]
    rfl

end

/-! ## The groups of a load balancer -/

namespace Groups

variable {s t : Groups}

/-- The groups of the vifs are used by these vifs and by no other, by each of them
alone, and a rule of another group names one only if that group goes before. -/
structure Free (s : Groups) (vifs : List Nat) : Prop where
  nodup : (vifs.flatMap s.groupsOf).Nodup
  members : ∀ g ∈ vifs.flatMap s.groupsOf, ∀ m ∈ s.members, m.2 = g → m.1 ∈ vifs
  references : ∀ pre g post, vifs.flatMap s.groupsOf = pre ++ g :: post →
    ∀ r ∈ s.references, r.2 = g → r.1 ∈ pre

theorem mem_groupsOf {vif g : Nat} :
    g ∈ s.groupsOf vif ↔ (vif, g) ∈ s.members ∧ g ∈ s.groups := by
  simp [groupsOf]

/-- The groups `gs` are gone, with what they reference. -/
def without (s : Groups) (gs : List Nat) : Groups :=
  { s with
    groups := s.groups.filter fun h => !gs.contains h
    references := s.references.filter fun r => !gs.contains r.1 }

theorem without_nil (s : Groups) : s.without [] = s := by simp [without]

theorem without_cons (s : Groups) (g : Nat) (gs : List Nat) :
    (s.without [g]).without gs = s.without (g :: gs) := by
  simp only [without, List.filter_filter]
  congr 1
  · apply List.filter_congr
    intro x _
    simp [Bool.and_comm]
  · apply List.filter_congr
    intro r _
    simp [Bool.and_comm]

theorem destroyGroup_iff {g : Nat} :
    s.destroyGroup g = .ok t ↔
      (∀ m ∈ s.members, m.2 ≠ g) ∧ (∀ r ∈ s.references, r.2 ≠ g) ∧ g ∈ s.groups ∧
        t = s.without [g] := by
  have hw : s.without [g] = { s with
      groups := s.groups.filter fun h => h != g
      references := s.references.filter fun r => r.1 != g } := by
    simp only [without, List.contains_cons, List.contains_nil, Bool.or_false, bne]
  rw [hw]
  unfold destroyGroup
  by_cases hm : (s.members.any fun m => m.2 == g) = true
  · rw [if_pos hm]
    simp only [reduceCtorEq, false_iff]
    rintro ⟨hno, -⟩
    obtain ⟨m, hmem, he⟩ := List.any_eq_true.mp hm
    exact hno m hmem (eq_of_beq he)
  · by_cases hr : (s.references.any fun r => r.2 == g) = true
    · rw [if_neg hm, if_pos hr]
      simp only [reduceCtorEq, false_iff]
      rintro ⟨-, hno, -⟩
      obtain ⟨r, hmem, he⟩ := List.any_eq_true.mp hr
      exact hno r hmem (eq_of_beq he)
    · have hm' : ∀ m ∈ s.members, m.2 ≠ g := fun m hmem he =>
        hm (List.any_eq_true.mpr ⟨m, hmem, beq_iff_eq.mpr he⟩)
      have hr' : ∀ r ∈ s.references, r.2 ≠ g := fun r hmem he =>
        hr (List.any_eq_true.mpr ⟨r, hmem, beq_iff_eq.mpr he⟩)
      rw [if_neg hm, if_neg hr]
      by_cases hg : g ∈ s.groups
      · simp only [List.contains_eq_mem, hg, decide_true, Bool.not_true, Bool.false_eq_true,
          if_false, Except.ok.injEq, true_and]
        exact ⟨fun h => ⟨hm', hr', h.symm⟩, fun h => h.2.2.symm⟩
      · simp [hg]

theorem destroyGroups_iff {gs : List Nat} :
    gs.foldlM destroyGroup s = .ok t ↔
      gs.Nodup ∧ (∀ g ∈ gs, g ∈ s.groups ∧ ∀ m ∈ s.members, m.2 ≠ g) ∧
        (∀ pre g post, gs = pre ++ g :: post → ∀ r ∈ s.references, r.2 = g → r.1 ∈ pre) ∧
        t = s.without gs := by
  induction gs generalizing s with
  | nil =>
    rw [without_nil, List.foldlM_nil]
    constructor
    · intro h
      cases h
      simp
    · intro h
      rw [h.2.2.2]
      rfl
  | cons g gs ih =>
    rw [List.foldlM_cons, forall_cut_cons]
    constructor
    · intro h
      obtain ⟨u, hu, ht⟩ := bind_ok h
      obtain ⟨hm, hr, hg, rfl⟩ := destroyGroup_iff.mp hu
      obtain ⟨hnodup, hall, hcut, rfl⟩ := ih.mp ht
      have hnot : g ∉ gs := fun hin => by simpa using (List.mem_filter.mp (hall g hin).1).2
      refine ⟨List.nodup_cons.mpr ⟨hnot, hnodup⟩, ?_, ⟨?_, ?_⟩, without_cons s g gs⟩
      · intro x hx
        rcases List.mem_cons.mp hx with rfl | hx
        · exact ⟨hg, hm⟩
        · exact ⟨List.mem_of_mem_filter (hall x hx).1, (hall x hx).2⟩
      · intro r hrmem he
        exact absurd he (hr r hrmem)
      · intro pre x post he r hrmem hrx
        by_cases hrg : r.1 = g
        · rw [hrg]
          exact List.mem_cons_self
        · exact List.mem_cons_of_mem _
            (hcut pre x post he r (List.mem_filter.mpr ⟨hrmem, by simpa using hrg⟩) hrx)
    · rintro ⟨hnodup, hall, ⟨hfirst, hcut⟩, rfl⟩
      obtain ⟨hnot, hnodup⟩ := List.nodup_cons.mp hnodup
      obtain ⟨hg, hm⟩ := hall g List.mem_cons_self
      have hr : ∀ r ∈ s.references, r.2 ≠ g := fun r hrmem he => by
        simpa using hfirst r hrmem he
      rw [destroyGroup_iff.mpr ⟨hm, hr, hg, rfl⟩]
      refine (ih.mpr ⟨hnodup, ?_, ?_, (without_cons s g gs).symm⟩ : _)
      · intro x hx
        obtain ⟨hxg, hxm⟩ := hall x (List.mem_cons_of_mem _ hx)
        refine ⟨List.mem_filter.mpr ⟨hxg, ?_⟩, hxm⟩
        have : x ≠ g := fun he => hnot (he ▸ hx)
        simpa using this
      · intro pre x post he r hrmem hrx
        obtain ⟨hrmem, hrg⟩ := List.mem_filter.mp hrmem
        have hne : r.1 ≠ g := by simpa using hrg
        rcases List.mem_cons.mp (hcut pre x post he r hrmem hrx) with h | h
        · exact absurd h hne
        · exact h

theorem groupsOf_without {gs : List Nat} {v w : Nat} (hvw : w ≠ v) (hno : ∀ g ∈ gs, g ∉ s.groupsOf w) :
    ((s.removeAllSecurityGroups v).without gs).groupsOf w = s.groupsOf w := by
  unfold groupsOf
  have hm : ((s.removeAllSecurityGroups v).without gs).members.filter (fun m => m.1 == w) =
      s.members.filter fun m => m.1 == w := by
    show (s.members.filter _).filter _ = _
    rw [List.filter_filter]
    apply List.filter_congr
    intro m _
    by_cases hmw : m.1 = w
    · simp [hmw, hvw]
    · simp [hmw]
  rw [hm]
  apply List.filter_congr
  intro g hg
  show List.contains (s.groups.filter _) g = _
  by_cases hgs : g ∈ s.groups
  · have hw : g ∈ s.groupsOf w := List.mem_filter.mpr ⟨hg, by simpa using hgs⟩
    have : g ∉ gs := fun hin => hno g hin hw
    simp [hgs, this]
  · simp [hgs]

/-- The vifs of a load balancer leave their groups if and only if these are free. -/
theorem leaves_iff {vifs : List Nat} (hn : vifs.Nodup) :
    (∃ t, vifs.foldlM (leave true) s = .ok t) ↔ s.Free vifs := by
  induction vifs generalizing s with
  | nil =>
    refine ⟨fun _ => ⟨List.nodup_nil, ?_, ?_⟩, fun _ => ⟨s, rfl⟩⟩
    · intro g hg
      cases hg
    · intro pre g post he
      cases pre <;> cases he
  | cons v vs ih =>
    obtain ⟨hv, hn⟩ := List.nodup_cons.mp hn
    have hne : ∀ w ∈ vs, w ≠ v := fun w hw he => hv (he ▸ hw)
    have hflat : (∀ w ∈ vs, ∀ g ∈ s.groupsOf v, g ∉ s.groupsOf w) →
        vs.flatMap ((s.removeAllSecurityGroups v).without (s.groupsOf v)).groupsOf =
          vs.flatMap s.groupsOf := by
      intro hdisj
      apply List.flatMap_congr
      intro w hw
      exact groupsOf_without (hne w hw) (hdisj w hw)
    constructor
    · rintro ⟨t, ht⟩
      rw [List.foldlM_cons] at ht
      obtain ⟨u, hu, ht⟩ := bind_ok ht
      obtain ⟨hnodup, hall, hcut, rfl⟩ := destroyGroups_iff.mp hu
      have hfree := (ih hn).mp ⟨t, ht⟩
      have hdisj : ∀ w ∈ vs, ∀ g ∈ s.groupsOf v, g ∉ s.groupsOf w := by
        intro w hw g hg hgw
        exact (hall g hg).2 (w, g) (List.mem_filter.mpr
          ⟨(mem_groupsOf.mp hgw).1, by simpa using hne w hw⟩) rfl
      obtain ⟨hnodup', hmembers, href⟩ := hfree
      rw [hflat hdisj] at hnodup' hmembers href
      refine ⟨?_, ?_, ?_⟩
      · rw [List.flatMap_cons]
        refine hnodup.append hnodup' ?_
        intro g hg hg'
        obtain ⟨w, hw, hgw⟩ := List.mem_flatMap.mp hg'
        exact hdisj w hw g hg hgw
      · intro g hg m hm he
        by_cases hmv : m.1 = v
        · rw [hmv]
          exact List.mem_cons_self
        · have hm' : m ∈ (s.removeAllSecurityGroups v).members :=
            List.mem_filter.mpr ⟨hm, by simpa using hmv⟩
          rw [List.flatMap_cons] at hg
          rcases List.mem_append.mp hg with hg | hg
          · exact absurd he ((hall g hg).2 m hm')
          · exact List.mem_cons_of_mem _ (hmembers g hg m hm' he)
      · rw [List.flatMap_cons, forall_cut_append]
        refine ⟨hcut, ?_⟩
        intro pre g post he r hr hrg
        by_cases hin : r.1 ∈ s.groupsOf v
        · exact List.mem_append_left _ hin
        · exact List.mem_append_right _ (href pre g post he r
            (List.mem_filter.mpr ⟨hr, by simpa using hin⟩) hrg)
    · rintro ⟨hnodup, hmembers, href⟩
      rw [List.flatMap_cons] at hnodup hmembers href
      rw [forall_cut_append] at href
      obtain ⟨hcut, href⟩ := href
      have hnodup' := (List.nodup_append.mp hnodup).2.1
      have hdisj : ∀ w ∈ vs, ∀ g ∈ s.groupsOf v, g ∉ s.groupsOf w := by
        intro w hw g hg hgw
        exact (List.nodup_append.mp hnodup).2.2 g hg g (List.mem_flatMap.mpr ⟨w, hw, hgw⟩) rfl
      have hu : leave true s v = .ok ((s.removeAllSecurityGroups v).without (s.groupsOf v)) := by
        refine destroyGroups_iff.mpr ⟨(List.nodup_append.mp hnodup).1, ?_, hcut, rfl⟩
        intro g hg
        refine ⟨(mem_groupsOf.mp hg).2, ?_⟩
        intro m hm he
        obtain ⟨hm, hmv⟩ := List.mem_filter.mp hm
        have hmv : m.1 ≠ v := by simpa using hmv
        rcases List.mem_cons.mp (hmembers g (List.mem_append_left _ hg) m hm he) with h | h
        · exact hmv h
        · refine hdisj m.1 h g hg (mem_groupsOf.mpr ⟨?_, (mem_groupsOf.mp hg).2⟩)
          rw [← he]
          exact hm
      rw [List.foldlM_cons, hu]
      refine (ih hn).mpr ⟨?_, ?_, ?_⟩
      · rw [hflat hdisj]
        exact hnodup'
      · rw [hflat hdisj]
        intro g hg m hm he
        obtain ⟨hm, hmv⟩ := List.mem_filter.mp hm
        have hmv : m.1 ≠ v := by simpa using hmv
        rcases List.mem_cons.mp (hmembers g (List.mem_append_right _ hg) m hm he) with h | h
        · exact absurd h hmv
        · exact h
      · rw [hflat hdisj]
        intro pre g post he r hr hrg
        obtain ⟨hr, hin⟩ := List.mem_filter.mp hr
        have hin : r.1 ∉ s.groupsOf v := by simpa using hin
        rcases List.mem_append.mp (href pre g post he r hr hrg) with h | h
        · exact absurd h hin
        · exact h

theorem leaves_false (vifs : List Nat) (s : Groups) : ∃ t, vifs.foldlM (leave false) s = .ok t := by
  induction vifs generalizing s with
  | nil => exact ⟨s, rfl⟩
  | cons v vs ih => exact ih (s.removeAllSecurityGroups v)

end Groups

/-! ## The vifs of an instance -/

/-- What destroying the vifs `vifs` leaves. -/
structure Destroyed (db t : Db) (vifs : List Nat) : Prop where
  instanceId : t.instanceId = db.instanceId
  macAddr : t.macAddr = db.macAddr
  hostnameLeases : t.hostnameLeases = db.hostnameLeases
  instances : t.instances = db.instances
  volumes : t.volumes = db.volumes
  leases : Lease.Shrinks db.leases t.leases
  macLeases : t.macLeases ⊆ db.macLeases
  deleted : ∀ v ∈ t.leases.vifs.rows, v.id ∈ vifs → v.deleted = true
  released : ∀ v ∈ vifs, t.leases.Released v
  unleased : ∀ v ∈ vifs, db.macAddr v ∉ t.macLeases

section
variable {db t : Db} {i : InstanceRow}

theorem Destroyed.refl (db : Db) : Destroyed db db [] where
  instanceId := rfl
  macAddr := rfl
  hostnameLeases := rfl
  instances := rfl
  volumes := rfl
  leases := .refl _
  macLeases := Finset.Subset.refl _
  deleted := by simp
  released := by simp
  unleased := by simp

theorem Destroyed.cons {u : Db} {v : Nat} {vs : List Nat} (h : Destroyed db t [v])
    (h' : Destroyed t u vs) : Destroyed db u (v :: vs) where
  instanceId := h'.instanceId.trans h.instanceId
  macAddr := h'.macAddr.trans h.macAddr
  hostnameLeases := h'.hostnameLeases.trans h.hostnameLeases
  instances := h'.instances.trans h.instances
  volumes := h'.volumes.trans h.volumes
  leases := h.leases.trans h'.leases
  macLeases := h'.macLeases.trans h.macLeases
  deleted := by
    intro x hx hid
    rcases List.mem_cons.mp hid with hid | hid
    · obtain ⟨f, hf, he⟩ := h'.leases.vifs
      rw [he] at hx
      obtain ⟨y, hy, rfl⟩ := List.mem_map.mp hx
      exact (hf y).2 (h.deleted y hy (by rw [← (hf y).1, hid]; exact List.mem_singleton_self v))
    · exact h'.deleted x hx hid
  released := by
    intro x hx
    rcases List.mem_cons.mp hx with rfl | hx
    · exact (h.released x (List.mem_singleton_self x)).shrinks h'.leases
    · exact h'.released x hx
  unleased := by
    intro x hx
    rcases List.mem_cons.mp hx with rfl | hx
    · exact fun hin => h.unleased x (List.mem_singleton_self x) (h'.macLeases hin)
    · rw [← h.macAddr]
      exact h'.unleased x hx

theorem destroyVif_ok {vif : Nat} {s : Groups} (hv : db.leases.Valid)
    (h : Groups.leave ((db.instanceId vif).any db.isLoadBalancer) db.securityGroups vif = .ok s) :
    ∃ t, db.destroyVif vif = .ok t ∧ t.securityGroups = s ∧ Destroyed db t [vif] := by
  obtain ⟨l, hl, hs, hreleased, hdeleted⟩ := Lease.destroyVif_shrinks hv vif
  unfold Db.destroyVif
  simp only [h, hl, bind, Except.bind]
  refine ⟨_, rfl, rfl, rfl, rfl, rfl, rfl, rfl, hs, Finset.erase_subset _ _, ?_, ?_, ?_⟩
  · intro v hv hid
    exact hdeleted v hv (List.mem_singleton.mp hid)
  · intro v hv
    rw [List.mem_singleton.mp hv]
    exact hreleased
  · intro v hv
    rw [List.mem_singleton.mp hv]
    exact Finset.notMem_erase _ _

theorem destroyVif_error {vif : Nat} {e : SchedulerError}
    (h : Groups.leave ((db.instanceId vif).any db.isLoadBalancer) db.securityGroups vif = .error e) :
    db.destroyVif vif = .error e := by
  unfold Db.destroyVif
  rw [h]
  rfl

theorem destroyVifs {vifs : List Nat} (hv : db.leases.Valid)
    (hown : ∀ v ∈ vifs, db.instanceId v = some i.id) :
    (∀ s, vifs.foldlM (Groups.leave (db.isLoadBalancer i.id)) db.securityGroups = .ok s →
      ∃ t, vifs.foldlM Db.destroyVif db = .ok t ∧ Destroyed db t vifs) ∧
    ∀ e, vifs.foldlM (Groups.leave (db.isLoadBalancer i.id)) db.securityGroups = .error e →
      vifs.foldlM Db.destroyVif db = .error e := by
  induction vifs generalizing db with
  | nil =>
    constructor
    · intro s _
      exact ⟨db, rfl, .refl db⟩
    · intro e h
      cases h
  | cons v vs ih =>
    have hlb : (db.instanceId v).any db.isLoadBalancer = db.isLoadBalancer i.id := by
      rw [hown v List.mem_cons_self]
      rfl
    cases hleave : Groups.leave (db.isLoadBalancer i.id) db.securityGroups v with
    | error e' =>
      constructor
      · intro s h
        rw [List.foldlM_cons, hleave] at h
        cases h
      · intro e h
        rw [List.foldlM_cons, hleave] at h
        cases h
        rw [List.foldlM_cons, destroyVif_error (hlb ▸ hleave)]
        rfl
    | ok s' =>
      obtain ⟨t, ht, hs, hd⟩ := destroyVif_ok hv (hlb ▸ hleave)
      have hlb' : t.isLoadBalancer i.id = db.isLoadBalancer i.id := by
        unfold Db.isLoadBalancer
        rw [hd.instances]
      obtain ⟨hok, herror⟩ := ih (hd.leases.valid hv) fun w hw => by
        rw [hd.instanceId]
        exact hown w (List.mem_cons_of_mem _ hw)
      rw [hlb', hs] at hok herror
      constructor
      · intro s h
        rw [List.foldlM_cons, hleave] at h
        obtain ⟨u, hu, hd'⟩ := hok s h
        refine ⟨u, ?_, hd.cons hd'⟩
        rw [List.foldlM_cons, ht]
        exact hu
      · intro e h
        rw [List.foldlM_cons, hleave] at h
        rw [List.foldlM_cons, ht]
        exact herror e h

/-! ## The clean-up -/

/-- Nothing of what the instance `i` had in `db` is left in `t`. -/
structure Cleared (db t : Db) (i : InstanceRow) : Prop where
  terminated : ∃ x, t.instances.find i.id = some x ∧ x.terminated = true
  volumes : ∀ v ∈ db.volumesOf i.id, ∀ w ∈ t.volumes.rows, w.id = v.id → w.deleted = true
  vifs : ∀ v ∈ t.leases.vifs.rows, v.id ∈ db.networkVif i.id → v.deleted = true
  ipLeases : ∀ v ∈ db.networkVif i.id, t.leases.Released v
  macLeases : ∀ v ∈ db.networkVif i.id, db.macAddr v ∉ t.macLeases
  hostname : (i.accountId, i.hostname) ∉ t.hostnameLeases

def CleanedUp (db : Db) (o : Outcome) (i : InstanceRow) : Prop :=
  Cleared db o.db i ∧ o.submitted = []

/-- Nothing refuses to be destroyed. -/
structure Clearable (db : Db) (i : InstanceRow) : Prop where
  backups : db.backupInProgress i.id = false
  attached : ∀ v ∈ db.volumesOf i.id, v.state = .attached → v.deleted = true
  groups : db.isLoadBalancer i.id = true → db.securityGroups.Free (db.networkVif i.id)

theorem nodup_networkVif (db : Db) (id : Nat) : (db.networkVif id).Nodup := by
  have h : db.leases.vifs.rows.map Lease.VifRow.id = db.leases.vifs.rows.map Row.pk := rfl
  exact (h ▸ db.leases.vifs.nodup_pk).sublist ((List.filter_sublist).map _)

theorem instanceId_networkVif {v : Nat} (h : v ∈ db.networkVif i.id) : db.instanceId v = some i.id := by
  obtain ⟨x, hx, rfl⟩ := List.mem_map.mp h
  exact eq_of_beq (List.mem_filter.mp hx).2

theorem leaves_networkVif_iff (db : Db) (i : InstanceRow) :
    (∃ s, (db.networkVif i.id).foldlM (Groups.leave (db.isLoadBalancer i.id)) db.securityGroups =
      .ok s) ↔ (db.isLoadBalancer i.id = true → db.securityGroups.Free (db.networkVif i.id)) := by
  cases db.isLoadBalancer i.id with
  | true =>
    rw [Groups.leaves_iff (nodup_networkVif db i.id)]
    simp
  | false =>
    simp only [Bool.false_eq_true, false_implies, iff_true]
    exact Groups.leaves_false _ _

theorem find_terminateRow {x : InstanceRow} (h : db.instances.find i.id = some x) :
    (db.terminateRow i.id).instances.find i.id =
      some { x with state := .terminated, terminated := true } := by
  unfold Db.terminateRow
  rw [Table.find_modify, if_pos rfl, h]
  rfl

theorem afterRollback_eq (hi : db.instances.find i.id = some i)
    (hb : db.backupInProgress i.id = false) :
    db.afterRollback i.id = ((db.networkVif i.id).foldlM Db.destroyVif (db.dropHostname i)).map
      fun t => ((t.detachAttached i.id).terminateRow i.id).destroyVolumes i.id := by
  unfold Db.afterRollback Db.destroyInstance
  simp only [hi, hb, Bool.false_eq_true, if_false]
  cases (db.networkVif i.id).foldlM Db.destroyVif (db.dropHostname i) with
  | ok t => rfl
  | error e => rfl

/-- A hook that does not raise has left nothing but the volumes that were attached. -/
theorem afterRollback_ok (hv : db.leases.Valid) (hi : db.instances.find i.id = some i)
    (hb : db.backupInProgress i.id = false)
    (hg : db.isLoadBalancer i.id = true → db.securityGroups.Free (db.networkVif i.id)) :
    ∃ t, db.afterRollback i.id = .ok t ∧
      t.volumes.rows = db.volumes.rows.map (fun v =>
        if v.instanceId = some i.id then
          if v.state = .attached then { v with instanceId := none }
          else if v.deleted = false then { v with state := .deleted, deleted := true } else v
        else v) ∧
      ((∀ v ∈ db.volumesOf i.id, v.state = .attached → v.deleted = true) → Cleared db t i) := by
  obtain ⟨s, hs⟩ := (leaves_networkVif_iff db i).mpr hg
  have hown : ∀ v ∈ db.networkVif i.id, (db.dropHostname i).instanceId v = some i.id :=
    fun v hv => instanceId_networkVif hv
  obtain ⟨t, ht, hd⟩ := (@destroyVifs (db.dropHostname i) i _ hv hown).1 s hs
  have hhook : db.afterRollback i.id =
      .ok (((t.detachAttached i.id).terminateRow i.id).destroyVolumes i.id) := by
    rw [afterRollback_eq hi hb, ht]
    rfl
  have hvolumes : ((((t.detachAttached i.id).terminateRow i.id)).destroyVolumes i.id).volumes.rows =
      db.volumes.rows.map (fun v =>
        if v.instanceId = some i.id then
          if v.state = .attached then { v with instanceId := none }
          else if v.deleted = false then { v with state := .deleted, deleted := true } else v
        else v) := by
    show List.map _ (List.map _ t.volumes.rows) = _
    rw [hd.volumes, List.map_map]
    apply List.map_congr_left
    intro v _
    simp only [Function.comp]
    by_cases hinst : v.instanceId = some i.id
    · by_cases hstate : v.state = .attached
      · simp [hinst, hstate]
      · simp [hinst, hstate]
    · simp [hinst]
  refine ⟨_, hhook, hvolumes, fun hattached => ?_⟩
  constructor
  · have hfind : (t.detachAttached i.id).instances.find i.id = some i := by
      show t.instances.find i.id = _
      rw [hd.instances]
      exact hi
    exact ⟨_, find_terminateRow hfind, rfl⟩
  · intro v hmem w hw hid
    rw [hvolumes] at hw
    obtain ⟨x, hx, rfl⟩ := List.mem_map.mp hw
    obtain ⟨hmem, howner⟩ := List.mem_filter.mp hmem
    have howner : v.instanceId = some i.id := eq_of_beq howner
    have hxv : x = v := by
      apply db.volumes.eq_of_pk hx hmem
      show x.id = v.id
      rw [← hid]
      split
      · split
        · rfl
        · split <;> rfl
      · rfl
    rw [hxv, if_pos howner]
    by_cases hstate : v.state = .attached
    · rw [if_pos hstate]
      exact hattached v (List.mem_filter.mpr ⟨hmem, by simp [howner]⟩) hstate
    · rw [if_neg hstate]
      cases hdel : v.deleted with
      | true => simp [hdel]
      | false => simp
  · exact hd.deleted
  · exact hd.released
  · exact hd.unleased
  · intro hin
    have hin : (i.accountId, i.hostname) ∈ t.hostnameLeases := hin
    rw [hd.hostnameLeases] at hin
    simpa using (List.mem_filter.mp hin).2

theorem afterRollback_error (hv : db.leases.Valid) (hi : db.instances.find i.id = some i)
    (h : db.backupInProgress i.id = true ∨
      ¬ (db.isLoadBalancer i.id = true → db.securityGroups.Free (db.networkVif i.id))) :
    ∃ e, db.afterRollback i.id = .error e := by
  cases hb : db.backupInProgress i.id with
  | true =>
    unfold Db.afterRollback Db.destroyInstance
    simp only [hi, hb, if_true]
    exact ⟨_, rfl⟩
  | false =>
    have hg := h.resolve_left (by simp [hb])
    have hown : ∀ v ∈ db.networkVif i.id, (db.dropHostname i).instanceId v = some i.id :=
      fun v hv => instanceId_networkVif hv
    cases hs : (db.networkVif i.id).foldlM (Groups.leave (db.isLoadBalancer i.id))
        db.securityGroups with
    | ok s => exact absurd ((leaves_networkVif_iff db i).mp ⟨s, hs⟩) hg
    | error e =>
      refine ⟨e, ?_⟩
      have herror := (@destroyVifs (db.dropHostname i) i _ hv hown).2 e hs
      rw [afterRollback_eq hi hb, herror]
      rfl

/-- A failed scheduling is cleaned up if and only if nothing refuses, or if there
was nothing to clean up. -/
theorem cleanedUp_iff (env : Env) (hv : db.leases.Valid) (hi : db.instances.find i.id = some i)
    (hraise : Raises env i.id db) :
    CleanedUp db (perform env i.id db) i ↔ Clearable db i ∨ Cleared db db i := by
  obtain ⟨e, he⟩ := hraise
  have hperform : ∀ t, db.afterRollback i.id = .ok t → perform env i.id db = ⟨t, []⟩ := by
    intro t ht
    unfold perform
    cases hx : Proc.exec (scheduleInstance env i.id) ⟨db, []⟩ with
    | mk r tx =>
      rw [hx] at he
      cases he
      simp only [ht]
  have hperform' : ∀ e, db.afterRollback i.id = .error e → perform env i.id db = ⟨db, []⟩ := by
    intro e' ht
    unfold perform
    cases hx : Proc.exec (scheduleInstance env i.id) ⟨db, []⟩ with
    | mk r tx =>
      rw [hx] at he
      cases he
      simp only [ht]
  by_cases hfail : db.backupInProgress i.id = true ∨
      ¬ (db.isLoadBalancer i.id = true → db.securityGroups.Free (db.networkVif i.id))
  · obtain ⟨e', he'⟩ := afterRollback_error hv hi hfail
    rw [hperform' e' he']
    constructor
    · intro h
      exact .inr h.1
    · rintro (h | h)
      · rcases hfail with hb | hg
        · rw [h.backups] at hb
          cases hb
        · exact absurd h.groups hg
      · exact ⟨h, rfl⟩
  · rw [not_or, not_not, Bool.not_eq_true] at hfail
    obtain ⟨t, ht, hvolumes, hcleared⟩ := afterRollback_ok hv hi hfail.1 hfail.2
    rw [hperform t ht]
    constructor
    · intro h
      refine .inl ⟨hfail.1, ?_, hfail.2⟩
      intro v hmem hstate
      have howner : v.instanceId = some i.id := eq_of_beq (List.mem_filter.mp hmem).2
      have hw : { v with instanceId := none } ∈ t.volumes.rows := by
        rw [hvolumes]
        refine List.mem_map.mpr ⟨v, List.mem_of_mem_filter hmem, ?_⟩
        rw [if_pos howner, if_pos hstate]
      exact h.1.volumes v hmem { v with instanceId := none } hw rfl
    · rintro (h | h)
      · exact ⟨hcleared h.attached, rfl⟩
      · refine ⟨hcleared fun v hmem _ => ?_, rfl⟩
        exact h.volumes v hmem v (List.mem_of_mem_filter hmem) rfl

end

/-! ## Two instances -/

/-- A service type without a host node. -/
def noHostNode : ServiceType where
  hostNode := fun _ _ => .error .scheduling
  network := fun _ db => .ok db
  storageNode := fun _ db => .ok db

def noCapacity : Env where
  serviceTypes := fun _ => some noHostNode
  setupVifMonitors := fun _ db => .ok db
  availableDiskSpace := fun _ _ => 0
  openvnet := false

def requested (serviceType : Text) : InstanceRow :=
  ⟨1, 1, ['a'], serviceType, .scheduling, none, .san, false⟩

def instanceTable (serviceType : Text) : Table InstanceRow :=
  Table.empty.create (fun id => { requested serviceType with id := id }) fun _ => rfl

def vifRow (deviceIndex : Int) (id : Nat) : Lease.VifRow :=
  ⟨id, none, none, deviceIndex, none, false⟩

def vifTable : Table Lease.VifRow :=
  (Table.empty.create (vifRow 0) fun _ => rfl).create (vifRow 1) fun _ => rfl

def volumeTable : Table VolumeRow :=
  Table.empty.create (fun id => ⟨id, some 1, .unset, .scheduling, 10, [], false⟩) fun _ => rfl

/-- An instance with a volume and two vifs, which share the security group 1. -/
def withServiceType (serviceType : Text) : Db where
  leases := {
    networks := .empty
    dhcpRanges := .empty
    ipLeases := .empty
    vifLeases := .empty
    vifs := vifTable
    ipHandles := .empty
    routes := .empty
    ipPoolDcNetworks := [] }
  instanceId := fun _ => some 1
  macAddr := id
  macLeases := {1, 2}
  hostnameLeases := [(1, ['a'])]
  securityGroups := ⟨[1], [(1, 1), (2, 1)], []⟩
  instances := instanceTable serviceType
  volumes := volumeTable
  localVolumes := []

theorem cleanedUp_std :
    CleanedUp (withServiceType []) (perform noCapacity 1 (withServiceType [])) (requested []) := by
  have hv : (withServiceType []).leases.Valid := fun r hr => absurd hr List.not_mem_nil
  have hi : (withServiceType []).instances.find 1 = some (requested []) := rfl
  refine (@cleanedUp_iff _ (requested []) noCapacity hv hi ⟨.scheduling, rfl⟩).mpr (.inl ?_)
  refine ⟨by decide, by decide, fun h => ?_⟩
  cases h

/-- The group of the first vif is still the second one's, and the hook raises. -/
theorem loadBalancer_stays :
    Raises noCapacity 1 (withServiceType loadBalancerServiceType) ∧
      ¬ CleanedUp (withServiceType loadBalancerServiceType)
        (perform noCapacity 1 (withServiceType loadBalancerServiceType))
        (requested loadBalancerServiceType) := by
  constructor
  · exact ⟨.hookFailed, rfl⟩
  · rintro ⟨h, -⟩
    obtain ⟨x, hx, ht⟩ := h.terminated
    have hfind : ((perform noCapacity 1 (withServiceType loadBalancerServiceType)).db.instances.find 1) =
        some (requested loadBalancerServiceType) := rfl
    have hsome : some (requested loadBalancerServiceType) = some x := hfind.symm.trans hx
    cases hsome
    cases ht

end ScheduleInstance

end WakameVdc
