import WakameVdc.HostnameLease

/-!
# Hostnames and their leases

Each save and each destroy replaces one row, and the leases follow it.
-/

namespace WakameVdc

open Lib

namespace Hostname

open Scheduler (InstanceState)

/-! ## One row in place of another -/

section
variable {vdc vdc' : Vdc} {row row' : InstanceRow}

theorem holders_save (hrow : row ∈ vdc.instances.rows)
    (hinst : vdc'.instances = vdc.instances.save row') (hid : row'.id = row.id) :
    ∃ rest, vdc.holders.Perm (row.held ++ rest) ∧ vdc'.holders.Perm (row'.held ++ rest) := by
  obtain ⟨l₁, l₂, he, he'⟩ := vdc.instances.save_split hrow hid
  have hperm : ∀ r : InstanceRow, ((l₁ ++ r :: l₂).flatMap InstanceRow.held).Perm
      (r.held ++ (l₁.flatMap InstanceRow.held ++ l₂.flatMap InstanceRow.held)) := by
    intro r
    rw [List.flatMap_append, List.flatMap_cons, ← List.append_assoc, ← List.append_assoc]
    exact List.Perm.append_right _ List.perm_append_comm
  refine ⟨l₁.flatMap InstanceRow.held ++ l₂.flatMap InstanceRow.held, ?_, ?_⟩
  · unfold Vdc.holders
    rw [he]
    exact hperm row
  · unfold Vdc.holders
    rw [hinst, he']
    exact hperm row'

/-- What the leases must be once a row has changed. -/
theorem Vdc.InStep.replace (hs : vdc.InStep) (hrow : row ∈ vdc.instances.rows)
    (hinst : vdc'.instances = vdc.instances.save row') (hid : row'.id = row.id)
    (hlower : downcase row'.hostname = row'.hostname)
    (hleases : ∀ rest, vdc.holders.Perm (row.held ++ rest) →
      (row'.held ++ rest).Nodup ∧ ∀ p, p ∈ vdc'.hostnameLeases ↔ p ∈ row'.held ++ rest) :
    vdc'.InStep := by
  obtain ⟨rest, hp, hp'⟩ := holders_save hrow hinst hid
  obtain ⟨hnodup, hleased⟩ := hleases rest hp
  refine ⟨?_, hp'.nodup_iff.mpr hnodup, ?_⟩
  · intro p
    rw [hleased, hp'.mem_iff]
  · intro x hx
    rw [hinst] at hx
    rcases vdc.instances.mem_save hx with rfl | ⟨hx, -⟩
    · exact hlower
    · exact hs.lower x hx

end

/-! ## Saving -/

theorem toLower_toLower (c : Char) : c.toLower.toLower = c.toLower := by
  unfold Char.toLower
  split
  · rename_i h
    split
    · rename_i h'
      exfalso
      simp only [ge_iff_le, UInt32.le_iff_toNat_le] at h h'
      simp at h h'
      omega
    · rfl
  · rfl

theorem downcase_downcase (t : Text) : downcase (downcase t) = downcase t := by
  unfold downcase
  rw [List.map_map]
  apply List.map_congr_left
  intro c _
  exact toLower_toLower c

namespace Instance

def normalized (self : Instance) : Text := downcase (self.hostname.getD self.uuid)

theorem beforeValidation_eq (self : Instance) :
    self.beforeValidation = { self with
      hostname := some self.normalized
      changed := self.changed || decide (self.id.isNone ∨ some self.normalized ≠ self.hostname) } := by
  unfold beforeValidation normalized
  cases hh : self.hostname with
  | none =>
    simp only [Option.isNone_none, if_true, Option.getD_none]
    have huuid : self.setHostname (some self.uuid) =
        { self with hostname := some self.uuid, changed := true } := by
      unfold setHostname
      rw [if_pos]
      simp [hh]
    rw [huuid]
    unfold setHostname
    split
    · simp
    · rename_i hc
      simp only [not_or, not_not] at hc
      have hsame : downcase self.uuid = self.uuid := Option.some.inj hc.2
      simp [hsame]
  | some name =>
    simp only [Option.isNone_some, Bool.false_eq_true, if_false, hh, Option.map_some,
      Option.getD_some]
    unfold setHostname
    rw [hh]
    by_cases hc : self.id.isNone = true ∨ some (downcase name) ≠ some name
    · rw [if_pos hc, decide_eq_true hc, Bool.or_true]
    · rw [if_neg hc, decide_eq_false hc, Bool.or_false]
      simp only [not_or, not_not] at hc
      rw [hc.2, ← hh]

/-- Where the validation of an object that is not terminated finds nothing, the
flag is set along with the changed hostname. -/
theorem validate_ok {self self' : Instance} {vdc : Vdc} (ht : self.terminatedAt = false)
    (hflag : self.updateHostname = false) (h : self.validate vdc = .ok ([], self')) :
    self' = { self with updateHostname := self.changed } := by
  unfold validate at h
  rw [if_neg (by simp [ht])] at h
  cases hc : self.changed with
  | false =>
    rw [hc] at h
    injection h with h
    have hkeep : false = self.updateHostname := hflag.symm
    rw [← (Prod.mk.inj h).2, hkeep]
    exact (congrArg (fun c => { self with changed := c }) (hc.trans hkeep)).symm ▸ rfl
  | true =>
    rw [hc] at h
    dsimp only at h
    rw [if_neg (by decide)] at h
    split at h
    · cases h
    · injection h with h
      rw [← (Prod.mk.inj h).2]

/-- What a save leaves, for an object loaded from a row and then changed. -/
theorem save_stored {self self' : Instance} {vdc vdc' : Vdc} {row : InstanceRow}
    (hrow : row ∈ vdc.instances.rows) (hid : self.id = some row.id)
    (hflag : self.updateHostname = false)
    (hchanged : self.changed = false → self.hostname = some row.hostname)
    (hlower : downcase row.hostname = row.hostname) (h : self.save vdc = .ok (vdc', self')) :
    vdc'.instances = vdc.instances.save
        ⟨row.id, self.accountId, self.uuid, self.normalized, self.state, self.terminatedAt⟩ ∧
      (vdc'.hostnameLeases = vdc.hostnameLeases ∧
          (self.terminatedAt = false → self.normalized = row.hostname) ∨
        self.terminatedAt = false ∧ (self.accountId, row.hostname) ∈ vdc.hostnameLeases ∧
          (self.accountId, self.normalized) ∉
            vdc.hostnameLeases.erase (self.accountId, row.hostname) ∧
          vdc'.hostnameLeases = insert (self.accountId, self.normalized)
            (vdc.hostnameLeases.erase (self.accountId, row.hostname))) := by
  have hfind : vdc.instances.find row.id = some row := vdc.instances.find_of_mem hrow
  unfold save at h
  rw [beforeValidation_eq] at h
  cases ht : self.terminatedAt with
  | true =>
    unfold validate at h
    simp only [ht, if_true, beforeSave, hflag, Bool.not_false, write, hid] at h
    cases h
    exact ⟨rfl, .inl ⟨rfl, fun hc => absurd hc (by decide)⟩⟩
  | false =>
    split at h
    · cases h
    · rename_i self1 hv
      have hself1 := validate_ok (by exact ht) (by exact hflag) hv
      subst hself1
      unfold beforeSave at h
      dsimp only at h
      by_cases hc : (self.changed || decide (self.id.isNone ∨ some self.normalized ≠ self.hostname))
          = true
      · rw [hc] at h
        simp only [Bool.not_true, Bool.false_eq_true, if_false, hid, Option.isNone_some, refresh,
          Option.bind_some, hfind] at h
        by_cases hname : some row.hostname ≠ some self.normalized
        · rw [if_pos hname] at h
          unfold Vdc.renameLease at h
          by_cases hmem : (self.accountId, row.hostname) ∈ vdc.hostnameLeases
          · rw [if_pos hmem] at h
            unfold Vdc.createLease at h
            dsimp only at h
            by_cases hfree : self.normalized.length > 32 ∨
                (self.accountId, self.normalized) ∈
                  vdc.hostnameLeases.erase (self.accountId, row.hostname)
            · rw [if_pos hfree] at h
              cases h
            · rw [if_neg hfree] at h
              cases h
              rw [ht]
              exact ⟨rfl, .inr ⟨rfl, hmem, fun hin => hfree (.inr hin), rfl⟩⟩
          · rw [if_neg hmem] at h
            cases h
        · rw [if_neg hname] at h
          cases h
          rw [not_not] at hname
          rw [ht]
          exact ⟨rfl, .inl ⟨rfl, fun _ => (Option.some.inj hname).symm⟩⟩
      · rw [Bool.not_eq_true] at hc
        rw [hc] at h
        simp only [Bool.not_false, if_true, write, hid] at h
        cases h
        rw [Bool.or_eq_false_iff] at hc
        have hname : self.normalized = row.hostname := by
          unfold normalized
          rw [hchanged hc.1, Option.getD_some, hlower]
        rw [ht]
        exact ⟨rfl, .inl ⟨rfl, fun _ => hname⟩⟩
    · cases h

/-- A save of an object that holds what its row holds, except for the hostname and
the state. -/
theorem inStep_save {self self' : Instance} {vdc vdc' : Vdc} {row : InstanceRow} (hs : vdc.InStep)
    (hrow : row ∈ vdc.instances.rows) (hid : self.id = some row.id)
    (haccount : self.accountId = row.accountId) (hterm : self.terminatedAt = row.terminatedAt)
    (hflag : self.updateHostname = false)
    (hchanged : self.changed = false → self.hostname = some row.hostname)
    (h : self.save vdc = .ok (vdc', self')) : vdc'.InStep := by
  obtain ⟨hinst, hleases⟩ := save_stored hrow hid hflag hchanged (hs.lower row hrow) h
  refine hs.replace hrow hinst rfl (downcase_downcase _) fun rest hp => ?_
  have hnodup := hp.nodup_iff.mp hs.distinct
  have hleased : ∀ p, p ∈ vdc.hostnameLeases ↔ p ∈ row.held ++ rest := by
    intro p
    rw [hs.leased, hp.mem_iff]
  cases ht : row.terminatedAt with
  | true =>
    rw [hterm, ht] at hleases
    simp only [Bool.true_eq_false, false_and, or_false] at hleases
    have hheld : row.held = [] := if_pos ht
    rw [hheld] at hnodup hleased
    rw [hleases.1]
    simp only [InstanceRow.held, hterm, ht, if_true]
    exact ⟨hnodup, hleased⟩
  | false =>
    rw [hterm, ht] at hleases
    have hheld : row.held = [row.pair] := if_neg (by simp [ht])
    rw [hheld] at hnodup hleased
    simp only [InstanceRow.held, hterm, ht, Bool.false_eq_true, if_false]
    rcases hleases with ⟨hsame, hname⟩ | ⟨-, -, hfree, hnew⟩
    · rw [hsame, hname rfl, haccount]
      exact ⟨hnodup, hleased⟩
    · rw [haccount] at hfree hnew ⊢
      have hrest : ∀ p, p ∈ vdc.hostnameLeases.erase row.pair ↔ p ∈ rest := by
        intro p
        rw [Finset.mem_erase, hleased, List.singleton_append, List.mem_cons]
        rw [List.singleton_append, List.nodup_cons] at hnodup
        constructor
        · rintro ⟨hne, he | hp⟩
          · exact absurd he hne
          · exact hp
        · intro hp
          refine ⟨?_, .inr hp⟩
          rintro rfl
          exact hnodup.1 hp
      rw [hnew]
      change (row.accountId, self.normalized) ∉ vdc.hostnameLeases.erase row.pair at hfree
      rw [hrest] at hfree
      refine ⟨?_, fun p => ?_⟩
      · exact List.nodup_cons.mpr ⟨hfree, (List.nodup_cons.mp hnodup).2⟩
      · change p ∈ insert _ (vdc.hostnameLeases.erase row.pair) ↔ _
        rw [Finset.mem_insert, hrest, List.singleton_append, List.mem_cons]
        rfl

/-- A new object gets a lease and a row, unless the save fails. -/
theorem save_new {self self' : Instance} {vdc vdc' : Vdc} (hid : self.id = none)
    (ht : self.terminatedAt = false) (hflag : self.updateHostname = false)
    (h : self.save vdc = .ok (vdc', self')) :
    ∃ row, vdc'.instances.rows = vdc.instances.rows ++ [row] ∧ row.pair ∉ vdc.hostnameLeases ∧
      vdc'.hostnameLeases = insert row.pair vdc.hostnameLeases ∧ row.terminatedAt = false ∧
      downcase row.hostname = row.hostname ∧
      self' = { Instance.load row with state := self.state } := by
  unfold save at h
  rw [beforeValidation_eq] at h
  split at h
  · cases h
  · rename_i self1 hv
    have hself1 := validate_ok (by exact ht) (by exact hflag) hv
    subst hself1
    unfold beforeSave at h
    simp only [hid, Option.isNone_none, true_or, decide_true, Bool.or_true, Bool.not_true,
      Bool.false_eq_true, if_false, if_true] at h
    unfold Vdc.createLease at h
    dsimp only at h
    by_cases hfree : self.normalized.length > 32 ∨
        (self.accountId, self.normalized) ∈ vdc.hostnameLeases
    · rw [if_pos hfree] at h
      cases h
    · rw [if_neg hfree] at h
      unfold write at h
      dsimp only at h
      split at h
      · cases h
      · cases h
        rw [not_or] at hfree
        refine ⟨_, rfl, hfree.2, rfl, ht, downcase_downcase _, ?_⟩
        simp [load, ht]
  · cases h

/-- `destroy` terminates the row, and drops the lease of its hostname. -/
theorem destroy_ok {self : Instance} {env : Env} {vdc : Vdc} {row : InstanceRow} {force : Bool}
    (hself : self = { load row with terminatedAt := self.terminatedAt })
    (hbackup : force = true ∨ env.backupInProgress vdc row.id = false)
    (hrefuses : env.refuses vdc row.id = false) :
    self.destroy env vdc force = .ok
      ⟨vdc.hostnameLeases.filter fun l => ¬ (l.1 = row.accountId ∧ l.2 = row.hostname),
        vdc.instances.save { row with
          hostname := downcase row.hostname
          state := some .terminated
          terminatedAt := true }⟩ := by
  unfold destroy
  have hpass : (!force && env.backupInProgress vdc row.id) = false := by
    rcases hbackup with hb | hb
    · rw [hb, Bool.not_true, Bool.false_and]
    · rw [hb, Bool.and_false]
  rw [hself]
  simp only [load, Option.any_some, hpass, hrefuses, Bool.false_eq_true, if_false, save,
    beforeValidation_eq, validate, if_true, beforeSave, Bool.not_false, write, normalized,
    Option.getD_some, Option.some.injEq]

theorem destroy_error {self : Instance} {env : Env} {vdc : Vdc} {id : Nat} {force : Bool}
    (hid : self.id = some id)
    (h : ¬ ((force = true ∨ env.backupInProgress vdc id = false) ∧ env.refuses vdc id = false)) :
    ∃ e, self.destroy env vdc force = .error e := by
  unfold destroy
  rw [hid, Option.any_some, Option.any_some]
  split
  · exact ⟨_, rfl⟩
  · rename_i hb
    rw [if_pos]
    · exact ⟨_, rfl⟩
    · by_contra hr
      refine h ⟨?_, by simpa using hr⟩
      cases force with
      | true => exact .inl rfl
      | false => exact .inr (by simpa using hb)

end Instance

/-! ## One call -/

section
variable {env : Env} {vdc vdc' : Vdc} {row : InstanceRow}

def Vdc.destroyed (vdc : Vdc) (row : InstanceRow) : Vdc :=
  ⟨vdc.hostnameLeases.filter fun l => ¬ (l.1 = row.accountId ∧ l.2 = row.hostname),
    vdc.instances.save { row with
      hostname := downcase row.hostname
      state := some .terminated
      terminatedAt := true }⟩

theorem inStep_destroyed_iff (hs : vdc.InStep) (hrow : row ∈ vdc.instances.rows) :
    (vdc.destroyed row).InStep ↔ (row.terminatedAt = true → row.pair ∉ vdc.holders) := by
  have hleases : ∀ p, p ∈ (vdc.destroyed row).hostnameLeases ↔
      p ∈ vdc.holders ∧ p ≠ row.pair := by
    intro p
    unfold Vdc.destroyed
    rw [Finset.mem_filter, hs.leased, InstanceRow.pair, Ne, Prod.ext_iff]
  constructor
  · intro h ht hmem
    obtain ⟨rest, hp, hp'⟩ := @holders_save vdc (vdc.destroyed row) row _ hrow rfl rfl
    have hgone := (hleases row.pair).not.mpr fun hne => hne.2 rfl
    rw [h.leased, hp'.mem_iff] at hgone
    rw [hp.mem_iff, InstanceRow.held, if_pos ht] at hmem
    exact hgone (by simpa [InstanceRow.held] using hmem)
  · intro hspares
    refine hs.replace hrow rfl rfl (downcase_downcase _) fun rest hp => ?_
    have hnodup := hp.nodup_iff.mp hs.distinct
    have hheld : ({ row with
        hostname := downcase row.hostname
        state := some InstanceState.terminated
        terminatedAt := true } : InstanceRow).held = [] := rfl
    rw [hheld, List.nil_append]
    refine ⟨(List.nodup_append.mp hnodup).2.1, fun p => ?_⟩
    rw [hleases, hp.mem_iff]
    cases ht : row.terminatedAt with
    | true =>
      have hfree := hspares ht
      rw [hp.mem_iff] at hfree
      simp only [InstanceRow.held, ht, if_true, List.nil_append] at hfree ⊢
      constructor
      · exact fun h => h.1
      · intro h
        refine ⟨h, ?_⟩
        rintro rfl
        exact hfree h
    | false =>
      simp only [InstanceRow.held, ht, Bool.false_eq_true, if_false, List.singleton_append,
        List.nodup_cons, List.mem_cons] at hnodup ⊢
      constructor
      · rintro ⟨he | h, hne⟩
        · exact absurd he hne
        · exact h
      · intro h
        refine ⟨.inr h, ?_⟩
        rintro rfl
        exact hnodup.1 h

theorem inStep_createInstance {accountId : Nat} {uuid : Text} {hostname : Option Text}
    (hs : vdc.InStep) (h : vdc.createInstance env accountId uuid hostname = .ok vdc') :
    vdc'.InStep := by
  unfold Vdc.createInstance at h
  split at h
  · cases h
  split at h
  · cases h
  dsimp only at h
  have hnew : ∃ self : Instance, self.id = none ∧ self.terminatedAt = false ∧
      self.updateHostname = false ∧
      self = if hostname.isSome = true then
        (⟨none, accountId, uuid, none, none, false, false, false⟩ : Instance).setHostname hostname
        else ⟨none, accountId, uuid, none, none, false, false, false⟩ := by
    refine ⟨_, ?_, ?_, ?_, rfl⟩ <;> cases hostname <;> rfl
  obtain ⟨self, hid, ht, hflag, hself⟩ := hnew
  rw [← hself] at h
  cases hsave : self.save vdc with
  | error e =>
    rw [hsave] at h
    cases h
  | ok r =>
    obtain ⟨inserted, self'⟩ := r
    rw [hsave] at h
    dsimp only at h
    obtain ⟨row, hrows, hfree, hleases, hterm, hlower, rfl⟩ := Instance.save_new hid ht hflag hsave
    have hholders : inserted.holders = vdc.holders ++ [row.pair] := by
      unfold Vdc.holders
      rw [hrows, List.flatMap_append, List.flatMap_singleton, InstanceRow.held, hterm]
      rfl
    have hinserted : inserted.InStep := by
      refine ⟨?_, ?_, ?_⟩
      · intro p
        rw [hleases, hholders, Finset.mem_insert, hs.leased, List.mem_append, List.mem_singleton,
          or_comm]
      · rw [hholders]
        refine hs.distinct.append (List.nodup_singleton _) ?_
        rw [List.disjoint_singleton, ← hs.leased]
        exact hfree
      · intro x hx
        rw [hrows] at hx
        rcases List.mem_append.mp hx with hx | hx
        · exact hs.lower x hx
        · rw [List.mem_singleton.mp hx]
          exact hlower
    have hrow : row ∈ inserted.instances.rows := by
      rw [hrows]
      exact List.mem_append_right _ (List.mem_singleton_self row)
    split at h
    · cases h
    · rename_i hlast
      cases h
      exact Instance.inStep_save hinserted hrow rfl rfl rfl rfl (fun _ => rfl) hlast

theorem inStep_updateInstance {id : Nat} {data : Data} (hs : vdc.InStep)
    (hstate : data.state ≠ some .terminated)
    (h : vdc.updateInstance env id data = .ok vdc') : vdc'.InStep := by
  unfold Vdc.updateInstance at h
  split at h
  · cases h
  · rename_i row hfind
    have hrow := vdc.instances.mem_of_find hfind
    rw [if_neg hstate] at h
    obtain ⟨state, hostname⟩ := data
    dsimp only at h
    split at h
    · cases h
    · rename_i hsave
      cases h
      refine Instance.inStep_save hs hrow ?_ ?_ ?_ ?_ ?_ hsave <;>
        cases state <;> cases hostname <;> simp [Instance.load, Instance.setHostname, apply_ite]

theorem eq_of_destroys {op : InstanceOp} {row row' : InstanceRow} (h : op.Destroys env vdc row)
    (h' : op.Destroys env vdc row') : row.id = row'.id := by
  cases op with
  | create accountId uuid hostname => exact h.2.elim
  | update id data => exact h.2.1.trans h'.2.1.symm
  | delete id => exact h.2.1.trans h'.2.1.symm
  | scheduleFailed id => exact h.2.1.trans h'.2.1.symm
  | forceDelete id => exact h.2.trans h'.2.symm

theorem step_destroys {op : InstanceOp} (hrow : row ∈ vdc.instances.rows)
    (hd : op.Destroys env vdc row) : op.step env vdc = vdc.destroyed row := by
  have hfind : vdc.instances.find row.id = some row := vdc.instances.find_of_mem hrow
  suffices h : op.run env vdc = .ok (vdc.destroyed row) by
    unfold InstanceOp.step
    rw [h]
  obtain ⟨hrefuses, hd⟩ := hd
  cases op with
  | create accountId uuid hostname => exact hd.elim
  | update id data =>
    obtain ⟨rfl, hdata, hstate, hbackup⟩ := hd
    simp only [InstanceOp.run, Vdc.updateInstance, hfind, hdata, if_true, Vdc.finalizeInstance,
      if_neg hstate]
    exact Instance.destroy_ok rfl (.inr hbackup) hrefuses
  | delete id =>
    obtain ⟨rfl, hready, hstate, hbackup⟩ := hd
    simp only [InstanceOp.run, Vdc.deleteInstance, hfind, hready, hstate, if_true, Bool.not_true,
      Bool.false_eq_true, if_false]
    exact Instance.destroy_ok rfl (.inr hbackup) hrefuses
  | scheduleFailed id =>
    obtain ⟨rfl, hbackup⟩ := hd
    simp only [InstanceOp.run, Vdc.destroyInstance, hfind]
    exact Instance.destroy_ok rfl (.inr hbackup) hrefuses
  | forceDelete id =>
    obtain rfl := hd
    simp only [InstanceOp.run, Vdc.destroyInstance, hfind]
    exact Instance.destroy_ok rfl (.inl rfl) hrefuses

theorem step_keeps {op : InstanceOp} (hs : vdc.InStep)
    (hno : ∀ row ∈ vdc.instances.rows, ¬ op.Destroys env vdc row) : (op.step env vdc).InStep := by
  suffices h : ∀ vdc', op.run env vdc = .ok vdc' → vdc'.InStep by
    unfold InstanceOp.step
    split
    · rename_i vdc' hok
      exact h vdc' hok
    · exact hs
  intro vdc' hok
  cases op with
  | create accountId uuid hostname => exact inStep_createInstance hs hok
  | update id data =>
    by_cases hdata : data.state = some .terminated
    · simp only [InstanceOp.run, Vdc.updateInstance] at hok
      split at hok
      · cases hok
      · rename_i row hfind
        rw [if_pos hdata] at hok
        unfold Vdc.finalizeInstance at hok
        split at hok
        · cases hok
          exact hs
        · rename_i hstate
          obtain ⟨hrow, hid⟩ := vdc.instances.find_eq_some.mp hfind
          obtain ⟨e, he⟩ := @Instance.destroy_error
            { Instance.load row with terminatedAt := true } env vdc row.id false rfl (by
              rintro ⟨hb, hr⟩
              have hb := hb.resolve_left Bool.false_ne_true
              exact hno row hrow ⟨hr, hid, hdata, hstate, hid ▸ hb⟩)
          rw [he] at hok
          cases hok
    · exact inStep_updateInstance hs hdata hok
  | delete id =>
    simp only [InstanceOp.run, Vdc.deleteInstance] at hok
    split at hok
    · cases hok
    · rename_i row hfind
      obtain ⟨hrow, hid⟩ := vdc.instances.find_eq_some.mp hfind
      split at hok
      · cases hok
      · rename_i hready
        split at hok
        · rename_i hstate
          obtain ⟨e, he⟩ := @Instance.destroy_error (Instance.load row) env vdc row.id false rfl (by
            rintro ⟨hb, hr⟩
            have hb := hb.resolve_left Bool.false_ne_true
            exact hno row hrow ⟨hr, hid, by simpa using hready, hstate, hid ▸ hb⟩)
          rw [he] at hok
          cases hok
        · split at hok
          · cases hok
          · cases hok
            exact hs
  | scheduleFailed id =>
    simp only [InstanceOp.run, Vdc.destroyInstance] at hok
    split at hok
    · cases hok
    · rename_i row hfind
      obtain ⟨hrow, hid⟩ := vdc.instances.find_eq_some.mp hfind
      obtain ⟨e, he⟩ := @Instance.destroy_error (Instance.load row) env vdc row.id false rfl (by
        rintro ⟨hb, hr⟩
        have hb := hb.resolve_left Bool.false_ne_true
        exact hno row hrow ⟨hr, hid, hid ▸ hb⟩)
      rw [he] at hok
      cases hok
  | forceDelete id =>
    simp only [InstanceOp.run, Vdc.destroyInstance] at hok
    split at hok
    · cases hok
    · rename_i row hfind
      obtain ⟨hrow, hid⟩ := vdc.instances.find_eq_some.mp hfind
      obtain ⟨e, he⟩ := @Instance.destroy_error (Instance.load row) env vdc row.id true rfl
        fun h => hno row hrow ⟨h.2, hid⟩
      rw [he] at hok
      cases hok

/-- A call keeps the leases in step exactly if it spares the hostnames of the
instances it destroys again. -/
theorem inStep_step_iff (hs : vdc.InStep) (op : InstanceOp) :
    (op.step env vdc).InStep ↔ vdc.Spares env op := by
  by_cases hd : ∃ row ∈ vdc.instances.rows, op.Destroys env vdc row
  · obtain ⟨row, hrow, hd⟩ := hd
    rw [step_destroys hrow hd, inStep_destroyed_iff hs hrow]
    constructor
    · intro h row' hrow' hd'
      rwa [vdc.instances.eq_of_pk hrow' hrow (eq_of_destroys hd' hd)]
    · exact fun h => h row hrow hd
  · have hno : ∀ row ∈ vdc.instances.rows, ¬ op.Destroys env vdc row :=
      fun row hrow hdrow => hd ⟨row, hrow, hdrow⟩
    exact iff_of_true (step_keeps hs hno) fun row hrow hdrow => absurd hdrow (hno row hrow)

/-- Along a run the leases stay in step exactly if no call destroys an instance
again whose hostname has passed to another one. -/
theorem leases_inStep_iff (env : Env) {vdc : Vdc} (hs : vdc.InStep) (ops : List InstanceOp) :
    Each (InstanceOp.step env) (fun vdc op => (op.step env vdc).InStep) vdc ops ↔
      Each (InstanceOp.step env) (Vdc.Spares env) vdc ops :=
  each_congr_of Vdc.InStep (fun _ _ _ h => h) (fun _ op h => inStep_step_iff h op) hs

end

/-! ## One name, used twice -/

instance (env : Env) (vdc : Vdc) (op : InstanceOp) (row : InstanceRow) :
    Decidable (op.Destroys env vdc row) := by
  unfold InstanceOp.Destroys
  cases op <;> infer_instance

instance (env : Env) (vdc : Vdc) (op : InstanceOp) : Decidable (vdc.Spares env op) :=
  inferInstanceAs (Decidable (∀ row ∈ vdc.instances.rows, op.Destroys env vdc row →
    row.terminatedAt = true → row.pair ∉ vdc.holders))

def noInstances : Vdc := ⟨∅, .empty⟩

def permissive : Env := ⟨fun _ _ => true, fun _ _ => false, fun _ _ => true, fun _ _ => false⟩

theorem noInstances_inStep : noInstances.InStep where
  leased := fun _ => iff_of_false (Finset.notMem_empty _) List.not_mem_nil
  distinct := List.nodup_nil
  lower := fun _ h => absurd h List.not_mem_nil

def reported (state : InstanceState) : Data := ⟨some state, none⟩

theorem leases_inStep_renamed :
    Each (InstanceOp.step permissive) (fun vdc op => (op.step permissive vdc).InStep) noInstances
      [.create 1 "a".toList (some "Web".toList), .update 1 ⟨none, some (some "WEB".toList)⟩,
        .create 1 "b".toList (some "db".toList), .update 1 ⟨none, some (some "db".toList)⟩,
        .update 1 ⟨none, some (some "www".toList)⟩, .update 1 (reported .terminated)] :=
  (leases_inStep_iff permissive noInstances_inStep _).mpr (by
    refine ⟨?_, ?_, ?_, ?_, ?_, ?_, trivial⟩ <;> decide +kernel)

/-- A late report of the host node makes the terminated instance look alive, and it
is terminated once more while another instance has its name. -/
theorem lease_of_successor :
    noInstances.InStep ∧
      ¬ Each (InstanceOp.step permissive) (fun vdc op => (op.step permissive vdc).InStep) noInstances
        [.create 1 "a".toList (some "web".toList), .update 1 (reported .terminated),
          .create 1 "b".toList (some "web".toList), .update 1 (reported .halted),
          .update 1 (reported .terminated)] := by
  refine ⟨noInstances_inStep, fun h => ?_⟩
  have hlast := (each_iff_cut.mp h [.create 1 "a".toList (some "web".toList),
    .update 1 (reported .terminated), .create 1 "b".toList (some "web".toList),
    .update 1 (reported .halted)] (.update 1 (reported .terminated)) [] rfl).leased
      (1, "web".toList)
  revert hlast
  decide +kernel

end Hostname

end WakameVdc
