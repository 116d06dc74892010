import WakameVdc.VolumeAttach

/-!
# A volume is in one machine

While requests are made one at a time for each volume and instance, a volume is plugged into
no machine but the one its row names, whatever the jobs do in between and however they fail.
-/

namespace WakameVdc

open Lib

namespace VolumeAttach

open Scheduler (InstanceState VolumeState)
open Sessions (Outcome)

/-! ## The invariant -/

def Job.Ok (s : Sys) : Job → Prop
  | .attach i v _ => (s.volume v).instanceId = some i
  | .detach i v p => (s.volume v).instanceId = some i ∧ (p = .unplugged → ∀ x, s.plugged v x = false)
  | .poweron _ .failed => True
  | .poweron i p => (s.inst i).state = .starting ∧
    match p with
    | .read named | .starting named => ∀ v, named v = true → (s.volume v).instanceId = some i
    | _ => True
  | .poweroff i p => (s.inst i).state = .halting ∧ (p = .off → (s.inst i).up = false)

structure Inv (s : Sys) : Prop where
  named : ∀ v i, s.plugged v i = true → (s.volume v).instanceId = some i ∧ (s.inst i).up = true
  halted : ∀ i, (s.inst i).state = .halted → (s.inst i).up = false
  jobs : Sessions.All (Job.Ok s) s.jobs
  apart : Sessions.Apart Job.clash s.jobs

section
variable {s : Sys} {k i v : Nat} {j j' : Job}

theorem inv_cold (h : Cold s) : Inv s where
  named v i hp := by
    rw [h.plugged] at hp
    cases hp
  halted i _ := h.down i
  jobs := by
    rw [h.jobs]
    exact Sessions.all_empty
  apart := by
    rw [h.jobs]
    exact Sessions.apart_empty

theorem Inv.exclusive (h : Inv s) : Exclusive s where
  named v i hp := (h.named v i hp).1
  once v i i' hp hp' := Option.some.inj ((h.named v i hp).1.symm.trans (h.named v i' hp').1)
  attaching k _ _ _ hj := h.jobs k _ hj

theorem Inv.ok (h : Inv s) (hk : s.jobs.lookup k = some j) : j.Ok s := h.jobs k j hk

theorem Inv.eq_of_clash (h : Inv s) {k' : Nat} (hk : s.jobs.lookup k = some j)
    (hk' : s.jobs.lookup k' = some j') (hc : j.clash j') : j = j' := by
  rw [h.apart k k' j j' hk hk' hc] at hk
  exact Option.some.inj (hk.symm.trans hk')

theorem clash_volume (hj : j.volumeId = some v) (hj' : j'.volumeId = some v) : j.clash j' :=
  Or.inl ⟨v, hj, hj'⟩

/-- What a job relies on still holds where its rows and its machine are as they were. -/
theorem Job.Ok.transport {t : Sys} (hj : j.Ok s)
    (hname : ∀ x, (j.volumeId = some x ∨ j.power = true) →
      (s.volume x).instanceId = some j.instanceId → (t.volume x).instanceId = some j.instanceId)
    (hplug : ∀ i x, j = .detach i x .unplugged → (∀ y, s.plugged x y = false) → ∀ y, t.plugged x y = false)
    (hstate : j.power = true → (t.inst j.instanceId).state = (s.inst j.instanceId).state)
    (hup : ∀ i, j = .poweroff i .off → (s.inst i).up = false → (t.inst i).up = false) : j.Ok t := by
  cases j with
  | attach i v p => exact hname v (Or.inl rfl) hj
  | detach i v p => exact ⟨hname v (Or.inl rfl) hj.1, fun hp => hplug i v (by rw [hp]) (hj.2 hp)⟩
  | poweroff i p =>
    have hs := hstate rfl
    exact ⟨hs.trans hj.1, fun hp => hup i (by rw [hp]) (hj.2 hp)⟩
  | poweron i p =>
    cases p with
    | failed => trivial
    | submitted => exact ⟨(hstate rfl).trans hj.1, trivial⟩
    | on => exact ⟨(hstate rfl).trans hj.1, trivial⟩
    | read named => exact ⟨(hstate rfl).trans hj.1, fun v hv => hname v (Or.inr rfl) (hj.2 v hv)⟩
    | starting named => exact ⟨(hstate rfl).trans hj.1, fun v hv => hname v (Or.inr rfl) (hj.2 v hv)⟩

/-! ## Jobs that come, go on and end -/

theorem Job.Ok.submit (hj : j.Ok s) (k : Nat) (j' : Job) : j.Ok (s.submit k j') :=
  hj.transport (fun _ _ h => h) (fun _ _ _ h => h) (fun _ => rfl) fun _ _ h => h

theorem Job.Ok.finish (hj : j.Ok s) (k : Nat) : j.Ok (s.finish k) :=
  hj.transport (fun _ _ h => h) (fun _ _ _ h => h) (fun _ => rfl) fun _ _ h => h

theorem Inv.finish (h : Inv s) (k : Nat) : Inv (s.finish k) where
  named := h.named
  halted := h.halted
  jobs := (h.jobs.mono fun _ _ _ hj => hj.finish k).erase
  apart := h.apart.erase

/-- The job makes its next call; it stays the job of its volume and its instance. -/
theorem Inv.advance (h : Inv s) (hk : s.jobs.lookup k = some j) (hi : j'.instanceId = j.instanceId)
    (hv : j'.volumeId = j.volumeId) (hp : j'.power = true → j.power = true) (hj : j'.Ok s) :
    Inv (s.submit k j') where
  named := h.named
  halted := h.halted
  jobs := (h.jobs.mono fun _ _ _ hx => hx.submit k _).insert (hj.submit k _)
  apart := h.apart.advance hk fun y => by
    unfold Job.clash
    rw [hi, hv]
    exact ⟨Or.imp_right (And.imp_right (Or.imp_left hp)), Or.imp_right (And.imp_right (Or.imp_right hp))⟩

theorem Inv.submit (h : Inv s) (hj : j.Ok s)
    (hc : ∀ k' y, s.jobs.lookup k' = some y → ¬ j.clash y ∧ ¬ y.clash j) : Inv (s.submit k j) where
  named := h.named
  halted := h.halted
  jobs := (h.jobs.mono fun _ _ _ hx => hx.submit k _).insert (hj.submit k _)
  apart := h.apart.insert fun x y _ hy => hc x y hy

theorem not_mem_finish (s : Sys) (k : Nat) {x : Nat} (hx : (s.finish k).jobs.lookup x = some j) :
    x ≠ k ∧ s.jobs.lookup x = some j := by
  unfold Sys.finish at hx
  rw [Hash.lookup_erase] at hx
  split at hx
  · cases hx
  · exact ⟨by assumption, hx⟩

/-! ## Writes -/

theorem volume_setVolumeState (v : Nat) (state : VolumeState) (x : Nat) :
    ((s.setVolumeState v state).volume x).instanceId = (s.volume x).instanceId := by
  unfold Sys.setVolumeState Sys.setVolume
  dsimp only
  split
  · rfl
  · rfl

theorem Inv.setVolumeState (h : Inv s) (v : Nat) (state : VolumeState) : Inv (s.setVolumeState v state) where
  named x y hp := by
    rw [volume_setVolumeState]
    exact h.named x y hp
  halted := h.halted
  jobs := h.jobs.mono fun _ _ _ hj =>
    hj.transport (fun x _ hx => (volume_setVolumeState v state x).trans hx) (fun _ _ _ hp => hp)
      (fun _ => rfl) fun _ _ hu => hu
  apart := h.apart

theorem Inv.unplug (h : Inv s) (v i : Nat) : Inv (s.unplug v i) where
  named x y hp := h.named x y (Bool.and_eq_true_iff.mp hp).1
  halted := h.halted
  jobs := h.jobs.mono fun _ _ _ hj =>
    hj.transport (fun _ _ hx => hx) (fun _ x _ hp y => by simp [Sys.unplug, hp y]) (fun _ => rfl) fun _ _ hu => hu
  apart := h.apart

theorem up_turnOff (i : Nat) {x : Nat} (hx : (s.inst x).up = false) : ((s.turnOff i).inst x).up = false := by
  unfold Sys.turnOff
  dsimp only
  split
  · rfl
  · exact hx

theorem state_turnOff (i x : Nat) : ((s.turnOff i).inst x).state = (s.inst x).state := by
  unfold Sys.turnOff
  dsimp only
  split
  · rfl
  · rfl

theorem Inv.turnOff (h : Inv s) (i : Nat) : Inv (s.turnOff i) where
  named x y hp := by
    obtain ⟨hp, hy⟩ := Bool.and_eq_true_iff.mp hp
    obtain ⟨hn, hu⟩ := h.named x y hp
    refine ⟨hn, ?_⟩
    unfold Sys.turnOff
    dsimp only
    rw [if_neg (bne_iff_ne.mp hy)]
    exact hu
  halted x hx := up_turnOff i (h.halted x ((state_turnOff i x).symm.trans hx))
  jobs := h.jobs.mono fun _ _ _ hj =>
    hj.transport (fun _ _ hx => hx) (fun _ x _ hp y => by simp [Sys.turnOff, hp y])
      (fun _ => state_turnOff i _) fun _ _ hu => up_turnOff i hu
  apart := h.apart

theorem Inv.plug (h : Inv s) {p : Attach} (hk : s.jobs.lookup k = some (.attach i v p)) : Inv (s.plug v i) where
  named x y hp := by
    rcases Bool.or_eq_true_iff.mp hp with hp | hp
    · exact h.named x y hp
    · simp only [Bool.and_eq_true, beq_iff_eq] at hp
      obtain ⟨⟨rfl, rfl⟩, hu⟩ := hp
      exact ⟨h.ok hk, hu⟩
  halted := h.halted
  jobs := h.jobs.mono fun k' j hj' hj =>
    hj.transport (fun _ _ hx => hx) (fun i' x he hp y => by
      have hx : x ≠ v := by
        rintro rfl
        have hc := h.eq_of_clash hk hj' (clash_volume rfl (by rw [he]; rfl))
        rw [he] at hc
        cases hc
      simp [Sys.plug, hp y, hx]) (fun _ => rfl) fun _ _ hu => hu
  apart := h.apart

/-- A poweron job turns its machine on, with the volumes whose rows name the instance. -/
theorem Inv.turnOn (h : Inv s) {named : Nat → Bool} (hk : s.jobs.lookup k = some (.poweron i (.starting named))) :
    Inv (s.turnOn i named) where
  named x y hp := by
    rcases Bool.or_eq_true_iff.mp hp with hp | hp
    · obtain ⟨hx, hu⟩ := h.named x y hp
      refine ⟨hx, ?_⟩
      unfold Sys.turnOn
      dsimp only
      split
      · rfl
      · exact hu
    · simp only [Bool.and_eq_true, beq_iff_eq] at hp
      obtain ⟨rfl, hx⟩ := hp
      refine ⟨(h.ok hk).2 x hx, ?_⟩
      unfold Sys.turnOn
      dsimp only
      rw [if_pos rfl]
  halted x hx := by
    unfold Sys.turnOn at hx ⊢
    dsimp only at hx ⊢
    split at hx
    · rename_i hxi
      rw [hxi] at hx
      have hs : (s.inst i).state = .starting := (h.ok hk).1
      rw [show (s.inst i).state = .halted from hx] at hs
      cases hs
    · rename_i hxi
      rw [if_neg hxi]
      exact h.halted x hx
  jobs := h.jobs.mono fun k' j hj' hj => by
    have hpower : j.instanceId = i → j = .poweron i (.starting named) := by
      intro hi
      exact (h.eq_of_clash hk hj' (Or.inr ⟨hi.symm, Or.inl rfl⟩)).symm
    refine hj.transport (fun _ _ hx => hx) (fun i' x he hp y => ?_) (fun _ => ?_) fun x he hu => ?_
    · have hi : i' ≠ i := by
        rintro rfl
        have hc := hpower (by rw [he]; rfl)
        rw [he] at hc
        cases hc
      have hx : named x = false := by
        rw [← Bool.not_eq_true]
        intro hx
        rw [he] at hj
        exact hi (Option.some.inj (hj.1.symm.trans ((h.ok hk).2 x hx)))
      simp [Sys.turnOn, hp y, hx]
    · unfold Sys.turnOn
      dsimp only
      split
      · rfl
      · rfl
    · unfold Sys.turnOn
      dsimp only
      split
      · rename_i hi
        have hc := hpower (by rw [he]; exact hi)
        rw [he] at hc
        cases hc
      · exact hu
  apart := h.apart

/-- A volume is taken from its instance while it is plugged in nowhere and no job is about it. -/
theorem Inv.release (h : Inv s) (hp : ∀ x, s.plugged v x = false)
    (hv : ∀ k j, s.jobs.lookup k = some j → j.volumeId ≠ some v)
    (hi : ∀ k j, s.jobs.lookup k = some j → j.power = true → (s.volume v).instanceId ≠ some j.instanceId) :
    Inv (s.release v) where
  named x y hx := by
    have hne : x ≠ v := by
      rintro rfl
      have hy := hp y
      rw [show s.plugged x y = true from hx] at hy
      cases hy
    unfold Sys.release Sys.setVolume
    dsimp only
    rw [if_neg hne]
    exact h.named x y hx
  halted := h.halted
  jobs := h.jobs.mono fun k' j hk hj => by
    refine hj.transport (fun x hx hn => ?_) (fun _ _ _ hu => hu) (fun _ => rfl) fun _ _ hu => hu
    have hne : x ≠ v := by
      rintro rfl
      rcases hx with hx | hx
      · exact hv k' j hk hx
      · exact hi k' j hk hx hn
    unfold Sys.release Sys.setVolume
    dsimp only
    rw [if_neg hne]
    exact hn
  apart := h.apart

/-- A volume without an instance gets one; one that has this instance keeps it. -/
theorem Inv.addVolume (h : Inv s) (hn : (s.volume v).instanceId = none ∨ (s.volume v).instanceId = some i) :
    Inv (s.setVolume v fun x => { x with instanceId := some i }) := by
  have hkeep : ∀ x y, (s.volume x).instanceId = some y →
      ((s.setVolume v fun x => { x with instanceId := some i }).volume x).instanceId = some y := by
    intro x y hx
    unfold Sys.setVolume
    dsimp only
    split
    · rename_i hxv
      rw [hxv] at hx
      rcases hn with hn | hn
      · rw [hn] at hx
        cases hx
      · exact hn.symm.trans hx
    · exact hx
  exact {
    named := fun x y hp => ⟨hkeep x y (h.named x y hp).1, (h.named x y hp).2⟩
    halted := h.halted
    jobs := h.jobs.mono fun _ _ _ hj =>
      hj.transport (fun x _ hx => hkeep x _ hx) (fun _ _ _ hu => hu) (fun _ => rfl) fun _ _ hu => hu
    apart := h.apart }

theorem up_setState (i : Nat) (state : InstanceState) (x : Nat) :
    ((s.setState i state).inst x).up = (s.inst x).up := by
  unfold Sys.setState
  dsimp only
  split
  · rfl
  · rfl

/-- The state of an instance is written while no job turns it on or off. -/
theorem Inv.setState (h : Inv s) {state : InstanceState}
    (hj : ∀ k j, s.jobs.lookup k = some j → j.power = true → j.instanceId ≠ i)
    (hs : state = .halted → (s.inst i).up = false) : Inv (s.setState i state) where
  named x y hp := ⟨(h.named x y hp).1, (up_setState i state y).trans (h.named x y hp).2⟩
  halted x hx := by
    rw [up_setState]
    unfold Sys.setState at hx
    dsimp only at hx
    split at hx
    · rename_i hxi
      rw [hxi]
      exact hs hx
    · exact h.halted x hx
  jobs := h.jobs.mono fun k j hk hjo =>
    hjo.transport (fun _ _ hx => hx) (fun _ _ _ hu => hu) (fun hv => by
      unfold Sys.setState
      dsimp only
      rw [if_neg (hj k j hk hv)]) fun _ _ hu => (up_setState ..).trans hu
  apart := h.apart

theorem setState_self {state : InstanceState} (hs : (s.inst i).state = state) : s.setState i state = s := by
  unfold Sys.setState
  congr 1
  funext x
  split
  · rename_i hx
    rw [hx, ← hs]
  · rfl

/-! ## Requests -/

theorem clash_comm : j.clash j' ↔ j'.clash j := by
  unfold Job.clash
  constructor
  · rintro (⟨v, h, h'⟩ | ⟨h, h'⟩)
    · exact Or.inl ⟨v, h', h⟩
    · exact Or.inr ⟨h.symm, h'.symm⟩
  · rintro (⟨v, h, h'⟩ | ⟨h, h'⟩)
    · exact Or.inl ⟨v, h', h⟩
    · exact Or.inr ⟨h.symm, h'.symm⟩

theorem idleVolume_iff : s.idleVolume v = true ↔ ∀ k j, s.jobs.lookup k = some j → j.volumeId ≠ some v := by
  unfold Sys.idleVolume
  simp only [List.all_eq_true, Hash.mem_values, bne_iff_ne]
  constructor
  · exact fun h k j hj => h j ⟨k, hj⟩
  · rintro h j ⟨k, hj⟩
    exact h k j hj

theorem idleInstance_iff : s.idleInstance i = true ↔ ∀ k j, s.jobs.lookup k = some j → j.instanceId ≠ i := by
  unfold Sys.idleInstance
  simp only [List.all_eq_true, Hash.mem_values, bne_iff_ne]
  constructor
  · exact fun h k j hj => h j ⟨k, hj⟩
  · rintro h j ⟨k, hj⟩
    exact h k j hj

theorem ready_cases (h : s.ready i = true) : (s.inst i).state = .running ∨ (s.inst i).state = .halted := by
  simp only [Sys.ready, Bool.and_eq_true, Bool.or_eq_true, beq_iff_eq] at h
  exact h.2

/-- An instance that runs or is halted is turned on or off by no job. -/
theorem Inv.not_power (h : Inv s) (hr : s.ready i = true) :
    ∀ k j, s.jobs.lookup k = some j → j.power = true → j.instanceId ≠ i := by
  rintro k j hk hv rfl
  have hs : (s.inst j.instanceId).state = .starting ∨ (s.inst j.instanceId).state = .halting := by
    cases j with
    | attach i v p => cases hv
    | detach i v p => cases hv
    | poweroff i p => exact Or.inr (h.ok hk).1
    | poweron i p =>
      cases p with
      | failed => cases hv
      | submitted => exact Or.inl (h.ok hk).1
      | read named => exact Or.inl (h.ok hk).1
      | starting named => exact Or.inl (h.ok hk).1
      | on => exact Or.inl (h.ok hk).1
  rcases ready_cases hr with hr | hr
  · rw [hr] at hs
    simp at hs
  · rw [hr] at hs
    simp at hs

theorem Inv.submitVolume (h : Inv s) (hj : j.Ok s) (hv : j.volumeId = some v) (hp : j.power = false)
    (hidle : s.idleVolume v = true) (hr : s.ready j.instanceId = true) (k : Nat) : Inv (s.submit k j) := by
  refine h.submit hj fun k' y hk => ?_
  have hc : ¬ j.clash y := by
    rintro (⟨x, hx, hy⟩ | ⟨hi, hx | hy⟩)
    · rw [hv] at hx
      cases hx
      exact idleVolume_iff.mp hidle k' y hk hy
    · rw [hp] at hx
      cases hx
    · exact h.not_power hr k' y hk hy hi.symm
  exact ⟨hc, fun h => hc (clash_comm.mp h)⟩

theorem Inv.submitPower (h : Inv s) (hj : j.Ok s) (hv : j.volumeId = none)
    (hidle : s.idleInstance j.instanceId = true) (k : Nat) : Inv (s.submit k j) := by
  refine h.submit hj fun k' y hk => ?_
  have hc : ¬ j.clash y := by
    rintro (⟨x, hx, hy⟩ | ⟨hi, _⟩)
    · rw [hv] at hx
      cases hx
    · exact idleInstance_iff.mp hidle k' y hk hi.symm
  exact ⟨hc, fun h => hc (clash_comm.mp h)⟩

theorem Inv.attach (h : Inv s) (hf : Fits s (.attach k v i)) : Inv (s.attach k v i) := by
  obtain ⟨_, hidle, hn⟩ := hf
  unfold Sys.attach
  split
  · exact h
  · rename_i hr
    split
    · exact h
    · have ht := h.addVolume hn
      have hr : s.ready i = true := by simpa using hr
      dsimp only
      split
      · refine ht.submitVolume (j := .attach i v .submitted) ?_ rfl rfl hidle hr k
        show ((s.setVolume v fun x => { x with instanceId := some i }).volume v).instanceId = some i
        unfold Sys.setVolume
        dsimp only
        rw [if_pos rfl]
      · exact ht.setVolumeState v .attached

theorem Inv.detach (h : Inv s) (hf : Fits s (.detach k v)) : Inv (s.detach k v) := by
  obtain ⟨_, hidle⟩ := hf
  unfold Sys.detach
  split
  · exact h
  · rename_i i hi
    split
    · exact h
    · split
      · exact h
      · rename_i hr
        have hr : s.ready i = true := by simpa using hr
        split
        · exact h.submitVolume (j := .detach i v .submitted) ⟨hi, fun he => by cases he⟩ rfl rfl hidle hr k
        · rename_i hrun
          have hdown : (s.inst i).up = false := h.halted i ((ready_cases hr).resolve_left hrun)
          refine h.release (fun x => ?_) (idleVolume_iff.mp hidle) fun k' j hk hv hx => ?_
          · rw [← Bool.not_eq_true]
            intro hp
            obtain ⟨hx, hu⟩ := h.named v x hp
            cases hi.symm.trans hx
            rw [hdown] at hu
            cases hu
          · exact h.not_power hr k' j hk hv (Option.some.inj (hx.symm.trans hi))

theorem state_setState (s : Sys) (i : Nat) (state : InstanceState) : ((s.setState i state).inst i).state = state := by
  unfold Sys.setState
  dsimp only
  rw [if_pos rfl]

theorem Inv.poweron (h : Inv s) (hf : Fits s (.poweron k i)) : Inv (s.poweron k i) := by
  obtain ⟨_, hidle⟩ := hf
  unfold Sys.poweron
  split
  · exact h
  · have ht : Inv (s.setState i .starting) := h.setState (fun k j hk _ => idleInstance_iff.mp hidle k j hk)
      fun he => by cases he
    exact ht.submitPower (j := .poweron i .submitted) ⟨state_setState s i _, trivial⟩ rfl hidle k

theorem Inv.poweroff (h : Inv s) {force : Bool} (hf : Fits s (.poweroff k i force)) :
    Inv (s.poweroff k i force) := by
  obtain ⟨_, hidle⟩ := hf
  unfold Sys.poweroff
  split
  · exact h
  · have ht : Inv (s.setState i .halting) := h.setState (fun k j hk _ => idleInstance_iff.mp hidle k j hk)
      fun he => by cases he
    refine ht.submitPower (j := .poweroff i (if force then .submitted else .soft)) ⟨state_setState s i _, ?_⟩
      rfl hidle k
    cases force with
    | true => exact fun he => by cases he
    | false => exact fun he => by cases he

/-! ## Calls of the jobs -/

theorem Inv.when (h : Inv s) {b : Bool} {f : Sys → Sys} (hf : b = true → Inv (f s)) : Inv (s.when b f) := by
  cases b with
  | true => exact hf rfl
  | false => exact h

theorem lookup_when {b : Bool} {f : Sys → Sys} (hf : (f s).jobs = s.jobs)
    (hk : s.jobs.lookup k = some j) : (s.when b f).jobs.lookup k = some j := by
  cases b with
  | true =>
    show (f s).jobs.lookup k = some j
    rw [hf]
    exact hk
  | false => exact hk

theorem Inv.toAttach (h : Inv s) {p : Attach} (hk : s.jobs.lookup k = some (.attach i v p)) (p' : Attach) :
    Inv (s.submit k (.attach i v p')) := by
  have hn : (s.volume v).instanceId = some i := h.ok hk
  exact h.advance hk rfl rfl id hn

theorem Inv.execAttach (h : Inv s) {p : Attach} (hk : s.jobs.lookup k = some (.attach i v p)) (o : Outcome) :
    Inv (s.execAttach k i v o p) := by
  have hstate : ∀ state, Inv (s.when o.written fun s => s.setVolumeState v state) ∧
      (s.when o.written fun s => s.setVolumeState v state).jobs.lookup k = some (.attach i v p) :=
    fun state => ⟨h.when fun _ => h.setVolumeState v state, lookup_when rfl hk⟩
  cases p with
  | submitted =>
    rw [Sys.execAttach]
    split
    · exact h.toAttach hk _
    · exact h.toAttach hk _
  | read named =>
    rw [Sys.execAttach]
    split
    · exact h.toAttach hk _
    · exact h.toAttach hk _
  | checked named => exact (hstate .attaching).1.toAttach (hstate .attaching).2 _
  | marked named =>
    rw [Sys.execAttach]
    split
    · exact h.toAttach hk _
    · have hp : Inv (s.when o.acts fun s => s.plug v i) := h.when fun _ => h.plug hk
      exact hp.toAttach (lookup_when rfl hk) _
  | plugged =>
    obtain ⟨hs, hl⟩ := hstate .attached
    rw [Sys.execAttach]
    split
    · exact hs.toAttach hl .failed
    · exact hs.finish k
  | failed =>
    rw [Sys.execAttach]
    exact (h.finish k).when fun _ => (h.finish k).setVolumeState v .available

theorem Inv.execDetach (h : Inv s) {p : Detach} (hk : s.jobs.lookup k = some (.detach i v p)) {o : Outcome}
    (he : (Job.detach i v p).ends s o = true) : Inv (s.execDetach k i v o p) := by
  have hn : (s.volume v).instanceId = some i := (h.ok hk).1
  cases p with
  | submitted =>
    rw [Sys.execDetach]
    split
    · exact h.finish k
    · exact h.advance hk rfl rfl id ⟨hn, fun he => by cases he⟩
  | checked =>
    have hs : Inv (s.when o.written fun s => s.setVolumeState v .detaching) :=
      h.when fun _ => h.setVolumeState v .detaching
    have hl := lookup_when (b := o.written) (f := fun s => s.setVolumeState v .detaching) rfl hk
    rw [Sys.execDetach]
    split
    · exact hs.finish k
    · exact hs.advance hl rfl rfl id ⟨(hs.ok hl).1, fun he => by cases he⟩
  | marked =>
    have hs : Inv (s.when o.acts fun s => s.unplug v i) := h.when fun _ => h.unplug v i
    have hl := lookup_when (b := o.acts) (f := fun s => s.unplug v i) rfl hk
    rw [Sys.execDetach]
    split
    · exact hs.finish k
    · rename_i hr
      refine hs.advance hl rfl rfl id ⟨(hs.ok hl).1, fun _ x => ?_⟩
      -- only the instance of the row had it, and there it was taken out
      have ha : o.acts = true := by simpa [Job.ends, hr] using he
      rw [ha]
      rw [← Bool.not_eq_true]
      intro hx
      obtain ⟨hp, hx⟩ := Bool.and_eq_true_iff.mp (show (s.plugged v x && !(v == v && x == i)) = true from hx)
      obtain rfl := Option.some.inj ((h.named v x hp).1.symm.trans hn)
      simp at hx
  | unplugged =>
    have hgone : ∀ x, s.plugged v x = false := (h.ok hk).2 rfl
    rw [Sys.execDetach]
    refine (h.finish k).when fun _ => (h.finish k).release hgone (fun k' j hj hv => ?_) fun k' j hj hv hx => ?_
    · obtain ⟨hne, hj⟩ := not_mem_finish s k hj
      exact hne (h.apart k' k j _ hj hk (clash_volume hv rfl))
    · obtain ⟨hne, hj⟩ := not_mem_finish s k hj
      have hi : j.instanceId = i := Option.some.inj (hx.symm.trans hn)
      exact hne (h.apart k' k j _ hj hk (Or.inr ⟨hi, Or.inl hv⟩))

/-- When a job is through, no other one turns an instance on or off that the job was about. -/
theorem Inv.finish_power (h : Inv s) (hk : s.jobs.lookup k = some j) :
    ∀ k' y, (s.finish k).jobs.lookup k' = some y → y.power = true → y.instanceId ≠ j.instanceId := by
  intro k' y hy hp hi
  obtain ⟨hne, hy⟩ := not_mem_finish s k hy
  exact hne (h.apart k' k y j hy hk (Or.inr ⟨hi, Or.inl hp⟩))

theorem Inv.execPoweron (h : Inv s) {p : Poweron} (hk : s.jobs.lookup k = some (.poweron i p)) {o : Outcome}
    (he : (Job.poweron i p).ends s o = true) : Inv (s.execPoweron k i o p) := by
  have hfail : Inv (s.submit k (.poweron i .failed)) := h.advance hk rfl rfl (fun hp => by cases hp) trivial
  cases p with
  | submitted =>
    have hs : (s.inst i).state = .starting := (h.ok hk).1
    rw [Sys.execPoweron]
    split
    · exact hfail
    · exact h.advance hk rfl rfl id ⟨hs, fun v hv => by simpa using hv⟩
  | read named =>
    obtain ⟨hs, hp⟩ := h.ok hk
    have hself : (s.when o.written fun s => s.setState i .starting) = s := by
      unfold Sys.when
      split
      · exact setState_self hs
      · rfl
    rw [Sys.execPoweron]
    rw [hself]
    split
    · exact hfail
    · exact h.advance hk rfl rfl id ⟨hs, hp⟩
  | starting named =>
    have hs : (s.inst i).state = .starting := (h.ok hk).1
    have hon : Inv (s.when o.acts fun s => s.turnOn i named) := h.when fun _ => h.turnOn hk
    have hl := lookup_when (b := o.acts) (f := fun s => s.turnOn i named) rfl hk
    rw [Sys.execPoweron]
    split
    · exact hon.advance hl rfl rfl (fun hp => by cases hp) trivial
    · exact hon.advance hl rfl rfl id ⟨(hon.ok hl).1, trivial⟩
  | on =>
    rw [Sys.execPoweron]
    split
    · refine hfail.when fun _ => hfail.setState (fun k' y hy hp hi => ?_) fun he => by cases he
      -- the job itself turns nothing on any more
      rw [show (s.submit k (.poweron i .failed)).jobs = s.jobs.insert k (.poweron i .failed) from rfl,
        Hash.lookup_insert] at hy
      split at hy
      · cases hy
        cases hp
      · rename_i hne
        exact hne (h.apart k' k y _ hy hk (Or.inr ⟨hi, Or.inl hp⟩))
    · exact (h.finish k).when fun _ => (h.finish k).setState (h.finish_power hk) fun he => by cases he
  | failed =>
    rw [Sys.execPoweron]
    refine (h.finish k).when fun hw => (h.finish k).setState (h.finish_power hk) fun _ => ?_
    -- the block writes while the machine is down
    show (s.inst i).up = false
    simpa [Job.ends, hw] using he

theorem Inv.execPoweroff (h : Inv s) {p : Poweroff} (hk : s.jobs.lookup k = some (.poweroff i p)) {o : Outcome}
    (he : (Job.poweroff i p).ends s o = true) : Inv (s.execPoweroff k i o p) := by
  obtain ⟨hs, hp⟩ := h.ok hk
  cases p with
  | submitted =>
    have ht : Inv (s.when o.acts fun s => s.turnOff i) := h.when fun _ => h.turnOff i
    have hl := lookup_when (b := o.acts) (f := fun s => s.turnOff i) rfl hk
    rw [Sys.execPoweroff]
    split
    · exact ht.finish k
    · rename_i hr
      refine ht.advance hl rfl rfl id ⟨(ht.ok hl).1, fun _ => ?_⟩
      have ha : o.acts = true := by simpa [Job.ends, hr] using he
      rw [ha]
      show ((s.turnOff i).inst i).up = false
      unfold Sys.turnOff
      dsimp only
      rw [if_pos rfl]
  | off =>
    rw [Sys.execPoweroff]
    exact (h.finish k).when fun _ => (h.finish k).setState (h.finish_power hk) fun _ => hp rfl
  | soft => exact h.finish k

/-! ## Runs -/

theorem inv_step (h : Inv s) {a : Step} (hf : Fits s a) : Inv (s.step a) := by
  cases a with
  | attach k v i => exact h.attach hf
  | detach k v => exact h.detach hf
  | poweron k i => exact h.poweron hf
  | poweroff k i force => exact h.poweroff hf
  | lose k => exact h.finish k
  | crash i => exact h.turnOff i
  | recover i => exact h.setState (fun k j hk _ => idleInstance_iff.mp hf.2 k j hk) fun _ => hf.1
  | run k o =>
    unfold Sys.step
    dsimp only
    cases hk : s.jobs.lookup k with
    | none => exact h
    | some j =>
      have he : j.ends s o = true := hf j hk
      cases j with
      | attach i v p => exact h.execAttach hk o
      | detach i v p => exact h.execDetach hk he
      | poweron i p => exact h.execPoweron hk he
      | poweroff i p => exact h.execPoweroff hk he

/-- In every run, whatever the order of requests and calls, a volume is plugged into one machine
at most, and that is the one of the instance its row names. -/
theorem attached_to_one (h0 : Cold s) {steps : List Step} (h : Each Sys.step Fits s steps) :
    Exclusive (steps.foldl Sys.step s) :=
  (Each.invariant Inv (fun _ _ hi hf => inv_step hi hf) h (inv_cold h0)).exclusive

/-! ### A volume that goes from one machine to another -/

def twoInstances : Sys where
  volume _ := ⟨.available, none⟩
  inst i := ⟨.halted, false, 100 + i, false⟩
  plugged _ _ := false
  jobs := ∅

def runs (k n : Nat) : List Step := List.replicate n (.run k ⟨true, false⟩)

/-- The volume is attached to the halted first instance, whose first start ends in an error after
the machine is up and has its second try once it is down. Then the instance gives the volume away
to the second one. -/
def handOver : List Step :=
  .attach 0 7 1 :: .poweron 1 1 :: runs 1 3 ++ .run 1 ⟨true, true⟩ :: .crash 1 :: runs 1 1 ++
    .poweron 2 1 :: runs 2 4 ++ .detach 3 7 :: runs 3 4 ++ .poweron 4 2 :: runs 4 4 ++
    .attach 5 7 2 :: runs 5 5

theorem attached_to_one_handOver :
    Exclusive (handOver.foldl Sys.step twoInstances) ∧ (handOver.foldl Sys.step twoInstances).plugged 7 2 = true :=
  ⟨attached_to_one ⟨rfl, fun _ _ => rfl, fun _ => rfl⟩ (by decide), by decide⟩

/-- A detach job that raised leaves the volume in the first machine, and the second instance can
ask for it until it has it too. -/
def takeOver : List Step :=
  .attach 0 7 1 :: .poweron 1 1 :: runs 1 4 ++ .poweron 2 2 :: runs 2 4 ++ .detach 3 7 :: runs 3 2 ++
    .run 3 ⟨false, true⟩ :: .attach 4 7 2 :: runs 4 3 ++ .attach 5 7 2 :: runs 5 5

example : (takeOver.foldl Sys.step twoInstances).plugged 7 1 = true ∧
    (takeOver.foldl Sys.step twoInstances).plugged 7 2 = true := by decide

end

end VolumeAttach

end WakameVdc
