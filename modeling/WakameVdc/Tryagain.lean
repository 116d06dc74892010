import WakameVdc.Evacuate

/-!
# Trying again

`tryagain` of `helpers/cli_helper.rb` calls a block until it answers something
truthy. A falsy answer starts the next round of a loop, a `RuntimeError` is
rescued and starts the loop anew; both take from one count of tries. The attach
and detach jobs of `rpc/hva_handler.rb` call the driver through it.
-/

namespace WakameVdc

open Scheduler (VolumeState)

namespace CliHelper

/-- `TimeoutError` is the `RuntimeError` that is raised again; what is no
`RuntimeError` is not rescued. -/
inductive Exn
  | timeout | runtime | other
  deriving DecidableEq, Repr

inductive Outcome
  | answered (truthy : Bool)
  | raised (e : Exn)
  deriving DecidableEq, Repr

def Outcome.Fails (o : Outcome) : Prop := o = .answered false ∨ o = .raised .runtime

instance : DecidablePred Outcome.Fails := fun _ => inferInstanceAs (Decidable (_ ∨ _))

/-- How the inner loop is left, after how many calls of the block; an exception
leaves the count as it is. -/
inductive Left
  | broken (calls : Nat)
  | exhausted (calls : Nat)
  | raised (e : Exn) (count calls : Nat)

structure Ended where
  calls : Nat
  raised : Option Exn
  deriving DecidableEq, Repr

section
variable (blk : Nat → Outcome)

/-- `begin break if blk.call end while !timedout && ((count -= 1) >= 0)`, with
what the block does at each call. -/
def callWhile (count calls : Nat) : Left :=
  match blk calls with
  | .answered true => .broken (calls + 1)
  | .raised e => .raised e count (calls + 1)
  | .answered false =>
    match count with
    | 0 => .exhausted (calls + 1)
    | count + 1 => callWhile count (calls + 1)

variable {blk} {count calls : Nat}

theorem callWhile_truthy (h : blk calls = .answered true) :
    callWhile blk count calls = .broken (calls + 1) := by
  unfold callWhile
  rw [h]

theorem callWhile_raised {e : Exn} (h : blk calls = .raised e) :
    callWhile blk count calls = .raised e count (calls + 1) := by
  unfold callWhile
  rw [h]

theorem callWhile_falsy_zero (h : blk calls = .answered false) :
    callWhile blk 0 calls = .exhausted (calls + 1) := by
  unfold callWhile
  rw [h]

theorem callWhile_falsy_succ (h : blk calls = .answered false) :
    callWhile blk (count + 1) calls = callWhile blk count (calls + 1) := by
  conv_lhs => unfold callWhile
  rw [h]

theorem callWhile_count_le {e : Exn} {c n : Nat} (h : callWhile blk count calls = .raised e c n) :
    c ≤ count := by
  induction count generalizing calls with
  | zero =>
    unfold callWhile at h
    split at h <;> cases h
    exact Nat.le_refl _
  | succ count ih =>
    unfold callWhile at h
    split at h
    · cases h
    · cases h
      exact Nat.le_refl _
    · exact Nat.le_succ_of_le (ih h)

variable (blk)

def tryagainFrom (count calls : Nat) : Ended :=
  match _h : callWhile blk count calls with
  | .broken n => ⟨n, none⟩
  | .exhausted n => ⟨n, none⟩
  | .raised .timeout _ n => ⟨n, some .timeout⟩
  | .raised .runtime 0 n => ⟨n, none⟩
  | .raised .runtime (c + 1) n => tryagainFrom c n
  | .raised .other _ n => ⟨n, some .other⟩
termination_by count
decreasing_by exact callWhile_count_le _h

/-- `tryagain`, while its timer does not fire. -/
def tryagain (retry : Nat) : Ended := tryagainFrom blk retry 0

/-! ## What each call leads to -/

/-- How `tryagain` ends after a call that it does not make again. -/
def Outcome.raisedOf : Outcome → Option Exn
  | .answered _ => none
  | .raised e => some e

variable {blk}

theorem tryagainFrom_eq (count calls : Nat) :
    tryagainFrom blk count calls =
      match callWhile blk count calls with
      | .broken n => ⟨n, none⟩
      | .exhausted n => ⟨n, none⟩
      | .raised .timeout _ n => ⟨n, some .timeout⟩
      | .raised .runtime 0 n => ⟨n, none⟩
      | .raised .runtime (c + 1) n => tryagainFrom blk c n
      | .raised .other _ n => ⟨n, some .other⟩ := by
  rw [tryagainFrom]
  split <;> rename_i h <;> rw [h]

theorem tryagainFrom_of_not_fails (h : ¬ (blk calls).Fails) :
    tryagainFrom blk count calls = ⟨calls + 1, (blk calls).raisedOf⟩ := by
  rw [tryagainFrom_eq]
  cases hb : blk calls with
  | answered b =>
    cases b with
    | true => rw [callWhile_truthy hb, Outcome.raisedOf]
    | false => exact absurd (Or.inl hb) h
  | raised e =>
    rw [callWhile_raised hb]
    cases e with
    | timeout => rfl
    | runtime => exact absurd (Or.inr hb) h
    | other => rfl

theorem tryagainFrom_zero (h : (blk calls).Fails) :
    tryagainFrom blk 0 calls = ⟨calls + 1, none⟩ := by
  rw [tryagainFrom_eq]
  rcases h with h | h
  · rw [callWhile_falsy_zero h]
  · rw [callWhile_raised h]

theorem tryagainFrom_succ (h : (blk calls).Fails) :
    tryagainFrom blk (count + 1) calls = tryagainFrom blk count (calls + 1) := by
  rw [tryagainFrom_eq]
  rcases h with h | h
  · rw [callWhile_falsy_succ h, tryagainFrom_eq]
  · rw [callWhile_raised h]

theorem tryagainFrom_of_first {i : Nat} (hi : i ≤ count)
    (hf : ∀ j < i, (blk (calls + j)).Fails) (h : ¬ (blk (calls + i)).Fails) :
    tryagainFrom blk count calls = ⟨calls + i + 1, (blk (calls + i)).raisedOf⟩ := by
  induction i generalizing count calls with
  | zero => exact tryagainFrom_of_not_fails h
  | succ i ih =>
    cases count with
    | zero => exact absurd hi (Nat.not_succ_le_zero i)
    | succ count =>
      have hs : calls + 1 + i = calls + (i + 1) := by omega
      have h0 : (blk calls).Fails := hf 0 (Nat.succ_pos i)
      rw [tryagainFrom_succ h0, ih (Nat.le_of_succ_le_succ hi), hs]
      · intro j hj
        have := hf (j + 1) (Nat.succ_lt_succ hj)
        rwa [show calls + 1 + j = calls + (j + 1) by omega]
      · rwa [hs]

theorem tryagainFrom_of_fails (h : ∀ i ≤ count, (blk (calls + i)).Fails) :
    tryagainFrom blk count calls = ⟨calls + count + 1, none⟩ := by
  induction count generalizing calls with
  | zero => exact tryagainFrom_zero (h 0 (Nat.le_refl 0))
  | succ count ih =>
    have h0 : (blk calls).Fails := h 0 (Nat.zero_le _)
    rw [tryagainFrom_succ h0, ih]
    · congr 1
      omega
    · intro i hi
      have := h (i + 1) (Nat.succ_le_succ hi)
      rwa [show calls + 1 + i = calls + (i + 1) by omega]

/-- The call that decides how `tryagain` ends. -/
structure Decides (blk : Nat → Outcome) (retry i : Nat) : Prop where
  le : i ≤ retry
  before : ∀ j < i, (blk j).Fails
  decides : ¬ (blk i).Fails

def GivesUp (blk : Nat → Outcome) (retry : Nat) : Prop := ∀ i ≤ retry, (blk i).Fails

instance (retry : Nat) : Decidable (GivesUp blk retry) :=
  decidable_of_iff (∀ i < retry + 1, (blk i).Fails) (by simp [GivesUp])

variable {retry i : Nat}

theorem Decides.tryagain (h : Decides blk retry i) :
    tryagain blk retry = ⟨i + 1, (blk i).raisedOf⟩ := by
  have h0 : ∀ j, (blk (0 + j)).Fails ↔ (blk j).Fails := fun j => by rw [Nat.zero_add]
  rw [CliHelper.tryagain, tryagainFrom_of_first h.le]
  · rw [Nat.zero_add]
  · exact fun j hj => (h0 j).mpr (h.before j hj)
  · exact fun hf => h.decides ((h0 i).mp hf)

theorem GivesUp.tryagain (h : GivesUp blk retry) : tryagain blk retry = ⟨retry + 1, none⟩ := by
  rw [CliHelper.tryagain, tryagainFrom_of_fails]
  · rw [Nat.zero_add]
  · intro i hi
    rw [Nat.zero_add]
    exact h i hi

theorem givesUp_or_decides (blk : Nat → Outcome) (retry : Nat) :
    GivesUp blk retry ∨ ∃ i, Decides blk retry i := by
  by_cases h : ∃ i, i ≤ retry ∧ ¬ (blk i).Fails
  · refine .inr ⟨Nat.find h, (Nat.find_spec h).1, fun j hj => ?_, (Nat.find_spec h).2⟩
    by_contra hf
    exact Nat.find_min h hj ⟨(Nat.le_of_lt hj).trans (Nat.find_spec h).1, hf⟩
  · exact .inl fun i hi => by_contra fun hf => h ⟨i, hi, hf⟩

theorem not_fails_truthy : ¬ (Outcome.answered true).Fails := by decide

theorem Decides.not_givesUp (h : Decides blk retry i) : ¬ GivesUp blk retry :=
  fun hg => h.decides (hg i h.le)

theorem Outcome.eq_of_raisedOf_none {o : Outcome} (h : ¬ o.Fails) (hr : o.raisedOf = none) :
    o = .answered true := by
  cases o with
  | answered b =>
    cases b with
    | true => rfl
    | false => exact absurd (.inl rfl) h
  | raised e => cases hr

end

/-- Some call that may be made answers something truthy. -/
def Succeeds (blk : Nat → Outcome) (retry : Nat) : Prop := ∃ i ≤ retry, blk i = .answered true

/-- An exception that is not rescued comes before any truthy answer. -/
def Raises (blk : Nat → Outcome) (retry : Nat) : Prop :=
  ∃ i, Decides blk retry i ∧ blk i ≠ .answered true

/-- What a caller of `tryagain` relies on. -/
structure Sound (blk : Nat → Outcome) (retry : Nat) : Prop where
  calls : (tryagain blk retry).calls ≤ retry + 1
  stops : ∀ i < (tryagain blk retry).calls, blk i = .answered true →
    tryagain blk retry = ⟨i + 1, none⟩
  returns : (tryagain blk retry).raised = none →
    ∃ i < (tryagain blk retry).calls, blk i = .answered true
  raises : (∀ i ≤ retry, blk i ≠ .answered true) → (tryagain blk retry).raised ≠ none

section
variable {blk : Nat → Outcome} {retry i : Nat}

theorem Decides.sound (h : Decides blk retry i) : Sound blk retry := by
  have he := h.tryagain
  refine ⟨?_, ?_, ?_, ?_⟩
  · rw [he]
    exact Nat.succ_le_succ h.le
  · intro j hj hb
    rw [he] at hj ⊢
    rcases Nat.lt_succ_iff_lt_or_eq.mp hj with hlt | rfl
    · exact absurd (hb ▸ h.before j hlt) not_fails_truthy
    · rw [hb, Outcome.raisedOf]
  · intro hr
    rw [he] at hr ⊢
    exact ⟨i, Nat.lt_succ_self i, Outcome.eq_of_raisedOf_none h.decides hr⟩
  · intro hn hr
    rw [he] at hr
    exact hn i h.le (Outcome.eq_of_raisedOf_none h.decides hr)

theorem GivesUp.not_sound (h : GivesUp blk retry) : ¬ Sound blk retry := by
  intro hs
  refine hs.raises (fun i hi hb => ?_) (by rw [h.tryagain])
  exact not_fails_truthy (hb ▸ h i hi)

theorem sound_iff_not_givesUp : Sound blk retry ↔ ¬ GivesUp blk retry := by
  rcases givesUp_or_decides blk retry with h | ⟨i, h⟩
  · exact ⟨fun hs => absurd hs h.not_sound, fun hn => absurd h hn⟩
  · exact ⟨fun _ => h.not_givesUp, fun _ => h.sound⟩

/-- `tryagain` returns if it gives up or if some call succeeds first. -/
theorem raised_tryagain_eq_none_iff : (tryagain blk retry).raised = none ↔ ¬ Raises blk retry := by
  rcases givesUp_or_decides blk retry with h | ⟨i, h⟩
  · rw [h.tryagain]
    exact ⟨fun _ hr => hr.choose_spec.1.not_givesUp h, fun _ => rfl⟩
  · rw [h.tryagain]
    constructor
    · rintro hn ⟨j, hj, hb⟩
      have hij : j = i := by
        have := hj.tryagain.symm.trans h.tryagain
        exact Nat.succ.inj (congrArg Ended.calls this)
      subst hij
      exact hb (Outcome.eq_of_raisedOf_none hj.decides hn)
    · intro hn
      by_cases hb : blk i = .answered true
      · rw [hb]
        rfl
      · exact absurd ⟨i, h, hb⟩ hn

theorem isSome_raised_tryagain : (tryagain blk retry).raised.isSome = true ↔ Raises blk retry := by
  rw [← not_iff_not, ← raised_tryagain_eq_none_iff, Bool.not_eq_true, Option.isSome_eq_false_iff,
    Option.isNone_iff_eq_none]

theorem succeeds_of_not_raises (hr : ¬ Raises blk retry) (hg : ¬ GivesUp blk retry) :
    Succeeds blk retry := by
  rcases givesUp_or_decides blk retry with h | ⟨i, h⟩
  · exact absurd h hg
  · refine ⟨i, h.le, ?_⟩
    by_contra hb
    exact hr ⟨i, h, hb⟩

theorem GivesUp.not_succeeds (h : GivesUp blk retry) : ¬ Succeeds blk retry := by
  rintro ⟨i, hi, hb⟩
  exact not_fails_truthy (hb ▸ h i hi)

end

end CliHelper

/-! ## The attach and detach jobs -/

namespace HvaHandler

open CliHelper

inductive Event
  | volumeAttached | volumeAvailable | volumeDetached
  deriving DecidableEq, Repr

/-- The volume of the job and the events published of it. -/
structure Volume where
  state : VolumeState
  isLocal : Bool
  instanceId : Option Nat
  attachedAt : Option Nat
  detachedAt : Option Nat
  events : List Event
  deriving DecidableEq, Repr

namespace Volume

/-- The retries `tryagain` makes by default. -/
def retry : Nat := 3

/-- What the first block of the attach job does, from what the driver's
`attach_volume_to_host` does at each call. -/
def toHost (v : Volume) (driver : Nat → Outcome) (call : Nat) : Outcome :=
  if v.isLocal then .answered true
  else match driver call with
    | .answered _ => .answered true
    | .raised e => .raised e

def pushBack (v : Volume) : Volume :=
  { v with state := .available, events := v.events ++ [.volumeAvailable] }

/-- The `attach` job at time `now`. -/
def attach (host guest : Nat → Outcome) (now : Nat) (v : Volume) : Volume :=
  if v.state ≠ .available then v.pushBack
  else
    let w := { v with state := .attaching, attachedAt := none }
    if (tryagain (v.toHost host) retry).raised.isSome then w.pushBack
    else if (tryagain guest retry).raised.isSome then w.pushBack
    else
      { w with state := .attached, attachedAt := some now, events := w.events ++ [.volumeAttached] }

/-- The `detach` job, which has no failure block. -/
def detach (guest : Nat → Outcome) (now : Nat) (v : Volume) : Volume :=
  if v.state ≠ .attached then v
  else
    let w := { v with state := .detaching, detachedAt := none }
    if (tryagain guest retry).raised.isSome then w
    else
      { w with
        state := .available, instanceId := none, detachedAt := some now,
        events := w.events ++ [.volumeDetached] }

section
variable {host guest : Nat → Outcome} {now : Nat} {v : Volume}

/-- The attach job records success unless a call raises what is not rescued. -/
theorem attach_attached_iff :
    (v.attach host guest now).state = .attached ↔
      v.state = .available ∧ ¬ Raises (v.toHost host) retry ∧ ¬ Raises guest retry := by
  have hw : ∀ w : Volume, w.pushBack.state ≠ .attached := fun w => by simp [pushBack]
  unfold attach
  by_cases hs : v.state = .available
  · rw [if_neg (not_not.mpr hs)]
    by_cases hr : Raises (v.toHost host) retry
    · rw [if_pos (isSome_raised_tryagain.mpr hr)]
      exact ⟨fun h => absurd h (hw _), fun h => absurd hr h.2.1⟩
    · rw [if_neg (mt isSome_raised_tryagain.mp hr)]
      by_cases hg : Raises guest retry
      · rw [if_pos (isSome_raised_tryagain.mpr hg)]
        exact ⟨fun h => absurd h (hw _), fun h => absurd hg h.2.2⟩
      · rw [if_neg (mt isSome_raised_tryagain.mp hg)]
        exact ⟨fun _ => ⟨hs, hr, hg⟩, fun _ => rfl⟩
  · rw [if_pos hs]
    exact ⟨fun h => absurd h (hw _), fun h => absurd h.1 hs⟩

theorem detach_available_iff (hs : v.state = .attached) :
    (v.detach guest now).state = .available ↔ ¬ Raises guest retry := by
  unfold detach
  rw [if_neg (not_not.mpr hs)]
  by_cases hg : Raises guest retry
  · rw [if_pos (isSome_raised_tryagain.mpr hg)]
    exact ⟨fun h => VolumeState.noConfusion h, fun h => absurd hg h⟩
  · rw [if_neg (mt isSome_raised_tryagain.mp hg)]
    exact ⟨fun _ => hg, fun _ => rfl⟩

end

/-- The jobs record success only after the driver did its work. -/
structure Honest (host guest : Nat → Outcome) (now : Nat) (v : Volume) : Prop where
  attach : (v.attach host guest now).state = .attached →
    Succeeds (v.toHost host) retry ∧ Succeeds guest retry
  detach : v.state = .attached → (v.detach guest now).state = .available → Succeeds guest retry

section
variable {host guest : Nat → Outcome} {now : Nat} {v : Volume}

theorem honest_iff :
    Honest host guest now v ↔
      (v.state = .available → ¬ Raises (v.toHost host) retry → ¬ Raises guest retry →
        ¬ GivesUp (v.toHost host) retry ∧ ¬ GivesUp guest retry) ∧
      (v.state = .attached → ¬ GivesUp guest retry) := by
  constructor
  · intro h
    refine ⟨fun hs hh hg => ?_, fun hs hg => ?_⟩
    · have := h.attach (attach_attached_iff.mpr ⟨hs, hh, hg⟩)
      exact ⟨fun hn => hn.not_succeeds this.1, fun hn => hn.not_succeeds this.2⟩
    · have hr : ¬ Raises guest retry := fun hr => hr.choose_spec.1.not_givesUp hg
      exact hg.not_succeeds (h.detach hs ((detach_available_iff hs).mpr hr))
  · rintro ⟨ha, hd⟩
    refine ⟨fun h => ?_, fun hs h => ?_⟩
    · obtain ⟨hs, hh, hg⟩ := attach_attached_iff.mp h
      have := ha hs hh hg
      exact ⟨succeeds_of_not_raises hh this.1, succeeds_of_not_raises hg this.2⟩
    · exact succeeds_of_not_raises ((detach_available_iff hs).mp h) (hd hs)

end

end Volume

/-- `tryagain` keeps its word exactly when not every call it may make fails, and
the jobs do unless a block they go past gave up. -/
theorem tries_iff (blk : Nat → Outcome) (retry : Nat) (host guest : Nat → Outcome) (now : Nat)
    (v : Volume) :
    (Sound blk retry ↔ ¬ GivesUp blk retry) ∧
    (v.Honest host guest now ↔
      (v.state = .available → ¬ Raises (v.toHost host) Volume.retry → ¬ Raises guest Volume.retry →
        ¬ GivesUp (v.toHost host) Volume.retry ∧ ¬ GivesUp guest Volume.retry) ∧
      (v.state = .attached → ¬ GivesUp guest Volume.retry)) :=
  ⟨sound_iff_not_givesUp, Volume.honest_iff⟩

/-- A driver that raises at every call: the volume is recorded as attached. -/
theorem not_tries :
    ¬ Sound (fun _ => .raised .runtime) 3 ∧
    tryagain (fun _ => .raised .runtime) 3 = ⟨4, none⟩ ∧
    Volume.attach (fun _ => .raised .runtime) (fun _ => .raised .runtime) 5
      ⟨.available, false, some 1, none, none, []⟩ =
        ⟨.attached, false, some 1, some 5, none, [.volumeAttached]⟩ := by
  have hg : GivesUp (fun _ => Outcome.raised .runtime) 3 := fun i _ => .inr rfl
  refine ⟨hg.not_sound, hg.tryagain, ?_⟩
  have hh : Volume.toHost ⟨.available, false, some 1, none, none, []⟩
      (fun _ => .raised .runtime) = fun _ => .raised .runtime := rfl
  simp [Volume.attach, Volume.retry, hh, hg.tryagain]

end HvaHandler
end WakameVdc
