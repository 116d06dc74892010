import WakameVdc.Alarm
import WakameVdc.Lib.Hash

/-!
# The manager of the alarms

`AlarmManager` of `metric_libs` keeps the alarms by their uuids, with a timer each if it
was given one (`timed`), whose own calls return. What it finds is compared with the alarms
that have been registered.
-/

namespace WakameVdc

open Lib

namespace MetricLibs

/-- What is known of an alarm from outside. A key that is not given leaves its variable. -/
structure AlarmHash (N : Type) where
  uuid : Option Text
  enabled : Bool
  resourceId : Option (Option Text)
  metricName : Option (Option Text)
  state : Option (Option Text)
  evaluationPeriods : Option (Option Int)
  capturePeriods : Option (Option Int)
  params : Option (Option (Params N))
  matchPattern : Option (Option MatchPattern)
  maxMatchCount : Option (Option Int)

/-- `{:timer => .., :alarm => ..}`; what is missing is `nil`. -/
structure Entry (N F : Type) where
  alarm : Option (Alarm N F)
  timer : Bool

abbrev Manager (N F : Type) := Hash Text (Entry N F)

variable {N F : Type}

namespace Alarm

def setVariable (a : Alarm N F) (alm : AlarmHash N) : Except (Alarm N F) (Alarm N F) :=
  let a := { a with
    uuid := alm.uuid
    resourceId := alm.resourceId.getD a.resourceId
    metricName := alm.metricName.getD a.metricName
    state := alm.state.getD a.state
    evaluationPeriods := alm.evaluationPeriods.getD a.evaluationPeriods
    capturePeriods := alm.capturePeriods.getD a.capturePeriods
    params := alm.params.getD a.params
    matchPattern := alm.matchPattern.getD a.matchPattern
    maxMatchCount := alm.maxMatchCount.getD a.maxMatchCount }
  match a.capturePeriods with
  | none => .ok a
  | some c =>
    if c = 0 then .error a
    else .ok { a with evaluationTriggerCount := some ((a.evaluationPeriods.getD 0).fdiv c) }

end Alarm

namespace Manager

/-! ## Updates and deletions -/

variable (timed : Bool)

def putAlarm (uuid : Text) (m : Manager N F) (a : Alarm N F) : Manager N F :=
  Hash.modify uuid (fun e => { e with alarm := some a }) m

/-- The alarm of the entry is updated in place, raised or not. -/
def updateAlarm (uuid : Text) (alm : AlarmHash N) (m : Manager N F) : Except (Manager N F) (Manager N F) :=
  match (m.lookup uuid).bind Entry.alarm with
  | none => .error m
  | some a => ((a.setVariable alm).map (putAlarm uuid m)).mapError (putAlarm uuid m)

def setTimer (uuid : Text) (m : Manager N F) : Manager N F :=
  Hash.modify uuid (fun e => { e with timer := true }) m

/-- An entry without a timer has nothing to cancel. -/
def cancelUpdateAlarm (uuid : Text) (alm : AlarmHash N) (m : Manager N F) :
    Except (Manager N F) (Manager N F) :=
  if ((m.lookup uuid).map Entry.timer).getD false then
    (updateAlarm uuid alm m).map (setTimer uuid)
  else
    .error m

def createAlarm (uuid : Text) (alm : AlarmHash N) (m : Manager N F) : Except (Manager N F) (Manager N F) :=
  let m := AList.insert uuid ⟨none, false⟩ m
  match Alarm.blank.setVariable alm with
  | .error _ => .error m
  | .ok a =>
    let m := putAlarm uuid m a
    .ok (if timed then setTimer uuid m else m)

def deleteAlarm (uuid : Option Text) (m : Manager N F) : Except (Manager N F) (Manager N F) :=
  match uuid with
  | none => .error m
  | some uuid =>
    match m.lookup uuid with
    | none => .ok m
    | some e => if timed ∧ e.timer = false then .error m else .ok (AList.erase uuid m)

def update (alm : AlarmHash N) (m : Manager N F) : Except (Manager N F) (Manager N F) :=
  if alm.enabled then
    match alm.uuid with
    | none => .error m
    | some uuid =>
      match m.lookup uuid with
      | some _ => if timed then cancelUpdateAlarm uuid alm m else updateAlarm uuid alm m
      | none => createAlarm timed uuid alm m
  else
    deleteAlarm timed alm.uuid m

def delete (alm : AlarmHash N) (m : Manager N F) : Except (Manager N F) (Manager N F) :=
  deleteAlarm timed alm.uuid m

/-! ## Searches -/

/-- The alarms a block is called with; an entry without one raises at its first field. -/
def alarms (m : Manager N F) : Option (List (Alarm N F)) := (Hash.values m).mapM Entry.alarm

/-- The search by resource collects what the comparisons say, and these have no fields. -/
def findAlarm (resourceId metricName : Option Text) (m : Manager N F) :
    Option (List (Option (Alarm N F))) :=
  match resourceId, metricName with
  | none, _ => some ((Hash.values m).map Entry.alarm)
  | some resource, none => do
    let alarm := (← alarms m).map fun a => decide (a.resourceId = some resource)
    if alarm.isEmpty then some [] else alarm.mapM fun _ => none
  | some resource, some metric => do
    let alarm := (← alarms m).filter fun a => a.resourceId = some resource ∧ a.metricName = some metric
    if alarm.isEmpty then some [] else some (alarm.map some)

end Manager

/-! ## What has been registered -/

inductive Call (N : Type)
  | update (alm : AlarmHash N)
  | delete (alm : AlarmHash N)

/-- What is there after a call, raised or not. -/
def settle {σ : Type} : Except σ σ → σ
  | .ok s => s
  | .error s => s

def Manager.call (timed : Bool) (m : Manager N F) : Call N → Manager N F
  | .update alm => settle (Manager.update timed alm m)
  | .delete alm => settle (Manager.delete timed alm m)

structure Registered where
  resourceId : Option Text
  metricName : Option Text

/-- An update registers an enabled alarm, or what it gives of it; any other takes it away. -/
def register (r : Hash Text Registered) : Call N → Hash Text Registered
  | .update alm =>
    match alm.uuid with
    | none => r
    | some uuid =>
      if alm.enabled then
        AList.insert uuid
          ⟨alm.resourceId.getD ((r.lookup uuid).bind Registered.resourceId),
            alm.metricName.getD ((r.lookup uuid).bind Registered.metricName)⟩ r
      else AList.erase uuid r
  | .delete alm =>
    match alm.uuid with
    | none => r
    | some uuid => AList.erase uuid r

/-- An answer holds each registered alarm that is asked for, once. -/
def Answers (r : Hash Text Registered) (p : Registered → Bool)
    (answer : Option (List (Option (Alarm N F)))) : Prop :=
  ∃ as : List (Alarm N F), answer = some (as.map some) ∧
    (as.map fun a => (a.uuid, a.resourceId, a.metricName)).Perm
      ((r.entries.filter fun e => p e.2).map fun e => (some e.1, e.2.resourceId, e.2.metricName))

/-- No entry is left from an alarm that could not be created. -/
def Manager.Whole (m : Manager N F) : Prop := ∀ e ∈ Hash.values m, e.alarm.isSome

/-- The three searches answer with what has been registered. -/
def Finds (timed : Bool) (calls : List (Call N)) : Prop :=
  let m : Manager N F := calls.foldl (Manager.call timed) ∅
  let r := calls.foldl register ∅
  Answers r (fun _ => true) (m.findAlarm none none) ∧
    (∀ resource, Answers r (fun g => g.resourceId = some resource) (m.findAlarm (some resource) none)) ∧
    ∀ resource metric, Answers r (fun g => g.resourceId = some resource ∧ g.metricName = some metric)
      (m.findAlarm (some resource) (some metric))

/-! ## The manager follows what is registered -/

/-- What the manager has at a uuid against what is registered there. -/
inductive Agree (timed : Bool) (uuid : Text) : Option (Entry N F) → Option Registered → Prop
  | absent : Agree timed uuid none none
  | half (timer : Bool) (g : Option Registered) : Agree timed uuid (some ⟨none, timer⟩) g
  | whole (a : Alarm N F) (timer : Bool) (hu : a.uuid = some uuid) (ht : timed = true → timer = true) :
      Agree timed uuid (some ⟨some a, timer⟩) (some ⟨a.resourceId, a.metricName⟩)

theorem Alarm.settle_setVariable (a : Alarm N F) (alm : AlarmHash N) :
    (settle (a.setVariable alm)).uuid = alm.uuid ∧
      (settle (a.setVariable alm)).resourceId = alm.resourceId.getD a.resourceId ∧
      (settle (a.setVariable alm)).metricName = alm.metricName.getD a.metricName := by
  unfold setVariable
  dsimp only
  split
  · exact ⟨rfl, rfl, rfl⟩
  · split
    · exact ⟨rfl, rfl, rfl⟩
    · exact ⟨rfl, rfl, rfl⟩

namespace Manager

variable {timed : Bool} {m : Manager N F} {alm : AlarmHash N} {uuid : Text}

theorem settle_map_mapError {σ τ : Type} (f : σ → τ) (x : Except σ σ) :
    settle ((x.map f).mapError f) = f (settle x) := by cases x <;> rfl

theorem lookup_putAlarm (m : Manager N F) (a : Alarm N F) (u : Text) :
    (putAlarm uuid m a).lookup u =
      if u = uuid then (m.lookup u).map fun e => { e with alarm := some a } else m.lookup u :=
  Hash.lookup_modify uuid _ m u

theorem lookup_setTimer (m : Manager N F) (u : Text) :
    (setTimer uuid m).lookup u =
      if u = uuid then (m.lookup u).map fun e => { e with timer := true } else m.lookup u :=
  Hash.lookup_modify uuid _ m u

/-- An update of an alarm there is sets its variables, raised or not. -/
theorem settle_updateAlarm {a : Alarm N F} {timer : Bool} (h : m.lookup uuid = some ⟨some a, timer⟩) :
    settle (updateAlarm uuid alm m) = putAlarm uuid m (settle (a.setVariable alm)) := by
  unfold updateAlarm
  rw [h]
  exact settle_map_mapError (putAlarm uuid m) (a.setVariable alm)

theorem updateAlarm_half {timer : Bool} (h : m.lookup uuid = some ⟨none, timer⟩) :
    updateAlarm uuid alm m = .error m := by
  unfold updateAlarm
  rw [h]
  rfl

theorem cancelUpdateAlarm_half {timer : Bool} (h : m.lookup uuid = some ⟨none, timer⟩) :
    cancelUpdateAlarm uuid alm m = .error m := by
  unfold cancelUpdateAlarm
  rw [updateAlarm_half h]
  split <;> rfl

theorem lookup_settle_updateAlarm_ne {u : Text} (hu : u ≠ uuid) :
    (settle (updateAlarm uuid alm m)).lookup u = m.lookup u := by
  unfold updateAlarm
  split
  · rfl
  · rw [settle_map_mapError, lookup_putAlarm, if_neg hu]

theorem lookup_settle_cancelUpdateAlarm_ne {u : Text} (hu : u ≠ uuid) :
    (settle (cancelUpdateAlarm uuid alm m)).lookup u = m.lookup u := by
  unfold cancelUpdateAlarm
  split
  · have hne : (settle (updateAlarm uuid alm m)).lookup u = m.lookup u := lookup_settle_updateAlarm_ne hu
    cases he : updateAlarm uuid alm m with
    | ok m' =>
      rw [he] at hne
      show (setTimer uuid m').lookup u = _
      rw [lookup_setTimer, if_neg hu]
      exact hne
    | error m' =>
      rw [he] at hne
      exact hne
  · rfl

theorem lookup_settle_createAlarm_ne {u : Text} (hu : u ≠ uuid) :
    (settle (createAlarm timed uuid alm m)).lookup u = m.lookup u := by
  have hins : (AList.insert uuid ⟨none, false⟩ m : Manager N F).lookup u = m.lookup u :=
    AList.lookup_insert_ne hu
  unfold createAlarm
  dsimp only
  split
  · exact hins
  · show AList.lookup u (if timed = true then _ else _) = _
    split
    · rw [lookup_setTimer, if_neg hu, lookup_putAlarm, if_neg hu, hins]
    · rw [lookup_putAlarm, if_neg hu, hins]

theorem lookup_settle_deleteAlarm_ne {u : Text} (hu : u ≠ uuid) :
    (settle (deleteAlarm timed (some uuid) m)).lookup u = m.lookup u := by
  unfold deleteAlarm
  dsimp only
  split
  · rfl
  · split
    · rfl
    · exact AList.lookup_erase_ne hu

theorem lookup_settle_update_ne {u : Text} (h : alm.uuid = some uuid) (hu : u ≠ uuid) :
    (settle (update timed alm m)).lookup u = m.lookup u := by
  unfold update
  rw [h]
  dsimp only
  split
  · split
    · split
      · exact lookup_settle_cancelUpdateAlarm_ne hu
      · exact lookup_settle_updateAlarm_ne hu
    · exact lookup_settle_createAlarm_ne hu
  · exact lookup_settle_deleteAlarm_ne hu

theorem update_of_disabled (h : alm.enabled = false) :
    update timed alm m = deleteAlarm timed alm.uuid m := by
  unfold update
  rw [h]
  rfl

theorem update_of_new (h : alm.enabled = true) (halm : alm.uuid = some uuid) (hm : m.lookup uuid = none) :
    update timed alm m = createAlarm timed uuid alm m := by
  simp only [update, h, halm, hm, if_true]

theorem update_of_lookup (h : alm.enabled = true) (halm : alm.uuid = some uuid) {e : Entry N F}
    (hm : m.lookup uuid = some e) :
    update timed alm m = if timed then cancelUpdateAlarm uuid alm m else updateAlarm uuid alm m := by
  simp only [update, h, halm, hm, if_true]

/-! ### At the uuid of the call -/

theorem agree_updateAlarm {r : Option Registered} (h : Agree timed uuid (m.lookup uuid) r)
    (halm : alm.uuid = some uuid) (hsome : m.lookup uuid ≠ none) :
    Agree timed uuid ((settle (updateAlarm uuid alm m)).lookup uuid)
      (some ⟨alm.resourceId.getD (r.bind Registered.resourceId),
        alm.metricName.getD (r.bind Registered.metricName)⟩) := by
  generalize he : m.lookup uuid = e at h
  cases h with
  | absent => exact absurd he hsome
  | half timer r =>
    rw [updateAlarm_half he]
    show Agree timed uuid (m.lookup uuid) _
    rw [he]
    exact .half timer _
  | whole a timer hu ht =>
    obtain ⟨h1, h2, h3⟩ := a.settle_setVariable alm
    rw [settle_updateAlarm he, lookup_putAlarm, if_pos rfl, he]
    have hw : Agree timed uuid _ _ :=
      .whole (settle (a.setVariable alm)) timer (h1.trans halm) ht
    rw [h2, h3] at hw
    exact hw

theorem agree_setTimer {e : Option (Entry N F)} {r : Option Registered} (h : Agree timed uuid e r) :
    Agree timed uuid (e.map fun e => { e with timer := true }) r := by
  cases h with
  | absent => exact .absent
  | half timer r => exact .half true r
  | whole a timer hu ht => exact .whole a true hu fun _ => rfl

theorem agree_cancelUpdateAlarm {r : Option Registered} (ht : timed = true)
    (h : Agree timed uuid (m.lookup uuid) r)
    (halm : alm.uuid = some uuid) (hsome : m.lookup uuid ≠ none) :
    Agree timed uuid ((settle (cancelUpdateAlarm uuid alm m)).lookup uuid)
      (some ⟨alm.resourceId.getD (r.bind Registered.resourceId),
        alm.metricName.getD (r.bind Registered.metricName)⟩) := by
  have hupdate := agree_updateAlarm h halm hsome
  generalize he : m.lookup uuid = e at h
  cases h with
  | absent => exact absurd he hsome
  | half timer r =>
    rw [cancelUpdateAlarm_half he]
    show Agree timed uuid (m.lookup uuid) _
    rw [he]
    exact .half timer _
  | whole a timer hu htimer =>
    unfold cancelUpdateAlarm
    rw [he, htimer ht]
    show Agree timed uuid ((settle ((updateAlarm uuid alm m).map (setTimer uuid))).lookup uuid) _
    cases hup : updateAlarm uuid alm m with
    | ok m' =>
      rw [hup] at hupdate
      show Agree timed uuid ((setTimer uuid m').lookup uuid) _
      rw [lookup_setTimer, if_pos rfl]
      exact agree_setTimer hupdate
    | error m' =>
      rw [hup] at hupdate
      exact hupdate

theorem agree_createAlarm (halm : alm.uuid = some uuid) :
    Agree timed uuid ((settle (createAlarm timed uuid alm m)).lookup uuid)
      (some ⟨alm.resourceId.getD none, alm.metricName.getD none⟩) := by
  have hins : (AList.insert uuid ⟨none, false⟩ m : Manager N F).lookup uuid = some ⟨none, false⟩ :=
    AList.lookup_insert m
  obtain ⟨h1, h2, h3⟩ := (Alarm.blank : Alarm N F).settle_setVariable alm
  unfold createAlarm
  cases hset : (Alarm.blank : Alarm N F).setVariable alm with
  | error a =>
    show Agree timed uuid ((AList.insert uuid ⟨none, false⟩ m : Manager N F).lookup uuid) _
    rw [hins]
    exact .half false _
  | ok a =>
    rw [hset] at h1 h2 h3
    have hput : (putAlarm uuid (AList.insert uuid ⟨none, false⟩ m) a).lookup uuid = some ⟨some a, false⟩ := by
      rw [lookup_putAlarm, if_pos rfl, hins]
      rfl
    have hg : (⟨alm.resourceId.getD none, alm.metricName.getD none⟩ : Registered) =
        ⟨a.resourceId, a.metricName⟩ := by
      rw [← show a.resourceId = alm.resourceId.getD none from h2,
        ← show a.metricName = alm.metricName.getD none from h3]
    rw [hg]
    cases timed with
    | false =>
      show Agree false uuid ((putAlarm uuid (AList.insert uuid ⟨none, false⟩ m) a).lookup uuid) _
      rw [hput]
      exact .whole a false (h1.trans halm) fun ht => ht
    | true =>
      show Agree true uuid ((setTimer uuid (putAlarm uuid (AList.insert uuid ⟨none, false⟩ m) a)).lookup uuid) _
      rw [lookup_setTimer, if_pos rfl, hput]
      exact .whole a true (h1.trans halm) fun _ => rfl

theorem agree_deleteAlarm {r : Option Registered} (h : Agree timed uuid (m.lookup uuid) r) :
    Agree timed uuid ((settle (deleteAlarm timed (some uuid) m)).lookup uuid) none := by
  have herase : (AList.erase uuid m : Manager N F).lookup uuid = none := AList.lookup_erase uuid m
  generalize he : m.lookup uuid = e at h
  unfold deleteAlarm
  cases h with
  | absent =>
    simp only [he]
    show Agree timed uuid (m.lookup uuid) none
    rw [he]
    exact .absent
  | half timer r =>
    simp only [he]
    split
    · show Agree timed uuid (m.lookup uuid) none
      rw [he]
      exact .half timer none
    · show Agree timed uuid ((AList.erase uuid m).lookup uuid) none
      rw [herase]
      exact .absent
  | whole a timer hu ht =>
    simp only [he]
    rw [if_neg (fun hf => absurd (ht hf.1) (by simp [hf.2]))]
    show Agree timed uuid ((AList.erase uuid m).lookup uuid) none
    rw [herase]
    exact .absent

end Manager

variable {timed : Bool} {m : Manager N F} {r : Hash Text Registered}

theorem register_update {alm : AlarmHash N} {uuid : Text} (halm : alm.uuid = some uuid) :
    register r (.update alm) = if alm.enabled then
        AList.insert uuid
          ⟨alm.resourceId.getD ((r.lookup uuid).bind Registered.resourceId),
            alm.metricName.getD ((r.lookup uuid).bind Registered.metricName)⟩ r
      else AList.erase uuid r := by simp only [register, halm]

theorem agree_update_self {alm : AlarmHash N} {u : Text} (halm : alm.uuid = some u)
    (h : Agree timed u (m.lookup u) (r.lookup u)) :
    Agree timed u ((settle (Manager.update timed alm m)).lookup u) ((register r (.update alm)).lookup u) := by
  rw [register_update halm]
  cases hen : alm.enabled with
  | false =>
    rw [Manager.update_of_disabled hen, halm, if_neg (by simp), AList.lookup_erase]
    exact Manager.agree_deleteAlarm h
  | true =>
    rw [if_pos rfl, AList.lookup_insert]
    cases he : m.lookup u with
    | none =>
      rw [he] at h
      rw [Manager.update_of_new hen halm he]
      cases hr : r.lookup u with
      | none => exact Manager.agree_createAlarm halm
      | some g => rw [hr] at h; cases h
    | some e =>
      have hsome : m.lookup u ≠ none := by rw [he]; exact Option.some_ne_none e
      rw [Manager.update_of_lookup hen halm he]
      by_cases ht : timed = true
      · rw [if_pos ht]
        exact Manager.agree_cancelUpdateAlarm ht h halm hsome
      · rw [if_neg ht]
        exact Manager.agree_updateAlarm h halm hsome

theorem agree_update {alm : AlarmHash N} (h : ∀ u, Agree timed u (m.lookup u) (r.lookup u)) (u : Text) :
    Agree timed u ((settle (Manager.update timed alm m)).lookup u) ((register r (.update alm)).lookup u) := by
  cases halm : alm.uuid with
  | none =>
    have hm : settle (Manager.update timed alm m) = m := by
      unfold Manager.update Manager.deleteAlarm
      rw [halm]
      split <;> rfl
    have hr : register r (.update alm) = r := by simp only [register, halm]
    rw [hm, hr]
    exact h u
  | some uuid =>
    by_cases hu : u = uuid
    · subst hu
      exact agree_update_self halm (h u)
    · have hne : (register r (.update alm)).lookup u = r.lookup u := by
        rw [register_update halm]
        split
        · exact AList.lookup_insert_ne hu
        · exact AList.lookup_erase_ne hu
      rw [Manager.lookup_settle_update_ne halm hu, hne]
      exact h u

theorem agree_delete {alm : AlarmHash N} (h : ∀ u, Agree timed u (m.lookup u) (r.lookup u)) (u : Text) :
    Agree timed u ((settle (Manager.delete timed alm m)).lookup u) ((register r (.delete alm)).lookup u) := by
  cases halm : alm.uuid with
  | none =>
    have hr : register r (.delete alm) = r := by simp only [register, halm]
    have hm : Manager.delete timed alm m = .error m := by
      unfold Manager.delete
      rw [halm]
      rfl
    rw [hr, hm]
    exact h u
  | some uuid =>
    have hr : register r (.delete alm) = AList.erase uuid r := by simp only [register, halm]
    have hm : Manager.delete timed alm m = Manager.deleteAlarm timed (some uuid) m := by
      unfold Manager.delete
      rw [halm]
    rw [hr, hm]
    by_cases hu : u = uuid
    · subst hu
      rw [AList.lookup_erase]
      exact Manager.agree_deleteAlarm (h u)
    · rw [Manager.lookup_settle_deleteAlarm_ne hu, AList.lookup_erase_ne hu]
      exact h u

/-- After any calls the manager and the registry agree at every uuid. -/
theorem agree_run (timed : Bool) (calls : List (Call N)) (u : Text) :
    Agree timed u ((calls.foldl (Manager.call timed) (∅ : Manager N F)).lookup u)
      ((calls.foldl register ∅).lookup u) := by
  have hrun : ∀ (calls : List (Call N)) (m : Manager N F) (r : Hash Text Registered),
      (∀ u, Agree timed u (m.lookup u) (r.lookup u)) →
      ∀ u, Agree timed u ((calls.foldl (Manager.call timed) m).lookup u) ((calls.foldl register r).lookup u) := by
    intro calls
    induction calls with
    | nil => exact fun m r h => h
    | cons c calls ih =>
      intro m r h
      refine ih _ _ fun u => ?_
      cases c with
      | update alm => exact agree_update h u
      | delete alm => exact agree_delete h u
  refine hrun calls ∅ ∅ (fun u => ?_) u
  rw [AList.lookup_empty, AList.lookup_empty]
  exact .absent

/-! ## What the searches answer -/

theorem mapM_eq_some_iff {α β : Type} {f : α → Option β} {l : List α} {l' : List β} :
    l.mapM f = some l' ↔ l.map f = l'.map some := by
  induction l generalizing l' with
  | nil =>
    rw [List.mapM_nil, List.map_nil, eq_comm (a := []), List.map_eq_nil_iff]
    show some [] = some l' ↔ _
    rw [Option.some.injEq, eq_comm]
  | cons a l ih =>
    rw [List.mapM_cons, List.map_cons]
    cases l' with
    | nil => cases f a <;> cases l.mapM f <;> simp
    | cons b l' =>
      rw [List.map_cons, List.cons.injEq, ← ih]
      cases f a with
      | none => simp
      | some b' =>
        cases l.mapM f with
        | none => simp
        | some l'' => simp

theorem exists_map_some {β : Type} {l : List (Option β)} (h : ∀ o ∈ l, o.isSome) :
    ∃ as : List β, l = as.map some := by
  induction l with
  | nil => exact ⟨[], rfl⟩
  | cons o l ih =>
    obtain ⟨as, has⟩ := ih fun o ho => h o (List.mem_cons_of_mem _ ho)
    obtain ⟨a, ha⟩ := Option.isSome_iff_exists.mp (h o List.mem_cons_self)
    exact ⟨a :: as, by rw [has, ha, List.map_cons]⟩

def Entry.shown (e : Entry N F) : Registered :=
  (e.alarm.map fun a => ⟨a.resourceId, a.metricName⟩).getD ⟨none, none⟩

namespace Manager

theorem whole_iff_alarms : m.Whole ↔ ∃ as, alarms m = some as := by
  unfold alarms Whole
  constructor
  · intro h
    obtain ⟨as, has⟩ := exists_map_some (l := (Hash.values m).map Entry.alarm) (by
      intro o ho
      obtain ⟨e, he, rfl⟩ := List.mem_map.mp ho
      exact h e he)
    exact ⟨as, mapM_eq_some_iff.mpr has⟩
  · rintro ⟨as, has⟩ e he
    have hmem : e.alarm ∈ as.map some := mapM_eq_some_iff.mp has ▸ List.mem_map_of_mem he
    obtain ⟨a, -, ha⟩ := List.mem_map.mp hmem
    rw [← ha]
    rfl

theorem exists_shown (h : ∀ u, Agree timed u (m.lookup u) (r.lookup u)) (hwhole : m.Whole) :
    ∀ e ∈ m.entries, ∃ a, e.2.alarm = some a ∧ a.uuid = some e.1 ∧ r.lookup e.1 = some e.2.shown := by
  rintro ⟨u, e⟩ he
  have hlookup : m.lookup u = some e := AList.mem_lookup_iff.mpr he
  have hagree := h u
  rw [hlookup] at hagree
  generalize r.lookup u = g at hagree
  cases hagree with
  | half timer g => exact absurd (hwhole _ (Hash.mem_values.mpr ⟨u, hlookup⟩)) (by simp)
  | whole a timer hu ht => exact ⟨a, rfl, hu, rfl⟩

theorem perm_shown (h : ∀ u, Agree timed u (m.lookup u) (r.lookup u)) (hwhole : m.Whole) :
    (Hash.mapVals (fun _ e => e.shown) m).entries.Perm r.entries := by
  refine Hash.perm_of_lookup fun u => ?_
  rw [Hash.lookup_mapVals]
  cases he : m.lookup u with
  | none =>
    have hagree := h u
    rw [he] at hagree
    generalize r.lookup u = g at hagree
    cases hagree with
    | absent => rfl
  | some e =>
    obtain ⟨a, -, -, hr⟩ := exists_shown h hwhole ⟨u, e⟩ (AList.mem_lookup_iff.mp he)
    rw [hr]
    rfl

/-- The alarms of the manager are those registered, each once. -/
theorem perm_alarms (h : ∀ u, Agree timed u (m.lookup u) (r.lookup u)) {as : List (Alarm N F)}
    (has : alarms m = some as) :
    (as.map fun a => (a.uuid, a.resourceId, a.metricName)).Perm
      (r.entries.map fun e => (some e.1, e.2.resourceId, e.2.metricName)) := by
  have hwhole : m.Whole := whole_iff_alarms.mpr ⟨as, has⟩
  have hshow : as.map (fun a => (a.uuid, a.resourceId, a.metricName)) =
      m.entries.map fun e => (some e.1, e.2.shown.resourceId, e.2.shown.metricName) := by
    have hsome := congrArg (List.map (Option.map fun a : Alarm N F => (a.uuid, a.resourceId, a.metricName)))
      (mapM_eq_some_iff.mp has)
    apply List.map_injective_iff.mpr (Option.some_injective _)
    rw [List.map_map, List.map_map] at hsome ⊢
    unfold Hash.values at hsome
    rw [List.map_map] at hsome
    refine Eq.trans hsome.symm ?_
    refine List.map_congr_left fun e he => ?_
    obtain ⟨a, ha, hu, -⟩ := exists_shown h hwhole e he
    simp only [Function.comp_apply, Entry.shown, ha, Option.map_some, Option.getD_some, hu]
  rw [hshow]
  have hmap := (perm_shown h hwhole).map fun e => (some e.1, e.2.resourceId, e.2.metricName)
  unfold Hash.mapVals at hmap
  rw [List.map_map] at hmap
  exact hmap

/-- The alarms that a test selects are those registered that meet it. -/
theorem answers_filter (h : ∀ u, Agree timed u (m.lookup u) (r.lookup u)) {as : List (Alarm N F)}
    (has : alarms m = some as) (p : Registered → Bool) :
    Answers r p (some ((as.filter fun a => p ⟨a.resourceId, a.metricName⟩).map some)) := by
  refine ⟨_, rfl, ?_⟩
  have hp := (perm_alarms h has).filter fun t => p ⟨t.2.1, t.2.2⟩
  rw [List.filter_map, List.filter_map] at hp
  exact hp

theorem findAlarm_all_iff (h : ∀ u, Agree timed u (m.lookup u) (r.lookup u)) :
    Answers r (fun _ => true) (m.findAlarm none none) ↔ m.Whole := by
  constructor
  · rintro ⟨as, has, -⟩
    exact whole_iff_alarms.mpr ⟨as, mapM_eq_some_iff.mpr (Option.some.inj has)⟩
  · intro hwhole
    obtain ⟨as, has⟩ := whole_iff_alarms.mp hwhole
    have hanswer := answers_filter h has fun _ => true
    rw [List.filter_true] at hanswer
    unfold findAlarm
    rw [mapM_eq_some_iff.mp has]
    exact hanswer

theorem findAlarm_metric_iff (h : ∀ u, Agree timed u (m.lookup u) (r.lookup u)) (resource metric : Text) :
    Answers r (fun g => g.resourceId = some resource ∧ g.metricName = some metric)
      (m.findAlarm (some resource) (some metric)) ↔ m.Whole := by
  unfold findAlarm
  rw [whole_iff_alarms]
  cases has : alarms m with
  | none =>
    constructor
    · rintro ⟨as, hnone, -⟩
      cases hnone
    · rintro ⟨as, hnone⟩
      cases hnone
  | some as =>
    refine iff_of_true ?_ ⟨as, rfl⟩
    have hanswer := answers_filter h has
      fun g => decide (g.resourceId = some resource ∧ g.metricName = some metric)
    show Answers r _ (if _ then some [] else some _)
    split
    · rename_i hempty
      rw [List.isEmpty_iff] at hempty
      rw [hempty] at hanswer
      exact hanswer
    · exact hanswer

theorem findAlarm_resource_iff (h : ∀ u, Agree timed u (m.lookup u) (r.lookup u)) (resource : Text) :
    Answers r (fun g => g.resourceId = some resource) (m.findAlarm (some resource) none) ↔
      Hash.isEmpty m = true := by
  unfold findAlarm
  have hvalues : Hash.isEmpty m = true ↔ Hash.values m = [] := by
    unfold Hash.isEmpty Hash.values
    rw [List.isEmpty_iff, List.map_eq_nil_iff]
  rw [hvalues]
  cases has : alarms m with
  | none =>
    refine iff_of_false (fun ⟨as, hnone, _⟩ => by cases hnone) fun hempty => ?_
    unfold alarms at has
    rw [hempty] at has
    cases has
  | some as =>
    have hmap := mapM_eq_some_iff.mp has
    cases as with
    | nil =>
      refine iff_of_true ?_ (List.map_eq_nil_iff.mp hmap)
      have hanswer := answers_filter h has fun g => decide (g.resourceId = some resource)
      exact hanswer
    | cons a as =>
      -- the comparison of the first alarm has no field
      refine iff_of_false (fun ⟨as, hnone, _⟩ => by cases hnone) fun hempty => ?_
      rw [hempty] at hmap
      cases hmap

end Manager

/-- All alarms, and those of a resource and a metric, are found as registered when no half
entry is left. The search by resource alone answers only when there is no entry at all, so
that all three do only then. -/
theorem searches_iff (timed : Bool) (calls : List (Call N)) :
    (Finds (F := F) timed calls ↔
      Hash.isEmpty (calls.foldl (Manager.call timed) (∅ : Manager N F)) = true) ∧
    (Answers (calls.foldl register ∅) (fun _ => true)
        (Manager.findAlarm none none (calls.foldl (Manager.call timed) (∅ : Manager N F))) ↔
      Manager.Whole (calls.foldl (Manager.call timed) (∅ : Manager N F))) ∧
    ∀ resource metric, Answers (calls.foldl register ∅)
        (fun g => g.resourceId = some resource ∧ g.metricName = some metric)
        (Manager.findAlarm (some resource) (some metric)
          (calls.foldl (Manager.call timed) (∅ : Manager N F))) ↔
      Manager.Whole (calls.foldl (Manager.call timed) (∅ : Manager N F)) := by
  have h := agree_run (F := F) timed calls
  refine ⟨⟨?_, ?_⟩, Manager.findAlarm_all_iff h, Manager.findAlarm_metric_iff h⟩
  · rintro ⟨-, hres, -⟩
    exact (Manager.findAlarm_resource_iff h []).mp (hres [])
  · intro hempty
    have hwhole : Manager.Whole (calls.foldl (Manager.call timed) (∅ : Manager N F)) := by
      rintro e he
      obtain ⟨k, hk⟩ := Hash.mem_values.mp he
      rw [Hash.isEmpty_iff.mp hempty k] at hk
      cases hk
    exact ⟨(Manager.findAlarm_all_iff h).mpr hwhole,
      fun resource => (Manager.findAlarm_resource_iff h resource).mpr hempty,
      fun resource metric => (Manager.findAlarm_metric_iff h resource metric).mpr hwhole⟩

def logAlarm : AlarmHash Int where
  uuid := some "alm-1".toList
  enabled := true
  resourceId := some (some "i-1".toList)
  metricName := some (some "log".toList)
  state := none
  evaluationPeriods := none
  capturePeriods := none
  params := none
  matchPattern := some (some (.string "error".toList))
  maxMatchCount := some (some (-1))

theorem not_finds_logAlarm : ¬ Finds (F := Int) false [.update logAlarm] := by
  rintro ⟨-, hres, -⟩
  have hempty := (Manager.findAlarm_resource_iff (agree_run false [.update logAlarm]) _).mp
    (hres "i-1".toList)
  cases hempty

end MetricLibs

end WakameVdc
