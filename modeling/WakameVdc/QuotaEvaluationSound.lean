import WakameVdc.QuotaEvaluation

/-!
# What the quota conditions let through

A request is to pass exactly when the usage of its account, with what it asks for, stays
within every quota its endpoint declares. When the conditions do this.
-/

namespace WakameVdc

open Lib

namespace Quota

section
variable {W : Type} (ruby : RubyFloat W) (db : Db W) (r : Request W)

namespace Request

/-! ## What a request is to meet -/

def own (x : Resource) : Bool := r.ofAccount x.accountId

def namedInstance : Except QuotaError (InstanceRow W) :=
  r.findByUuid db db.instances InstanceRow.toResource InstanceRow.uuid "i".toList r.params.id

/-- The volumes `PUT /instances/:id/backup` backs up: all, or the boot volume. -/
def backedUp (i : InstanceRow W) : List VolumeRow :=
  if r.params.all.isText "true".toList then db.attachedVolumes i
  else db.volumes.filter fun v => Taggable.canonicalUuid "vol".toList v.uuid == i.bootVolumeId

def askedNumber (key : CountKey) : Nat :=
  if r.endpoint = .putInstanceBackup ∧ key = .backupObject ∧ r.params.all.isText "true".toList then
    match r.namedInstance db with
    | .ok i => (db.attachedVolumes i).length
    | .error _ => 0
  else 1

def askedBytes : Int :=
  match r.endpoint with
  | .postVolumes =>
    if r.params.backupObjectId.truthy then
      match r.findByUuid db db.backupObjects BackupObjectRow.toResource BackupObjectRow.uuid
        "bo".toList r.params.backupObjectId with
      | .ok bo => bo.size
      | .error _ => 0
    else (r.params.volumeSize.toI ruby).toOption.getD 0 * mega
  | .postBackupObjects => (r.params.size.toI ruby).toOption.getD 0
  | .putInstanceBackup =>
    match r.namedInstance db with
    | .ok i => ((r.backedUp db i).map VolumeRow.size).sum
    | .error _ => 0
  | .putInstanceVolumeBackup | .putVolumeBackup =>
    match r.findVolume db with
    | .ok v => v.size
    | .error _ => 0
  | _ => 0

/-- A usage that does not exceed the limit a document gives in whole units. -/
def Below (usage : Int) (unit : Int) (quotaValue : Value W) : Prop :=
  ∃ l, quotaValue.toI ruby = .ok l ∧ usage ≤ l * unit

variable [Add W] [LT W]

/-- The usage of the account and what is asked for do not exceed the quota. -/
def Within (key : QuotaKey) (quotaValue : Value W) : Prop :=
  match key with
  | .count key => Below ruby (db.number r.own key + r.askedNumber db key) 1 quotaValue
  | .volumeSizeMb => Below ruby (db.volumeBytes r.own + r.askedBytes ruby db) mega quotaValue
  | .backupObjectSizeMb =>
    Below ruby (db.backupObjectBytes r.own + r.askedBytes ruby db) mega quotaValue
  | .instanceQuotaWeight => ∃ l w, quotaValue.toF ruby = .ok l ∧
      r.params.quotaWeight.toF ruby = .ok w ∧ ¬ l < db.weight ruby r.own + w

/-- The request passes exactly if it stays within every quota, and nothing but an exceeded
quota fails. -/
structure Fair [DecidableLT W] : Prop where
  passes : r.conditions ruby db = .ok () ↔
    ∀ key ∈ r.endpoint.quotas, ∀ v ∈ r.limit key, r.Within ruby db key v
  fails : ∀ e, r.conditions ruby db = .error e → ∃ t, e = .exceedQuotaLimit t

/-! ## What the conditions go by -/

/-- The key cannot be evaluated: the filter of the service type fails, a value is no
number, or the block that is to answer the amount returns. -/
def Unevaluable (key : QuotaKey) (quotaValue : Value W) : Prop :=
  match key with
  | .count key => (∀ p, r.countFilter db key ≠ .ok p) ∨ ∀ l, quotaValue.toI ruby ≠ .ok l
  | .instanceQuotaWeight => (∀ p, r.commonDsFilter db ≠ .ok p) ∨
      (∀ w, r.params.quotaWeight.toF ruby ≠ .ok w) ∨ ∀ l, quotaValue.toF ruby ≠ .ok l
  | .volumeSizeMb => True
  | .backupObjectSizeMb => r.endpoint ≠ .postBackupObjects ∨ (∀ p, r.commonDsFilter db ≠ .ok p) ∨
      (∀ n, r.params.size.toI ruby ≠ .ok n) ∨ ∀ l, quotaValue.toI ruby ≠ .ok l

/-- The limit is reached by the resources of the service type the request names, sizes in
whole megabytes. -/
def Reached (key : QuotaKey) (quotaValue : Value W) : Prop :=
  match key with
  | .count key => ∃ p l, r.countFilter db key = .ok p ∧ quotaValue.toI ruby = .ok l ∧
      l ≤ (db.number p key : Int)
  | .instanceQuotaWeight => ∃ p w l, r.commonDsFilter db = .ok p ∧
      r.params.quotaWeight.toF ruby = .ok w ∧ quotaValue.toF ruby = .ok l ∧
      l < db.weight ruby p + w
  | .volumeSizeMb => False
  | .backupObjectSizeMb => ∃ p n l, r.commonDsFilter db = .ok p ∧ r.params.size.toI ruby = .ok n ∧
      quotaValue.toI ruby = .ok l ∧ l < (db.backupObjectBytes p).tdiv mega + n / mega

end Request

/-! ## Errors -/

def QuotaError.Other (e : QuotaError) : Prop := ∀ t, e ≠ .exceedQuotaLimit t

variable {ruby db r}

theorem Value.toI_other {v : Value W} {e : QuotaError} (h : v.toI ruby = .error e) : e.Other := by
  unfold Value.toI at h
  split at h
  · cases h
  · cases h
  · split at h
    · cases h
    · cases h; exact nofun
  · cases h
  · cases h; exact nofun
  · cases h; exact nofun
  · cases h; exact nofun

theorem Value.toF_other {v : Value W} {e : QuotaError} (h : v.toF ruby = .error e) : e.Other := by
  unfold Value.toF at h
  split at h
  · cases h
  · cases h
  · cases h
  · cases h
  · cases h; exact nofun
  · cases h; exact nofun
  · cases h; exact nofun

namespace Request

theorem commonDsFilter_other {e : QuotaError} (h : r.commonDsFilter db = .error e) : e.Other := by
  unfold commonDsFilter at h
  split at h
  · split at h
    · cases h; exact nofun
    · cases h
  · cases h

theorem commonDsFilter_plain (h : r.params.serviceType.truthy = false) :
    r.commonDsFilter db = .ok r.own := by
  unfold commonDsFilter
  rw [if_neg (by rw [h]; exact Bool.false_ne_true)]
  rfl

theorem countFilter_plain (h : r.params.serviceType.truthy = false) (key : CountKey) :
    r.countFilter db key = .ok r.own := by
  unfold countFilter
  split
  · rfl
  · exact commonDsFilter_plain h

theorem countFilter_other {key : CountKey} {e : QuotaError} (h : r.countFilter db key = .error e) :
    e.Other := by
  unfold countFilter at h
  split at h
  · cases h
  · exact commonDsFilter_other h

theorem findByUuid_other {ρ : Type} {rows : List ρ} {resource : ρ → Resource} {uuid : ρ → Text}
    {uuidPrefix : Text} {id : Value W} {e : QuotaError}
    (h : findByUuid db r rows resource uuid uuidPrefix id = .error e) : e.Other := by
  unfold findByUuid at h
  split at h
  · split at h
    · cases h; exact nofun
    · split at h
      · cases h; exact nofun
      · split at h
        · cases h; exact nofun
        · split at h
          · cases h; exact nofun
          · cases h
  · cases h; exact nofun

/-- The amount of a size is answered by `POST /backup_objects` only. -/
theorem sizeAmount_post (h : r.endpoint = .postBackupObjects) :
    r.sizeAmount ruby db = (r.params.size.toI ruby).map fun n => some (n / mega) := by
  unfold sizeAmount
  rw [h]
  cases r.params.size.toI ruby with
  | error e => rfl
  | ok n => rfl

theorem sizeAmount_return
    (h : r.endpoint = .putInstanceBackup ∨ r.endpoint = .putInstanceVolumeBackup ∨
      r.endpoint = .putVolumeBackup) : ∃ e, r.sizeAmount ruby db = .error e ∧ e.Other := by
  have hvolume : ∃ e, (r.findVolume db >>= fun _ =>
      (throw .localJumpError : Except QuotaError (Option Int))) = .error e ∧ e.Other := by
    cases hf : r.findVolume db with
    | error e => exact ⟨e, rfl, findByUuid_other hf⟩
    | ok v => exact ⟨_, rfl, nofun⟩
  unfold sizeAmount
  rcases h with h | h | h
  · rw [h]
    dsimp only [bind, Except.bind]
    cases hf : r.findByUuid db db.instances InstanceRow.toResource InstanceRow.uuid "i".toList
      r.params.id with
    | error e => exact ⟨e, rfl, findByUuid_other hf⟩
    | ok i =>
      dsimp only
      split
      · exact ⟨_, rfl, nofun⟩
      · exact ⟨_, rfl, nofun⟩
  · rw [h]
    exact hvolume
  · rw [h]
    exact hvolume

theorem sizeAmount_volumes (h : r.endpoint = .postVolumes) :
    r.sizeAmount ruby db = .ok none ∨ ∃ e, r.sizeAmount ruby db = .error e ∧ e.Other := by
  unfold sizeAmount
  rw [h]
  dsimp only
  split
  · right
    cases hf : r.findByUuid db db.backupObjects BackupObjectRow.toResource BackupObjectRow.uuid
      "bo".toList r.params.backupObjectId with
    | error e => exact ⟨e, rfl, findByUuid_other hf⟩
    | ok bo => exact ⟨_, rfl, nofun⟩
  · split
    · exact .inr ⟨_, rfl, nofun⟩
    · exact .inl rfl

/-! ## One key -/

def Outcome (unevaluable reached : Prop) (x : Except QuotaError Bool) : Prop :=
  unevaluable ∧ (∃ e, x = .error e ∧ e.Other) ∨
    ¬ unevaluable ∧ (reached ∧ x = .ok true ∨ ¬ reached ∧ x = .ok false)

theorem count_outcome (key : CountKey) (v : Value W) :
    Outcome ((∀ p, r.countFilter db key ≠ .ok p) ∨ ∀ l, v.toI ruby ≠ .ok l)
      (∃ p l, r.countFilter db key = .ok p ∧ v.toI ruby = .ok l ∧ l ≤ (db.number p key : Int))
      (r.countExceeds ruby db key v) := by
  unfold countExceeds
  cases hp : r.countFilter db key with
  | error e => exact .inl ⟨.inl nofun, e, rfl, countFilter_other hp⟩
  | ok p =>
    cases hl : v.toI ruby with
    | error e => exact .inl ⟨.inr nofun, e, rfl, Value.toI_other hl⟩
    | ok l =>
      refine .inr ⟨by simp, ?_⟩
      by_cases h : l ≤ (db.number p key : Int)
      · exact .inl ⟨⟨p, l, rfl, rfl, h⟩, congrArg Except.ok (decide_eq_true h)⟩
      · refine .inr ⟨?_, congrArg Except.ok (decide_eq_false h)⟩
        rintro ⟨p', l', hp', hl', h'⟩
        cases hp'
        cases hl'
        exact h h'

theorem size_return {fetch : (Resource → Bool) → ℚ} {v : Value W}
    (h : r.sizeAmount ruby db = .ok none ∨ ∃ e, r.sizeAmount ruby db = .error e ∧ e.Other) :
    ∃ e, r.sizeExceeds ruby db fetch v = .error e ∧ e.Other := by
  unfold sizeExceeds
  cases hp : r.commonDsFilter db with
  | error e => exact ⟨e, rfl, commonDsFilter_other hp⟩
  | ok p =>
    rcases h with h | ⟨e, h, he⟩
    · rw [h]
      cases hl : v.toI ruby with
      | error e => exact ⟨e, rfl, Value.toI_other hl⟩
      | ok l => exact ⟨_, rfl, nofun⟩
    · rw [h]
      exact ⟨e, rfl, he⟩

theorem post_outcome (h : r.endpoint = .postBackupObjects) (v : Value W) :
    Outcome (r.endpoint ≠ .postBackupObjects ∨ (∀ p, r.commonDsFilter db ≠ .ok p) ∨
        (∀ n, r.params.size.toI ruby ≠ .ok n) ∨ ∀ l, v.toI ruby ≠ .ok l)
      (∃ p n l, r.commonDsFilter db = .ok p ∧ r.params.size.toI ruby = .ok n ∧
        v.toI ruby = .ok l ∧ l < (db.backupObjectBytes p).tdiv mega + n / mega)
      (r.sizeExceeds ruby db (fun p => ((db.backupObjectBytes p).tdiv mega : Int)) v) := by
  unfold sizeExceeds
  rw [sizeAmount_post h]
  cases hp : r.commonDsFilter db with
  | error e => exact .inl ⟨.inr (.inl nofun), e, rfl, commonDsFilter_other hp⟩
  | ok p =>
    cases hn : r.params.size.toI ruby with
    | error e => exact .inl ⟨.inr (.inr (.inl nofun)), e, rfl, Value.toI_other hn⟩
    | ok n =>
      cases hl : v.toI ruby with
      | error e => exact .inl ⟨.inr (.inr (.inr nofun)), e, rfl, Value.toI_other hl⟩
      | ok l =>
        refine .inr ⟨by simp [h], ?_⟩
        have hcast : (l : ℚ) < ((db.backupObjectBytes p).tdiv mega : Int) + (n / mega : Int) ↔
            l < (db.backupObjectBytes p).tdiv mega + n / mega := by
          rw [← Int.cast_add, Int.cast_lt]
        by_cases hlt : l < (db.backupObjectBytes p).tdiv mega + n / mega
        · exact .inl ⟨⟨p, n, l, rfl, rfl, rfl, hlt⟩,
            congrArg Except.ok (decide_eq_true (hcast.mpr hlt))⟩
        · refine .inr ⟨?_, congrArg Except.ok (decide_eq_false fun hr => hlt (hcast.mp hr))⟩
          rintro ⟨p', n', l', hp', hn', hl', h'⟩
          cases hp'
          cases hn'
          cases hl'
          exact hlt h'

variable [Add W] [LT W] [DecidableLT W]

theorem weight_outcome (v : Value W) :
    Outcome ((∀ p, r.commonDsFilter db ≠ .ok p) ∨ (∀ w, r.params.quotaWeight.toF ruby ≠ .ok w) ∨
        ∀ l, v.toF ruby ≠ .ok l)
      (∃ p w l, r.commonDsFilter db = .ok p ∧ r.params.quotaWeight.toF ruby = .ok w ∧
        v.toF ruby = .ok l ∧ l < db.weight ruby p + w)
      (r.weightExceeds ruby db v) := by
  unfold weightExceeds
  cases hp : r.commonDsFilter db with
  | error e => exact .inl ⟨.inl nofun, e, rfl, commonDsFilter_other hp⟩
  | ok p =>
    cases hw : r.params.quotaWeight.toF ruby with
    | error e => exact .inl ⟨.inr (.inl nofun), e, rfl, Value.toF_other hw⟩
    | ok w =>
      cases hl : v.toF ruby with
      | error e => exact .inl ⟨.inr (.inr nofun), e, rfl, Value.toF_other hl⟩
      | ok l =>
        refine .inr ⟨by simp, ?_⟩
        by_cases h : l < db.weight ruby p + w
        · exact .inl ⟨⟨p, w, l, rfl, rfl, rfl, h⟩, congrArg Except.ok (decide_eq_true h)⟩
        · refine .inr ⟨?_, congrArg Except.ok (decide_eq_false h)⟩
          rintro ⟨p', w', l', hp', hw', hl', h'⟩
          cases hp'
          cases hw'
          cases hl'
          exact h h'

theorem exceeds_outcome {key : QuotaKey} (hkey : key ∈ r.endpoint.quotas) (v : Value W) :
    Outcome (r.Unevaluable ruby db key v) (r.Reached ruby db key v) (r.exceeds ruby db key v) := by
  cases key with
  | count key => exact count_outcome key v
  | instanceQuotaWeight => exact weight_outcome v
  | volumeSizeMb =>
    have h : r.endpoint = .postVolumes := by
      cases he : r.endpoint <;> simp [he, Endpoint.quotas] at hkey
      rfl
    exact .inl ⟨trivial, size_return (sizeAmount_volumes h)⟩
  | backupObjectSizeMb =>
    by_cases hpost : r.endpoint = .postBackupObjects
    · exact post_outcome hpost v
    · have h : r.endpoint = .putInstanceBackup ∨ r.endpoint = .putInstanceVolumeBackup ∨
          r.endpoint = .putVolumeBackup := by
        cases he : r.endpoint <;> simp [he, Endpoint.quotas] at hkey hpost ⊢
      exact .inl ⟨.inl hpost, size_return (.inr (sizeAmount_return h))⟩

variable (ruby db) in
theorem condition_outcome {key : QuotaKey} (hkey : key ∈ r.endpoint.quotas) {v : Value W}
    (hv : r.limit key = some v) :
    r.Unevaluable ruby db key v ∧ (∃ e, r.condition ruby db key = .error e ∧ e.Other) ∨
      ¬ r.Unevaluable ruby db key v ∧
        (r.Reached ruby db key v ∧
            r.condition ruby db key = .error (.exceedQuotaLimit (r.exceedText key)) ∨
          ¬ r.Reached ruby db key v ∧ r.condition ruby db key = .ok ()) := by
  unfold condition
  rw [hv]
  have hexceeds : Outcome (r.Unevaluable ruby db key v) (r.Reached ruby db key v)
      (r.exceeds ruby db key v) := exceeds_outcome hkey v
  rcases hexceeds with ⟨hu, e, he, hother⟩ | ⟨hu, ⟨hr, he⟩ | ⟨hr, he⟩⟩
  · exact .inl ⟨hu, e, by simp only [he, bind, Except.bind], hother⟩
  · refine .inr ⟨hu, .inl ⟨hr, ?_⟩⟩
    simp only [he, bind, Except.bind, if_true]
    rfl
  · refine .inr ⟨hu, .inr ⟨hr, ?_⟩⟩
    simp only [he, bind, Except.bind, Bool.false_eq_true, if_false]
    rfl

/-! ## All keys -/

variable (ruby db r)

/-- The document has the key, and its limit is reached. -/
def Stops (key : QuotaKey) : Prop :=
  ∃ v, r.limit key = some v ∧ ¬ r.Unevaluable ruby db key v ∧ r.Reached ruby db key v

/-- Keys that cannot be evaluated come after one that stops the request. -/
def StopsBefore : List QuotaKey → Prop
  | [] => True
  | key :: keys => (∀ v, r.limit key = some v → ¬ r.Unevaluable ruby db key v) ∧
      (r.Stops ruby db key ∨ StopsBefore keys)

def Verdict (keys : List QuotaKey) : Prop :=
  ¬ r.StopsBefore ruby db keys ∧ (∃ e, keys.forM (r.condition ruby db) = .error e ∧ e.Other) ∨
    r.StopsBefore ruby db keys ∧
      ((∃ key ∈ keys, r.Stops ruby db key) ∧
          (∃ t, keys.forM (r.condition ruby db) = .error (.exceedQuotaLimit t)) ∨
        (¬ ∃ key ∈ keys, r.Stops ruby db key) ∧ keys.forM (r.condition ruby db) = .ok ())

variable {ruby db r}

theorem verdict {keys : List QuotaKey} (hkeys : ∀ key ∈ keys, key ∈ r.endpoint.quotas) :
    r.Verdict ruby db keys := by
  induction keys with
  | nil => exact .inr ⟨trivial, .inr ⟨by simp, rfl⟩⟩
  | cons key keys ih =>
    have ih := ih fun k hk => hkeys k (List.mem_cons_of_mem key hk)
    have hcons : (key :: keys).forM (r.condition ruby db) =
        (r.condition ruby db key >>= fun _ => keys.forM (r.condition ruby db)) := rfl
    -- a key that passes leaves the verdict to the others
    have hpass : r.condition ruby db key = .ok () → ¬ r.Stops ruby db key →
        (∀ v, r.limit key = some v → ¬ r.Unevaluable ruby db key v) →
        r.Verdict ruby db (key :: keys) := by
      intro hok hstops hu
      have hbefore : r.StopsBefore ruby db (key :: keys) ↔ r.StopsBefore ruby db keys := by
        rw [StopsBefore, and_iff_right hu, or_iff_right hstops]
      have hsome : (∃ k ∈ key :: keys, r.Stops ruby db k) ↔ ∃ k ∈ keys, r.Stops ruby db k := by
        simp [hstops]
      have hrest : (key :: keys).forM (r.condition ruby db) = keys.forM (r.condition ruby db) := by
        rw [hcons, hok]
        rfl
      unfold Verdict
      rw [hbefore, hsome, hrest]
      exact ih
    cases hv : r.limit key with
    | none =>
      refine hpass ?_ ?_ ?_
      · unfold condition
        rw [hv]
      · rintro ⟨v, h, -⟩
        rw [hv] at h
        cases h
      · intro v h
        rw [hv] at h
        cases h
    | some v =>
      rcases condition_outcome ruby db (hkeys key (List.mem_cons_self ..)) hv with
        ⟨hu, e, he, hother⟩ | ⟨hu, ⟨hr, he⟩ | ⟨hr, he⟩⟩
      · exact .inl ⟨fun h => h.1 v hv hu, e, by rw [hcons, he]; rfl, hother⟩
      · have hstops : r.Stops ruby db key := ⟨v, hv, hu, hr⟩
        refine .inr ⟨⟨?_, .inl hstops⟩,
          .inl ⟨⟨key, List.mem_cons_self .., hstops⟩, r.exceedText key, by rw [hcons, he]; rfl⟩⟩
        intro v' hv'
        rw [hv] at hv'
        cases hv'
        exact hu
      · refine hpass he ?_ ?_
        · rintro ⟨v', hv', -, hr'⟩
          rw [hv] at hv'
          cases hv'
          exact hr hr'
        · intro v' hv'
          rw [hv] at hv'
          cases hv'
          exact hu

/-- The conditions are fair to a request exactly when every key that cannot be evaluated
comes after one whose limit is reached, and a limit is reached exactly if a quota is
exceeded. -/
theorem quota_fair_iff : r.Fair ruby db ↔
    r.StopsBefore ruby db r.endpoint.quotas ∧
      ((∃ key ∈ r.endpoint.quotas, r.Stops ruby db key) ↔
        ∃ key ∈ r.endpoint.quotas, ∃ v ∈ r.limit key, ¬ r.Within ruby db key v) := by
  have hall : (∀ key ∈ r.endpoint.quotas, ∀ v ∈ r.limit key, r.Within ruby db key v) ↔
      ¬ ∃ key ∈ r.endpoint.quotas, ∃ v ∈ r.limit key, ¬ r.Within ruby db key v := by
    push Not
    rfl
  have hverdict : r.Verdict ruby db r.endpoint.quotas := verdict fun key hkey => hkey
  rcases hverdict with ⟨hbefore, e, he, hother⟩ | ⟨hbefore, ⟨hstops, t, ht⟩ | ⟨hstops, hok⟩⟩
  · refine iff_of_false ?_ fun h => hbefore h.1
    intro h
    obtain ⟨t, ht⟩ := h.fails e he
    exact hother t ht
  · rw [and_iff_right hbefore, iff_true_left hstops]
    constructor
    · intro h
      by_contra hno
      have hpass := h.passes.mpr (hall.mpr hno)
      unfold conditions at hpass
      rw [ht] at hpass
      cases hpass
    · intro hex
      refine ⟨⟨?_, fun h => absurd hex (hall.mp h)⟩, ?_⟩
      · intro hpass
        unfold conditions at hpass
        rw [ht] at hpass
        cases hpass
      · intro e he
        unfold conditions at he
        rw [ht] at he
        cases he
        exact ⟨t, rfl⟩
  · rw [and_iff_right hbefore, iff_false_left hstops]
    constructor
    · intro h
      exact hall.mp (h.passes.mp hok)
    · intro hno
      refine ⟨⟨fun _ => hall.mpr hno, fun _ => hok⟩, ?_⟩
      intro e he
      unfold conditions at he
      rw [hok] at he
      cases he

/-! ## Plain requests -/

theorem tdiv_add_div {a b : Int} (ha : mega ∣ a) (hb : mega ∣ b) (l : Int) :
    l < a.tdiv mega + b / mega ↔ ¬ a + b ≤ l * mega := by
  obtain ⟨m, rfl⟩ := ha
  obtain ⟨n, rfl⟩ := hb
  have hpos : (0 : Int) < mega := by decide
  rw [Int.mul_tdiv_cancel_left _ hpos.ne', Int.mul_ediv_cancel_left _ hpos.ne', ← mul_add,
    mul_comm l mega, mul_le_mul_iff_right₀ hpos, not_le]

/-- Without a service type a limit is reached exactly if the quota is exceeded, if the
request asks for one resource and the sizes are whole megabytes. -/
theorem reached_iff (hs : r.params.serviceType.truthy = false) {key : QuotaKey} {v : Value W}
    (hu : ¬ r.Unevaluable ruby db key v) (hone : ∀ k, r.askedNumber db k = 1)
    (hsize : key = .backupObjectSizeMb →
      mega ∣ db.backupObjectBytes r.own ∧ mega ∣ r.askedBytes ruby db) :
    r.Reached ruby db key v ↔ ¬ r.Within ruby db key v := by
  cases key with
  | count key =>
    rw [Reached, Within, Below, countFilter_plain hs, hone]
    cases hl : v.toI ruby with
    | error e => exact absurd (Or.inr fun l h => by rw [hl] at h; cases h) hu
    | ok l =>
      simp only [Except.ok.injEq, exists_and_left, exists_eq_left', mul_one]
      push_cast
      omega
  | instanceQuotaWeight =>
    rw [Reached, Within, commonDsFilter_plain hs]
    cases hw : r.params.quotaWeight.toF ruby with
    | error e => exact absurd (Or.inr (Or.inl fun w h => by rw [hw] at h; cases h)) hu
    | ok w =>
      cases hl : v.toF ruby with
      | error e => exact absurd (Or.inr (Or.inr fun l h => by rw [hl] at h; cases h)) hu
      | ok l => simp
  | volumeSizeMb => exact absurd trivial hu
  | backupObjectSizeMb =>
    have hpost : r.endpoint = .postBackupObjects := by
      by_contra hne
      exact hu (.inl hne)
    obtain ⟨hbytes, hasked⟩ := hsize rfl
    rw [Reached, Within, Below, commonDsFilter_plain hs]
    cases hn : r.params.size.toI ruby with
    | error e => exact absurd (Or.inr (Or.inr (Or.inl fun n h => by rw [hn] at h; cases h))) hu
    | ok n =>
      cases hl : v.toI ruby with
      | error e => exact absurd (Or.inr (Or.inr (Or.inr fun l h => by rw [hl] at h; cases h))) hu
      | ok l =>
        have hn' : r.askedBytes ruby db = n := by
          unfold askedBytes
          rw [hpost]
          dsimp only
          rw [hn]
          rfl
        rw [hn'] at hasked ⊢
        simp [tdiv_add_div hbytes hasked]

omit [DecidableLT W] in
theorem stopsBefore_of_evaluable {keys : List QuotaKey}
    (hu : ∀ key ∈ keys, ∀ v, r.limit key = some v → ¬ r.Unevaluable ruby db key v) :
    r.StopsBefore ruby db keys := by
  induction keys with
  | nil => trivial
  | cons key keys ih =>
    exact ⟨hu key (List.mem_cons_self ..), .inr (ih fun k hk => hu k (List.mem_cons_of_mem _ hk))⟩

theorem fair_of_plain (hs : r.params.serviceType.truthy = false)
    (hu : ∀ key ∈ r.endpoint.quotas, ∀ v, r.limit key = some v → ¬ r.Unevaluable ruby db key v)
    (hone : ∀ k, r.askedNumber db k = 1)
    (hsize : mega ∣ db.backupObjectBytes r.own ∧ mega ∣ r.askedBytes ruby db) : r.Fair ruby db := by
  apply quota_fair_iff.mpr
  refine ⟨stopsBefore_of_evaluable hu, ?_⟩
  constructor
  · rintro ⟨key, hkey, v, hv, hne, hr⟩
    exact ⟨key, hkey, v, hv, (reached_iff hs hne hone fun _ => hsize).mp hr⟩
  · rintro ⟨key, hkey, v, hv, hw⟩
    exact ⟨key, hkey, v, hv, hu key hkey v hv,
      (reached_iff hs (hu key hkey v hv) hone fun _ => hsize).mpr hw⟩

end Request

end

/-! ## A block that returns -/

def wholeNumbers : RubyFloat Int := ⟨Text.toI, id, some⟩

def emptyDb : Db Int :=
  ⟨[], [], [], [], [], [], [], [], 0, fun _ => none, fun u => u.map fun c => c.toUpper.toNat⟩

/-- `POST /volumes` for ten megabytes, with a quota of a hundred. -/
def tenMegabytes : Request Int where
  endpoint := .postVolumes
  method := "POST".toList
  pathInfo := "/volumes".toList
  account := some "a-shpoolxx".toList
  quota := some (.object [("volume.size_mb".toList, .int 100)])
  params := ⟨.null, .null, .null, .null, .null, .null, .text "10".toList⟩

/-- The block that is to answer the size of the volume returns from a method that is over. -/
theorem volume_size_raises : ¬ tenMegabytes.Fair wholeNumbers emptyDb := by
  intro h
  obtain ⟨t, ht⟩ := h.fails .localJumpError rfl
  cases ht

end Quota

end WakameVdc
