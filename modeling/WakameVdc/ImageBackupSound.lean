import WakameVdc.ImageBackup

/-!
# Images that can be booted

Whatever requests and jobs do between each other and however they fail, an image that is available
has its boot volume in the backup storage. The other volumes are there as well exactly as long as
every job of a boot volume is the last one of its image.
-/

namespace WakameVdc

open Lib

namespace ImageBackup

open Sessions (Outcome)

/-! ## What a job does next -/

namespace Job

def object : Job → Nat
  | backupVolume object _ | backupImage object _ _ | localBackupImage object _ _ => object

def image : Job → Option Nat
  | backupVolume _ _ => none
  | backupImage _ image _ | localBackupImage _ image _ => some image

def hasStored : Job → Bool
  | backupVolume _ p => p == .stored
  | backupImage _ _ p => p == .stored || p == .recorded
  | localBackupImage _ _ p => p == .stored || p == .recorded

end Job

structure Says (o o' : Outcome) (j : Job) (e : Effect) (onReturn onRaise : Option Job) : Prop where
  object : ∀ i state, e = .object i state → i = j.object ∧ (state = .available → j.hasStored = true)
  upload : ∀ i, e = .upload i → i = j.object
  image : ∀ i state, e = .image i state → j.image = some i ∧
    (state = .available → j.completes = some i ∧ j.hasStored = true)
  completes : ∀ i, j.completes = some i → e = .image i .available ∧ o' = o
  goesOn : ∀ x ∈ onReturn, x.object = j.object ∧ x.image = j.image ∧
    (x.hasStored = true → j.hasStored = true ∨ e = .upload j.object)
  fails : ∀ x ∈ onRaise, x.object = j.object ∧ x.image = j.image ∧ x.hasStored = false

theorem exec_says (s : Sys) (k : Nat) (o : Outcome) (j : Job) : ∃ o' e onReturn onRaise,
    s.exec k o j = s.call k o' e onReturn onRaise ∧ Says o o' j e onReturn onRaise := by
  cases j with
  | backupVolume object p =>
    cases p with
    | _ =>
      refine ⟨_, _, _, _, rfl, ?_⟩
      constructor
      all_goals simp [Job.object, Job.image, Job.hasStored, Job.completes]
  | backupImage object image p =>
    cases p with
    | _ =>
      refine ⟨_, _, _, _, rfl, ?_⟩
      constructor
      all_goals simp [Job.object, Job.image, Job.hasStored, Job.completes, postProcessBackupImage]
  | localBackupImage object image p =>
    cases p with
    | _ =>
      refine ⟨_, _, _, _, rfl, ?_⟩
      constructor
      all_goals simp [Job.object, Job.image, Job.hasStored, Job.completes]

/-! ## States that only grow -/

structure Grows (s t : Sys) : Prop where
  row : ∀ i, (s.objects.lookup i).isSome = true → (t.objects.lookup i).isSome = true
  uploaded : ∀ i, s.Uploaded i → t.Uploaded i
  image : ∀ i x, s.images.lookup i = some x → ∃ y, t.images.lookup i = some y ∧ y.backupObject = x.backupObject

section
variable {s t : Sys} {i k : Nat}

theorem uploaded_modify {h : Hash Nat BackupObject} {f : BackupObject → BackupObject} {j : Nat}
    (hf : ∀ x, x.uploaded = true → (f x).uploaded = true)
    (hx : ∃ x, h.lookup i = some x ∧ x.uploaded = true) :
    ∃ x, (Hash.modify j f h).lookup i = some x ∧ x.uploaded = true := by
  obtain ⟨x, hx, hu⟩ := hx
  rw [Hash.lookup_modify, hx]
  split
  · exact ⟨f x, rfl, hf x hu⟩
  · exact ⟨x, rfl, hu⟩

theorem grows_apply (s : Sys) (e : Effect) : Grows s (e.apply s) := by
  cases e with
  | none => exact ⟨fun _ h => h, fun _ h => h, fun _ x h => ⟨x, h, rfl⟩⟩
  | object j state =>
    exact ⟨fun _ h => (Hash.isSome_lookup_modify ..).trans h, fun _ h => uploaded_modify (fun _ hu => hu) h,
      fun _ x h => ⟨x, h, rfl⟩⟩
  | upload j =>
    exact ⟨fun _ h => (Hash.isSome_lookup_modify ..).trans h, fun _ h => uploaded_modify (fun _ _ => rfl) h,
      fun _ x h => ⟨x, h, rfl⟩⟩
  | image j state =>
    refine ⟨fun _ h => h, fun _ h => h, fun i x h => ?_⟩
    show ∃ y, (Hash.modify j _ s.images).lookup i = some y ∧ _
    rw [Hash.lookup_modify, h]
    split
    · exact ⟨_, rfl, rfl⟩
    · exact ⟨x, rfl, rfl⟩

/-! ## The invariant -/

structure Job.Ok (s : Sys) (j : Job) : Prop where
  row : (s.objects.lookup j.object).isSome = true
  stored : j.hasStored = true → s.Uploaded j.object
  image : ∀ i ∈ j.image, ∃ x, s.images.lookup i = some x ∧ x.backupObject = j.object

theorem Job.Ok.mono {j : Job} (h : j.Ok s) (hg : Grows s t) : j.Ok t where
  row := hg.row _ h.row
  stored hs := hg.uploaded _ (h.stored hs)
  image i hi := by
    obtain ⟨x, hx, ho⟩ := h.image i hi
    obtain ⟨y, hy, hb⟩ := hg.image i x hx
    exact ⟨y, hy, hb.trans ho⟩

theorem Job.Ok.goOn {j j' : Job} (h : j.Ok s) (ho : j'.object = j.object) (hi : j'.image = j.image)
    (hs : j'.hasStored = true → s.Uploaded j.object) : j'.Ok s where
  row := by
    rw [ho]
    exact h.row
  stored := by
    rw [ho]
    exact hs
  image i h' := by
    rw [hi] at h'
    rw [ho]
    exact h.image i h'

structure Inv (s : Sys) : Prop where
  bootable : Bootable s
  jobs : Sessions.All (Job.Ok s) s.jobs

theorem Inv.next (h : Inv s) {j : Option Job} (hj : ∀ x ∈ j, x.Ok s) : Inv (s.next k j) where
  bootable := ⟨h.bootable.objects, h.bootable.images⟩
  jobs := by
    have hg : Grows s (s.next k j) := ⟨fun _ h => h, fun _ h => h, fun _ x h => ⟨x, h, rfl⟩⟩
    have hall : Sessions.All (Job.Ok (s.next k j)) s.jobs := h.jobs.mono fun _ _ _ hx => hx.mono hg
    cases j with
    | none => exact hall.erase
    | some x => exact hall.insert ((hj x rfl).mono hg)

theorem Inv.apply (h : Inv s) {e : Effect}
    (ho : ∀ i state, e = .object i state → state = .available → s.Uploaded i)
    (hi : ∀ i state, e = .image i state → state = .available →
      ∀ x, s.images.lookup i = some x → s.Uploaded x.backupObject) : Inv (e.apply s) where
  bootable := by
    have hg := grows_apply s e
    cases e with
    | none => exact h.bootable
    | object j state =>
      refine ⟨fun i x hx hs => ?_, fun i x hx hs => hg.uploaded _ (h.bootable.images i x hx hs)⟩
      apply hg.uploaded
      change (Hash.modify j _ s.objects).lookup i = some x at hx
      rw [Hash.lookup_modify] at hx
      split at hx
      · rename_i hij
        obtain ⟨y, hy, rfl⟩ := Option.map_eq_some_iff.mp hx
        rw [hij]
        exact ho j state rfl hs
      · exact h.bootable.objects i x hx hs
    | upload j =>
      refine ⟨fun i x hx hs => ?_, fun i x hx hs => hg.uploaded _ (h.bootable.images i x hx hs)⟩
      apply hg.uploaded
      change (Hash.modify j _ s.objects).lookup i = some x at hx
      rw [Hash.lookup_modify] at hx
      split at hx
      · obtain ⟨y, hy, rfl⟩ := Option.map_eq_some_iff.mp hx
        exact h.bootable.objects i y hy hs
      · exact h.bootable.objects i x hx hs
    | image j state =>
      refine ⟨fun i x hx hs => hg.uploaded _ (h.bootable.objects i x hx hs), fun i x hx hs => ?_⟩
      apply hg.uploaded
      change (Hash.modify j _ s.images).lookup i = some x at hx
      rw [Hash.lookup_modify] at hx
      split at hx
      · rename_i hij
        obtain ⟨y, hy, rfl⟩ := Option.map_eq_some_iff.mp hx
        rw [hij] at hy
        exact hi j state rfl hs y hy
      · exact h.bootable.images i x hx hs
  jobs := by
    have hjobs : (e.apply s).jobs = s.jobs := by
      cases e with
      | _ => rfl
    rw [hjobs]
    exact h.jobs.mono fun _ _ _ hj => hj.mono (grows_apply s e)

theorem uploaded_upload (hr : (s.objects.lookup i).isSome = true) : (s.upload i).Uploaded i := by
  obtain ⟨x, hx⟩ := Option.isSome_iff_exists.mp hr
  refine ⟨{ x with uploaded := true }, ?_, rfl⟩
  show (Hash.modify i _ s.objects).lookup i = _
  rw [Hash.lookup_modify, if_pos rfl, hx]
  rfl

theorem Inv.exec (h : Inv s) {j : Job} (hj : j.Ok s) (o : Outcome) : Inv (s.exec k o j) := by
  obtain ⟨o', e, onReturn, onRaise, he, hsaid⟩ := exec_says s k o j
  rw [he]
  have happly : Inv (e.apply s) := by
    refine h.apply (fun i state hi ha => ?_) fun i state hi ha x hx => ?_
    · obtain ⟨rfl, hs⟩ := hsaid.object i state hi
      exact hj.stored (hs ha)
    · obtain ⟨him, hc⟩ := hsaid.image i state hi
      obtain ⟨y, hy, hb⟩ := hj.image i him
      rw [hx] at hy
      cases hy
      rw [hb]
      exact hj.stored (hc ha).2
  have hjapply : j.Ok (e.apply s) := hj.mono (grows_apply s e)
  unfold Sys.call
  cases hr : o'.raises with
  | true =>
    have hfail : ∀ t, j.Ok t → ∀ x ∈ onRaise, x.Ok t := by
      intro t ht x hx
      obtain ⟨ho, hi, hs⟩ := hsaid.fails x hx
      exact ht.goOn ho hi fun h => by rw [hs] at h; cases h
    split
    · exact happly.next (hfail _ hjapply)
    · exact h.next (hfail s hj)
  | false =>
    have hw : o'.written = true := by simp [Outcome.written, hr]
    rw [if_pos hw]
    refine happly.next fun x hx => ?_
    obtain ⟨ho, hi, hs⟩ := hsaid.goesOn x hx
    refine hjapply.goOn ho hi fun hst => ?_
    rcases hs hst with hs | hs
    · exact hjapply.stored hs
    · rw [hs]
      exact uploaded_upload hj.row

/-! ## Requests -/

theorem lookup_entries (es : List Entry) (h : Hash Nat BackupObject) (i : Nat) :
    (es.foldl (fun h e => h.insert e.object ⟨.pending, false⟩) h).lookup i =
      if i ∈ es.map Entry.object then some ⟨.pending, false⟩ else h.lookup i := by
  induction es generalizing h with
  | nil => rfl
  | cons e es ih =>
    rw [List.foldl_cons, ih, Hash.lookup_insert, List.map_cons]
    by_cases hi : i ∈ es.map Entry.object
    · rw [if_pos hi, if_pos (List.mem_cons_of_mem _ hi)]
    · rw [if_neg hi]
      by_cases he : i = e.object
      · rw [if_pos he, he, if_pos List.mem_cons_self]
      · rw [if_neg he, if_neg (by simp [he, hi])]

variable {r : Request}

theorem grows_backup (hf : r.Fresh s) : Grows s (s.backup r) where
  row i h := by
    show ((r.entries.foldl _ s.objects).lookup i).isSome = true
    rw [lookup_entries]
    split
    · rfl
    · exact h
  uploaded i h := by
    obtain ⟨x, hx, hu⟩ := h
    refine ⟨x, ?_, hu⟩
    show (r.entries.foldl _ s.objects).lookup i = _
    rw [lookup_entries, if_neg, hx]
    intro hm
    obtain ⟨e, he, rfl⟩ := List.mem_map.mp hm
    rw [hf.2.2.1 e he] at hx
    cases hx
  image i x h := by
    refine ⟨x, ?_, rfl⟩
    show (s.images.insert r.image _).lookup i = _
    rw [Hash.lookup_insert, if_neg, h]
    rintro rfl
    rw [hf.1] at h
    cases h

theorem submissions_ok (s : Sys) (r : Request) : ∀ x ∈ r.submissions, x.2.Ok (s.backup r) := by
  have hrow : ∀ e ∈ r.entries, ((s.backup r).objects.lookup e.object).isSome = true := by
    intro e he
    show ((r.entries.foldl _ s.objects).lookup e.object).isSome = true
    rw [lookup_entries, if_pos (List.mem_map_of_mem he)]
    rfl
  have hboot : r.boot ∈ r.entries := by
    unfold Request.entries
    split
    · exact List.mem_append_right _ List.mem_cons_self
    · exact List.mem_singleton_self _
  have himage : ∃ x, (s.backup r).images.lookup r.image = some x ∧ x.backupObject = r.boot.object := by
    refine ⟨⟨.creating, r.boot.object, r.data.map Entry.object⟩, ?_, rfl⟩
    show (s.images.insert r.image _).lookup r.image = _
    rw [Hash.lookup_insert, if_pos rfl]
  intro x hx
  unfold Request.submissions at hx
  split at hx
  · split at hx
    · cases hx
    · obtain rfl := List.mem_singleton.mp hx
      exact ⟨hrow _ hboot, fun h => (nomatch h), fun i hi => by cases hi; exact himage⟩
  · obtain ⟨e, he, rfl⟩ := List.mem_map.mp hx
    have hmem : e ∈ r.entries := (List.takeWhile_prefix _).subset he
    split
    · rename_i heq
      subst heq
      exact ⟨hrow _ hmem, fun h => (nomatch h), fun i hi => by cases hi; exact himage⟩
    · exact ⟨hrow _ hmem, fun h => (nomatch h), fun i hi => (nomatch hi)⟩

theorem Inv.backup (h : Inv s) (hf : r.Fresh s) : Inv (s.backup r) where
  bootable := by
    have hg := grows_backup hf
    constructor
    · intro i x hx hs
      change (r.entries.foldl _ s.objects).lookup i = some x at hx
      rw [lookup_entries] at hx
      split at hx
      · cases hx
        cases hs
      · exact hg.uploaded i (h.bootable.objects i x hx hs)
    · intro i x hx hs
      change (s.images.insert r.image _).lookup i = some x at hx
      rw [Hash.lookup_insert] at hx
      split at hx
      · cases hx
        cases hs
      · exact hg.uploaded _ (h.bootable.images i x hx hs)
  jobs := by
    have hall : Sessions.All (Job.Ok (s.backup r)) s.jobs := h.jobs.mono fun _ _ _ hj => hj.mono (grows_backup hf)
    exact hall.foldl_insert (submissions_ok s r)

theorem inv_empty : Inv Sys.empty where
  bootable := ⟨fun _ _ h => (nomatch h), fun _ _ h => (nomatch h)⟩
  jobs := Sessions.all_empty

theorem inv_step (h : Inv s) (a : Step) : Inv (s.step a) := by
  cases a with
  | backup r =>
    rw [Sys.step]
    split
    · exact h.backup (by assumption)
    · exact h
  | run k o =>
    rw [Sys.step]
    cases hk : s.jobs.lookup k with
    | none => exact h
    | some j => exact h.exec (h.jobs k j hk) o
  | deleteImage i =>
    exact h.apply (e := .image i .deleted) (fun _ _ he => by cases he) fun _ _ he ha => by cases he; cases ha
  | deleteObject i =>
    rw [Sys.step]
    split
    · exact h.apply (e := .object i .deleted) (fun _ _ he ha => by cases he; cases ha) fun _ _ he => by cases he
    · exact h

/-- In every run the boot volume of an image that is available has been uploaded, and so has the
volume of every backup object that is available. -/
theorem bootable_run (steps : List Step) : Bootable (steps.foldl Sys.step Sys.empty) :=
  (invariant Inv (fun _ a h => inv_step h a) steps inv_empty).bootable

/-! ## All volumes of an image -/

/-- Images that are available now were so before, with the same volumes. -/
theorem Whole.mono (h : Whole s) (hg : ∀ i, s.Uploaded i → t.Uploaded i)
    (hi : ∀ i y, t.images.lookup i = some y → y.state = .available →
      ∃ x, s.images.lookup i = some x ∧ x.state = .available ∧ x.volumes = y.volumes) : Whole t := by
  intro i y hy hs v hv
  obtain ⟨x, hx, hxs, hvol⟩ := hi i y hy hs
  rw [← hvol] at hv
  exact hg v (h i x hx hxs v hv)

theorem whole_apply (h : Whole s) {e : Effect} (hi : ∀ i, e ≠ .image i .available) : Whole (e.apply s) := by
  refine h.mono (grows_apply s e).uploaded fun i y hy hs => ?_
  cases e with
  | none => exact ⟨y, hy, hs, rfl⟩
  | object j state => exact ⟨y, hy, hs, rfl⟩
  | upload j => exact ⟨y, hy, hs, rfl⟩
  | image j state =>
    change (Hash.modify j _ s.images).lookup i = some y at hy
    rw [Hash.lookup_modify] at hy
    split at hy
    · obtain ⟨x, hx, rfl⟩ := Option.map_eq_some_iff.mp hy
      exact absurd (by rw [show state = .available from hs]) (hi j)
    · exact ⟨y, hy, hs, rfl⟩

/-- An image that becomes available is whole when all its volumes are there. -/
theorem whole_setAvailable_iff (h : Whole s) (i : Nat) : Whole (s.setImage i .available) ↔
    ∀ x, s.images.lookup i = some x → ∀ v ∈ x.volumes, s.Uploaded v := by
  have hlookup : ∀ j, (s.setImage i .available).images.lookup j =
      if j = i then (s.images.lookup j).map fun x => { x with state := .available } else s.images.lookup j :=
    fun j => Hash.lookup_modify ..
  constructor
  · intro hw x hx v hv
    refine hw i { x with state := .available } ?_ rfl v hv
    rw [hlookup, if_pos rfl, hx]
    rfl
  · intro hall j y hy hs v hv
    rw [hlookup] at hy
    split at hy
    · rename_i hj
      obtain ⟨x, hx, rfl⟩ := Option.map_eq_some_iff.mp hy
      rw [hj] at hx
      exact hall x hx v hv
    · exact h j y hy hs v hv

/-- A step keeps the images whole exactly when it is timely. -/
theorem whole_step_iff (h : Whole s) (a : Step) : Whole (s.step a) ↔ Timely s a := by
  cases a with
  | backup r =>
    rw [Sys.step]
    refine iff_of_true ?_ trivial
    split
    · rename_i hf
      refine h.mono (grows_backup hf).uploaded fun i y hy hs => ?_
      change (s.images.insert r.image _).lookup i = some y at hy
      rw [Hash.lookup_insert] at hy
      split at hy
      · cases hy
        cases hs
      · exact ⟨y, hy, hs, rfl⟩
    · exact h
  | deleteImage i => exact iff_of_true (whole_apply h (e := .image i .deleted) fun _ he => by cases he) trivial
  | deleteObject i =>
    rw [Sys.step]
    refine iff_of_true ?_ trivial
    split
    · exact whole_apply h (e := .object i .deleted) fun _ he => by cases he
    · exact h
  | run k o =>
    rw [Sys.step]
    cases hk : s.jobs.lookup k with
    | none => exact iff_of_true h fun j i x hj => by rw [hk] at hj; cases hj
    | some j =>
      obtain ⟨o', e, onReturn, onRaise, he, hsaid⟩ := exec_says s k o j
      rw [Option.elim_some, he]
      show Whole (if o'.written then e.apply s else s) ↔ _
      cases hc : j.completes with
      | none =>
        refine iff_of_true ?_ fun j' i x hj hi => ?_
        · split
          · refine whole_apply h fun i hi => ?_
            rw [((hsaid.image i _ hi).2 rfl).1] at hc
            cases hc
          · exact h
        · rw [hk] at hj
          cases hj
          rw [hc] at hi
          cases hi
      | some i =>
        obtain ⟨rfl, rfl⟩ := hsaid.completes i hc
        have htimely : Timely s (.run k o') ↔ (o'.written = true →
            ∀ x, s.images.lookup i = some x → ∀ v ∈ x.volumes, s.Uploaded v) := by
          constructor
          · intro ht hw x hx
            exact ht j i x hk hc hw hx
          · intro ht j' i' x hj hi hw hx
            rw [hk] at hj
            cases hj
            rw [hc] at hi
            cases hi
            exact ht hw x hx
        rw [htimely]
        split
        · rename_i hw
          rw [show Effect.apply s (.image i .available) = s.setImage i .available from rfl,
            whole_setAvailable_iff h]
          exact ⟨fun hx _ => hx, fun hx => hx hw⟩
        · rename_i hw
          exact iff_of_true h fun hw' => absurd hw' hw

/-- In a run all volumes of every image that is available are uploaded exactly when each job of a
boot volume makes its image available after the other volumes. -/
theorem images_whole_iff (steps : List Step) :
    Each Sys.step (fun s a => Whole (s.step a)) Sys.empty steps ↔ Each Sys.step Timely Sys.empty steps :=
  each_congr_of Whole (fun _ _ _ hw => hw) (fun _ a h => whole_step_iff h a) fun _ _ h => by cases h

/-- The job of the boot volume is through before the other one has started. -/
def bootFirst : List Step :=
  .backup ⟨true, 9, [], ⟨1, 1, false⟩, [⟨2, 2, false⟩]⟩ :: List.replicate 7 (.run 1 ⟨true, false⟩)

example : ((bootFirst.foldl Sys.step Sys.empty).images.lookup 9).map Image.state = some .available ∧
    ((bootFirst.foldl Sys.step Sys.empty).objects.lookup 2).map BackupObject.uploaded = some false := by decide

end

end ImageBackup

end WakameVdc
