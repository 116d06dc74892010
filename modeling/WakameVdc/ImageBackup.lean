import WakameVdc.Lib.Run
import WakameVdc.Lib.Sessions

/-!
# Backups of instances

The request `backup` of `endpoints/12.03/instances.rb` makes an image with a backup object for
each volume, and the jobs of `rpc/sta_handler.rb` and `rpc/local_store_handler.rb` fill them. A
job makes one rpc or driver call after another, and between two of them anything else may happen.
-/

namespace WakameVdc

open Lib

namespace ImageBackup

open Sessions (Outcome)

inductive ObjectState
  | creating | pending | available | deleted | purged
  deriving DecidableEq, Repr

inductive ImageState
  | creating | pending | available | deleted
  deriving DecidableEq, Repr

/-- `uploaded` says that the backup storage has the content of the volume. -/
structure BackupObject where
  state : ObjectState
  uploaded : Bool
  deriving DecidableEq, Repr

/-- `backupObject` is that of the boot volume, `volumes` are those of the other volumes. -/
structure Image where
  state : ImageState
  backupObject : Nat
  volumes : List Nat
  deriving DecidableEq, Repr

inductive BackupVolume
  | submitted | accepted | uploading | stored | failed
  deriving DecidableEq, Repr

inductive BackupImage
  | submitted | accepted | marked | started | uploading | stored | recorded | failed
  deriving DecidableEq, Repr

inductive LocalBackupImage
  | submitted | accepted | marked | uploading | stored | recorded | failed | imageFailed
  deriving DecidableEq, Repr

inductive Job
  | backupVolume (object : Nat) (at_ : BackupVolume)
  | backupImage (object image : Nat) (at_ : BackupImage)
  | localBackupImage (object image : Nat) (at_ : LocalBackupImage)
  deriving DecidableEq, Repr

structure Sys where
  objects : Hash Nat BackupObject
  images : Hash Nat Image
  jobs : Hash Nat Job

namespace Sys

variable (s : Sys)

/-- `update_backup_object` with a new state. -/
def setObject (object : Nat) (state : ObjectState) : Sys :=
  { s with objects := Hash.modify object (fun x => { x with state }) s.objects }

def upload (object : Nat) : Sys :=
  { s with objects := Hash.modify object (fun x => { x with uploaded := true }) s.objects }

/-- `update_image` with a new state. -/
def setImage (image : Nat) (state : ImageState) : Sys :=
  { s with images := Hash.modify image (fun x => { x with state }) s.images }

def next (k : Nat) (j : Option Job) : Sys :=
  { s with jobs := j.elim (s.jobs.erase k) fun j => s.jobs.insert k j }

end Sys

/-- What a call of a job does: it reads, updates a row or has a volume copied. -/
inductive Effect
  | none
  | object (object : Nat) (state : ObjectState)
  | upload (object : Nat)
  | image (image : Nat) (state : ImageState)
  deriving DecidableEq, Repr

def Effect.apply (s : Sys) : Effect → Sys
  | none => s
  | object i state => s.setObject i state
  | upload i => s.upload i
  | image i state => s.setImage i state

/-- `post_process_backup_image`: the `if` around the test of all backup objects is empty. -/
def postProcessBackupImage (image : Nat) : Effect := .image image .available

namespace Sys

variable (s : Sys)

def call (k : Nat) (o : Outcome) (e : Effect) (j failed : Option Job) : Sys :=
  (if o.written then e.apply s else s).next k (if o.raises then failed else j)

/-! ## Jobs -/

def execBackupVolume (k object : Nat) (o : Outcome) : BackupVolume → Sys
  | .submitted => s.call k o .none (some (.backupVolume object .accepted)) (some (.backupVolume object .failed))
  | .accepted =>
    s.call k o (.object object .creating) (some (.backupVolume object .uploading))
      (some (.backupVolume object .failed))
  | .uploading =>
    s.call k o (.upload object) (some (.backupVolume object .stored))
      (some (.backupVolume object .failed))
  | .stored =>
    s.call k o (.object object .available) none (some (.backupVolume object .failed))
  | .failed => s.call k o (.object object .deleted) none none

/-- `@image[:state] != 'creating'` -/
def notCreating (image : Nat) : Bool := (s.images.lookup image).any fun x => x.state != .creating

/-- The failure block asks `sta-collector` to update the image, which has no such method. -/
def execBackupImage (k object image : Nat) (o : Outcome) : BackupImage → Sys
  | .submitted =>
    -- an image that is not being created makes the job raise
    s.call k ⟨o.acts, o.raises || s.notCreating image⟩ .none (some (.backupImage object image .accepted))
      (some (.backupImage object image .failed))
  | .accepted =>
    s.call k o (.object object .creating) (some (.backupImage object image .marked))
      (some (.backupImage object image .failed))
  | .marked =>
    s.call k o (.image image .creating) (some (.backupImage object image .started))
      (some (.backupImage object image .failed))
  | .started =>
    s.call k o (.object object .creating) (some (.backupImage object image .uploading))
      (some (.backupImage object image .failed))
  | .uploading =>
    s.call k o (.upload object) (some (.backupImage object image .stored))
      (some (.backupImage object image .failed))
  | .stored =>
    s.call k o (.object object .available) (some (.backupImage object image .recorded))
      (some (.backupImage object image .failed))
  | .recorded =>
    s.call k o (postProcessBackupImage image) none (some (.backupImage object image .failed))
  | .failed => s.call k o (.object object .deleted) none none

def execLocalBackupImage (k object image : Nat) (o : Outcome) : LocalBackupImage → Sys
  | .submitted =>
    s.call k o .none (some (.localBackupImage object image .accepted)) (some (.localBackupImage object image .failed))
  | .accepted =>
    s.call k o (.object object .creating) (some (.localBackupImage object image .marked))
      (some (.localBackupImage object image .failed))
  | .marked =>
    s.call k o (.image image .creating) (some (.localBackupImage object image .uploading))
      (some (.localBackupImage object image .failed))
  | .uploading =>
    s.call k o (.upload object) (some (.localBackupImage object image .stored))
      (some (.localBackupImage object image .failed))
  | .stored =>
    s.call k o (.object object .available) (some (.localBackupImage object image .recorded))
      (some (.localBackupImage object image .failed))
  | .recorded =>
    s.call k o (.image image .available) none (some (.localBackupImage object image .failed))
  | .failed =>
    s.call k o (.object object .deleted) (some (.localBackupImage object image .imageFailed)) none
  | .imageFailed => s.call k o (.image image .deleted) none none

def exec (k : Nat) (o : Outcome) : Job → Sys
  | .backupVolume object p => s.execBackupVolume k object o p
  | .backupImage object image p => s.execBackupImage k object image o p
  | .localBackupImage object image p => s.execLocalBackupImage k object image o p

end Sys

/-! ## Requests -/

/-- A volume of the instance, with the ids its backup object and its job get. -/
structure Entry where
  object : Nat
  session : Nat
  isLocal : Bool
  deriving DecidableEq, Repr

/-- The volumes that are attached, in the order of the query; with `all` they are all backed up. -/
structure Request where
  all : Bool
  image : Nat
  before : List Entry
  boot : Entry
  after : List Entry
  deriving DecidableEq, Repr

namespace Request

variable (r : Request)

/-- The volumes that are not the boot volume. -/
def data : List Entry := if r.all then r.before ++ r.after else []

/-- `bko_list` -/
def entries : List Entry := if r.all then r.before ++ r.boot :: r.after else [r.boot]

/-- What the hooks submit after the commit. With a local boot volume the hook reads `bo`, which no
statement has set when all volumes are backed up. A local volume among the others has no storage
node, and the hooks behind it are not run. -/
def submissions : List (Nat × Job) :=
  if r.boot.isLocal then
    if r.all then [] else [(r.boot.session, .localBackupImage r.boot.object r.image .submitted)]
  else
    (r.entries.takeWhile fun e => !e.isLocal).map fun e =>
      if e = r.boot then (e.session, .backupImage e.object r.image .submitted)
      else (e.session, .backupVolume e.object .submitted)

def Fresh (s : Sys) : Prop :=
  s.images.lookup r.image = none ∧ (r.entries.map Entry.object).Nodup ∧
    (∀ e ∈ r.entries, s.objects.lookup e.object = none) ∧
    (r.entries.map Entry.session).Nodup ∧ ∀ e ∈ r.entries, s.jobs.lookup e.session = none

instance (s : Sys) : Decidable (r.Fresh s) := inferInstanceAs (Decidable (_ ∧ _ ∧ _ ∧ _ ∧ _))

end Request

def Sys.backup (s : Sys) (r : Request) : Sys where
  objects := r.entries.foldl (fun h e => h.insert e.object ⟨.pending, false⟩) s.objects
  images := s.images.insert r.image ⟨.creating, r.boot.object, r.data.map Entry.object⟩
  jobs := r.submissions.foldl (fun h x => h.insert x.1 x.2) s.jobs

/-- The last two are the requests that delete images and backup objects. -/
inductive Step
  | backup (r : Request)
  | run (k : Nat) (o : Outcome)
  | deleteImage (image : Nat)
  | deleteObject (object : Nat)
  deriving DecidableEq, Repr

def Sys.available (s : Sys) (object : Nat) : Bool :=
  (s.objects.lookup object).any fun x => x.state == .available

def Sys.step (s : Sys) : Step → Sys
  | .backup r => if r.Fresh s then s.backup r else s
  | .run k o => (s.jobs.lookup k).elim s (s.exec k o)
  | .deleteImage image => s.setImage image .deleted
  | .deleteObject object => if s.available object then s.setObject object .deleted else s

def Sys.empty : Sys := ⟨∅, ∅, ∅⟩

/-! ## What is in the storage -/

def Sys.Uploaded (s : Sys) (object : Nat) : Prop := ∃ x, s.objects.lookup object = some x ∧ x.uploaded = true

/-- Backup objects that are available are uploaded, and so is the boot volume of an image that is
available. -/
structure Bootable (s : Sys) : Prop where
  objects : ∀ object x, s.objects.lookup object = some x → x.state = .available → s.Uploaded object
  images : ∀ image x, s.images.lookup image = some x → x.state = .available → s.Uploaded x.backupObject

/-- All volumes of every image that is available are uploaded. -/
def Whole (s : Sys) : Prop :=
  ∀ image x, s.images.lookup image = some x → x.state = .available → ∀ object ∈ x.volumes, s.Uploaded object

def Job.completes : Job → Option Nat
  | .backupImage _ image .recorded | .localBackupImage _ image .recorded => some image
  | _ => none

/-- The job of the boot volume makes its image available after those of the other volumes have
uploaded them. -/
def Timely (s : Sys) : Step → Prop
  | .run k o => ∀ j image x, s.jobs.lookup k = some j → j.completes = some image → o.written = true →
    s.images.lookup image = some x → ∀ object ∈ x.volumes, s.Uploaded object
  | _ => True

end ImageBackup

end WakameVdc
