import Mathlib.Tactic.Common

/-!
# Backups of volumes

`Volume#create_backup_object` records a container format; the drivers
`drivers/local_store/linux_local_store.rb` and `drivers/backing_store/raw.rb`
archive a volume and deploy a backup object with piped commands. The transfer to
a backup storage and back keeps every byte.
-/

namespace WakameVdc

namespace VolumeBackup

/-! ## Records -/

inductive ContainerFormat
  | tgz | tar | gz | none | raw
  deriving DecidableEq, Repr

/-- `commandApi` says that the storage's driver includes `CommandAPI`. -/
structure BackupStorage where
  uuid : Nat
  commandApi : Bool
  deriving DecidableEq, Repr

structure BackupObject where
  containerFormat : ContainerFormat
  backupStorage : BackupStorage
  deriving DecidableEq, Repr

structure Image where
  backupObject : Option BackupObject
  deriving DecidableEq, Repr

structure Instance where
  image : Image
  deriving DecidableEq, Repr

/-- `backupObject` is the source of the volume. -/
structure Volume where
  backupObject : Option BackupObject
  inst : Option Instance
  deriving DecidableEq, Repr

/-- `Volume#create_backup_object`; a format that is not set is saved as `raw`. -/
def Volume.createBackupObject (v : Volume) (bkst : BackupStorage) : BackupObject :=
  match v.backupObject with
  | some src => ⟨src.containerFormat, bkst⟩
  | none =>
    match v.inst.bind fun i => i.image.backupObject with
    | some src => ⟨src.containerFormat, bkst⟩
    | none => ⟨.raw, bkst⟩

/-! ## Commands -/

abbrev Bytes := List UInt8

/-- `untar` gives the first file of an archive. -/
structure Tools where
  tar : Bytes → Bytes
  untar : Bytes → Option Bytes
  gzip : Bytes → Bytes
  gunzip : Bytes → Option Bytes

def gzipMagic : Bytes := [0x1f, 0x8b]

structure Tools.Documented (t : Tools) : Prop where
  untar_tar : ∀ d, t.untar (t.tar d) = some d
  gunzip_gzip : ∀ d, t.gunzip (t.gzip d) = some d
  /-- A header block stands before the file, and it starts with the file's name. -/
  length_tar : ∀ d, d.length < (t.tar d).length
  take_tar : ∀ d, (t.tar d).take 2 ≠ gzipMagic
  take_gzip : ∀ d, (t.gzip d).take 2 = gzipMagic
  gunzip_other : ∀ d, d.take 2 ≠ gzipMagic → t.gunzip d = none
  /-- Without `-z` a compressed stream is refused. -/
  untar_gzip : ∀ d, t.untar (t.gzip d) = none

inductive Command
  | cat | pv | tee | cpToStdout | cpFromStdin | tarCreate | tarExtract | tarExtractGzip
  | gzip | gunzip | upload | download
  deriving DecidableEq, Repr

def Command.run (t : Tools) : Command → Bytes → Option Bytes
  | cat, d | pv, d | tee, d | cpToStdout, d | cpFromStdin, d | upload, d | download, d => some d
  | tarCreate, d => some (t.tar d)
  | tarExtract, d => t.untar d
  | tarExtractGzip, d => t.gunzip d >>= t.untar
  | gzip, d => some (t.gzip d)
  | gunzip, d => t.gunzip d

/-- The commands joined with `|`, for a `bash` that asks the last one only how it went. What a
command before it refuses leaves the next one with an empty stream. -/
def pipe (t : Tools) : List Command → Bytes → Option Bytes
  | [], d => some d
  | [c], d => c.run t d
  | c :: c' :: cs, d => pipe t (c' :: cs) ((c.run t d).getD [])

def archiveCommand (f : ContainerFormat) : List Command :=
  (match f with
    | .tgz => [.tarCreate, .pv, .gzip]
    | .tar => [.tarCreate, .pv]
    | .gz => [.cpToStdout, .pv, .gzip]
    | .none | .raw => [.cpToStdout, .pv]) ++ [.tee]

/-! ## The local store of a host node -/

namespace LinuxLocalStore

/-- `archive_from_snapshot`: the format is the one of the instance's image. -/
def archiveFromSnapshot (inst : Instance) : Option (List Command) :=
  inst.image.backupObject.map fun src => archiveCommand src.containerFormat

def uploadVolume (t : Tools) (inst : Instance) (bo : BackupObject) (content : Bytes) :
    Option Bytes :=
  match archiveFromSnapshot inst with
  | none => none
  | some archive =>
    if bo.backupStorage.commandApi then pipe t (archive ++ [.upload]) content
    else do
      let bkupTmp ← pipe t archive content
      pipe t [.upload] bkupTmp

def deployVolume (t : Tools) (bo : BackupObject) (stored : Bytes) : Option Bytes := do
  let source : List Command ← if bo.backupStorage.commandApi then some [.download]
    else do
      let _ ← pipe t [.download] stored
      some [.cat]
  match bo.containerFormat with
  | .tgz => pipe t (source ++ [Command.pv, .tarExtractGzip]) stored
  | .gz => pipe t (source ++ [Command.gunzip, .pv, .cpFromStdin]) stored
  | .tar => pipe t (source ++ [Command.pv, .tarExtract]) stored
  | .none | .raw => pipe t (source ++ [Command.pv, .cpFromStdin]) stored

end LinuxLocalStore

/-! ## The backing store of a storage node -/

namespace Raw

def buildArchiveCommand (bo : BackupObject) : List Command := archiveCommand bo.containerFormat

def localBackupObject (localBackupStorageId : Option Nat) (bo : BackupObject) : Bool :=
  localBackupStorageId == some bo.backupStorage.uuid

/-- `upload_and_archive_volume`; without `CommandAPI` it names a temporary file
after `volume`, which is not defined there. -/
def uploadAndArchiveVolume (t : Tools) (bo : BackupObject) (content : Bytes) : Option Bytes :=
  if bo.backupStorage.commandApi then pipe t (buildArchiveCommand bo ++ [.upload]) content
  else none

def backupVolume (t : Tools) (localBackupStorageId : Option Nat) (bo : BackupObject)
    (content : Bytes) : Option Bytes :=
  if localBackupObject localBackupStorageId bo then pipe t (buildArchiveCommand bo) content
  else uploadAndArchiveVolume t bo content

/-- `create_volume_from_local_backup` and `create_volume_from_backup` -/
def deployVolumeFromBackupObject (t : Tools) (localBackupStorageId : Option Nat)
    (bo : BackupObject) (stored : Bytes) : Option Bytes :=
  let source : Command :=
    if localBackupObject localBackupStorageId bo then .cat
    else if bo.backupStorage.commandApi then .download
    else .cat
  match bo.containerFormat with
  | .tgz => pipe t [source, .pv, .tarExtractGzip] stored
  | .gz => pipe t [source, .gunzip, .pv, .cpFromStdin] stored
  | .tar => pipe t [source, .pv, .tarExtract] stored
  | .none | .raw => pipe t [source, .pv, .cpFromStdin] stored

end Raw

/-! ## A backup and its restoration -/

inductive Driver
  | linuxLocalStore
  | raw (localBackupStorageId : Option Nat)
  deriving DecidableEq, Repr

/-- The volume is backed up by the driver of its node; the local store works in
the context of the volume's instance. -/
def Driver.backup (t : Tools) (v : Volume) (bo : BackupObject) (content : Bytes) :
    Driver → Option Bytes
  | linuxLocalStore => do
    let inst ← v.inst
    LinuxLocalStore.uploadVolume t inst bo content
  | raw localBackupStorageId => Raw.backupVolume t localBackupStorageId bo content

def Driver.deploy (t : Tools) (bo : BackupObject) (stored : Bytes) : Driver → Option Bytes
  | linuxLocalStore => LinuxLocalStore.deployVolume t bo stored
  | raw localBackupStorageId => Raw.deployVolumeFromBackupObject t localBackupStorageId bo stored

/-- The volume is backed up, and a volume is deployed from the backup object. -/
def Driver.restore (t : Tools) (d : Driver) (v : Volume) (bkst : BackupStorage) (content : Bytes) :
    Option Bytes := do
  let bo := v.createBackupObject bkst
  let stored ← d.backup t v bo content
  d.deploy t bo stored

/-- Restoring gives back the volume, whatever it contains. -/
def Driver.Restores (t : Tools) (d : Driver) (v : Volume) (bkst : BackupStorage) : Prop :=
  ∀ content, d.restore t v bkst content = some content

/-! ## Formats -/

/-- `none` and `raw` are both handled by the `else` of the drivers. -/
def ContainerFormat.container : ContainerFormat → ContainerFormat
  | raw => none
  | f => f

def encode (t : Tools) (f : ContainerFormat) (d : Bytes) : Bytes :=
  match f with
  | .tgz => t.gzip (t.tar d)
  | .tar => t.tar d
  | .gz => t.gzip d
  | .none | .raw => d

/-- Bytes that are no compressed stream make an empty volume in `gz`, where the copy behind
`gunzip` goes well. -/
def decode (t : Tools) (f : ContainerFormat) (d : Bytes) : Option Bytes :=
  match f with
  | .tgz => t.gunzip d >>= t.untar
  | .tar => t.untar d
  | .gz => some ((t.gunzip d).getD [])
  | .none | .raw => some d

section
variable {t : Tools} (ht : t.Documented)

include ht in
theorem decode_encode (f : ContainerFormat) (d : Bytes) : decode t f (encode t f d) = some d := by
  cases f with
  | tgz => simp [decode, encode, ht.gunzip_gzip, ht.untar_tar]
  | tar => exact ht.untar_tar d
  | gz => simp [decode, encode, ht.gunzip_gzip]
  | none => rfl
  | raw => rfl

include ht in
theorem tar_ne (d : Bytes) : t.tar d ≠ d := by
  intro h
  have := ht.length_tar d
  rw [h] at this
  exact Nat.lt_irrefl _ this

include ht in
theorem gzip_ne_nil (d : Bytes) : t.gzip d ≠ [] := by
  intro h
  have := ht.take_gzip d
  rw [h] at this
  cases this

include ht in
theorem gunzip_tar (d : Bytes) : t.gunzip (t.tar d) = none := ht.gunzip_other _ (ht.take_tar d)

include ht in
theorem exists_decode_ne {f g : ContainerFormat} (h : f.container ≠ g.container) :
    ∃ d, decode t f (encode t g d) ≠ some d := by
  have hgz : t.gzip [] ≠ [] := gzip_ne_nil ht []
  have htgz : t.gzip (t.tar []) ≠ [] := gzip_ne_nil ht _
  cases f <;> cases g <;> simp only [ContainerFormat.container, ne_eq, not_true_eq_false, reduceCtorEq,
    not_false_eq_true] at h <;> simp only [decode, encode]
  -- archived as tar, gz or plain, extracted as tgz
  · exact ⟨[], by simp [gunzip_tar ht]⟩
  · exact ⟨t.tar [], by simp [ht.gunzip_gzip, ht.untar_tar, (tar_ne ht []).symm]⟩
  · exact ⟨t.gzip (t.tar []), by simp [ht.gunzip_gzip, ht.untar_tar, htgz.symm]⟩
  · exact ⟨t.gzip (t.tar []), by simp [ht.gunzip_gzip, ht.untar_tar, htgz.symm]⟩
  -- extracted as tar
  · exact ⟨[], by simp [ht.untar_gzip]⟩
  · exact ⟨[], by simp [ht.untar_gzip]⟩
  · exact ⟨t.tar [], by simp [ht.untar_tar, (tar_ne ht []).symm]⟩
  · exact ⟨t.tar [], by simp [ht.untar_tar, (tar_ne ht []).symm]⟩
  -- extracted as gz
  · exact ⟨[0], by simp [ht.gunzip_gzip, tar_ne ht]⟩
  · exact ⟨[0], by simp [gunzip_tar ht]⟩
  · exact ⟨t.gzip [], by simp [ht.gunzip_gzip, hgz.symm]⟩
  · exact ⟨t.gzip [], by simp [ht.gunzip_gzip, hgz.symm]⟩
  -- copied
  · exact ⟨[], by simp [htgz]⟩
  · exact ⟨[], by simp [tar_ne ht]⟩
  · exact ⟨[], by simp [hgz]⟩
  · exact ⟨[], by simp [htgz]⟩
  · exact ⟨[], by simp [tar_ne ht]⟩
  · exact ⟨[], by simp [hgz]⟩

end

/-! ## The drivers -/

section
variable {t : Tools} {v : Volume} {bkst : BackupStorage}

theorem archive_eq (f : ContainerFormat) (content : Bytes) :
    pipe t (archiveCommand f) content = some (encode t f content) ∧
      pipe t (archiveCommand f ++ [.upload]) content = some (encode t f content) := by
  cases f <;> exact ⟨rfl, rfl⟩

theorem uploadVolume_eq {inst : Instance} {src : BackupObject}
    (h : inst.image.backupObject = some src) (bo : BackupObject) (content : Bytes) :
    LinuxLocalStore.uploadVolume t inst bo content =
      some (encode t src.containerFormat content) := by
  unfold LinuxLocalStore.uploadVolume LinuxLocalStore.archiveFromSnapshot
  rw [h, Option.map_some]
  obtain ⟨hplain, hupload⟩ := archive_eq (t := t) src.containerFormat content
  dsimp only
  split
  · exact hupload
  · rw [hplain]
    rfl

theorem deployVolume_eq (bo : BackupObject) (stored : Bytes) :
    LinuxLocalStore.deployVolume t bo stored = decode t bo.containerFormat stored := by
  unfold LinuxLocalStore.deployVolume
  cases bo.containerFormat <;> cases bo.backupStorage.commandApi <;> simp [pipe, Command.run, decode]

theorem deployVolumeFromBackupObject_eq (localBackupStorageId : Option Nat) (bo : BackupObject)
    (stored : Bytes) : Raw.deployVolumeFromBackupObject t localBackupStorageId bo stored =
      decode t bo.containerFormat stored := by
  unfold Raw.deployVolumeFromBackupObject
  cases bo.containerFormat <;> cases Raw.localBackupObject localBackupStorageId bo <;>
    cases bo.backupStorage.commandApi <;> simp [pipe, Command.run, decode]

theorem backupVolume_eq (localBackupStorageId : Option Nat) (bo : BackupObject) (content : Bytes) :
    Raw.backupVolume t localBackupStorageId bo content =
      if localBackupStorageId = some bo.backupStorage.uuid ∨ bo.backupStorage.commandApi = true then
        some (encode t bo.containerFormat content)
      else none := by
  unfold Raw.backupVolume Raw.uploadAndArchiveVolume Raw.localBackupObject
  by_cases hl : localBackupStorageId = some bo.backupStorage.uuid
  · simp [hl, Raw.buildArchiveCommand, (archive_eq bo.containerFormat content).1]
  · simp [hl, Raw.buildArchiveCommand, (archive_eq bo.containerFormat content).2]

/-- The format that is recorded is the one the driver archives with, and the
driver can archive to the storage. -/
def Driver.Agrees (v : Volume) (bkst : BackupStorage) : Driver → Prop
  | linuxLocalStore => ∃ inst src, v.inst = some inst ∧ inst.image.backupObject = some src ∧
    ∀ own, v.backupObject = some own →
      own.containerFormat.container = src.containerFormat.container
  | raw localBackupStorageId =>
    localBackupStorageId = some bkst.uuid ∨ bkst.commandApi = true

theorem decode_container {f g : ContainerFormat} (h : f.container = g.container) (d : Bytes) :
    decode t f d = decode t g d := by
  cases f <;> cases g <;> first | rfl | cases h

theorem backupStorage_createBackupObject (v : Volume) (bkst : BackupStorage) :
    (v.createBackupObject bkst).backupStorage = bkst := by
  unfold Volume.createBackupObject
  split
  · rfl
  · split <;> rfl

theorem containerFormat_createBackupObject {inst : Instance} {src : BackupObject}
    (hv : v.inst = some inst) (hi : inst.image.backupObject = some src) :
    (v.createBackupObject bkst).containerFormat =
      (v.backupObject.getD src).containerFormat := by
  unfold Volume.createBackupObject
  cases v.backupObject with
  | none => simp [hv, hi]
  | some own => rfl

end

/-! ## A data volume -/

/-- Headers alone: an archive starts with its file's name, a compressed stream
with its magic number. -/
def headers : Tools where
  tar := fun d => 0x66 :: d
  untar := fun d => match d with
    | 0x66 :: d => some d
    | _ => none
  gzip := fun d => gzipMagic ++ d
  gunzip := fun d => match d with
    | 0x1f :: 0x8b :: d => some d
    | _ => none

theorem headers_documented : headers.Documented where
  untar_tar := fun _ => rfl
  gunzip_gzip := fun _ => rfl
  length_tar := fun d => Nat.lt_succ_self d.length
  take_tar := fun d => by cases d <;> simp [headers, gzipMagic]
  take_gzip := fun d => rfl
  gunzip_other := by
    intro d hd
    unfold headers
    dsimp only
    split
    · exact absurd rfl hd
    · rfl
  untar_gzip := fun d => rfl

/-- A volume made from a backup object in `own`, at an instance whose image is in
`image`. -/
def dataVolume (own image : ContainerFormat) : Volume :=
  ⟨some ⟨own, ⟨1, true⟩⟩, some ⟨⟨some ⟨image, ⟨1, true⟩⟩⟩⟩⟩

end VolumeBackup

end WakameVdc
