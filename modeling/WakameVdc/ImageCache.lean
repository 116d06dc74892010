import WakameVdc.Lib.Dir
import WakameVdc.Lib.Run
import WakameVdc.Lib.Sessions
import WakameVdc.Lib.Text

/-!
# The image cache of a host

`deploy_volume` of `drivers/local_store/linux_local_store.rb` with image caching, and
`download_to_local_cache` and `delete_local_cache` that it goes through. The jobs of a host
run in several threads, and each goes from one call on the cache directory to the next.
-/

namespace WakameVdc

open Lib

namespace ImageCache

/-- The settings of `hva.conf`, and the answer of `md5sum`. -/
structure Conf (Data : Type) where
  maxCachedImages : Nat
  enableCacheChecksum : Bool
  md5 : Data → Text

/-- Where a deploy is; its next call is that of the constructor. -/
inductive Phase
  | submitted
  | evicting (victim : Text)
  | evictingSum (victim : Text)
  | checking
  | stamped (mtime : Nat)
  | verifying
  | clearing
  | clearingSum
  | downloading
  | receiving (image : Nat)
  | fetching (image : Nat)
  | fetched
  | ready (cached : Bool)
  deriving DecidableEq, Repr

/-- `path` is the one of the volume device, `checksum` the one of the backup object, and
`commandApi` says that the driver of the backup storage is used by its command line. -/
structure Deploy where
  path : Text
  checksum : Text
  commandApi : Bool
  at_ : Phase
  deriving DecidableEq, Repr

/-- What `cat` read for a volume, if the file was there. -/
structure Copy (Data : Type) where
  path : Text
  checksum : Text
  cached : Bool
  content : Option Data
  deriving DecidableEq, Repr

/-- A download that goes through `tee >( md5sum | awk '{print $1}' > '%s' ) > '%s'`. The shell
opens the `.md5` file for itself, maybe when the deploy is over; `line` is the answer of `md5sum`
once its input has ended. -/
structure Pipeline where
  sum : Option Nat
  line : Option Text
  deriving DecidableEq, Repr

/-- `image_cache_dir` as the images and their `.md5` files, which have one line once it is
written. A pipeline stands under the volume and the number of the image it writes. -/
structure Sys (Data : Type) where
  images : Dir Text Data
  sums : Dir Text (Option Text)
  pipelines : Hash (Text × Nat) Pipeline
  deploys : Hash Nat Deploy
  copies : List (Copy Data)
  clock : Nat

/-- What comes from outside into a call: the image the sort puts first, whether `File.unlink`
did what it was called for, and of a download what stands in the file, what went to `md5sum` and
whether there is more to come. -/
structure Outcome (Data : Type) where
  pick : Text
  unlinked : Bool
  data : Data
  stream : Data
  more : Bool

variable {Data : Type}

namespace Sys

variable (conf : Conf Data) (s : Sys Data)

def oldest (pick : Text) : Bool :=
  match s.images.find pick with
  | none => false
  | some f => (Hash.values s.images.files).all fun g => decide (f.mtime ≤ g.mtime)

def goto (k : Nat) (j : Deploy) (p : Phase) : Sys Data :=
  { s with deploys := s.deploys.insert k { j with at_ := p } }

/-- With `rescue nil`. -/
def unlinkImage (name : Text) (o : Outcome Data) : Sys Data :=
  { s with images := if o.unlinked then s.images.unlink name else s.images }

def unlinkSum (name : Text) (o : Outcome Data) : Sys Data :=
  { s with sums := if o.unlinked then s.sums.unlink name else s.sums }

def writeImage (name : Text) (inode : Nat) (data : Data) : Sys Data :=
  { s with images := s.images.write name inode data s.clock }

def fetch (k : Nat) (j : Deploy) (image : Nat) (o : Outcome Data) : Sys Data :=
  let s := s.writeImage j.path image o.data
  if o.more then s else s.goto k j (if conf.enableCacheChecksum then .fetched else .ready false)

def exec (k : Nat) (j : Deploy) (o : Outcome Data) : Sys Data :=
  match j.at_ with
  | .submitted =>
    if s.images.count ≤ conf.maxCachedImages then s.goto k j .checking
    else if s.oldest o.pick then s.goto k j (.evicting o.pick)
    else s
  | .evicting victim => (s.unlinkImage victim o).goto k j (.evictingSum victim)
  | .evictingSum victim => (s.unlinkSum victim o).goto k j .checking
  | .checking =>
    match s.images.find j.path with
    | none => s.goto k j .clearing
    | some f => s.goto k j (.stamped f.mtime)
  | .stamped mtime =>
    match s.sums.find j.path with
    | none => s.goto k j .clearing
    | some g => s.goto k j (if mtime ≤ g.mtime then .verifying else .clearing)
  | .verifying =>
    match s.sums.find j.path with
    | none => s.goto k j .clearing
    | some g => s.goto k j (if g.content.getD [] = j.checksum then .ready true else .clearing)
  | .clearing => (s.unlinkImage j.path o).goto k j .clearingSum
  | .clearingSum => (s.unlinkSum j.path o).goto k j .downloading
  | .downloading =>
    let image := s.images.opened j.path
    let created := { s with images := s.images.create j.path o.data s.clock }
    if j.commandApi then
      { created with pipelines := s.pipelines.insert (j.path, image) ⟨none, none⟩ }.goto k j (.receiving image)
    else created.goto k j (.fetching image)
  | .receiving image =>
    match s.pipelines.lookup (j.path, image) with
    | some ⟨_, none⟩ => s
    | _ => s.goto k j (.ready false)
  | .fetching image => s.fetch conf k j image o
  | .fetched =>
    let line := (s.images.find j.path).map fun f => conf.md5 f.content
    { s with sums := s.sums.create j.path line s.clock }.goto k j (.ready false)
  | .ready cached =>
    { s with
      deploys := s.deploys.erase k
      copies := s.copies ++ [⟨j.path, j.checksum, cached, (s.images.find j.path).map File.content⟩] }

/-- The output of the download goes through `tee`, whose output is the image. -/
def receive (path : Text) (image : Nat) (o : Outcome Data) : Sys Data :=
  match s.pipelines.lookup (path, image) with
  | some ⟨sum, none⟩ =>
    let s := s.writeImage path image o.data
    if o.more then s
    else { s with pipelines := s.pipelines.insert (path, image) ⟨sum, some (conf.md5 o.stream)⟩ }
  | _ => s

/-- The shell opens the `.md5` file. -/
def openSum (path : Text) (image : Nat) : Sys Data :=
  match s.pipelines.lookup (path, image) with
  | some ⟨none, line⟩ =>
    { s with
      sums := s.sums.create path none s.clock
      pipelines := s.pipelines.insert (path, image) ⟨some (s.sums.opened path), line⟩ }
  | _ => s

/-- `md5sum` is through with what the download left it, and its line is written. -/
def writeSum (path : Text) (image : Nat) : Sys Data :=
  match s.pipelines.lookup (path, image) with
  | some ⟨some sum, some line⟩ =>
    { s with
      sums := s.sums.write path sum (some line) s.clock
      pipelines := s.pipelines.erase (path, image) }
  | _ => s

end Sys

/-- A deploy that fails ends where it is, as do those of an agent that goes down. The pipelines
they started go on. -/
inductive Step (Data : Type)
  | deploy (k : Nat) (path checksum : Text) (commandApi : Bool)
  | run (k : Nat) (o : Outcome Data)
  | fail (k : Nat)
  | receive (path : Text) (image : Nat) (o : Outcome Data)
  | openSum (path : Text) (image : Nat)
  | writeSum (path : Text) (image : Nat)
  | tick

def Sys.step (conf : Conf Data) (s : Sys Data) : Step Data → Sys Data
  | .deploy k path checksum commandApi =>
    { s with deploys := s.deploys.insert k ⟨path, checksum, commandApi, .submitted⟩ }
  | .run k o => (s.deploys.lookup k).elim s fun j => s.exec conf k j o
  | .fail k => { s with deploys := s.deploys.erase k }
  | .receive path image o => s.receive conf path image o
  | .openSum path image => s.openSum path image
  | .writeSum path image => s.writeSum path image
  | .tick => { s with clock := s.clock + 1 }

/-! ## What is promised -/

def Sys.free (s : Sys Data) (k : Nat) : Bool := (s.deploys.lookup k).isNone

def Sys.idle (s : Sys Data) (path : Text) : Bool := (Hash.values s.deploys).all fun j => j.path != path

/-- The `.md5` files of the downloads of this volume are open, if they are not written. -/
def Sys.sumsOpen (s : Sys Data) (path : Text) : Bool :=
  Hash.isEmpty (Hash.filterVals (fun x p => x.1 == path && p.sum.isNone) s.pipelines)

/-- The names of the volume go when they are to go, and no download of before can bring one back. -/
def Deploy.Clears (s : Sys Data) (j : Deploy) (o : Outcome Data) : Bool :=
  match j.at_ with
  | .clearing => o.unlinked
  | .clearingSum => o.unlinked && s.sumsOpen j.path
  | _ => true

/-- A volume is deployed by one job at a time, and its backup object has a checksum; an image
does not lose what its checksum is taken of. -/
def Fits (s : Sys Data) : Step Data → Prop
  | .deploy k path checksum _ => s.free k = true ∧ s.idle path = true ∧ checksum ≠ []
  | .run k o => ∀ j ∈ s.deploys.lookup k, j.Clears s o = true
  | .receive _ _ o => o.more = false → o.data = o.stream
  | .fail _ | .openSum _ _ | .writeSum _ _ | .tick => True

section
variable [DecidableEq Data]

instance (s : Sys Data) : (a : Step Data) → Decidable (Fits s a)
  | .deploy k path checksum _ =>
    inferInstanceAs (Decidable (s.free k = true ∧ s.idle path = true ∧ checksum ≠ []))
  | .run k o => inferInstanceAs (Decidable (∀ j ∈ s.deploys.lookup k, j.Clears s o = true))
  | .receive _ _ o => inferInstanceAs (Decidable (o.more = false → o.data = o.stream))
  | .fail _ | .openSum _ _ | .writeSum _ _ | .tick => .isTrue trivial

end

/-- The line of an `.md5` file is the checksum of the image next to it. -/
def Sys.Truthful (conf : Conf Data) (s : Sys Data) (path : Text) : Prop :=
  ∀ f g line, s.images.find path = some f → s.sums.find path = some g → g.content = some line →
    conf.md5 f.content = line

/-- A host whose agent comes up; the cache is as the last one left it. -/
structure Cold (conf : Conf Data) (s : Sys Data) : Prop where
  deploys : s.deploys = ∅
  pipelines : s.pipelines = ∅
  copies : s.copies = []
  truthful : ∀ path, s.Truthful conf path

/-- What is copied from the cache has the checksum of the backup object. -/
def Verified (conf : Conf Data) (s : Sys Data) : Prop :=
  ∀ c ∈ s.copies, c.cached = true → ∀ d, c.content = some d → conf.md5 d = c.checksum

end ImageCache

end WakameVdc
