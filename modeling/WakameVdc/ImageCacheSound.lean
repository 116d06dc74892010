import WakameVdc.ImageCache

/-!
# Cached images are what their checksums say

Whatever deploys run at a time, and wherever downloads break off, the line of an `.md5`
file is the checksum of the image next to it: the line comes when all of the image is
written, and a deploy that downloads it again takes both names away first, when no download
of before has still to open its `.md5` file.
-/

namespace WakameVdc

open Lib

namespace ImageCache

variable {Data : Type} {conf : Conf Data} {s s' : Sys Data} {path : Text} {image : Nat} {p : Pipeline}
  {j : Deploy} {k : Nat}

/-! ## One volume -/

/-- The files of a pipeline belong together, and it writes its line when its image is there. -/
structure Pipeline.Ok (conf : Conf Data) (s : Sys Data) (path : Text) (image : Nat) (p : Pipeline) : Prop where
  image_lt : image < s.images.next
  sum_lt : ∀ n, p.sum = some n → n < s.sums.next
  beside : ∀ f g, s.images.find path = some f → s.sums.find path = some g → p.sum = some g.inode → f.inode = image
  late : p.sum = none → s.sums.find path = none ∧ ∀ f, s.images.find path = some f → f.inode = image
  writing : p.line = none → ∀ f g, s.images.find path = some f → s.sums.find path = some g →
    f.inode = image → g.content = none
  written : ∀ line, p.line = some line → ∀ f, s.images.find path = some f → f.inode = image →
    conf.md5 f.content = line

/-- The files of a volume agree, also when the lines that are still due are written. -/
structure PathOk (conf : Conf Data) (s : Sys Data) (path : Text) : Prop where
  truthful : s.Truthful conf path
  pipelines : ∀ image p, s.pipelines.lookup (path, image) = some p → p.Ok conf s path image
  single : ∀ image image' p p', s.pipelines.lookup (path, image) = some p →
    s.pipelines.lookup (path, image') = some p' → p.sum = none → p'.sum = none → image = image'

/-- No download of before brings an `.md5` file back. -/
def Sys.Opened (s : Sys Data) (path : Text) : Prop :=
  ∀ image p, s.pipelines.lookup (path, image) = some p → p.sum ≠ none

theorem sumsOpen_iff : s.sumsOpen path = true ↔ s.Opened path := by
  unfold Sys.sumsOpen Sys.Opened
  rw [Hash.isEmpty_iff]
  constructor
  · intro h image p hp hn
    have hx := h (path, image)
    rw [Hash.lookup_filterVals, hp] at hx
    simp [hn] at hx
  · intro h x
    rw [Hash.lookup_filterVals, Option.filter_eq_none_iff]
    rintro p hp hc
    simp only [Bool.and_eq_true, beq_iff_eq, Option.isNone_iff_eq_none] at hc
    rw [← hc.1] at h
    exact h x.2 p hp hc.2

/-- What a deploy has found or done stays so, apart from what others unlink. -/
def Deploy.Ok (conf : Conf Data) (s : Sys Data) (j : Deploy) : Prop :=
  match j.at_ with
  | .clearingSum => s.images.find j.path = none
  | .downloading => s.images.find j.path = none ∧ s.sums.find j.path = none ∧ s.Opened j.path
  | .fetching image => s.sums.find j.path = none ∧ s.Opened j.path ∧
    s.pipelines.lookup (j.path, image) = none ∧ ∀ f, s.images.find j.path = some f → f.inode = image
  | .fetched => s.sums.find j.path = none ∧ s.Opened j.path ∧
    ∀ f, s.images.find j.path = some f → s.pipelines.lookup (j.path, f.inode) = none
  | .ready true => ∀ f, s.images.find j.path = some f → conf.md5 f.content = j.checksum ∧
    ∀ p, s.pipelines.lookup (j.path, f.inode) = some p → p.line ≠ none
  | _ => True

/-- Of the files of a volume only names went. -/
structure Shrinks (s s' : Sys Data) (path : Text) : Prop where
  images : ∀ f, s'.images.find path = some f → s.images.find path = some f
  sums : ∀ g, s'.sums.find path = some g → s.sums.find path = some g
  pipelines : ∀ image, s'.pipelines.lookup (path, image) = s.pipelines.lookup (path, image)
  nextImage : s.images.next ≤ s'.images.next
  nextSum : s.sums.next ≤ s'.sums.next

theorem shrinks_same (himages : s'.images = s.images) (hsums : s'.sums = s.sums)
    (hpipelines : s'.pipelines = s.pipelines) : Shrinks s s' path := by
  refine ⟨?_, ?_, ?_, ?_, ?_⟩
  · rw [himages]
    exact fun _ h => h
  · rw [hsums]
    exact fun _ h => h
  · rw [hpipelines]
    exact fun _ => rfl
  · rw [himages]
  · rw [hsums]

theorem shrinks_refl : Shrinks s s path := shrinks_same rfl rfl rfl

theorem Shrinks.trans {s'' : Sys Data} (h : Shrinks s s' path) (h' : Shrinks s' s'' path) :
    Shrinks s s'' path :=
  ⟨fun f hf => h.images f (h'.images f hf), fun g hg => h.sums g (h'.sums g hg),
    fun n => (h'.pipelines n).trans (h.pipelines n), Nat.le_trans h.nextImage h'.nextImage,
    Nat.le_trans h.nextSum h'.nextSum⟩

theorem shrinks_goto {at_ : Phase} : Shrinks s (s.goto k j at_) path := shrinks_same rfl rfl rfl

theorem Shrinks.images_none (h : Shrinks s s' path) (hn : s.images.find path = none) :
    s'.images.find path = none := by
  cases hf : s'.images.find path with
  | none => rfl
  | some f =>
    rw [h.images f hf] at hn
    cases hn

theorem Shrinks.sums_none (h : Shrinks s s' path) (hn : s.sums.find path = none) :
    s'.sums.find path = none := by
  cases hg : s'.sums.find path with
  | none => rfl
  | some g =>
    rw [h.sums g hg] at hn
    cases hn

theorem Shrinks.opened (h : Shrinks s s' path) (ho : s.Opened path) : s'.Opened path := by
  intro image p hp
  rw [h.pipelines] at hp
  exact ho image p hp

theorem Shrinks.pathOk (h : Shrinks s s' path) (hp : PathOk conf s path) : PathOk conf s' path := by
  refine ⟨?_, ?_, ?_⟩
  · intro f g line hf hg
    exact hp.truthful f g line (h.images f hf) (h.sums g hg)
  · intro image p hl
    rw [h.pipelines] at hl
    have hok := hp.pipelines image p hl
    refine ⟨Nat.lt_of_lt_of_le hok.image_lt h.nextImage, ?_, ?_, ?_, ?_, ?_⟩
    · intro n hn
      exact Nat.lt_of_lt_of_le (hok.sum_lt n hn) h.nextSum
    · intro f g hf hg
      exact hok.beside f g (h.images f hf) (h.sums g hg)
    · intro hn
      obtain ⟨hsum, himage⟩ := hok.late hn
      exact ⟨h.sums_none hsum, fun f hf => himage f (h.images f hf)⟩
    · intro hn f g hf hg
      exact hok.writing hn f g (h.images f hf) (h.sums g hg)
    · intro line hn f hf
      exact hok.written line hn f (h.images f hf)
  · intro image image' p p' hl hl'
    rw [h.pipelines] at hl hl'
    exact hp.single image image' p p' hl hl'

theorem PathOk.same (h : PathOk conf s path) (himages : s'.images = s.images) (hsums : s'.sums = s.sums)
    (hpipelines : s'.pipelines = s.pipelines) : PathOk conf s' path :=
  (shrinks_same himages hsums hpipelines).pathOk h

theorem Shrinks.deploy (h : Shrinks s s' j.path) (hj : j.Ok conf s) : j.Ok conf s' := by
  unfold Deploy.Ok at hj ⊢
  split
  · rename_i hat
    rw [hat] at hj
    exact h.images_none hj
  · rename_i hat
    rw [hat] at hj
    exact ⟨h.images_none hj.1, h.sums_none hj.2.1, h.opened hj.2.2⟩
  · rename_i image hat
    rw [hat] at hj
    refine ⟨h.sums_none hj.1, h.opened hj.2.1, ?_, fun f hf => hj.2.2.2 f (h.images f hf)⟩
    rw [h.pipelines]
    exact hj.2.2.1
  · rename_i hat
    rw [hat] at hj
    refine ⟨h.sums_none hj.1, h.opened hj.2.1, fun f hf => ?_⟩
    rw [h.pipelines]
    exact hj.2.2 f (h.images f hf)
  · rename_i hat
    rw [hat] at hj
    intro f hf
    refine ⟨(hj f (h.images f hf)).1, fun p hp => ?_⟩
    rw [h.pipelines] at hp
    exact (hj f (h.images f hf)).2 p hp
  · trivial

/-! ## A step of one deploy -/

structure Inv (conf : Conf Data) (s : Sys Data) : Prop where
  paths : ∀ path, PathOk conf s path
  apart : Sessions.Apart (fun j j' : Deploy => j.path = j'.path) s.deploys
  deploys : Sessions.All (Deploy.Ok conf s) s.deploys
  checksums : Sessions.All (fun j => j.checksum ≠ []) s.deploys
  verified : Verified conf s

/-- A deploy goes on: it keeps its volume, and of the others only names go. -/
theorem Inv.own (h : Inv conf s) (hk : s.deploys.lookup k = some j)
    (hdeploys : ∀ x y, s'.deploys.lookup x = some y → if x = k then
      y.path = j.path ∧ y.checksum = j.checksum ∧ y.Ok conf s' else s.deploys.lookup x = some y)
    (hothers : ∀ path, path ≠ j.path → Shrinks s s' path) (hpath : PathOk conf s' j.path)
    (hverified : Verified conf s') : Inv conf s' := by
  have hcases : ∀ x y, s'.deploys.lookup x = some y →
      (x = k ∧ y.path = j.path ∧ y.checksum = j.checksum ∧ y.Ok conf s') ∨
        x ≠ k ∧ s.deploys.lookup x = some y := by
    intro x y hx
    have hy := hdeploys x y hx
    split at hy
    · rename_i he
      exact Or.inl ⟨he, hy⟩
    · rename_i he
      exact Or.inr ⟨he, hy⟩
  refine ⟨?_, ?_, ?_, ?_, hverified⟩
  · intro path
    by_cases hp : path = j.path
    · rw [hp]
      exact hpath
    · exact (hothers path hp).pathOk (h.paths path)
  · intro x x' y y' hx hx' hclash
    rcases hcases x y hx with ⟨he, hy, _⟩ | ⟨he, hy⟩
    · rcases hcases x' y' hx' with ⟨he', _⟩ | ⟨_, hy'⟩
      · rw [he, he']
      · rw [he]
        exact h.apart k x' j y' hk hy' (hy.symm.trans hclash)
    · rcases hcases x' y' hx' with ⟨he', hy', _⟩ | ⟨_, hy'⟩
      · rw [he']
        exact h.apart x k y j hy hk (hclash.trans hy')
      · exact h.apart x x' y y' hy hy' hclash
  · intro x y hx
    rcases hcases x y hx with ⟨_, _, _, hok⟩ | ⟨he, hy⟩
    · exact hok
    · apply (hothers y.path ?_).deploy (h.deploys x y hy)
      intro hp
      exact he (h.apart x k y j hy hk hp)
  · intro x y hx
    rcases hcases x y hx with ⟨_, _, hc, _⟩ | ⟨_, hy⟩
    · rw [hc]
      exact h.checksums k j hk
    · exact h.checksums x y hy

theorem Inv.goto (h : Inv conf s) (hk : s.deploys.lookup k = some j) {p : Phase}
    (hsame : s'.deploys = s.deploys) (hcopies : s'.copies = s.copies)
    (hothers : ∀ path, path ≠ j.path → Shrinks s s' path) (hpath : PathOk conf s' j.path)
    (hok : Deploy.Ok conf s' { j with at_ := p }) : Inv conf (s'.goto k j p) := by
  refine h.own hk ?_ (fun path hne => (hothers path hne).trans shrinks_goto) (shrinks_goto.pathOk hpath) ?_
  · intro x y hx
    replace hx : (s'.deploys.insert k { j with at_ := p }).lookup x = some y := hx
    rw [Hash.lookup_insert] at hx
    split
    · rename_i he
      rw [if_pos he] at hx
      cases hx
      exact ⟨rfl, rfl, shrinks_goto.deploy hok⟩
    · rename_i he
      rw [if_neg he, hsame] at hx
      exact hx
  · intro c hc
    apply h.verified c
    rw [← hcopies]
    exact hc

/-- A deploy that only looks. -/
theorem Inv.look (h : Inv conf s) (hk : s.deploys.lookup k = some j) {p : Phase}
    (hok : Deploy.Ok conf s { j with at_ := p }) : Inv conf (s.goto k j p) :=
  h.goto hk rfl rfl (fun _ _ => shrinks_refl) (h.paths j.path) hok

theorem shrinks_unlinkImage (name path : Text) (o : Outcome Data) : Shrinks s (s.unlinkImage name o) path := by
  unfold Sys.unlinkImage
  split
  · exact ⟨fun _ hf => Dir.find_of_unlink hf, fun _ h => h, fun _ => rfl, Nat.le_refl _, Nat.le_refl _⟩
  · exact shrinks_refl

theorem shrinks_unlinkSum (name path : Text) (o : Outcome Data) : Shrinks s (s.unlinkSum name o) path := by
  unfold Sys.unlinkSum
  split
  · exact ⟨fun _ h => h, fun _ hg => Dir.find_of_unlink hg, fun _ => rfl, Nat.le_refl _, Nat.le_refl _⟩
  · exact shrinks_refl

theorem Inv.shrink (h : Inv conf s) (hk : s.deploys.lookup k = some j) {p : Phase}
    (hsame : s'.deploys = s.deploys) (hcopies : s'.copies = s.copies) (hs : ∀ path, Shrinks s s' path)
    (hok : Deploy.Ok conf s' { j with at_ := p }) : Inv conf (s'.goto k j p) :=
  h.goto hk hsame hcopies (fun path _ => hs path) ((hs j.path).pathOk (h.paths j.path)) hok

/-! ## Downloads -/

theorem find_writeImage (image : Nat) (data : Data) {f : File Data}
    (hf : (s.writeImage path image data).images.find path = some f) :
    ∃ f', s.images.find path = some f' ∧ Dir.rewrite image data s.clock f' = f := by
  replace hf : (s.images.write path image data s.clock).find path = some f := hf
  rw [Dir.find_write, if_pos rfl] at hf
  exact Option.map_eq_some_iff.mp hf

/-- What is written to a volume is not seen under the names of others. -/
theorem shrinks_writeImage {x : Text} (hne : x ≠ path) (image : Nat) (data : Data) :
    Shrinks s (s.writeImage path image data) x := by
  refine ⟨fun f hf => ?_, fun _ hg => hg, fun _ => rfl, Nat.le_refl _, Nat.le_refl _⟩
  replace hf : (s.images.write path image data s.clock).find x = some f := hf
  rw [Dir.find_write, if_neg hne] at hf
  exact hf

/-- A deploy writes its own image, which is that of no pipeline, while there is no `.md5` file. -/
theorem PathOk.writeImage (h : PathOk conf s path) (hsum : s.sums.find path = none) (ho : s.Opened path)
    (hnone : s.pipelines.lookup (path, image) = none) (data : Data) :
    PathOk conf (s.writeImage path image data) path := by
  refine ⟨?_, ?_, h.single⟩
  · intro f g line _ hg
    rw [show s.sums.find path = some g from hg] at hsum
    cases hsum
  · intro i p hl
    have hok := h.pipelines i p hl
    refine ⟨hok.image_lt, hok.sum_lt, ?_, fun hn => absurd hn (ho i p hl), ?_, ?_⟩
    · intro f g _ hg
      rw [show s.sums.find path = some g from hg] at hsum
      cases hsum
    · intro _ f g _ hg
      rw [show s.sums.find path = some g from hg] at hsum
      cases hsum
    · intro line hline f hf hi
      obtain ⟨f', hf', he⟩ := find_writeImage image data hf
      have hne : f'.inode ≠ image := by
        rintro rfl
        rw [← he, Dir.inode_rewrite] at hi
        rw [hi, show s.pipelines.lookup (path, i) = some p from hl] at hnone
        cases hnone
      unfold Dir.rewrite at he
      rw [if_neg hne] at he
      rw [← he] at hi ⊢
      exact hok.written line hline f' hf' hi

theorem Inv.fetch (h : Inv conf s) (hk : s.deploys.lookup k = some j)
    (hat : j.at_ = .fetching image) (o : Outcome Data) : Inv conf (s.fetch conf k j image o) := by
  have hj := h.deploys k j hk
  unfold Deploy.Ok at hj
  rw [hat] at hj
  obtain ⟨hsum, ho, hnone, himage⟩ := hj
  have hinode : ∀ f, (s.writeImage j.path image o.data).images.find j.path = some f → f.inode = image := by
    intro f hf
    obtain ⟨f', hf', he⟩ := find_writeImage image o.data hf
    rw [← he, Dir.inode_rewrite]
    exact himage f' hf'
  have hwritten : Inv conf (s.writeImage j.path image o.data) := by
    apply h.own hk
    · intro x y hx
      replace hx : s.deploys.lookup x = some y := hx
      split
      · rename_i he
        rw [he, hk] at hx
        cases hx
        refine ⟨rfl, rfl, ?_⟩
        unfold Deploy.Ok
        rw [hat]
        exact ⟨hsum, ho, hnone, hinode⟩
      · exact hx
    · exact fun _ hne => shrinks_writeImage hne image o.data
    · exact (h.paths j.path).writeImage hsum ho hnone o.data
    · exact h.verified
  unfold Sys.fetch
  dsimp only
  split
  · exact hwritten
  · apply hwritten.look hk
    cases conf.enableCacheChecksum with
    | false => trivial
    | true =>
      refine ⟨hsum, ho, fun f hf => ?_⟩
      rw [hinode f hf]
      exact hnone

/-- What is created for a volume is not seen under the names of others. -/
theorem find_create_of_ne {α : Type} (d : Dir Text α) {name x : Text} (hne : x ≠ name) (content : α) (now : Nat) :
    (d.create name content now).find x = d.find x := by
  rw [Dir.find_create, if_neg hne]

/-- A new image stands beside no `.md5` file, and no pipeline of before writes it. -/
theorem PathOk.createImage (h : PathOk conf s path) (himage : s.images.find path = none)
    (hsum : s.sums.find path = none) (ho : s.Opened path) {data : Data} {i : Nat}
    (hl : s.pipelines.lookup (path, i) = some p)
    (himages : s'.images = s.images.create path data s.clock) (hsums : s'.sums = s.sums) :
    p.Ok conf s' path i := by
  have hok := h.pipelines i p hl
  refine ⟨?_, ?_, ?_, fun hn => absurd hn (ho i p hl), ?_, ?_⟩
  · rw [himages]
    exact Nat.lt_succ_of_lt hok.image_lt
  · rw [hsums]
    exact hok.sum_lt
  · intro f g _ hg
    rw [hsums, hsum] at hg
    cases hg
  · intro _ f g _ hg
    rw [hsums, hsum] at hg
    cases hg
  · intro line _ f hf hi
    rw [himages, Dir.find_create, if_pos rfl, Dir.opened_of_none himage] at hf
    cases hf
    have hlt := hok.image_lt
    rw [← hi] at hlt
    exact absurd hlt (Nat.lt_irrefl _)

theorem PathOk.lookup_next (h : PathOk conf s path) : s.pipelines.lookup (path, s.images.next) = none := by
  cases hl : s.pipelines.lookup (path, s.images.next) with
  | none => rfl
  | some p => exact absurd (h.pipelines _ p hl).image_lt (Nat.lt_irrefl _)

theorem Inv.download (h : Inv conf s) (hk : s.deploys.lookup k = some j) (hat : j.at_ = .downloading)
    (o : Outcome Data) : Inv conf (s.exec conf k j o) := by
  have hj := h.deploys k j hk
  unfold Deploy.Ok at hj
  rw [hat] at hj
  obtain ⟨himage, hsum, ho⟩ := hj
  have hpath := h.paths j.path
  have hnext := hpath.lookup_next
  unfold Sys.exec
  rw [hat]
  dsimp only
  rw [Dir.opened_of_none himage]
  split
  · have hlookup : ∀ x i, AList.lookup (x, i) (s.pipelines.insert (j.path, s.images.next) ⟨none, none⟩) =
        if x = j.path ∧ i = s.images.next then some ⟨none, none⟩ else s.pipelines.lookup (x, i) := by
      intro x i
      rw [Hash.lookup_insert]
      simp only [Prod.mk.injEq]
    refine h.goto hk rfl rfl ?_ ⟨?_, ?_, ?_⟩ trivial
    · intro path hne
      refine ⟨fun f hf => ?_, fun _ hg => hg, fun i => ?_, Nat.le_succ _, Nat.le_refl _⟩
      · rw [find_create_of_ne _ hne] at hf
        exact hf
      · exact (hlookup path i).trans (if_neg fun he => hne he.1)
    · intro f g line _ hg
      rw [show s.sums.find j.path = some g from hg] at hsum
      cases hsum
    · intro i p hl
      replace hl := (hlookup j.path i).symm.trans hl
      split at hl
      · rename_i he
        cases hl
        -- the new pipeline has still to open its `.md5` file
        refine ⟨?_, fun n hn => ?_, ?_, fun _ => ⟨hsum, ?_⟩, ?_, fun line hline => ?_⟩
        · rw [he.2]
          exact Nat.lt_succ_self _
        · cases hn
        · intro f g _ hg
          rw [show s.sums.find j.path = some g from hg] at hsum
          cases hsum
        · intro f hf
          rw [Dir.find_create, if_pos rfl, Dir.opened_of_none himage] at hf
          cases hf
          exact he.2.symm
        · intro _ f g _ hg
          rw [show s.sums.find j.path = some g from hg] at hsum
          cases hsum
        · cases hline
      · exact hpath.createImage himage hsum ho hl rfl rfl
    · intro i i' p p' hl hl' hn hn'
      replace hl := (hlookup j.path i).symm.trans hl
      replace hl' := (hlookup j.path i').symm.trans hl'
      split at hl
      · rename_i he
        split at hl'
        · rename_i he'
          exact he.2.trans he'.2.symm
        · exact absurd hn' (ho i' p' hl')
      · exact absurd hn (ho i p hl)
  · refine h.goto hk rfl rfl ?_ ⟨?_, ?_, hpath.single⟩ ⟨hsum, ho, hnext, ?_⟩
    · intro path hne
      refine ⟨fun f hf => ?_, fun _ hg => hg, fun _ => rfl, Nat.le_succ _, Nat.le_refl _⟩
      rw [find_create_of_ne _ hne] at hf
      exact hf
    · intro f g line _ hg
      rw [show s.sums.find j.path = some g from hg] at hsum
      cases hsum
    · intro i p hl
      exact hpath.createImage himage hsum ho hl rfl rfl
    · intro f hf
      rw [Dir.find_create, if_pos rfl, Dir.opened_of_none himage] at hf
      cases hf
      rfl

theorem Inv.checksum (h : Inv conf s) (hk : s.deploys.lookup k = some j) (hat : j.at_ = .fetched)
    (o : Outcome Data) : Inv conf (s.exec conf k j o) := by
  have hj := h.deploys k j hk
  unfold Deploy.Ok at hj
  rw [hat] at hj
  obtain ⟨hsum, ho, hnone⟩ := hj
  have hpath := h.paths j.path
  unfold Sys.exec
  rw [hat]
  dsimp only
  refine h.goto hk rfl rfl ?_ ⟨?_, ?_, hpath.single⟩ trivial
  · intro path hne
    refine ⟨fun _ hf => hf, fun g hg => ?_, fun _ => rfl, Nat.le_refl _, Nat.le_succ _⟩
    rw [find_create_of_ne _ hne] at hg
    exact hg
  · intro f g line hf hg hline
    replace hf : s.images.find j.path = some f := hf
    rw [Dir.find_create, if_pos rfl, hf] at hg
    cases hg
    exact Option.some.inj hline
  · intro i p hl
    have hok := hpath.pipelines i p hl
    have hother : ∀ f, s.images.find j.path = some f → f.inode ≠ i := by
      rintro f hf rfl
      rw [hnone f hf] at hl
      cases hl
    refine ⟨hok.image_lt, fun n hn => Nat.lt_succ_of_lt (hok.sum_lt n hn), ?_,
      fun hn => absurd hn (ho i p hl), ?_, hok.written⟩
    · intro f g _ hg hn
      rw [Dir.find_create, if_pos rfl, Dir.opened_of_none hsum] at hg
      cases hg
      exact absurd (hok.sum_lt _ hn) (Nat.lt_irrefl _)
    · intro _ f g hf _ hi
      exact absurd hi (hother f hf)

/-! ## The other calls -/

/-- The image is used when the line next to it is the checksum of the backup object. -/
theorem Inv.verify (h : Inv conf s) (hk : s.deploys.lookup k = some j) (hat : j.at_ = .verifying)
    (o : Outcome Data) : Inv conf (s.exec conf k j o) := by
  unfold Sys.exec
  rw [hat]
  dsimp only
  split
  · exact h.look hk trivial
  · rename_i g hg
    apply h.look hk
    split
    · rename_i heq
      intro f hf
      cases hc : g.content with
      | none =>
        rw [hc] at heq
        exact absurd heq.symm (h.checksums k j hk)
      | some line =>
        rw [hc] at heq
        refine ⟨((h.paths j.path).truthful f g line hf hg hc).trans heq, fun p hp hn => ?_⟩
        -- an image that is still written has no line beside it
        have hempty := ((h.paths j.path).pipelines _ p hp).writing hn f g hf hg rfl
        rw [hc] at hempty
        cases hempty
    · trivial

theorem Inv.copy (h : Inv conf s) (hk : s.deploys.lookup k = some j) {cached : Bool}
    (hat : j.at_ = .ready cached) (o : Outcome Data) : Inv conf (s.exec conf k j o) := by
  have hj := h.deploys k j hk
  unfold Sys.exec
  rw [hat]
  dsimp only
  refine ⟨fun path => (h.paths path).same rfl rfl rfl, h.apart.erase, h.deploys.erase.mono ?_,
    h.checksums.erase, ?_⟩
  · intro _ _ _ hok
    exact hok
  · intro c hc hcached d hd
    rcases List.mem_append.mp hc with hc | hc
    · exact h.verified c hc hcached d hd
    · cases List.mem_singleton.mp hc
      replace hcached : cached = true := hcached
      unfold Deploy.Ok at hj
      rw [hat, hcached] at hj
      obtain ⟨f, hf, he⟩ := Option.map_eq_some_iff.mp hd
      rw [← he]
      exact (hj f hf).1

theorem Inv.clear (h : Inv conf s) (hk : s.deploys.lookup k = some j) (hat : j.at_ = .clearingSum)
    {o : Outcome Data} (hc : j.Clears s o = true) : Inv conf (s.exec conf k j o) := by
  have hj := h.deploys k j hk
  unfold Deploy.Ok at hj
  rw [hat] at hj
  unfold Deploy.Clears at hc
  rw [hat] at hc
  obtain ⟨hu, hopen⟩ := Bool.and_eq_true_iff.mp hc
  unfold Sys.exec
  rw [hat]
  have hs : ∀ path, Shrinks s (s.unlinkSum j.path o) path := fun path => shrinks_unlinkSum j.path path o
  refine h.shrink hk rfl rfl hs ⟨(hs j.path).images_none hj, ?_, (hs j.path).opened (sumsOpen_iff.mp hopen)⟩
  show (if o.unlinked then s.sums.unlink j.path else s.sums).find j.path = none
  rw [if_pos hu, Dir.find_unlink, if_pos rfl]

theorem Inv.exec (h : Inv conf s) (hk : s.deploys.lookup k = some j) {o : Outcome Data}
    (hc : j.Clears s o = true) :
    Inv conf (s.exec conf k j o) := by
  cases hat : j.at_ with
  | submitted =>
    unfold Sys.exec
    rw [hat]
    dsimp only
    split
    · exact h.look hk trivial
    · split
      · exact h.look hk trivial
      · exact h
  | evicting victim =>
    unfold Sys.exec
    rw [hat]
    exact h.shrink hk rfl rfl (fun path => shrinks_unlinkImage victim path o) trivial
  | evictingSum victim =>
    unfold Sys.exec
    rw [hat]
    exact h.shrink hk rfl rfl (fun path => shrinks_unlinkSum victim path o) trivial
  | checking =>
    unfold Sys.exec
    rw [hat]
    dsimp only
    split
    · exact h.look hk trivial
    · exact h.look hk trivial
  | stamped mtime =>
    unfold Sys.exec
    rw [hat]
    dsimp only
    split
    · exact h.look hk trivial
    · apply h.look hk
      split
      · trivial
      · trivial
  | verifying => exact h.verify hk hat o
  | clearing =>
    unfold Deploy.Clears at hc
    rw [hat] at hc
    unfold Sys.exec
    rw [hat]
    refine h.shrink hk rfl rfl (fun path => shrinks_unlinkImage j.path path o) ?_
    show (if o.unlinked then s.images.unlink j.path else s.images).find j.path = none
    rw [if_pos hc, Dir.find_unlink, if_pos rfl]
  | clearingSum => exact h.clear hk hat hc
  | downloading => exact h.download hk hat o
  | receiving image =>
    unfold Sys.exec
    rw [hat]
    dsimp only
    split
    · exact h
    · exact h.look hk trivial
  | fetching image =>
    unfold Sys.exec
    rw [hat]
    exact h.fetch hk hat o
  | fetched => exact h.checksum hk hat o
  | ready cached => exact h.copy hk hat o

/-! ## The pipelines -/

theorem Inv.pipe (h : Inv conf s) (path : Text) (hsame : s'.deploys = s.deploys) (hcopies : s'.copies = s.copies)
    (hothers : ∀ x, x ≠ path → Shrinks s s' x) (hpath : PathOk conf s' path)
    (hok : ∀ j : Deploy, j.path = path → j.Ok conf s → j.Ok conf s') : Inv conf s' := by
  refine ⟨fun x => ?_, ?_, ?_, ?_, ?_⟩
  · by_cases hx : x = path
    · rw [hx]
      exact hpath
    · exact (hothers x hx).pathOk (h.paths x)
  · rw [hsame]
    exact h.apart
  · rw [hsame]
    refine h.deploys.mono fun _ y _ hy => ?_
    by_cases hx : y.path = path
    · exact hok y hx hy
    · exact (hothers y.path hx).deploy hy
  · rw [hsame]
    exact h.checksums
  · intro c hc
    rw [hcopies] at hc
    exact h.verified c hc

theorem PathOk.ok (h : PathOk conf s path) (hl : s.pipelines.lookup (path, image) = some p) :
    p.Ok conf s path image := h.pipelines image p hl

theorem PathOk.receiveImage (h : PathOk conf s path) {sum : Option Nat}
    (hl : s.pipelines.lookup (path, image) = some ⟨sum, none⟩) (data : Data) :
    PathOk conf (s.writeImage path image data) path := by
  have hempty : ∀ f g, s.images.find path = some f → s.sums.find path = some g → f.inode = image →
      g.content = none := (h.ok hl).writing rfl
  refine ⟨?_, ?_, h.single⟩
  · intro f g line hf hg hline
    obtain ⟨f', hf', he⟩ := find_writeImage image data hf
    unfold Dir.rewrite at he
    split at he
    · rename_i hi
      rw [hempty f' g hf' hg hi] at hline
      cases hline
    · rw [← he]
      exact h.truthful f' g line hf' hg hline
  · intro i p hi
    have hok := h.pipelines i p hi
    refine ⟨hok.image_lt, hok.sum_lt, ?_, fun hn => ⟨(hok.late hn).1, ?_⟩, ?_, ?_⟩
    · intro f g hf hg hn
      obtain ⟨f', hf', he⟩ := find_writeImage image data hf
      rw [← he, Dir.inode_rewrite]
      exact hok.beside f' g hf' hg hn
    · intro f hf
      obtain ⟨f', hf', he⟩ := find_writeImage image data hf
      rw [← he, Dir.inode_rewrite]
      exact (hok.late hn).2 f' hf'
    · intro hn f g hf hg hi
      obtain ⟨f', hf', he⟩ := find_writeImage image data hf
      rw [← he, Dir.inode_rewrite] at hi
      exact hok.writing hn f' g hf' hg hi
    · intro line hline f hf hfi
      obtain ⟨f', hf', he⟩ := find_writeImage image data hf
      rw [← he, Dir.inode_rewrite] at hfi
      -- another image than the one that is written
      have hne : f'.inode ≠ image := by
        rintro rfl
        rw [← hfi] at hi
        cases hl.symm.trans hi
        cases hline
      unfold Dir.rewrite at he
      rw [if_neg hne] at he
      rw [← he]
      exact hok.written line hline f' hf' hfi

theorem Deploy.Ok.receiveImage (hj : j.Ok conf s) {sum : Option Nat}
    (hl : s.pipelines.lookup (j.path, image) = some ⟨sum, none⟩) (data : Data) :
    j.Ok conf (s.writeImage j.path image data) := by
  have hnone : s.images.find j.path = none → (s.writeImage j.path image data).images.find j.path = none := by
    intro hn
    show (s.images.write j.path image data s.clock).find j.path = none
    rw [Dir.find_write, if_pos rfl, hn]
    rfl
  unfold Deploy.Ok at hj ⊢
  split
  · rename_i hat
    rw [hat] at hj
    exact hnone hj
  · rename_i hat
    rw [hat] at hj
    exact ⟨hnone hj.1, hj.2⟩
  · rename_i hat
    rw [hat] at hj
    refine ⟨hj.1, hj.2.1, hj.2.2.1, fun f hf => ?_⟩
    obtain ⟨f', hf', he⟩ := find_writeImage image data hf
    rw [← he, Dir.inode_rewrite]
    exact hj.2.2.2 f' hf'
  · rename_i hat
    rw [hat] at hj
    refine ⟨hj.1, hj.2.1, fun f hf => ?_⟩
    obtain ⟨f', hf', he⟩ := find_writeImage image data hf
    rw [← he, Dir.inode_rewrite]
    exact hj.2.2 f' hf'
  · rename_i hat
    rw [hat] at hj
    intro f hf
    obtain ⟨f', hf', he⟩ := find_writeImage image data hf
    have hne : f'.inode ≠ image := by
      rintro rfl
      exact (hj f' hf').2 _ hl rfl
    unfold Dir.rewrite at he
    rw [if_neg hne] at he
    rw [← he]
    exact hj f' hf'
  · trivial

theorem PathOk.setLine (h : PathOk conf s path) {sum : Option Nat} {line : Text}
    (hl : s.pipelines.lookup (path, image) = some ⟨sum, none⟩)
    (hline : ∀ f, s.images.find path = some f → f.inode = image → conf.md5 f.content = line) :
    PathOk conf { s with pipelines := s.pipelines.insert (path, image) ⟨sum, some line⟩ } path := by
  have hcases : ∀ i p, AList.lookup (path, i) (s.pipelines.insert (path, image) ⟨sum, some line⟩) = some p →
      i = image ∧ p = ⟨sum, some line⟩ ∨ s.pipelines.lookup (path, i) = some p := by
    intro i p hi
    rw [Hash.lookup_insert] at hi
    split at hi
    · rename_i he
      exact Or.inl ⟨congrArg Prod.snd he, (Option.some.inj hi).symm⟩
    · exact Or.inr hi
  have hsum : ∀ i p, AList.lookup (path, i) (s.pipelines.insert (path, image) ⟨sum, some line⟩) = some p →
      ∃ p', s.pipelines.lookup (path, i) = some p' ∧ p'.sum = p.sum := by
    intro i p hi
    rcases hcases i p hi with ⟨rfl, rfl⟩ | hi
    · exact ⟨_, hl, rfl⟩
    · exact ⟨p, hi, rfl⟩
  refine ⟨h.truthful, ?_, ?_⟩
  · intro i p hi
    rcases hcases i p hi with ⟨rfl, rfl⟩ | hi
    · have hok := h.ok hl
      refine ⟨hok.image_lt, hok.sum_lt, hok.beside, hok.late, fun hn => ?_, ?_⟩
      · cases hn
      · rintro _ ⟨⟩
        exact hline
    · have hok := h.ok hi
      exact ⟨hok.image_lt, hok.sum_lt, hok.beside, hok.late, hok.writing, hok.written⟩
  · intro i i' p p' hi hi' hn hn'
    obtain ⟨q, hq, he⟩ := hsum i p hi
    obtain ⟨q', hq', he'⟩ := hsum i' p' hi'
    exact h.single i i' q q' hq hq' (he.trans hn) (he'.trans hn')

/-- A deploy does not mind that a pipeline goes on; it may mind one that comes, or that opens a file. -/
theorem Deploy.Ok.pipelines (hj : j.Ok conf s) (himages : s'.images = s.images)
    (hsums : s.sums.find j.path = none → s.Opened j.path → s'.sums.find j.path = none)
    (hold : ∀ i p', s'.pipelines.lookup (j.path, i) = some p' → ∃ p, s.pipelines.lookup (j.path, i) = some p ∧
      (p.sum ≠ none → p'.sum ≠ none) ∧ (p.line ≠ none → p'.line ≠ none)) : j.Ok conf s' := by
  have hopened : s.Opened j.path → s'.Opened j.path := by
    intro ho i p' hp'
    obtain ⟨p, hp, hs, _⟩ := hold i p' hp'
    exact hs (ho i p hp)
  have hnone : ∀ i, s.pipelines.lookup (j.path, i) = none → s'.pipelines.lookup (j.path, i) = none := by
    intro i hn
    cases hl : s'.pipelines.lookup (j.path, i) with
    | none => rfl
    | some p' =>
      obtain ⟨p, hp, _⟩ := hold i p' hl
      rw [hn] at hp
      cases hp
  unfold Deploy.Ok at hj ⊢
  rw [himages]
  split
  · rename_i hat
    rw [hat] at hj
    exact hj
  · rename_i hat
    rw [hat] at hj
    exact ⟨hj.1, hsums hj.2.1 hj.2.2, hopened hj.2.2⟩
  · rename_i hat
    rw [hat] at hj
    exact ⟨hsums hj.1 hj.2.1, hopened hj.2.1, hnone _ hj.2.2.1, hj.2.2.2⟩
  · rename_i hat
    rw [hat] at hj
    exact ⟨hsums hj.1 hj.2.1, hopened hj.2.1, fun f hf => hnone _ (hj.2.2 f hf)⟩
  · rename_i hat
    rw [hat] at hj
    refine fun f hf => ⟨(hj f hf).1, fun p' hp' => ?_⟩
    obtain ⟨p, hp, _, hw⟩ := hold _ p' hp'
    exact hw ((hj f hf).2 p hp)
  · trivial

theorem lookup_insert_of_ne {x : Text} (hne : x ≠ path) (i : Nat) :
    AList.lookup (x, i) (s.pipelines.insert (path, image) p) = s.pipelines.lookup (x, i) := by
  rw [Hash.lookup_insert, if_neg fun he => hne (congrArg Prod.fst he)]

theorem Inv.receive (h : Inv conf s) (path : Text) (image : Nat) {o : Outcome Data}
    (hw : o.more = false → o.data = o.stream) : Inv conf (s.receive conf path image o) := by
  unfold Sys.receive
  split
  · rename_i sum hl
    have hpath := (h.paths path).receiveImage hl o.data
    have hwritten : Inv conf (s.writeImage path image o.data) := by
      refine h.pipe path rfl rfl (fun x hx => shrinks_writeImage hx image o.data) hpath ?_
      rintro j rfl hj
      exact hj.receiveImage hl o.data
    dsimp only
    split
    · exact hwritten
    · rename_i hmore
      rw [← hw (Bool.eq_false_iff.mpr hmore)]
      refine hwritten.pipe path rfl rfl (fun x hx => ?_) (hpath.setLine hl ?_) ?_
      · exact ⟨fun _ hf => hf, fun _ hg => hg, fun i => lookup_insert_of_ne hx i, Nat.le_refl _, Nat.le_refl _⟩
      · intro f hf hi
        obtain ⟨f', hf', he⟩ := find_writeImage image o.data hf
        rw [← he, Dir.inode_rewrite] at hi
        unfold Dir.rewrite at he
        rw [if_pos hi] at he
        rw [← he]
      · rintro j rfl hj
        refine hj.pipelines rfl (fun hn _ => hn) fun i p' hp' => ?_
        replace hp' : (s.pipelines.insert (j.path, image) ⟨sum, some (conf.md5 o.data)⟩).lookup
            (j.path, i) = some p' := hp'
        rw [Hash.lookup_insert] at hp'
        split at hp'
        · rename_i he
          cases hp'
          rw [he]
          exact ⟨_, hl, id, fun _ => Option.some_ne_none _⟩
        · exact ⟨p', hp', id, id⟩
  · exact h

/-- The `.md5` file is opened beside the image of its pipeline, or beside none. -/
theorem PathOk.openSum (h : PathOk conf s path) {line : Option Text}
    (hl : s.pipelines.lookup (path, image) = some ⟨none, line⟩) :
    PathOk conf { s with
      sums := s.sums.create path none s.clock
      pipelines := s.pipelines.insert (path, image) ⟨some (s.sums.opened path), line⟩ } path := by
  obtain ⟨hsum, hlate⟩ := (h.ok hl).late rfl
  have hnew : ∀ g, (s.sums.create path none s.clock).find path = some g →
      g.inode = s.sums.next ∧ g.content = none := by
    intro g hg
    rw [Dir.find_create, if_pos rfl, Dir.opened_of_none hsum] at hg
    cases hg
    exact ⟨rfl, rfl⟩
  have hcases : ∀ i p, AList.lookup (path, i)
      (s.pipelines.insert (path, image) ⟨some (s.sums.opened path), line⟩) = some p →
      i = image ∧ p = ⟨some s.sums.next, line⟩ ∨
        i ≠ image ∧ s.pipelines.lookup (path, i) = some p ∧ p.sum ≠ none := by
    intro i p hi
    rw [Hash.lookup_insert, Dir.opened_of_none hsum] at hi
    split at hi
    · rename_i he
      exact Or.inl ⟨congrArg Prod.snd he, (Option.some.inj hi).symm⟩
    · rename_i hne
      have hne : i ≠ image := fun he => hne (by rw [he])
      exact Or.inr ⟨hne, hi, fun hn => hne (h.single i image p _ hi hl hn rfl)⟩
  refine ⟨?_, ?_, ?_⟩
  · intro f g t _ hg ht
    rw [(hnew g hg).2] at ht
    cases ht
  · intro i p hi
    rcases hcases i p hi with ⟨rfl, rfl⟩ | ⟨_, hi, hopen⟩
    · refine ⟨(h.ok hl).image_lt, ?_, fun f _ hf _ _ => hlate f hf, fun hn => ?_, fun _ _ g _ hg _ => (hnew g hg).2,
        (h.ok hl).written⟩
      · rintro _ ⟨⟩
        exact Nat.lt_succ_self _
      · cases hn
    · have hok := h.ok hi
      refine ⟨hok.image_lt, fun n hn => Nat.lt_succ_of_lt (hok.sum_lt n hn), ?_, fun hn => absurd hn hopen,
        fun _ _ g _ hg _ => (hnew g hg).2, hok.written⟩
      intro f g _ hg hn
      rw [(hnew g hg).1] at hn
      exact absurd (hok.sum_lt _ hn) (Nat.lt_irrefl _)
  · intro i i' p p' hi hi' hn hn'
    rcases hcases i p hi with ⟨rfl, rfl⟩ | ⟨_, _, hopen⟩
    · cases hn
    · exact absurd hn hopen

theorem Inv.openSum (h : Inv conf s) (path : Text) (image : Nat) : Inv conf (s.openSum path image) := by
  unfold Sys.openSum
  split
  · rename_i line hl
    refine h.pipe path rfl rfl (fun x hx => ?_) ((h.paths path).openSum hl) ?_
    · refine ⟨fun _ hf => hf, fun g hg => ?_, fun i => lookup_insert_of_ne hx i, Nat.le_refl _, Nat.le_succ _⟩
      rw [find_create_of_ne _ hx] at hg
      exact hg
    · rintro j rfl hj
      refine hj.pipelines rfl (fun _ ho => absurd rfl (ho image _ hl)) fun i p' hp' => ?_
      replace hp' : (s.pipelines.insert (j.path, image) ⟨some (s.sums.opened j.path), line⟩).lookup (j.path, i) =
        some p' := hp'
      rw [Hash.lookup_insert] at hp'
      split at hp'
      · rename_i he
        cases hp'
        rw [he]
        exact ⟨_, hl, fun _ => Option.some_ne_none _, id⟩
      · exact ⟨p', hp', id, id⟩
  · exact h

theorem find_writeSum {n : Nat} {line : Text} {g : File (Option Text)}
    (hg : (s.sums.write path n (some line) s.clock).find path = some g) :
    ∃ g', s.sums.find path = some g' ∧ g.inode = g'.inode ∧ (g = g' ∨ g'.inode = n ∧ g.content = some line) := by
  rw [Dir.find_write, if_pos rfl] at hg
  obtain ⟨g', hg', hr⟩ := Option.map_eq_some_iff.mp hg
  refine ⟨g', hg', ?_, ?_⟩
  · rw [← hr, Dir.inode_rewrite]
  · unfold Dir.rewrite at hr
    split at hr
    · rename_i hn
      exact Or.inr ⟨hn, by rw [← hr]⟩
    · exact Or.inl hr.symm

/-- A line that was due is true of the image, also when the deploy is over long since. -/
theorem PathOk.writeSum (h : PathOk conf s path) {n : Nat} {line : Text}
    (hl : s.pipelines.lookup (path, image) = some ⟨some n, some line⟩) :
    PathOk conf { s with
      sums := s.sums.write path n (some line) s.clock
      pipelines := s.pipelines.erase (path, image) } path := by
  have hcases : ∀ i p, AList.lookup (path, i) (AList.erase (path, image) s.pipelines) = some p →
      i ≠ image ∧ s.pipelines.lookup (path, i) = some p := by
    intro i p hi
    rw [Hash.lookup_erase] at hi
    split at hi
    · cases hi
    · rename_i hne
      exact ⟨fun he => hne (by rw [he]), hi⟩
  have hdue := h.ok hl
  refine ⟨?_, ?_, ?_⟩
  · intro f g t hf hg ht
    obtain ⟨g', hg', _, he | ⟨hn, hline⟩⟩ := find_writeSum hg
    · rw [he] at ht
      exact h.truthful f g' t hf hg' ht
    · rw [hline] at ht
      cases ht
      exact hdue.written line rfl f hf (hdue.beside f g' hf hg' (congrArg some hn.symm))
  · intro i p hi
    obtain ⟨hne, hi⟩ := hcases i p hi
    have hok := h.ok hi
    refine ⟨hok.image_lt, hok.sum_lt, ?_, ?_, ?_, hok.written⟩
    · intro f g hf hg hn
      obtain ⟨g', hg', he, _⟩ := find_writeSum hg
      rw [he] at hn
      exact hok.beside f g' hf hg' hn
    · intro hn
      obtain ⟨hsum, himage⟩ := hok.late hn
      refine ⟨?_, himage⟩
      show (s.sums.write path n (some line) s.clock).find path = none
      rw [Dir.find_write, if_pos rfl, hsum]
      rfl
    · intro hn f g hf hg hi
      obtain ⟨g', hg', _, he | ⟨hgn, _⟩⟩ := find_writeSum hg
      · rw [he]
        exact hok.writing hn f g' hf hg' hi
      · have hfi := hdue.beside f g' hf hg' (congrArg some hgn.symm)
        exact absurd (hi.symm.trans hfi) hne
  · intro i i' p p' hi hi'
    exact h.single i i' p p' (hcases i p hi).2 (hcases i' p' hi').2

theorem Inv.writeSum (h : Inv conf s) (path : Text) (image : Nat) : Inv conf (s.writeSum path image) := by
  unfold Sys.writeSum
  split
  · rename_i n line hl
    refine h.pipe path rfl rfl (fun x hx => ?_) ((h.paths path).writeSum hl) ?_
    · refine ⟨fun _ hf => hf, fun g hg => ?_, fun i => ?_, Nat.le_refl _, Nat.le_refl _⟩
      · replace hg : (s.sums.write path n (some line) s.clock).find x = some g := hg
        rw [Dir.find_write, if_neg hx] at hg
        exact hg
      · show AList.lookup _ (AList.erase _ _) = _
        rw [Hash.lookup_erase, if_neg fun he => hx (congrArg Prod.fst he)]
    · rintro j rfl hj
      refine hj.pipelines rfl (fun hn _ => ?_) fun i p' hp' => ?_
      · show (s.sums.write j.path n (some line) s.clock).find j.path = none
        rw [Dir.find_write, if_pos rfl, hn]
        rfl
      · replace hp' : (s.pipelines.erase (j.path, image)).lookup (j.path, i) = some p' := hp'
        rw [Hash.lookup_erase] at hp'
        split at hp'
        · cases hp'
        · exact ⟨p', hp', id, id⟩
  · exact h

/-! ## The steps -/

theorem Inv.submit (h : Inv conf s) {checksum : Text} (hidle : s.idle path = true) (hc : checksum ≠ [])
    (k : Nat) (commandApi : Bool) :
    Inv conf { s with deploys := s.deploys.insert k ⟨path, checksum, commandApi, .submitted⟩ } := by
  refine ⟨fun x => (h.paths x).same rfl rfl rfl, ?_, ?_, h.checksums.insert hc, h.verified⟩
  · apply h.apart.insert
    intro x y _ hy
    have hne := List.all_eq_true.mp hidle y (Hash.mem_values.mpr ⟨x, hy⟩)
    rw [bne_iff_ne] at hne
    exact ⟨fun he => hne he.symm, hne⟩
  · have hok : Deploy.Ok conf s ⟨path, checksum, commandApi, .submitted⟩ := trivial
    exact (h.deploys.insert hok).mono fun _ _ _ hok => hok

theorem Inv.fail (h : Inv conf s) (k : Nat) : Inv conf { s with deploys := s.deploys.erase k } := by
  exact ⟨fun path => (h.paths path).same rfl rfl rfl, h.apart.erase,
    h.deploys.erase.mono fun _ _ _ hok => hok, h.checksums.erase, h.verified⟩

theorem Inv.tick (h : Inv conf s) : Inv conf { s with clock := s.clock + 1 } := by
  exact ⟨fun path => (h.paths path).same rfl rfl rfl, h.apart, h.deploys.mono fun _ _ _ hok => hok,
    h.checksums, h.verified⟩

theorem Inv.step (h : Inv conf s) {a : Step Data} (ha : Fits s a) : Inv conf (s.step conf a) := by
  cases a with
  | deploy k path checksum commandApi => exact h.submit ha.2.1 ha.2.2 k commandApi
  | run k o =>
    unfold Sys.step
    dsimp only
    cases hk : s.deploys.lookup k with
    | none => exact h
    | some j => exact h.exec hk (ha j hk)
  | fail k => exact h.fail k
  | receive path image o => exact h.receive path image ha
  | openSum path image => exact h.openSum path image
  | writeSum path image => exact h.writeSum path image
  | tick => exact h.tick

theorem Cold.inv (h : Cold conf s) : Inv conf s := by
  have hnone : ∀ x, s.pipelines.lookup x = none := by
    intro x
    rw [h.pipelines, AList.lookup_empty]
  refine ⟨?_, ?_, ?_, ?_, ?_⟩
  · intro path
    refine ⟨h.truthful path, fun i p hp => ?_, fun i _ p _ hp => ?_⟩
    · rw [hnone] at hp
      cases hp
    · rw [hnone] at hp
      cases hp
  · rw [h.deploys]
    exact Sessions.apart_empty
  · rw [h.deploys]
    exact Sessions.all_empty
  · rw [h.deploys]
    exact Sessions.all_empty
  · intro c hc
    rw [h.copies] at hc
    cases hc

/-- In every run of deploys from a cache whose `.md5` files are right, in which a volume is
deployed by one job at a time, no download loses what its checksum is taken of, and a deploy takes
the names of its volume away only when the downloads of before have opened their `.md5` files:
whatever is evicted, breaks off or comes late, an image that is copied from the cache without a
download has the checksum that the backup object asks for. -/
theorem cached_copies_verified {start : Sys Data} {steps : List (Step Data)} (hc : Cold conf start)
    (hf : Each (Sys.step conf) Fits start steps) : Verified conf (steps.foldl (Sys.step conf) start) :=
  (hf.invariant (Inv conf) (fun _ _ h ha => h.step ha) hc.inv).verified

/-- The `.md5` file of a volume is opened when its deploy is over, and the volume deployed again
from the cache. -/
theorem cached_copies_verified_again :
    let a := "0cc175b9c0f1b6a831c399e269772661".toList
    let conf : Conf Text := ⟨1, true, fun d =>
      if d = "a".toList then a else "d41d8cd98f00b204e9800998ecf8427e".toList⟩
    let start : Sys Text := ⟨.empty, .empty, ∅, ∅, [], 0⟩
    let volume := "vol-demo1".toList
    let o (data : Text) : Outcome Text := ⟨volume, true, data, data, false⟩
    let first := Step.deploy 0 volume a true :: List.replicate 5 (Step.run 0 (o [])) ++
      [Step.receive volume 0 (o "a".toList), Step.run 0 (o []), Step.run 0 (o []), Step.tick,
        Step.openSum volume 0, Step.writeSum volume 0]
    let again := Step.deploy 1 volume a true :: List.replicate 5 (Step.run 1 (o []))
    let s := (first ++ again).foldl (Sys.step conf) start
    Verified conf s ∧ s.copies =
      [⟨volume, a, false, some "a".toList⟩, ⟨volume, a, true, some "a".toList⟩] := by
  refine ⟨cached_copies_verified ⟨rfl, rfl, rfl, ?_⟩ (by decide), by decide⟩
  intro _ f _ _ hf
  cases hf

end ImageCache

end WakameVdc
