import WakameVdc.ImageCache

/-!
# How many images are cached

With one thread for the jobs of the local store a deploy makes room for the image that it
downloads. Two deploys at a time may evict the same image and download one each.
-/

namespace WakameVdc

open Lib

namespace ImageCache

variable {Data : Type} {conf : Conf Data} {s s' : Sys Data} {j : Deploy} {k bound : Nat}

def Deploy.Evicts (j : Deploy) (o : Outcome Data) : Bool :=
  match j.at_ with
  | .evicting _ => o.unlinked
  | _ => true

/-- `thread_concurrency` is 1, and `File.unlink` does not fail on an image that is evicted. -/
def Alone (s : Sys Data) : Step Data → Prop
  | .deploy .. => Hash.isEmpty s.deploys = true
  | .run k o => ∀ j ∈ s.deploys.lookup k, j.Evicts o = true
  | .fail _ | .receive .. | .openSum .. | .writeSum .. | .tick => True

instance (s : Sys Data) : (a : Step Data) → Decidable (Alone s a)
  | .deploy .. => inferInstanceAs (Decidable (Hash.isEmpty s.deploys = true))
  | .run k o => inferInstanceAs (Decidable (∀ j ∈ s.deploys.lookup k, j.Evicts o = true))
  | .fail _ | .receive .. | .openSum .. | .writeSum .. | .tick => .isTrue trivial

/-- The victim of an eviction is still there, and after it there is room until the download. -/
def Deploy.Room (bound : Nat) (s : Sys Data) (j : Deploy) : Prop :=
  match j.at_ with
  | .evicting victim => ∃ f, s.images.find victim = some f
  | .evictingSum _ | .checking | .stamped _ | .verifying | .clearing | .clearingSum | .downloading =>
    s.images.count < bound
  | .submitted | .receiving .. | .fetching _ | .fetched | .ready _ => True

structure Bounded (bound : Nat) (s : Sys Data) : Prop where
  count : s.images.count ≤ bound
  single : Sessions.Apart (fun _ _ => True) s.deploys
  room : Sessions.All (Deploy.Room bound s) s.deploys

theorem Bounded.goto (h : Bounded bound s) (hk : s.deploys.lookup k = some j) {p : Phase}
    (hsame : s'.deploys = s.deploys) (hcount : s'.images.count ≤ bound)
    (hroom : Deploy.Room bound s' { j with at_ := p }) : Bounded bound (s'.goto k j p) := by
  refine ⟨hcount, ?_, ?_⟩
  · show Sessions.Apart _ (s'.deploys.insert k _)
    rw [hsame]
    exact h.single.advance hk fun _ => ⟨fun _ => trivial, fun _ => trivial⟩
  · intro x y hx
    replace hx : (s'.deploys.insert k { j with at_ := p }).lookup x = some y := hx
    rw [Hash.lookup_insert] at hx
    split at hx
    · cases hx
      exact hroom
    · rename_i hne
      rw [hsame] at hx
      exact absurd (h.single x k y j hx hk trivial) hne

/-- A call after which the images are the same, and the room it needs is there already. -/
theorem Bounded.look (h : Bounded bound s) (hk : s.deploys.lookup k = some j) {p : Phase}
    (hsame : s'.deploys = s.deploys) (himages : s'.images = s.images)
    (hroom : Deploy.Room bound s { j with at_ := p }) : Bounded bound (s'.goto k j p) := by
  apply h.goto hk hsame
  · rw [himages]
    exact h.count
  · unfold Deploy.Room at hroom ⊢
    rw [himages]
    exact hroom

/-- Images that are written to are as many as before, and where they were. -/
theorem Bounded.images (h : Bounded bound s) (hsame : s'.deploys = s.deploys)
    (hcount : s'.images.count = s.images.count)
    (hfind : ∀ x f, s.images.find x = some f → ∃ f', s'.images.find x = some f') : Bounded bound s' := by
  refine ⟨?_, ?_, ?_⟩
  · rw [hcount]
    exact h.count
  · rw [hsame]
    exact h.single
  · rw [hsame]
    refine h.room.mono fun _ y _ hroom => ?_
    unfold Deploy.Room at hroom ⊢
    rw [hcount]
    cases hat : y.at_ with
    | evicting victim =>
      rw [hat] at hroom
      obtain ⟨f, hf⟩ := hroom
      exact hfind victim f hf
    | submitted | evictingSum _ | checking | stamped _ | verifying | clearing | clearingSum | downloading
    | receiving _ | fetching _ | fetched | ready _ =>
      rw [hat] at hroom
      exact hroom

theorem Bounded.writeImage (h : Bounded bound s) (path : Text) (image : Nat) (data : Data) :
    Bounded bound (s.writeImage path image data) := by
  refine h.images rfl (Dir.count_write ..) fun x f hf => ?_
  show ∃ f', (s.images.write path image data s.clock).find x = some f'
  rw [Dir.find_write, hf]
  split
  · exact ⟨_, rfl⟩
  · exact ⟨f, rfl⟩

theorem Bounded.receive (h : Bounded bound s) (path : Text) (image : Nat) (o : Outcome Data) :
    Bounded bound (s.receive conf path image o) := by
  unfold Sys.receive
  split
  · have hwritten := h.writeImage path image o.data
    dsimp only
    split
    · exact hwritten
    · exact hwritten.images rfl rfl fun _ f hf => ⟨f, hf⟩
  · exact h

theorem Bounded.openSum (h : Bounded bound s) (path : Text) (image : Nat) : Bounded bound (s.openSum path image) := by
  unfold Sys.openSum
  split
  · exact h.images rfl rfl fun _ f hf => ⟨f, hf⟩
  · exact h

theorem Bounded.writeSum (h : Bounded bound s) (path : Text) (image : Nat) :
    Bounded bound (s.writeSum path image) := by
  unfold Sys.writeSum
  split
  · exact h.images rfl rfl fun _ f hf => ⟨f, hf⟩
  · exact h

theorem Sys.exists_of_oldest {pick : Text} (h : s.oldest pick = true) : ∃ f, s.images.find pick = some f := by
  unfold Sys.oldest at h
  cases hf : s.images.find pick with
  | none =>
    rw [hf] at h
    cases h
  | some f => exact ⟨f, rfl⟩

theorem Bounded.exec (h : Bounded bound s) (hb : conf.maxCachedImages < bound)
    (hk : s.deploys.lookup k = some j) {o : Outcome Data} (he : j.Evicts o = true) :
    Bounded bound (s.exec conf k j o) := by
  have hj := h.room k j hk
  unfold Deploy.Room at hj
  cases hat : j.at_ with
  | submitted =>
    unfold Sys.exec
    rw [hat]
    dsimp only
    split
    · rename_i hle
      exact h.look hk rfl rfl (Nat.lt_of_le_of_lt hle hb)
    · split
      · rename_i hold
        exact h.look hk rfl rfl (Sys.exists_of_oldest hold)
      · exact h
  | evicting victim =>
    rw [hat] at hj
    obtain ⟨f, hf⟩ := hj
    unfold Deploy.Evicts at he
    rw [hat] at he
    have hcount : (s.unlinkImage victim o).images.count < bound := by
      show (if o.unlinked then s.images.unlink victim else s.images).count < bound
      rw [if_pos he, ← Nat.add_one_le_iff, Dir.count_unlink hf]
      exact h.count
    unfold Sys.exec
    rw [hat]
    exact h.goto hk rfl (Nat.le_of_lt hcount) hcount
  | evictingSum victim =>
    rw [hat] at hj
    unfold Sys.exec
    rw [hat]
    exact h.look hk rfl rfl hj
  | checking =>
    rw [hat] at hj
    unfold Sys.exec
    rw [hat]
    dsimp only
    split
    · exact h.look hk rfl rfl hj
    · exact h.look hk rfl rfl hj
  | stamped mtime =>
    rw [hat] at hj
    unfold Sys.exec
    rw [hat]
    dsimp only
    split
    · exact h.look hk rfl rfl hj
    · apply h.look hk rfl rfl
      split
      · exact hj
      · exact hj
  | verifying =>
    rw [hat] at hj
    unfold Sys.exec
    rw [hat]
    dsimp only
    split
    · exact h.look hk rfl rfl hj
    · apply h.look hk rfl rfl
      split
      · trivial
      · exact hj
  | clearing =>
    rw [hat] at hj
    have hcount : (s.unlinkImage j.path o).images.count < bound := by
      unfold Sys.unlinkImage
      dsimp only
      split
      · exact Nat.lt_of_le_of_lt (Dir.count_unlink_le ..) hj
      · exact hj
    unfold Sys.exec
    rw [hat]
    exact h.goto hk rfl (Nat.le_of_lt hcount) hcount
  | clearingSum =>
    rw [hat] at hj
    unfold Sys.exec
    rw [hat]
    exact h.look hk rfl rfl hj
  | downloading =>
    rw [hat] at hj
    have hcount : (s.images.create j.path o.data s.clock).count ≤ bound :=
      Nat.le_trans (Dir.count_create_le ..) hj
    unfold Sys.exec
    rw [hat]
    dsimp only
    split
    · exact h.goto hk rfl hcount trivial
    · exact h.goto hk rfl hcount trivial
  | receiving image =>
    unfold Sys.exec
    rw [hat]
    dsimp only
    split
    · exact h
    · exact h.look hk rfl rfl trivial
  | fetching image =>
    have hwritten : Bounded bound (s.writeImage j.path image o.data) := h.writeImage j.path image o.data
    unfold Sys.exec
    rw [hat]
    unfold Sys.fetch
    dsimp only
    split
    · exact hwritten
    · apply hwritten.look hk rfl rfl
      cases conf.enableCacheChecksum with
      | true => trivial
      | false => trivial
  | fetched =>
    unfold Sys.exec
    rw [hat]
    exact h.look hk rfl rfl trivial
  | ready cached =>
    unfold Sys.exec
    rw [hat]
    exact ⟨h.count, h.single.erase, h.room.erase.mono fun _ _ _ hroom => hroom⟩

theorem Bounded.step (h : Bounded bound s) (hb : conf.maxCachedImages < bound) {a : Step Data}
    (ha : Alone s a) : Bounded bound (s.step conf a) := by
  cases a with
  | deploy k path checksum commandApi =>
    have hnone : ∀ x, s.deploys.lookup x = none := Hash.isEmpty_iff.mp ha
    have hroom : Deploy.Room bound s ⟨path, checksum, commandApi, .submitted⟩ := trivial
    refine ⟨h.count, h.single.insert ?_, (h.room.insert hroom).mono fun _ _ _ hroom => hroom⟩
    intro x y _ hy
    rw [hnone] at hy
    cases hy
  | run k o =>
    unfold Sys.step
    dsimp only
    cases hk : s.deploys.lookup k with
    | none => exact h
    | some j => exact h.exec hb hk (ha j hk)
  | fail k => exact ⟨h.count, h.single.erase, h.room.erase.mono fun _ _ _ hroom => hroom⟩
  | receive path image o => exact h.receive path image o
  | openSum path image => exact h.openSum path image
  | writeSum path image => exact h.writeSum path image
  | tick => exact ⟨h.count, h.single, h.room.mono fun _ _ _ hroom => hroom⟩

/-- When the jobs of the local store go through one thread, in every run of deploys in which no
eviction fails the cache has at most one image more than `max_cached_images`, or as many as the
agent found in it. -/
theorem cached_images_bounded {start : Sys Data} {steps : List (Step Data)}
    (hd : start.deploys = ∅) (hf : Each (Sys.step conf) Alone start steps) :
    (steps.foldl (Sys.step conf) start).images.count ≤ max start.images.count (conf.maxCachedImages + 1) := by
  have hb : conf.maxCachedImages < max start.images.count (conf.maxCachedImages + 1) :=
    Nat.lt_of_lt_of_le (Nat.lt_succ_self _) (Nat.le_max_right ..)
  have hstart : Bounded (max start.images.count (conf.maxCachedImages + 1)) start := by
    refine ⟨Nat.le_max_left .., ?_, ?_⟩
    · rw [hd]
      exact Sessions.apart_empty
    · rw [hd]
      exact Sessions.all_empty
  exact (hf.invariant (Bounded _) (fun _ _ h ha => h.step hb ha) hstart).count

/-- The third image takes the place of the first one. -/
theorem cached_images_bounded_evicted :
    let conf : Conf Text := ⟨1, false, fun _ => []⟩
    let start : Sys Text := ⟨.empty, .empty, ∅, ∅, [], 0⟩
    let a := "vol-demo1".toList
    let b := "vol-demo2".toList
    let c := "vol-demo3".toList
    let deploy k path : List (Step Text) := .tick :: .deploy k path [] false ::
      List.replicate 9 (.run k ⟨a, true, "a".toList, "a".toList, false⟩)
    let s := (deploy 0 a ++ deploy 1 b ++ deploy 2 c).foldl (Sys.step conf) start
    s.images.count ≤ max 0 (1 + 1) ∧ s.images.count = 2 ∧ s.images.find a = none := by
  refine ⟨cached_images_bounded rfl (by decide), by decide, ?_⟩
  exact Option.isNone_iff_eq_none.mp (by decide)

end ImageCache

end WakameVdc
