import Mathlib.Data.Char
import Mathlib.Data.List.Lex
import Mathlib.Data.List.Sort
import WakameVdc.Lib.Shortlex

/-!
# Device names of volumes

`Volume.find_candidate_device_name` of `models/volume.rb` looks for the first name that follows a
run of names in use. Names are ordered by size first, so `z` comes before `aa`, as `String#succ`
has it.
-/

namespace WakameVdc

open Lib

namespace Volume

abbrev Letter := {c : Char // 'a' ≤ c ∧ c ≤ 'z'}

namespace Letter

theorem toNat_bounds (a : Letter) : 97 ≤ a.1.toNat ∧ a.1.toNat ≤ 122 := a.2

def index : Letter ≃o Fin 26 where
  toFun a := ⟨a.1.toNat - 97, by have := toNat_bounds a; omega⟩
  invFun i := ⟨Char.ofNat (97 + i), by revert i; decide⟩
  left_inv a := by
    have h := toNat_bounds a
    apply Subtype.ext
    show Char.ofNat (97 + (a.1.toNat - 97)) = a.1
    rw [show 97 + (a.1.toNat - 97) = a.1.toNat by omega, Char.ofNat_toNat]
  right_inv i := by revert i; decide
  map_rel_iff' := by
    intro a b
    have ha := toNat_bounds a
    have hb := toNat_bounds b
    show a.1.toNat - 97 ≤ b.1.toNat - 97 ↔ a.1.toNat ≤ b.1.toNat
    omega

end Letter

@[ext]
structure DeviceName where
  letters : List Letter
  letters_ne : letters ≠ []
  deriving DecidableEq

namespace DeviceName

def ofText (text : List Char) (h : text ≠ [] ∧ ∀ c ∈ text, 'a' ≤ c ∧ c ≤ 'z') : DeviceName :=
  ⟨text.attachWith _ h.2, by simpa using h.1⟩

def size (a : DeviceName) : Nat := a.letters.length

def succ (a : DeviceName) : DeviceName :=
  ⟨Shortlex.succ Letter.index a.letters, Shortlex.succ_ne_nil _ _⟩

def value (a : DeviceName) : Nat := Shortlex.value Letter.index a.letters

theorem value_injective : Function.Injective value := by
  intro a b h
  exact DeviceName.ext (Shortlex.value_injective Letter.index h)

instance : LinearOrder DeviceName := LinearOrder.lift' value value_injective

theorem lt_def {a b : DeviceName} : a < b ↔ a.value < b.value := Iff.rfl

theorem le_def {a b : DeviceName} : a ≤ b ↔ a.value ≤ b.value := Iff.rfl

theorem lt_iff_shortlex {a b : DeviceName} :
    a < b ↔ List.Shortlex (· < ·) a.letters b.letters := Shortlex.value_lt_iff Letter.index

theorem value_succ (a : DeviceName) : a.succ.value = a.value + 1 :=
  Shortlex.value_succ Letter.index a.letters

theorem lt_succ (a : DeviceName) : a < a.succ := by
  rw [lt_def, value_succ]
  omega

theorem covBy_succ (a : DeviceName) : a ⋖ a.succ := by
  refine ⟨lt_succ a, ?_⟩
  intro b hab hba
  rw [lt_def] at hab hba
  rw [value_succ] at hba
  omega

theorem succ_le_of_lt {a b : DeviceName} (h : a < b) : a.succ ≤ b := by
  rw [lt_def] at h
  rw [le_def, value_succ]
  omega

def compareSize (a b : DeviceName) : Ordering :=
  if a.size = b.size then cmp a.letters b.letters else cmp a.size b.size

theorem compareSize_iff {a b : DeviceName} : compareSize a b ≠ .gt ↔ a ≤ b := by
  rw [← not_lt, lt_iff_shortlex, List.shortlex_def, not_iff_not]
  unfold compareSize size
  by_cases h : a.letters.length = b.letters.length
  · have hgt : cmp a.letters b.letters = .gt ↔ b.letters < a.letters := by
      unfold cmp cmpUsing
      by_cases hlt : a.letters < b.letters
      · simp [hlt, lt_asymm hlt]
      · simp [hlt]
    rw [if_pos h, hgt]
    simp [h]
  · rw [if_neg h, cmp_eq_gt_iff]
    simp [Ne.symm h]

end DeviceName

/-- The block of `inject`: a pair of neighbours in the list. -/
def followRun (r : DeviceName) (l : DeviceName × Option DeviceName) : DeviceName :=
  match l.2 with
  | some last => if r.succ = last then last else r
  | none => r

def findCandidateDeviceName (deviceNames : List DeviceName) : Option DeviceName :=
  match deviceNames.insertionSort fun a b => DeviceName.compareSize a b ≠ .gt with
  | [] => none
  | first :: rest =>
    some (((first :: rest).zip (rest.map some ++ [none])).foldl followRun first).succ

/-! ## The first run -/

section Run

variable {names : List DeviceName} {r s : DeviceName}

/-- `r` is the last name of the first run of consecutive names. -/
structure EndsFirstRun (names : List DeviceName) (r : DeviceName) : Prop where
  run : ∃ first ∈ names, (∀ x ∈ names, first ≤ x) ∧ first ≤ r ∧ ∀ x, first ≤ x → x ≤ r → x ∈ names
  last : ∀ x, r ⋖ x → x ∉ names

theorem EndsFirstRun.mem (h : EndsFirstRun names r) : r ∈ names := by
  obtain ⟨first, -, -, hle, hrun⟩ := h.run
  exact hrun r hle le_rfl

theorem EndsFirstRun.unique (hr : EndsFirstRun names r) (hs : EndsFirstRun names s) : r = s := by
  have hle {r s : DeviceName} (hr : EndsFirstRun names r) (hs : EndsFirstRun names s) : s ≤ r := by
    by_contra hlt
    obtain ⟨first, hfirst, hleast, hle, -⟩ := hr.run
    obtain ⟨first', hfirst', hleast', -, hrun⟩ := hs.run
    -- the successor of `r` would be in the run of `s`
    refine hr.last _ (DeviceName.covBy_succ r) (hrun _ ?_ ?_)
    · exact (hleast' first hfirst).trans (hle.trans (DeviceName.lt_succ r).le)
    · exact DeviceName.succ_le_of_lt (not_le.mp hlt)
  exact le_antisymm (hle hs hr) (hle hr hs)

def extend (r last : DeviceName) : DeviceName := if r.succ = last then last else r

theorem foldl_pairs (rest : List DeviceName) (first r : DeviceName) :
    ((first :: rest).zip (rest.map some ++ [none])).foldl followRun r = rest.foldl extend r := by
  induction rest generalizing first r with
  | nil => rfl
  | cons last rest ih => exact ih last _

/-- What the inject block finds in a sorted list is in it with all that is in between, and its
successor is not. -/
theorem foldl_extend {rest : List DeviceName} {r : DeviceName} (h : (r :: rest).Pairwise (· ≤ ·)) :
    let t := rest.foldl extend r
    r ≤ t ∧ (∀ x, r ≤ x → x ≤ t → x ∈ r :: rest) ∧ t.succ ∉ r :: rest := by
  induction rest generalizing r with
  | nil =>
    refine ⟨le_rfl, ?_, ?_⟩
    · intro x hrx hxr
      simp [le_antisymm hxr hrx]
    · simpa using (DeviceName.lt_succ r).ne'
  | cons y rest ih =>
    have hry : r ≤ y := List.rel_of_pairwise_cons h (by simp)
    have hyrest := (List.pairwise_cons.mp h).2
    simp only [List.foldl_cons]
    by_cases hsucc : r.succ = y
    · -- the run goes on
      rw [extend, if_pos hsucc]
      obtain ⟨hle, hrun, hend⟩ := ih hyrest
      refine ⟨hry.trans hle, ?_, ?_⟩
      · intro x hrx hxt
        rcases hrx.eq_or_lt with rfl | hlt
        · simp
        · have hyx : y ≤ x := hsucc ▸ DeviceName.succ_le_of_lt hlt
          exact List.mem_cons_of_mem _ (hrun x hyx hxt)
      · have hne := ((hry.trans hle).trans_lt (DeviceName.lt_succ _)).ne'
        simpa [hne] using hend
    · -- a gap or the same name again
      rw [extend, if_neg hsucc]
      have hrrest : (r :: rest).Pairwise (· ≤ ·) := h.sublist (by simp)
      obtain ⟨hle, hrun, hend⟩ := ih hrrest
      have hsub : ∀ x ∈ r :: rest, x ∈ r :: y :: rest := by
        intro x hx
        rcases List.mem_cons.mp hx with rfl | hx
        · simp
        · simp [hx]
      refine ⟨hle, fun x hrx hxt => hsub x (hrun x hrx hxt), ?_⟩
      intro hmem
      have hy : (rest.foldl extend r).succ = y := by
        simp only [List.mem_cons, not_or] at hmem hend
        simpa [hend.1, hend.2] using hmem
      rcases List.mem_cons.mp (hrun _ hle le_rfl) with heq | hin
      · exact hsucc (heq ▸ hy)
      · have hyt : y ≤ rest.foldl extend r := List.rel_of_pairwise_cons hyrest hin
        exact absurd (DeviceName.lt_succ (rest.foldl extend r)) (by rw [hy]; exact not_lt.mpr hyt)

end Run

section Candidate

variable {names : List DeviceName}

theorem pairwise_sort (names : List DeviceName) :
    (names.insertionSort fun a b => DeviceName.compareSize a b ≠ .gt).Pairwise (· ≤ ·) := by
  have hle : (fun a b => DeviceName.compareSize a b ≠ .gt) = (· ≤ ·) := by
    funext a b
    exact propext DeviceName.compareSize_iff
  simp only [hle]
  exact List.pairwise_insertionSort _ names

/-- The candidate is the name after the first run of names in use, and it is not in use. -/
theorem candidate_found (h : names ≠ []) :
    ∃ r s, EndsFirstRun names r ∧ r ⋖ s ∧ s ∉ names ∧ findCandidateDeviceName names = some s := by
  unfold findCandidateDeviceName
  have hsorted := pairwise_sort names
  have hperm := List.perm_insertionSort (fun a b => DeviceName.compareSize a b ≠ .gt) names
  generalize names.insertionSort (fun a b => DeviceName.compareSize a b ≠ .gt) = sorted
    at hsorted hperm
  cases sorted with
  | nil => exact absurd hperm.symm.eq_nil h
  | cons first rest =>
    obtain ⟨hle, hrun, hend⟩ := foldl_extend hsorted
    have hmem (x : DeviceName) : x ∈ names ↔ x ∈ first :: rest := hperm.mem_iff.symm
    simp only [foldl_pairs]
    refine ⟨_, _, ⟨?_, ?_⟩, DeviceName.covBy_succ _, (hmem _).not.mpr hend, rfl⟩
    · refine ⟨first, (hmem first).mpr (by simp), ?_, hle, fun x hx hxt => (hmem x).mpr (hrun x hx hxt)⟩
      intro x hx
      rcases List.mem_cons.mp ((hmem x).mp hx) with rfl | hx
      · exact le_rfl
      · exact List.rel_of_pairwise_cons hsorted hx
    · intro x hx
      rw [hx.unique_right (DeviceName.covBy_succ _)]
      exact (hmem _).not.mpr hend

def sampleNames : List DeviceName :=
  [.ofText ['h', 'd', 'a', 'z'] (by simp), .ofText ['h', 'd', 'a', 'a'] (by simp),
    .ofText ['h', 'd', 'c'] (by simp), .ofText ['h', 'd', 'z'] (by simp),
    .ofText ['h', 'd', 'n'] (by simp)]

example : findCandidateDeviceName sampleNames = some (.ofText ['h', 'd', 'd'] (by simp)) := by
  decide

theorem candidate_found_sample :
    ∃ r s, EndsFirstRun sampleNames r ∧ r ⋖ s ∧ s ∉ sampleNames ∧
      findCandidateDeviceName sampleNames = some s :=
  candidate_found (by simp [sampleNames])

end Candidate

end Volume

end WakameVdc
