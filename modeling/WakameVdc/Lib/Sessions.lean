import WakameVdc.Lib.Hash

/-!
# Jobs that do not get in each other's way

The outstanding jobs of a system under the ids of their sessions, and a relation that says
which two of them clash. Jobs stay apart as long as one is submitted only when it clashes
with none, whatever the jobs do in between.
-/

namespace Lib

namespace Sessions

/-- How a call of a job ends: whether it did what it was made for, and whether it raised. -/
structure Outcome where
  acts : Bool
  raises : Bool
  deriving DecidableEq, Repr

/-- A call that answers has written; one that raises may have. -/
def Outcome.written (o : Outcome) : Bool := o.acts || !o.raises

variable {κ ω : Type} [DecidableEq κ]

def All (P : ω → Prop) (jobs : Hash κ ω) : Prop := ∀ k j, jobs.lookup k = some j → P j

def Apart (clash : ω → ω → Prop) (jobs : Hash κ ω) : Prop :=
  ∀ k k' j j', jobs.lookup k = some j → jobs.lookup k' = some j' → clash j j' → k = k'

section
variable {P Q : ω → Prop} {clash : ω → ω → Prop} {jobs : Hash κ ω} {k : κ} {j j' : ω}

theorem all_empty : All P (∅ : Hash κ ω) := fun _ _ h => by
  rw [AList.lookup_empty] at h
  cases h

theorem All.mono (h : All P jobs) (hPQ : ∀ k j, jobs.lookup k = some j → P j → Q j) : All Q jobs :=
  fun k j hj => hPQ k j hj (h k j hj)

theorem All.insert (h : All P jobs) (hj : P j) : All P (jobs.insert k j) := by
  intro x y hy
  rw [Hash.lookup_insert] at hy
  split at hy
  · cases hy
    exact hj
  · exact h x y hy

theorem All.foldl_insert (h : All P jobs) {l : List (κ × ω)} (hl : ∀ x ∈ l, P x.2) :
    All P (l.foldl (fun h x => h.insert x.1 x.2) jobs) := by
  induction l generalizing jobs with
  | nil => exact h
  | cons x l ih =>
    exact ih (h.insert (hl x List.mem_cons_self)) fun y hy => hl y (List.mem_cons_of_mem x hy)

theorem All.erase (h : All P jobs) : All P (jobs.erase k) := by
  intro x y hy
  rw [Hash.lookup_erase] at hy
  split at hy
  · cases hy
  · exact h x y hy

theorem apart_empty : Apart clash (∅ : Hash κ ω) := fun _ _ _ _ h => by
  rw [AList.lookup_empty] at h
  cases h

theorem Apart.erase (h : Apart clash jobs) : Apart clash (jobs.erase k) := by
  intro x x' y y' hy hy' hc
  rw [Hash.lookup_erase] at hy hy'
  split at hy
  · cases hy
  · split at hy'
    · cases hy'
    · exact h x x' y y' hy hy' hc

theorem Apart.insert (h : Apart clash jobs)
    (hj : ∀ x y, x ≠ k → jobs.lookup x = some y → ¬ clash j y ∧ ¬ clash y j) :
    Apart clash (jobs.insert k j) := by
  intro x x' y y' hy hy' hc
  rw [Hash.lookup_insert] at hy hy'
  split at hy
  · rename_i hx
    split at hy'
    · rename_i hx'
      rw [hx, hx']
    · rename_i hx'
      cases hy
      exact absurd hc (hj x' y' hx' hy').1
  · rename_i hx
    split at hy'
    · cases hy'
      exact absurd hc (hj x y hx hy).2
    · exact h x x' y y' hy hy' hc

theorem Apart.advance (h : Apart clash jobs) (hk : jobs.lookup k = some j)
    (hc : ∀ y, (clash j' y → clash j y) ∧ (clash y j' → clash y j)) : Apart clash (jobs.insert k j') := by
  refine h.insert fun x y hx hy => ⟨fun hxy => hx ?_, fun hxy => hx ?_⟩
  · exact (h k x j y hk hy ((hc y).1 hxy)).symm
  · exact h x k y j hy hk ((hc y).2 hxy)

end

end Sessions

end Lib
