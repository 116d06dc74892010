import WakameVdc.Lib.Run
import WakameVdc.HaManagerSound

/-!
# The bounded history of an item

`SizedArray` of `node_modules/ha_manager.rb` over any calls: how long it gets, and what it
holds of the elements pushed one by one.
-/

namespace WakameVdc

open Lib

namespace HaManager

inductive ArrayCall (α : Type)
  | push (obj : List α)
  | append (obj : α)
  | unshift (obj : List α)

namespace ArrayCall

variable {α : Type}

def obj : ArrayCall α → List α
  | push obj => obj
  | append obj => [obj]
  | unshift obj => obj

/-- `<<` is a push of one element. -/
def run (a : SizedArray α) : ArrayCall α → SizedArray α
  | push obj => a.push obj
  | append obj => a.push [obj]
  | unshift obj => a.unshift obj

end ArrayCall

namespace SizedArray

variable {α : Type} {a : SizedArray α}

def Bounded (a : SizedArray α) : Prop := a.array.length ≤ a.maxSize

theorem run_maxSize (c : ArrayCall α) : (c.run a).maxSize = a.maxSize := by
  cases c <;> rfl

theorem length_push (obj : List α) : (a.push obj).array.length =
    if a.array.length + obj.length ≥ a.maxSize then max a.array.length obj.length
    else a.array.length + obj.length := by
  unfold push
  by_cases h : a.array.length + obj.length ≥ a.maxSize
  · simp only [if_pos h, List.length_append, List.length_drop]
    omega
  · simp only [if_neg h, List.length_append]

theorem length_unshift (obj : List α) :
    (a.unshift obj).array.length = (a.push obj).array.length := by
  unfold unshift push
  by_cases h : a.array.length + obj.length ≥ a.maxSize
  · simp only [if_pos h, List.length_append, List.rdrop, List.length_take, List.length_drop]
    omega
  · simp only [if_neg h, List.length_append]
    omega

theorem length_run (c : ArrayCall α) : (c.run a).array.length =
    if a.array.length + c.obj.length ≥ a.maxSize then max a.array.length c.obj.length
    else a.array.length + c.obj.length := by
  cases c with
  | push obj => exact length_push obj
  | append obj => exact length_push [obj]
  | unshift obj => exact (length_unshift obj).trans (length_push obj)

/-- A bounded array stays so unless it is handed more than it can hold. -/
theorem bounded_run_iff (h : a.Bounded) (c : ArrayCall α) :
    (c.run a).Bounded ↔ c.obj.length ≤ a.maxSize := by
  unfold Bounded at h ⊢
  rw [run_maxSize, length_run]
  by_cases hfull : a.array.length + c.obj.length ≥ a.maxSize
  · rw [if_pos hfull]
    omega
  · rw [if_neg hfull]
    omega

theorem bounded_new (maxSize : Nat) : (new maxSize : SizedArray α).Bounded := Nat.zero_le _

theorem bounded_along_iff (maxSize : Nat) (calls : List (ArrayCall α)) :
    Each ArrayCall.run (fun a c => (c.run a).Bounded) (new maxSize) calls ↔
      ∀ c ∈ calls, c.obj.length ≤ maxSize := by
  rw [← each_forall (f := ArrayCall.run) (s := new maxSize)]
  refine each_congr_of (fun a => a.Bounded ∧ a.maxSize = maxSize) ?_ ?_ ⟨bounded_new maxSize, rfl⟩
  · rintro a c ⟨_, hmax⟩ hc
    exact ⟨hc, (run_maxSize c).trans hmax⟩
  · rintro a c ⟨h, hmax⟩
    rw [bounded_run_iff h, hmax]

def pushes (maxSize : Nat) (elements : List α) : SizedArray α :=
  elements.foldl (fun a x => a.push [x]) (new maxSize)

theorem pushes_eq (maxSize : Nat) (elements : List α) :
    pushes maxSize elements = ⟨elements.rtake (window maxSize), maxSize⟩ := by
  induction elements using List.reverseRecOn with
  | nil => simp [pushes, new]
  | append_singleton elements x ih =>
    unfold pushes at ih ⊢
    rw [List.foldl_append, ih]
    exact push_window elements maxSize x

theorem pushes_last_iff {maxSize : Nat} (hsize : 1 ≤ maxSize) (elements : List α) :
    (pushes maxSize elements).array = elements.rtake (min elements.length maxSize) ↔
      elements.length < maxSize ∨ maxSize = 1 := by
  rw [pushes_eq]
  constructor
  · intro h
    have hlen := congrArg List.length h
    rw [length_rtake, length_rtake] at hlen
    unfold window at hlen
    omega
  · intro h
    by_cases hshort : elements.length ≤ window maxSize
    · rw [rtake_of_length_le hshort, rtake_of_length_le]
      unfold window at hshort
      omega
    · have hone : maxSize = 1 := by
        unfold window at hshort
        omega
      subst hone
      have hmin : min elements.length 1 = 1 := by
        unfold window at hshort
        omega
      rw [hmin]
      rfl

/-- An array of positive size is never longer than its size if no call hands it more than
that, and after single pushes it holds the last of them, as many as its size, unless they
are as many as its size and this is more than one. -/
theorem sized_array_iff {maxSize : Nat} (hsize : 1 ≤ maxSize) (calls : List (ArrayCall α))
    (elements : List α) :
    (Each ArrayCall.run (fun a c => (c.run a).Bounded) (new maxSize) calls ↔
      ∀ c ∈ calls, c.obj.length ≤ maxSize) ∧
    ((pushes maxSize elements).array = elements.rtake (min elements.length maxSize) ↔
      elements.length < maxSize ∨ maxSize = 1) :=
  ⟨bounded_along_iff maxSize calls, pushes_last_iff hsize elements⟩

theorem sized_array_three :
    Each ArrayCall.run (fun a c => (c.run a).Bounded) (new 3) [.push [1, 2], .unshift [3]] ∧
      (pushes 3 [1, 2]).array = [1, 2] :=
  have hsize : 1 ≤ 3 := by decide
  ⟨(sized_array_iff hsize [.push [1, 2], .unshift [3]] [1, 2]).1.mpr (by decide),
    (sized_array_iff hsize [] [1, 2]).2.mpr (by decide)⟩

/-- An array of size 2 holds one of two elements, and it takes three at a time. -/
theorem history_size_off :
    (pushes 2 [1, 2]).array ≠ [1, 2].rtake (min [1, 2].length 2) ∧
      ¬ Each ArrayCall.run (fun a c => (c.run a).Bounded) (new 2) [.push [1, 2, 3]] := by
  constructor
  · decide
  · rintro ⟨h, -⟩
    revert h
    unfold Bounded
    decide

end SizedArray

end HaManager

end WakameVdc
