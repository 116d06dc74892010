import Mathlib.Tactic.Common

/-!
# Holders of exclusive keys

Two records of the same fact: the set of the keys that are taken, and who holds
which key. They are in step when a key is taken exactly if somebody holds it,
and nobody else holds it too.
-/

namespace Lib

@[ext] structure Holders (ι κ : Type*) where
  taken : κ → Prop
  holds : ι → κ → Prop

namespace Holders

variable {ι κ : Type*}

structure InStep (h : Holders ι κ) : Prop where
  taken_iff : ∀ k, h.taken k ↔ ∃ i, h.holds i k
  unique : ∀ k i j, h.holds i k → h.holds j k → i = j

def acquire (h : Holders ι κ) (i : ι) (k : κ) : Holders ι κ where
  taken x := h.taken x ∨ x = k
  holds j x := h.holds j x ∨ j = i ∧ x = k

/-- The holders in `D` give up what they hold, and the keys in `F` are struck
from the taken ones. -/
def release (h : Holders ι κ) (D : ι → Prop) (F : κ → Prop) : Holders ι κ where
  taken x := h.taken x ∧ ¬ F x
  holds j x := h.holds j x ∧ ¬ D j

theorem InStep.acquire {h : Holders ι κ} (hs : h.InStep) {i : ι} {k : κ} (hk : ¬ h.taken k) :
    (h.acquire i k).InStep := by
  have hfree : ∀ j, ¬ h.holds j k := by
    intro j hj
    exact hk ((hs.taken_iff k).mpr ⟨j, hj⟩)
  constructor
  · intro x
    constructor
    · intro hx
      rcases hx with hx | hx
      · obtain ⟨j, hj⟩ := (hs.taken_iff x).mp hx
        exact ⟨j, Or.inl hj⟩
      · exact ⟨i, Or.inr ⟨rfl, hx⟩⟩
    · intro hx
      obtain ⟨j, hj | hj⟩ := hx
      · exact Or.inl ((hs.taken_iff x).mpr ⟨j, hj⟩)
      · exact Or.inr hj.2
  · intro x a b ha hb
    rcases ha with ha | ⟨ha, hx⟩
    · rcases hb with hb | ⟨hb, hx⟩
      · exact hs.unique x a b ha hb
      · exact absurd (hx ▸ ha) (hfree a)
    · rcases hb with hb | ⟨hb, _⟩
      · exact absurd (hx ▸ hb) (hfree b)
      · exact ha.trans hb.symm

/-- A release keeps the two records in step exactly if it strikes a key when,
and only when, its holder gives it up. -/
theorem InStep.release_iff {h : Holders ι κ} (hs : h.InStep) {D : ι → Prop} {F : κ → Prop} :
    (h.release D F).InStep ↔ ∀ i k, h.holds i k → (D i ↔ F k) := by
  constructor
  · intro hr i k hi
    have ht : h.taken k := (hs.taken_iff k).mpr ⟨i, hi⟩
    constructor
    · intro hd
      by_contra hf
      obtain ⟨j, hj, hdj⟩ := (hr.taken_iff k).mp ⟨ht, hf⟩
      exact hdj (hs.unique k i j hi hj ▸ hd)
    · intro hf
      by_contra hd
      exact ((hr.taken_iff k).mpr ⟨i, hi, hd⟩).2 hf
  · intro hdf
    constructor
    · intro k
      constructor
      · intro hk
        obtain ⟨i, hi⟩ := (hs.taken_iff k).mp hk.1
        exact ⟨i, hi, fun hd => hk.2 ((hdf i k hi).mp hd)⟩
      · intro hk
        obtain ⟨i, hi, hd⟩ := hk
        exact ⟨(hs.taken_iff k).mpr ⟨i, hi⟩, fun hf => hd ((hdf i k hi).mpr hf)⟩
    · intro k i j hi hj
      exact hs.unique k i j hi.1 hj.1

theorem release_release (h : Holders ι κ) (D D' : ι → Prop) (F F' : κ → Prop) :
    (h.release D F).release D' F' = h.release (fun i => D i ∨ D' i) fun k => F k ∨ F' k := by
  ext x
  · simp [release, and_assoc]
  · simp [release, and_assoc]

theorem release_nothing (h : Holders ι κ) :
    h.release (fun _ => False) (fun _ => False) = h := by
  ext x
  · simp [release]
  · simp [release]

end Holders

end Lib
