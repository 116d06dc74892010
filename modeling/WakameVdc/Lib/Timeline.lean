import WakameVdc.Lib.Run

/-!
# Logs with time stamps

A system with a clock appends rows to a log, each stamped with the time of the step
that wrote it. The rows up to a time are the log of the run up to that time.
-/

namespace Lib

section
variable {σ α ρ : Type*} (f : σ → α → σ) (clock : σ → Nat) (log : σ → List ρ) (stamp : ρ → Nat)

/-- The steps done by the time `t`. -/
def stepsUpTo (t : Nat) : σ → List α → List α
  | _, [] => []
  | s, a :: as => if clock (f s a) ≤ t then a :: stepsUpTo t (f s a) as else []

/-- The clock does not go back, and a step appends rows with its own time. -/
structure Timed : Prop where
  clock_le : ∀ s a, clock s ≤ clock (f s a)
  append : ∀ s a, ∃ rows, log (f s a) = log s ++ rows ∧ ∀ r ∈ rows, stamp r = clock (f s a)

variable {f clock log stamp}

theorem stepsUpTo_isPrefix (t : Nat) (s : σ) (as : List α) : stepsUpTo f clock t s as <+: as := by
  induction as generalizing s with
  | nil => exact List.prefix_refl []
  | cons a as ih =>
    unfold stepsUpTo
    split
    · exact (List.prefix_cons_inj a).mpr (ih (f s a))
    · exact List.nil_prefix

theorem Timed.append_foldl (h : Timed f clock log stamp) (s : σ) (as : List α) :
    ∃ rows, log (as.foldl f s) = log s ++ rows ∧ ∀ r ∈ rows, clock s ≤ stamp r := by
  induction as generalizing s with
  | nil => exact ⟨[], (List.append_nil _).symm, fun _ hr => (List.not_mem_nil hr).elim⟩
  | cons a as ih =>
    obtain ⟨rows, he, hrows⟩ := h.append s a
    obtain ⟨later, he', hlater⟩ := ih (f s a)
    refine ⟨rows ++ later, ?_, fun r hr => ?_⟩
    · rw [List.foldl_cons, he', he, List.append_assoc]
    · rcases List.mem_append.mp hr with hr | hr
      · rw [hrows r hr]
        exact h.clock_le s a
      · exact Nat.le_trans (h.clock_le s a) (hlater r hr)

theorem Timed.filter_log (h : Timed f clock log stamp) (t : Nat) {s : σ}
    (hs : ∀ r ∈ log s, stamp r ≤ t) (as : List α) :
    (log (as.foldl f s)).filter (fun r => stamp r ≤ t) =
      log ((stepsUpTo f clock t s as).foldl f s) := by
  induction as generalizing s with
  | nil => exact List.filter_eq_self.mpr fun r hr => decide_eq_true (hs r hr)
  | cons a as ih =>
    obtain ⟨rows, he, hrows⟩ := h.append s a
    unfold stepsUpTo
    split
    · rename_i hle
      refine ih fun r hr => ?_
      rw [he] at hr
      rcases List.mem_append.mp hr with hr | hr
      · exact hs r hr
      · rw [hrows r hr]
        exact hle
    · rename_i hlt
      obtain ⟨later, he', hlater⟩ := h.append_foldl (f s a) as
      have hnew : ∀ r ∈ rows ++ later, ¬ stamp r ≤ t := by
        intro r hr hle
        rcases List.mem_append.mp hr with hr | hr
        · exact hlt (hrows r hr ▸ hle)
        · exact hlt (Nat.le_trans (hlater r hr) hle)
      rw [List.foldl_cons, he', he, List.append_assoc, List.filter_append,
        List.filter_eq_self.mpr fun r hr => decide_eq_true (hs r hr),
        List.filter_eq_nil_iff.mpr fun r hr => by simpa using hnew r hr, List.append_nil]
      rfl

end

end Lib
