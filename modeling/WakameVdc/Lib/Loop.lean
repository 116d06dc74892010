import Mathlib.Tactic.Common

/-!
# Loops without a bound

The body of a loop leaves it with an answer or goes on in a new state. A loop
`Ends` with an answer if it is left with it after finitely many rounds.
-/

namespace Lib

namespace Loop

variable {σ α : Type*} (body : σ → α ⊕ σ)

/-- The answer the loop is left with within so many rounds. -/
def within : Nat → σ → Option α
  | 0, _ => none
  | n + 1, s =>
    match body s with
    | .inl a => some a
    | .inr t => within n t

def Ends (s : σ) (a : α) : Prop := ∃ n, within body n s = some a

variable {body} {s t : σ} {a b : α}

theorem within_inr (h : body s = .inr t) (n : Nat) : within body (n + 1) s = within body n t := by
  rw [within, h]

theorem within_inl (h : body s = .inl a) (n : Nat) : within body (n + 1) s = some a := by
  rw [within, h]

theorem within_isSome (m : σ → Nat) (hm : ∀ s t, body s = .inr t → m t < m s) {n : Nat}
    (h : m s < n) : (within body n s).isSome := by
  induction n generalizing s with
  | zero => omega
  | succ n ih =>
    cases hb : body s with
    | inl a =>
      rw [within_inl hb]
      rfl
    | inr t =>
      rw [within_inr hb]
      exact ih (Nat.lt_of_lt_of_le (hm s t hb) (Nat.le_of_lt_succ h))

theorem ends_of_inl (h : body s = .inl a) : Ends body s a := ⟨1, within_inl h 0⟩

theorem ends_iff_of_inl (h : body s = .inl a) : Ends body s b ↔ a = b := by
  constructor
  · rintro ⟨n, hn⟩
    cases n with
    | zero => cases hn
    | succ n =>
      rw [within_inl h] at hn
      exact Option.some.inj hn
  · rintro rfl
    exact ends_of_inl h

theorem ends_iff_of_inr (h : body s = .inr t) : Ends body s a ↔ Ends body t a := by
  constructor
  · rintro ⟨n, hn⟩
    cases n with
    | zero => cases hn
    | succ n => exact ⟨n, within_inr h n ▸ hn⟩
  · rintro ⟨n, hn⟩
    exact ⟨n + 1, (within_inr h n).trans hn⟩

/-- What every round keeps, and the last one turns into a property of the
answer, tells what the loop answers. -/
theorem Ends.invariant (I : σ → Prop) (P : α → Prop) (hr : ∀ s t, I s → body s = .inr t → I t)
    (hl : ∀ s a, I s → body s = .inl a → P a) (hs : I s) (h : Ends body s a) : P a := by
  obtain ⟨n, hn⟩ := h
  induction n generalizing s with
  | zero => cases hn
  | succ n ih =>
    cases hb : body s with
    | inl b =>
      rw [within_inl hb] at hn
      cases hn
      exact hl s a hs hb
    | inr t =>
      rw [within_inr hb] at hn
      exact ih (hr s t hs hb) hn

theorem not_ends (I : σ → Prop) (h : ∀ s, I s → ∃ t, body s = .inr t ∧ I t) (hs : I s) :
    ¬ Ends body s a := by
  intro he
  refine he.invariant I (fun _ => False) ?_ ?_ hs
  · intro s t hI hst
    obtain ⟨u, hu, hIu⟩ := h s hI
    rw [hst] at hu
    cases hu
    exact hIu
  · intro s a hI hsa
    obtain ⟨u, hu, -⟩ := h s hI
    rw [hsa] at hu
    cases hu

end Loop

end Lib
