import Mathlib.Tactic.Common

/-!
# Runs of a deterministic step function

A run is the list of actions a system performs; the state it ends in is the
left fold of the step function. `Each f P s as` says that every step of the run
meets `P` in the state it starts from. A safety property of every reachable
state is an invariant of one step (`Each.invariant`).
-/

namespace Lib

section
variable {σ α β : Type*} (f : σ → α → σ)

/-- Every action of the run meets `P` in the state it is performed in. -/
def Each (P : σ → α → Prop) : σ → List α → Prop
  | _, [] => True
  | s, a :: as => P s a ∧ Each P (f s a) as

instance decidableEach {P : σ → α → Prop} [∀ s a, Decidable (P s a)] :
    (s : σ) → (as : List α) → Decidable (Each f P s as)
  | _, [] => .isTrue trivial
  | s, a :: as => @instDecidableAnd _ _ _ (decidableEach (f s a) as)

def trace (o : σ → α → β) : σ → List α → List β
  | _, [] => []
  | s, a :: as => o s a :: trace o (f s a) as

variable {f} {P Q : σ → α → Prop}

@[simp] theorem each_nil {s : σ} : Each f P s [] := trivial

@[simp] theorem each_cons {s : σ} {a : α} {as : List α} :
    Each f P s (a :: as) ↔ P s a ∧ Each f P (f s a) as := Iff.rfl

theorem each_append {s : σ} {as bs : List α} :
    Each f P s (as ++ bs) ↔ Each f P s as ∧ Each f P (as.foldl f s) bs := by
  induction as generalizing s with
  | nil => simp
  | cons a as ih => simp [ih, and_assoc]

theorem each_iff_cut {s : σ} {as : List α} :
    Each f P s as ↔ ∀ pre a post, as = pre ++ a :: post → P (pre.foldl f s) a := by
  constructor
  · rintro h pre a post rfl
    exact (each_append.mp h).2.1
  · intro h
    induction as generalizing s with
    | nil => trivial
    | cons b as ih =>
      refine ⟨h [] b as rfl, ih fun pre a post he => ?_⟩
      exact h (b :: pre) a post (by rw [he, List.cons_append])

theorem Each.mono {s : σ} {as : List α} (h : Each f P s as) (hPQ : ∀ s a, P s a → Q s a) :
    Each f Q s as := by
  rw [each_iff_cut] at h ⊢
  exact fun pre a post he => hPQ _ _ (h pre a post he)

theorem each_true {s : σ} {as : List α} : Each f (fun _ _ => True) s as :=
  each_iff_cut.mpr fun _ _ _ _ => trivial

theorem each_forall {R : α → Prop} {s : σ} {as : List α} :
    Each f (fun _ a => R a) s as ↔ ∀ a ∈ as, R a := by
  induction as generalizing s with
  | nil => simp
  | cons a as ih => simp [ih]

/-- An invariant kept by every step that meets `P` holds at the end of every
run whose steps all meet `P`. -/
theorem Each.invariant (I : σ → Prop) (hs : ∀ s a, I s → P s a → I (f s a)) {s : σ} {as : List α}
    (h : Each f P s as) (h0 : I s) : I (as.foldl f s) := by
  induction as generalizing s with
  | nil => exact h0
  | cons a as ih => exact ih h.2 (hs s a h0 h.1)

theorem invariant (I : σ → Prop) (hs : ∀ s a, I s → I (f s a)) {s : σ} (as : List α) (h0 : I s) :
    I (as.foldl f s) :=
  Each.invariant I (fun s a hI _ => hs s a hI) each_true h0

/-- Two step properties that agree wherever the invariant holds hold along the
same runs. -/
theorem each_congr (I : σ → Prop) (hs : ∀ s a, I s → I (f s a))
    (hPQ : ∀ s a, I s → (P s a ↔ Q s a)) {s : σ} {as : List α} (h0 : I s) :
    Each f P s as ↔ Each f Q s as := by
  induction as generalizing s with
  | nil => simp
  | cons a as ih => simp [hPQ s a h0, ih (hs s a h0)]

/-- Two step properties that agree wherever the invariant holds, if the first
one keeps it. -/
theorem each_congr_of (I : σ → Prop) (hs : ∀ s a, I s → P s a → I (f s a))
    (hPQ : ∀ s a, I s → (P s a ↔ Q s a)) {s : σ} {as : List α} (h0 : I s) :
    Each f P s as ↔ Each f Q s as := by
  induction as generalizing s with
  | nil => simp
  | cons a as ih =>
    rw [each_cons, each_cons]
    constructor
    · intro h
      exact ⟨(hPQ s a h0).mp h.1, (ih (hs s a h0 h.1)).mp h.2⟩
    · intro h
      have hp := (hPQ s a h0).mpr h.1
      exact ⟨hp, (ih (hs s a h0 hp)).mpr h.2⟩

/-- A step property along a run, from an invariant the same steps keep. -/
theorem Each.of_invariant (I : σ → Prop) (hs : ∀ s a, I s → P s a → I (f s a) ∧ Q s a) {s : σ}
    {as : List α} (h : Each f P s as) (h0 : I s) : Each f Q s as := by
  induction as generalizing s with
  | nil => trivial
  | cons a as ih =>
    obtain ⟨h1, h2⟩ := hs s a h0 h.1
    exact ⟨h2, ih h.2 h1⟩

theorem Each.rel (R : σ → σ → Prop) (hrefl : ∀ s, R s s)
    (htrans : ∀ a b c, R a b → R b c → R a c) {s : σ} {as : List α}
    (h : Each f (fun s a => R s (f s a)) s as) : R s (as.foldl f s) := by
  induction as generalizing s with
  | nil => exact hrefl s
  | cons a as ih => exact htrans _ _ _ h.1 (ih h.2)

theorem trace_append (o : σ → α → β) {s : σ} {as bs : List α} :
    trace f o s (as ++ bs) = trace f o s as ++ trace f o (as.foldl f s) bs := by
  induction as generalizing s with
  | nil => rfl
  | cons a as ih => simp [trace, ih]

end

end Lib
