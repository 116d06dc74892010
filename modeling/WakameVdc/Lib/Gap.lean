import Mathlib.Order.Bounds.Basic
import Mathlib.Tactic.Common

/-!
# The first gap in a row of places

The places `0` to `n`, some of them taken. A block is a run of taken places, and an
edge of a block is a taken place with a neighbour that is free or outside. The first
free place is next to an edge, so two edges of the right kind are enough to find it.
-/

namespace Lib

namespace Gap

/-- An edge, with whether its neighbours on either side are taken. -/
@[ext]
structure Edge where
  pos : Nat
  before : Bool
  after : Bool
  deriving DecidableEq, Repr

def next (n : Nat) : List Edge → Option Nat
  | c :: _ => if c.after = false ∧ c.pos ≠ n then some (c.pos + 1) else none
  | [] => none

def first (n : Nat) : List Edge → Option Nat
  | [] => some 0
  | b :: bs =>
    if b.before = false ∧ b.pos ≠ 0 then some 0
    else if b.after = false then
      if b.pos ≠ n then some (b.pos + 1) else none
    else next n bs

theorem first_cons (n : Nat) (b : Edge) (bs : List Edge) :
    first n (b :: bs) =
      if b.before = false ∧ b.pos ≠ 0 then some 0
      else if b.after = false then
        if b.pos ≠ n then some (b.pos + 1) else none
      else next n bs := rfl

section
variable (taken : Nat → Prop) (n : Nat)

/-- `r` is the first free place, or nothing if there is none. -/
def IsFirst (r : Option Nat) : Prop :=
  match r with
  | some k => IsLeast {x | x ≤ n ∧ ¬ taken x} k
  | none => ∀ x ≤ n, taken x

structure IsEdge (b : Edge) : Prop where
  le : b.pos ≤ n
  here : taken b.pos
  before : b.before = true ↔ 0 < b.pos ∧ taken (b.pos - 1)
  after : b.after = true ↔ b.pos < n ∧ taken (b.pos + 1)
  outer : b.before = false ∨ b.after = false

/-- The edge ends the block that starts at the first place. -/
def EndsFirst (b : Edge) : Prop := b.after = false ∧ ∀ x ≤ b.pos, taken x

/-- The first edges of the list tell where the first gap is. -/
def Leads (rows : List Edge) : Prop :=
  match rows with
  | [] => True
  | b :: bs =>
    taken 0 ∧ (EndsFirst taken b ∨ b.pos = 0 ∧ ∃ c ∈ bs.head?, EndsFirst taken c) ∨
      ¬ taken 0 ∧ b.before = false

end

section
variable {taken : Nat → Prop} {n : Nat}

theorem IsFirst.unique {r s : Option Nat} (hr : IsFirst taken n r) (hs : IsFirst taken n s) :
    r = s := by
  cases r with
  | none =>
    cases s with
    | none => rfl
    | some k => exact absurd (hr k hs.1.1) hs.1.2
  | some j =>
    cases s with
    | none => exact absurd (hs j hr.1.1) hr.1.2
    | some k => rw [IsLeast.unique hr hs]

theorem isFirst_zero (h : ¬ taken 0) : IsFirst taken n (some 0) :=
  ⟨⟨Nat.zero_le n, h⟩, fun _ _ => Nat.zero_le _⟩

theorem EndsFirst.isFirst {b : Edge} (hb : IsEdge taken n b) (h : EndsFirst taken b) :
    IsFirst taken n (if b.pos ≠ n then some (b.pos + 1) else none) := by
  have hle := hb.le
  split
  · rename_i hne
    refine ⟨⟨by omega, ?_⟩, ?_⟩
    · intro ht
      have := hb.after.mpr ⟨by omega, ht⟩
      rw [h.1] at this
      cases this
    · intro x hx
      by_contra hlt
      exact hx.2 (h.2 x (by omega))
  · rename_i he
    intro x hx
    exact h.2 x (by omega)

/-- An edge the first free place is behind ends the block at the start. -/
theorem endsFirst_of_isFirst {b : Edge} (hb : IsEdge taken n b) (ha : b.after = false)
    (h : IsFirst taken n (if b.pos ≠ n then some (b.pos + 1) else none)) : EndsFirst taken b := by
  have hle := hb.le
  refine ⟨ha, fun x hx => ?_⟩
  split at h
  · by_contra hx'
    have := h.2 ⟨by omega, hx'⟩
    omega
  · exact h x (by omega)

theorem isFirst_iff_endsFirst {b : Edge} (hb : IsEdge taken n b) (ha : b.after = false) :
    IsFirst taken n (if b.pos ≠ n then some (b.pos + 1) else none) ↔ EndsFirst taken b :=
  ⟨endsFirst_of_isFirst hb ha, fun h => h.isFirst hb⟩

/-! ## The list of all edges -/

/-- A taken place without a taken neighbour on one of its sides has an edge. -/
theorem exists_isEdge {k : Nat} (hk : k ≤ n) (ht : taken k)
    (h : ¬ (0 < k ∧ taken (k - 1)) ∨ ¬ (k < n ∧ taken (k + 1))) :
    ∃ b, IsEdge taken n b ∧ b.pos = k := by
  classical
  refine ⟨⟨k, decide (0 < k ∧ taken (k - 1)), decide (k < n ∧ taken (k + 1))⟩, ?_, rfl⟩
  constructor
  · exact hk
  · exact ht
  · exact decide_eq_true_iff
  · exact decide_eq_true_iff
  · exact h.imp decide_eq_false decide_eq_false

theorem IsEdge.eq_of_pos {b c : Edge} (hb : IsEdge taken n b) (hc : IsEdge taken n c)
    (h : b.pos = c.pos) : b = c := by
  have hbefore : b.before = c.before := by
    rw [Bool.eq_iff_iff, hb.before, hc.before, h]
  have hafter : b.after = c.after := by
    rw [Bool.eq_iff_iff, hb.after, hc.after, h]
  exact Edge.ext h hbefore hafter

theorem IsEdge.pos_ne_zero {b : Edge} (hb : IsEdge taken n b) (h0 : ¬ taken 0) : b.pos ≠ 0 := by
  intro h
  have := hb.here
  rw [h] at this
  exact h0 this

/-- Where every place is taken, the edges are the first and the last one. -/
theorem IsEdge.pos_of_full {b : Edge} (hb : IsEdge taken n b) (hfull : ∀ x ≤ n, taken x) :
    b.pos = 0 ∨ b.pos = n := by
  have hle := hb.le
  rcases hb.outer with h | h
  · left
    by_contra hpos
    have := hb.before.mpr ⟨by omega, hfull _ (by omega)⟩
    rw [h] at this
    cases this
  · right
    by_contra hpos
    have := hb.after.mpr ⟨by omega, hfull _ (by omega)⟩
    rw [h] at this
    cases this

section
variable {b : Edge} {bs : List Edge} (hmem : ∀ e, e ∈ b :: bs ↔ IsEdge taken n e)
include hmem

theorem first_iff_of_free (h0 : ¬ taken 0) :
    IsFirst taken n (first n (b :: bs)) ↔ b.before = false := by
  have hb : IsEdge taken n b := (hmem b).mp List.mem_cons_self
  have hpos := hb.pos_ne_zero h0
  constructor
  · intro h
    have h' := h.unique (isFirst_zero h0)
    by_contra hbefore
    have hafter : b.after = false := hb.outer.resolve_left hbefore
    simp only [first_cons, hbefore, hafter, false_and, if_false, if_true] at h'
    split at h'
    · simp at h'
    · cases h'
  · intro h
    rw [first_cons, if_pos ⟨h, hpos⟩]
    exact isFirst_zero h0

/-- A block that starts with the first place and goes on ends at the second edge. -/
theorem first_iff_of_start (hnd : (b :: bs).Nodup) (hpos : b.pos = 0) (ha : b.after = true) :
    IsFirst taken n (first n (b :: bs)) ↔ ∃ c ∈ bs.head?, EndsFirst taken c := by
  have hb : IsEdge taken n b := (hmem b).mp List.mem_cons_self
  have hn : b.pos ≠ n := by
    have := (hb.after.mp ha).1
    omega
  rw [first_cons, if_neg (fun h => h.2 hpos), if_neg (by rw [ha]; simp)]
  cases bs with
  | nil =>
    simp only [next, List.head?_nil, Option.mem_def, reduceCtorEq, false_and, exists_false, iff_false]
    intro hfull
    obtain ⟨c, hc, hcn⟩ := exists_isEdge (le_refl n) (hfull n (le_refl n)) (.inr (by simp))
    rw [List.mem_singleton.mp ((hmem c).mpr hc)] at hcn
    exact hn hcn
  | cons c cs =>
    have hc : IsEdge taken n c := (hmem c).mp (by simp)
    simp only [next, List.head?_cons, Option.mem_def, Option.some.injEq, exists_eq_left']
    cases hca : c.after with
    | false =>
      rw [← isFirst_iff_endsFirst hc hca]
      simp
    | true =>
      simp only [reduceCtorEq, false_and, if_false]
      constructor
      · intro hfull
        -- the second edge would be the last place
        exfalso
        rcases hc.pos_of_full hfull with h | h
        · have := hb.eq_of_pos hc (hpos.trans h.symm)
          rw [this] at hnd
          exact (List.nodup_cons.mp hnd).1 List.mem_cons_self
        · have := (hc.after.mp hca).1
          omega
      · intro h
        rw [h.1] at hca
        cases hca

theorem first_iff_of_taken (hnd : (b :: bs).Nodup) (h0 : taken 0) :
    IsFirst taken n (first n (b :: bs)) ↔
      EndsFirst taken b ∨ b.pos = 0 ∧ ∃ c ∈ bs.head?, EndsFirst taken c := by
  have hb : IsEdge taken n b := (hmem b).mp List.mem_cons_self
  by_cases hs : b.before = false ∧ b.pos ≠ 0
  · refine iff_of_false ?_ ?_
    · rw [first_cons, if_pos hs]
      exact fun h => h.1.2 h0
    · rintro (h | h)
      · have hprev := hb.before.mpr ⟨by omega, h.2 _ (by omega)⟩
        rw [hs.1] at hprev
        cases hprev
      · exact hs.2 h.1
  · cases ha : b.after with
    | false =>
      rw [first_cons, if_neg hs, if_pos ha, isFirst_iff_endsFirst hb ha]
      refine ⟨Or.inl, ?_⟩
      rintro (h | h)
      · exact h
      · refine ⟨ha, fun x hx => ?_⟩
        rw [h.1, Nat.le_zero] at hx
        rw [hx]
        exact h0
    | true =>
      have hbefore : b.before = false := hb.outer.resolve_right (by rw [ha]; simp)
      have hpos : b.pos = 0 := by
        by_contra h
        exact hs ⟨hbefore, h⟩
      rw [first_iff_of_start hmem hnd hpos ha]
      refine ⟨fun h => Or.inr ⟨hpos, h⟩, ?_⟩
      rintro (h | h)
      · rw [h.1] at ha
        cases ha
      · exact h.2

end

/-- A list of all edges, each once, tells the first gap exactly if it leads to it. -/
theorem first_iff {rows : List Edge} (hmem : ∀ b, b ∈ rows ↔ IsEdge taken n b)
    (hnd : rows.Nodup) : IsFirst taken n (first n rows) ↔ Leads taken rows := by
  cases rows with
  | nil =>
    refine iff_of_true ?_ trivial
    by_cases h0 : taken 0
    · -- the block of the first place would have an edge
      obtain ⟨b, hb, _⟩ := exists_isEdge (Nat.zero_le n) h0 (.inl (by simp))
      exact absurd ((hmem b).mpr hb) List.not_mem_nil
    · exact isFirst_zero h0
  | cons b bs =>
    by_cases h0 : taken 0
    · rw [first_iff_of_taken hmem hnd h0]
      simp only [Leads, h0, true_and, not_true_eq_false, false_and, or_false]
    · rw [first_iff_of_free hmem h0]
      simp only [Leads, h0, false_and, not_false_eq_true, true_and, false_or]

/-! ## Edges in order -/

theorem exists_start {k : Nat} (hk : taken k) : ∃ s ≤ k, taken s ∧ ¬ (0 < s ∧ taken (s - 1)) := by
  induction k with
  | zero => exact ⟨0, le_refl 0, hk, by simp⟩
  | succ k ih =>
    by_cases h : taken k
    · obtain ⟨s, hs, hts⟩ := ih h
      exact ⟨s, by omega, hts⟩
    · exact ⟨k + 1, le_refl _, hk, fun h' => h h'.2⟩

theorem exists_end (h0 : taken 0) (n : Nat) :
    ∃ e ≤ n, (∀ x ≤ e, taken x) ∧ ¬ (e < n ∧ taken (e + 1)) := by
  induction n with
  | zero => exact ⟨0, le_refl 0, fun x hx => by rwa [Nat.le_zero.mp hx], by simp⟩
  | succ n ih =>
    obtain ⟨e, he, hall, hend⟩ := ih
    by_cases hn : e = n ∧ taken (n + 1)
    · refine ⟨n + 1, le_refl _, fun x hx => ?_, by simp⟩
      rcases Nat.lt_or_ge n x with h | h
      · rw [show x = n + 1 by omega]
        exact hn.2
      · exact hall x (by omega)
    · refine ⟨e, by omega, hall, fun h => ?_⟩
      by_cases he' : e = n
      · exact hn ⟨he', he' ▸ h.2⟩
      · exact hend ⟨by omega, h.2⟩

section
variable {b : Edge} {bs : List Edge} (hmem : ∀ e, e ∈ b :: bs ↔ IsEdge taken n e)
  (hs : (b :: bs).Pairwise fun b c => b.pos < c.pos)
include hmem hs

theorem pos_le_of_sorted {e : Edge} (he : IsEdge taken n e) : b.pos ≤ e.pos := by
  rcases List.mem_cons.mp ((hmem e).mpr he) with h | h
  · rw [h]
  · exact le_of_lt (List.rel_of_pairwise_cons hs h)

theorem before_of_sorted : b.before = false := by
  have hb : IsEdge taken n b := (hmem b).mp List.mem_cons_self
  have hle := hb.le
  by_contra hbefore
  obtain ⟨hpos, hprev⟩ := hb.before.mp (by simpa using hbefore)
  obtain ⟨s, hsb, hts, hstart⟩ := exists_start hprev
  obtain ⟨e, he, hes⟩ := exists_isEdge (show s ≤ n by omega) hts (.inl hstart)
  have := pos_le_of_sorted hmem hs he
  omega

theorem endsFirst_of_sorted (h0 : taken 0) :
    EndsFirst taken b ∨ b.pos = 0 ∧ ∃ c ∈ bs.head?, EndsFirst taken c := by
  have hb : IsEdge taken n b := (hmem b).mp List.mem_cons_self
  have hpos : b.pos = 0 := by
    obtain ⟨e, he, hez⟩ := exists_isEdge (Nat.zero_le n) h0 (.inl (by simp))
    have := pos_le_of_sorted hmem hs he
    omega
  obtain ⟨z, hzn, hall, hend⟩ := exists_end h0 n
  obtain ⟨d, hd, hdz⟩ := exists_isEdge hzn (hall z (le_refl z)) (.inr hend)
  have hda : d.after = false := by
    by_contra h
    rw [Bool.not_eq_false, hd.after, hdz] at h
    exact hend h
  rcases List.mem_cons.mp ((hmem d).mpr hd) with hdb | hdb
  · rw [hdb] at hda hdz
    exact .inl ⟨hda, fun x hx => hall x (by omega)⟩
  · right
    refine ⟨hpos, ?_⟩
    cases bs with
    | nil => cases hdb
    | cons c cs =>
      have hc : IsEdge taken n c := (hmem c).mp (by simp)
      have hbc : b.pos < c.pos := List.rel_of_pairwise_cons hs List.mem_cons_self
      have hcd : c.pos ≤ z := by
        rcases List.mem_cons.mp hdb with h | h
        · rw [← h, hdz]
        · have := List.rel_of_pairwise_cons (List.pairwise_cons.mp hs).2 h
          omega
      refine ⟨c, rfl, ?_, fun x hx => hall x (by omega)⟩
      have hcb := hc.before.mpr ⟨by omega, hall _ (by omega)⟩
      exact hc.outer.resolve_left (by rw [hcb]; simp)

end

theorem leads_of_sorted {rows : List Edge} (hmem : ∀ b, b ∈ rows ↔ IsEdge taken n b)
    (hs : rows.Pairwise fun b c => b.pos < c.pos) : Leads taken rows := by
  cases rows with
  | nil => trivial
  | cons b bs =>
    by_cases h0 : taken 0
    · exact .inl ⟨h0, endsFirst_of_sorted hmem hs h0⟩
    · exact .inr ⟨h0, before_of_sorted hmem hs⟩

end

end Gap

end Lib
