import Mathlib.Data.List.Sort
import Mathlib.Tactic.Common

/-!
# Arrangements of a list by a key

What an order that compares one key only leaves open: the elements come sorted by the
key, and those with equal keys in any order. An element has its place when its key is
its own; the places of a class of equal keys are taken by its members in any way.
-/

namespace Lib

section
variable {α κ : Type} [LinearOrder κ] (key : α → κ)

/-- The elements of `l`, sorted by the key. -/
structure Arranged (l l' : List α) : Prop where
  perm : l'.Perm l
  sorted : l'.Pairwise fun a b => key a ≤ key b

def arrange (l : List α) : List α := l.insertionSort fun a b => key a ≤ key b

variable {key} {l l' l₁ l₂ : List α} {x : α} {k : κ}

theorem arranged_arrange (l : List α) : Arranged key l (arrange key l) where
  perm := List.perm_insertionSort _ l
  sorted :=
    have : Std.Total fun a b : α => key a ≤ key b := ⟨fun a b => le_total (key a) (key b)⟩
    have : IsTrans α fun a b => key a ≤ key b := ⟨fun _ _ _ => le_trans⟩
    List.pairwise_insertionSort _ l

theorem Arranged.of_perm (h : Arranged key l l') (hp : l.Perm l₁) : Arranged key l₁ l' :=
  ⟨h.perm.trans hp, h.sorted⟩

theorem filter_orderedInsert (a : α) (l : List α) :
    (l.orderedInsert (fun a b => key a ≤ key b) a).filter (key · = k) =
      (a :: l).filter (key · = k) := by
  induction l with
  | nil => rfl
  | cons b l ih =>
    by_cases hab : key a ≤ key b
    · rw [List.orderedInsert_cons_of_le (fun a b => key a ≤ key b) l hab]
    · rw [List.orderedInsert_of_not_le (fun a b => key a ≤ key b) l hab, List.filter_cons, ih]
      by_cases hb : key b = k
      · have ha : key a ≠ k := fun ha => hab (by rw [ha, hb])
        simp [ha, hb]
      · simp [hb, List.filter_cons]

theorem filter_arrange (l : List α) (k : κ) :
    (arrange key l).filter (key · = k) = l.filter (key · = k) := by
  unfold arrange
  induction l with
  | nil => rfl
  | cons a l ih => rw [List.insertionSort_cons, filter_orderedInsert, List.filter_cons, ih,
      List.filter_cons]

theorem Arranged.filter_eq (h : Arranged key l l') (hx : ∀ a ∈ l, key a = k → a = x) :
    l'.filter (key · = k) = l.filter (key · = k) := by
  have hl : ∀ a ∈ l.filter (key · = k), a = x := by
    intro a ha
    rw [List.mem_filter, decide_eq_true_eq] at ha
    exact hx a ha.1 ha.2
  have hp : (l'.filter (key · = k)).Perm (l.filter (key · = k)) := h.perm.filter _
  have hr := List.eq_replicate_of_mem hl
  rw [hr] at hp ⊢
  exact List.perm_replicate.mp hp

/-! ## Which element of a class comes first, and which last -/

theorem exists_arranged_class {c : List α} (hc : c.Perm (l.filter (key · = k))) :
    ∃ l', Arranged key l l' ∧ l'.filter (key · = k) = c := by
  refine ⟨arrange key (c ++ l.filter fun a => !decide (key a = k)), ?_, ?_⟩
  · refine (arranged_arrange _).of_perm ?_
    exact (hc.append_right _).trans (List.filter_append_perm _ l)
  · have hself : c.filter (key · = k) = c :=
      List.filter_eq_self.mpr fun a ha => (List.mem_filter.mp (hc.subset ha)).2
    have hnone : (l.filter fun a => !decide (key a = k)).filter (key · = k) = [] := by
      rw [List.filter_eq_nil_iff]
      intro a ha
      simpa using (List.mem_filter.mp ha).2
    rw [filter_arrange, List.filter_append, hself, hnone, List.append_nil]

section
variable [DecidableEq α]

variable (key) in
theorem exists_arranged_first (hx : x ∈ l) :
    ∃ l', Arranged key l l' ∧
      l'.filter (key · = key x) = x :: (l.erase x).filter (key · = key x) := by
  refine exists_arranged_class ?_
  have hp := (List.perm_cons_erase hx).symm.filter (key · = key x)
  rwa [List.filter_cons_of_pos (by simp)] at hp

end

/-! ## Places -/

section
variable (key)

def below (l : List α) (k : κ) : Nat := l.countP (key · < k)

def upTo (l : List α) (k : κ) : Nat := l.countP (key · ≤ k)

end

theorem Arranged.split (h : Arranged key l l') (k : κ) :
    l' = l'.filter (key · < k) ++ (l'.filter (key · = k) ++ l'.filter (k < key ·)) := by
  have hs := h.sorted
  clear h
  induction l' with
  | nil => rfl
  | cons a l' ih =>
    obtain ⟨ha, hs⟩ := List.pairwise_cons.mp hs
    rcases lt_trichotomy (key a) k with hlt | heq | hgt
    · rw [List.filter_cons_of_pos (by simpa using hlt),
        List.filter_cons_of_neg (by simpa using hlt.ne),
        List.filter_cons_of_neg (by simpa using hlt.le), List.cons_append, ← ih hs]
    · have hno : l'.filter (key · < k) = [] :=
        List.filter_eq_nil_iff.mpr fun b hb => by simpa [heq] using ha b hb
      have hih := ih hs
      rw [hno, List.nil_append] at hih
      rw [List.filter_cons_of_neg (by simp [heq]), hno, List.filter_cons_of_pos (by simpa using heq),
        List.filter_cons_of_neg (by simp [heq]), List.nil_append, List.cons_append, ← hih]
    · have hno : ∀ b ∈ l', k < key b := fun b hb => lt_of_lt_of_le hgt (ha b hb)
      have hlt : l'.filter (key · < k) = [] :=
        List.filter_eq_nil_iff.mpr fun b hb => by simpa using (hno b hb).le
      have heq : l'.filter (key · = k) = [] :=
        List.filter_eq_nil_iff.mpr fun b hb => by simpa using (hno b hb).ne'
      have hall : l'.filter (k < key ·) = l' :=
        List.filter_eq_self.mpr fun b hb => by simpa using hno b hb
      rw [List.filter_cons_of_neg (by simpa using hgt.le), hlt,
        List.filter_cons_of_neg (by simpa using hgt.ne'), heq,
        List.filter_cons_of_pos (by simpa using hgt), hall]
      rfl

variable (key) in
theorem upTo_eq (l : List α) (k : κ) :
    upTo key l k = below key l k + (l.filter (key · = k)).length := by
  unfold upTo below
  rw [← List.countP_eq_length_filter]
  induction l with
  | nil => rfl
  | cons a l ih =>
    rw [List.countP_cons, List.countP_cons, List.countP_cons, ih]
    rcases lt_trichotomy (key a) k with hlt | heq | hgt
    · simp [hlt, hlt.le, hlt.ne]
      omega
    · simp [heq]
      omega
    · simp [hgt.not_ge, hgt.not_gt, hgt.ne']

theorem Arranged.length_below (h : Arranged key l l') (k : κ) :
    (l'.filter (key · < k)).length = below key l k := by
  rw [← List.countP_eq_length_filter, h.perm.countP_eq]
  rfl

theorem Arranged.eq_of_lt (h : Arranged key l l') (hl : l.Pairwise fun a b => key a < key b) : l' = l := by
  have hkeys : ∀ a ∈ l, ∀ b ∈ l, key a = key b → a = b :=
    fun a ha b hb hab => List.inj_on_of_nodup_map
      (List.pairwise_map.mpr (hl.imp fun hab => hab.ne)) ha hb hab
  refine List.Perm.eq_of_pairwise ?_ h.sorted (hl.imp fun hab => hab.le) h.perm
  intro a b ha hb hab hba
  exact hkeys a (h.perm.subset ha) b hb (le_antisymm hab hba)

end

end Lib
