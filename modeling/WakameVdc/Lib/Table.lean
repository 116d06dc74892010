import Mathlib.Algebra.Order.BigOperators.Group.List
import Mathlib.Algebra.Order.Ring.Nat
import Mathlib.Data.List.Nodup
import Mathlib.Tactic.Common

/-!
# Tables with an auto-increment key

The rows of a table stand in the order of their primary key, and the next key
is larger than every key handed out so far. Both facts are fields of the
table, so no operation can lose them.
-/

namespace Lib

/-- A row type with its primary key. -/
class Row (ρ : Type*) where
  pk : ρ → Nat

open Row (pk)

structure Table (ρ : Type*) [Row ρ] where
  rows : List ρ
  next : Nat
  sorted : rows.Pairwise fun a b => pk a < pk b
  bound : ∀ r ∈ rows, pk r < next

namespace Table

section
variable {ρ : Type*} [Row ρ]

def empty : Table ρ := ⟨[], 1, List.Pairwise.nil, by simp⟩

/-- `Model[pk]` -/
def find (t : Table ρ) (k : Nat) : Option ρ := t.rows.find? fun r => pk r == k

/-- `Model.create`: the row is built from the key it gets. -/
def create (t : Table ρ) (mk : Nat → ρ) (hmk : ∀ k, pk (mk k) = k) : Table ρ where
  rows := t.rows ++ [mk t.next]
  next := t.next + 1
  sorted := by
    rw [List.pairwise_append]
    refine ⟨t.sorted, List.pairwise_singleton _ _, ?_⟩
    intro a ha b hb
    rw [List.mem_singleton.mp hb, hmk]
    exact t.bound a ha
  bound := by
    intro r hr
    rcases List.mem_append.mp hr with h | h
    · exact Nat.lt_succ_of_lt (t.bound r h)
    · rw [List.mem_singleton.mp h, hmk]; exact Nat.lt_succ_self _

/-- `UPDATE ... WHERE id = pk`: every row is rewritten by a function that keeps
its key. -/
def update (t : Table ρ) (f : ρ → ρ) (hf : ∀ r, pk (f r) = pk r) : Table ρ where
  rows := t.rows.map f
  next := t.next
  sorted := by
    rw [List.pairwise_map]
    exact t.sorted.imp fun h => by rwa [hf, hf]
  bound := by
    intro r hr
    obtain ⟨x, hx, rfl⟩ := List.mem_map.mp hr
    rw [hf]; exact t.bound x hx

/-- An update of the row with key `k`. -/
def modify (t : Table ρ) (k : Nat) (f : ρ → ρ) (hf : ∀ r, pk (f r) = pk r) : Table ρ :=
  t.update (fun r => if pk r = k then f r else r) fun r => by
    by_cases h : pk r = k
    · rw [if_pos h, hf]
    · rw [if_neg h]

/-- `model.save`: the stored row with the same key becomes `r`. -/
def save (t : Table ρ) (r : ρ) : Table ρ :=
  t.update (fun x => if pk x = pk r then r else x) fun x => by
    by_cases h : pk x = pk r
    · simp [h]
    · simp [h]

/-- `DELETE ... WHERE p` -/
def delete (t : Table ρ) (p : ρ → Bool) : Table ρ where
  rows := t.rows.filter fun r => !p r
  next := t.next
  sorted := t.sorted.filter _
  bound := fun r hr => t.bound r (List.mem_of_mem_filter hr)

def sum (t : Table ρ) (f : ρ → Nat) : Nat := (t.rows.map f).sum

def first (t : Table ρ) (p : ρ → Bool) : Option ρ := t.rows.find? p

/-! ## Keys are unique -/

theorem nodup_pk (t : Table ρ) : (t.rows.map pk).Nodup := by
  rw [List.Nodup, List.pairwise_map]
  exact t.sorted.imp fun h => Nat.ne_of_lt h

theorem eq_of_pk (t : Table ρ) {r r' : ρ} (hr : r ∈ t.rows) (hr' : r' ∈ t.rows)
    (h : pk r = pk r') : r = r' :=
  List.inj_on_of_nodup_map t.nodup_pk hr hr' h

theorem find_eq_some (t : Table ρ) {k : Nat} {r : ρ} :
    t.find k = some r ↔ r ∈ t.rows ∧ pk r = k := by
  constructor
  · intro h
    exact ⟨List.mem_of_find?_eq_some h, by simpa using List.find?_some h⟩
  · rintro ⟨hr, hk⟩
    cases hf : t.find k with
    | none =>
      have := List.find?_eq_none.mp hf r hr
      simp [hk] at this
    | some r' =>
      have hk' : pk r' = k := by simpa using List.find?_some hf
      rw [t.eq_of_pk (List.mem_of_find?_eq_some hf) hr (hk'.trans hk.symm)]

theorem find_of_mem (t : Table ρ) {r : ρ} (hr : r ∈ t.rows) : t.find (pk r) = some r :=
  t.find_eq_some.mpr ⟨hr, rfl⟩

theorem pk_of_find (t : Table ρ) {k : Nat} {r : ρ} (h : t.find k = some r) : pk r = k :=
  (t.find_eq_some.mp h).2

theorem mem_of_find (t : Table ρ) {k : Nat} {r : ρ} (h : t.find k = some r) : r ∈ t.rows :=
  (t.find_eq_some.mp h).1

/-! ## What the operations do to a key -/

theorem find_update (t : Table ρ) (f : ρ → ρ) (hf : ∀ r, pk (f r) = pk r) (k : Nat) :
    (t.update f hf).find k = (t.find k).map f := by
  simp only [find, update, List.find?_map, Function.comp_def, hf]

theorem find_modify (t : Table ρ) (j : Nat) (f : ρ → ρ) (hf : ∀ r, pk (f r) = pk r) (k : Nat) :
    (t.modify j f hf).find k = if k = j then (t.find k).map f else t.find k := by
  rw [modify, find_update]
  cases h : t.find k with
  | none => simp
  | some x =>
    rw [Option.map_some, t.pk_of_find h]
    by_cases hk : k = j
    · rw [if_pos hk, if_pos hk, Option.map_some]
    · rw [if_neg hk, if_neg hk]

theorem find_save (t : Table ρ) (r : ρ) (k : Nat) :
    (t.save r).find k = if k = pk r then (t.find k).map fun _ => r else t.find k := by
  rw [save, find_update]
  by_cases h : k = pk r
  · rw [if_pos h]
    cases hf : t.find k with
    | none => rfl
    | some x => simp [t.pk_of_find hf, h]
  · rw [if_neg h]
    cases hf : t.find k with
    | none => rfl
    | some x => simp [t.pk_of_find hf, h]

theorem find_save_self (t : Table ρ) {r x : ρ} (h : t.find (pk r) = some x) :
    (t.save r).find (pk r) = some r := by
  rw [find_save, if_pos rfl, h, Option.map_some]

theorem mem_save (t : Table ρ) {r x : ρ} (h : x ∈ (t.save r).rows) :
    x = r ∨ x ∈ t.rows ∧ pk x ≠ pk r := by
  obtain ⟨y, hy, rfl⟩ := List.mem_map.mp h
  by_cases hk : pk y = pk r
  · left; simp [hk]
  · right; simp [hk, hy]

theorem split (t : Table ρ) {r : ρ} (hr : r ∈ t.rows) :
    ∃ l₁ l₂, t.rows = l₁ ++ r :: l₂ ∧ ∀ x ∈ l₁ ++ l₂, pk x ≠ pk r := by
  obtain ⟨l₁, l₂, he⟩ := List.append_of_mem hr
  refine ⟨l₁, l₂, he, ?_⟩
  intro x hx hxk
  have hnodup := t.nodup_pk
  rw [he, List.map_append, List.map_cons, List.nodup_middle, List.nodup_cons,
    ← List.map_append] at hnodup
  exact hnodup.1 (List.mem_map.mpr ⟨x, hx, hxk⟩)

theorem save_split (t : Table ρ) {r r' : ρ} (hr : r ∈ t.rows) (hk : pk r' = pk r) :
    ∃ l₁ l₂, t.rows = l₁ ++ r :: l₂ ∧ (t.save r').rows = l₁ ++ r' :: l₂ := by
  obtain ⟨l₁, l₂, he, hne⟩ := t.split hr
  have hsame : ∀ l : List ρ, (∀ x ∈ l, pk x ≠ pk r') →
      l.map (fun x => if pk x = pk r' then r' else x) = l := by
    intro l hl
    apply (List.map_congr_left ?_).trans (List.map_id _)
    intro x hx
    exact if_neg (hl x hx)
  refine ⟨l₁, l₂, he, ?_⟩
  show t.rows.map _ = _
  rw [he, List.map_append, List.map_cons, if_pos hk.symm,
    hsame l₁ fun x hx => by rw [hk]; exact hne x (List.mem_append_left _ hx),
    hsame l₂ fun x hx => by rw [hk]; exact hne x (List.mem_append_right _ hx)]

theorem find_next (t : Table ρ) {k : Nat} (h : t.next ≤ k) : t.find k = none := by
  cases hf : t.find k with
  | none => rfl
  | some r =>
    have := t.bound r (t.mem_of_find hf)
    rw [t.pk_of_find hf] at this
    omega

theorem find_create (t : Table ρ) (mk : Nat → ρ) (hmk : ∀ k, pk (mk k) = k) (k : Nat) :
    (t.create mk hmk).find k = if k = t.next then some (mk k) else t.find k := by
  simp only [find, create, List.find?_append, List.find?_cons, List.find?_nil, hmk]
  by_cases h : k = t.next
  · subst h
    have : List.find? (fun r => pk r == t.next) t.rows = none := t.find_next (Nat.le_refl _)
    simp [this]
  · have h' : (t.next == k) = false := beq_false_of_ne fun e => h e.symm
    rw [h', if_neg h]
    exact Option.or_none

theorem mem_create (t : Table ρ) {mk : Nat → ρ} {hmk : ∀ k, pk (mk k) = k} {x : ρ} :
    x ∈ (t.create mk hmk).rows ↔ x ∈ t.rows ∨ x = mk t.next := by
  simp [create]

theorem mem_delete (t : Table ρ) {p : ρ → Bool} {x : ρ} :
    x ∈ (t.delete p).rows ↔ x ∈ t.rows ∧ p x = false := by
  simp [delete]

/-! ## Sums -/

theorem sum_create (t : Table ρ) (mk : Nat → ρ) (hmk : ∀ k, pk (mk k) = k) (f : ρ → Nat) :
    (t.create mk hmk).sum f = t.sum f + f (mk t.next) := by
  simp [sum, create]

theorem sum_update (t : Table ρ) (g : ρ → ρ) (hg : ∀ r, pk (g r) = pk r) (f : ρ → Nat) :
    (t.update g hg).sum f = t.sum fun r => f (g r) := by
  simp [sum, update, Function.comp_def]

theorem sum_congr (t : Table ρ) {f f' : ρ → Nat} (h : ∀ r ∈ t.rows, f r = f' r) :
    t.sum f = t.sum f' := by
  unfold sum
  rw [List.map_congr_left h]

theorem sum_le_sum (t : Table ρ) {f f' : ρ → Nat} (h : ∀ r ∈ t.rows, f r ≤ f' r) :
    t.sum f ≤ t.sum f' :=
  List.sum_le_sum h

theorem sum_change (t : Table ρ) {r : ρ} (hr : r ∈ t.rows) {f f' : ρ → Nat}
    (h : ∀ x ∈ t.rows, pk x ≠ pk r → f' x = f x) : t.sum f' + f r = t.sum f + f' r := by
  obtain ⟨l₁, l₂, he, hne⟩ := t.split hr
  have h₁ : l₁.map f' = l₁.map f := by
    apply List.map_congr_left
    intro x hx
    exact h x (by rw [he]; simp [hx]) (hne x (List.mem_append_left _ hx))
  have h₂ : l₂.map f' = l₂.map f := by
    apply List.map_congr_left
    intro x hx
    exact h x (by rw [he]; simp [hx]) (hne x (List.mem_append_right _ hx))
  simp only [sum, he, List.map_append, List.map_cons, List.sum_append, List.sum_cons, h₁, h₂]
  omega

theorem sum_modify (t : Table ρ) {k : Nat} {r : ρ} (h : t.find k = some r) (g : ρ → ρ)
    (hg : ∀ r, pk (g r) = pk r) (f : ρ → Nat) :
    (t.modify k g hg).sum f + f r = t.sum f + f (g r) := by
  have hk := t.pk_of_find h
  rw [modify, sum_update, t.sum_change (t.mem_of_find h) (f := f), hk, if_pos rfl]
  intro x _ hx
  rw [if_neg]
  rwa [hk] at hx

/-! ## The first row -/

theorem first_spec (t : Table ρ) {p : ρ → Bool} {r : ρ} (h : t.first p = some r) :
    r ∈ t.rows ∧ p r = true ∧ ∀ x ∈ t.rows, p x = true → pk r ≤ pk x := by
  obtain ⟨hp, as, bs, hrows, has⟩ := List.find?_eq_some_iff_append.mp h
  refine ⟨List.mem_of_find?_eq_some h, hp, fun x hx hpx => ?_⟩
  have hs := t.sorted
  rw [hrows] at hx hs
  rcases List.mem_append.mp hx with hx | hx
  · have := has x hx
    simp [hpx] at this
  · rcases List.mem_cons.mp hx with rfl | hx
    · exact Nat.le_refl _
    · exact Nat.le_of_lt (List.rel_of_pairwise_cons (List.pairwise_append.mp hs).2.1 hx)

theorem first_none (t : Table ρ) {p : ρ → Bool} (h : t.first p = none) :
    ∀ x ∈ t.rows, p x = false := by
  intro x hx
  simpa using List.find?_eq_none.mp h x hx

end

end Table

end Lib
