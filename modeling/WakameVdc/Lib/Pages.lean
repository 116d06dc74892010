import Mathlib.Data.List.Perm.Basic
import WakameVdc.Lib.Arrange

/-!
# Pages of an arrangement

A list is read page by page, and each page may be cut from an arrangement of its own. The
pages together hold each element once exactly if no page ends between two different
elements of equal keys.
-/

namespace Lib

section
variable {α : Type}

/-- The page that `p` pages of `limit` elements come before. -/
def page (limit p : Nat) (l : List α) : List α := (l.drop (p * limit)).take limit

theorem page_add (limit q p : Nat) (l : List α) :
    page limit (q + p) l = page limit p (l.drop (q * limit)) := by
  rw [page, page, List.drop_drop, Nat.add_mul]

theorem page_ne_nil {limit p : Nat} {l : List α} (hlimit : 1 ≤ limit) (hp : p * limit < l.length) :
    page limit p l ≠ [] := by
  intro h
  have hlen := congrArg List.length h
  rw [page, List.length_take, List.length_drop, List.length_nil] at hlen
  omega

theorem flatMap_page (limit n : Nat) (l : List α) :
    (List.range n).flatMap (fun p => page limit p l) = l.take (n * limit) := by
  induction n with
  | zero => simp
  | succ n ih =>
    rw [List.range_succ, List.flatMap_append, ih, List.flatMap_singleton, page, Nat.succ_mul,
      List.take_add]

/-- Pages cut from one list up to the page `q`, and from another one from there on. -/
theorem flatMap_page_two (limit q n : Nat) (l l' : List α) :
    (List.range (q + n)).flatMap (fun p => page limit p (if p < q then l else l')) =
      l.take (q * limit) ++ (l'.drop (q * limit)).take (n * limit) := by
  have hl : (List.range q).flatMap (fun p => page limit p (if p < q then l else l')) =
      (List.range q).flatMap (fun p => page limit p l) := by
    refine List.flatMap_congr fun p hp => ?_
    rw [if_pos (List.mem_range.mp hp)]
  have hl' : (List.range n).flatMap (fun p => page limit (q + p) (if q + p < q then l else l')) =
      (List.range n).flatMap (fun p => page limit p (l'.drop (q * limit))) := by
    refine List.flatMap_congr fun p _ => ?_
    rw [if_neg (by omega), page_add]
  rw [List.range_add, List.flatMap_append, List.flatMap_map, hl, hl', flatMap_page, flatMap_page]

end

/-! ## Going on from a key -/

section
variable {α κ : Type} [LinearOrder κ] {key : α → κ} {l : List α} {m : Nat}

/-- Where the keys increase, the key at a place selects what is there and behind. -/
theorem filter_le_key (hl : l.Pairwise fun a b => key a < key b) (hm : m < l.length) :
    l.filter (fun a => decide (key l[m] ≤ key a)) = l.drop m := by
  have hsplit : l.take m ++ l[m] :: l.drop (m + 1) = l := by
    rw [← List.drop_eq_getElem_cons hm, List.take_append_drop]
  have hpw := hl
  rw [← hsplit, List.pairwise_append, List.pairwise_cons] at hpw
  obtain ⟨-, ⟨hafter, -⟩, hbefore⟩ := hpw
  have hnone : (l.take m).filter (fun a => decide (key l[m] ≤ key a)) = [] := by
    refine List.filter_eq_nil_iff.mpr fun a ha => ?_
    have hlt := hbefore a ha l[m] List.mem_cons_self
    simpa using hlt
  have hall : (l.drop m).filter (fun a => decide (key l[m] ≤ key a)) = l.drop m := by
    refine List.filter_eq_self.mpr fun a ha => ?_
    rw [List.drop_eq_getElem_cons hm] at ha
    rcases List.mem_cons.mp ha with rfl | ha
    · simp
    · simpa using (hafter a ha).le
  calc l.filter (fun a => decide (key l[m] ≤ key a))
      = (l.take m ++ l.drop m).filter (fun a => decide (key l[m] ≤ key a)) := by rw [List.take_append_drop]
    _ = l.drop m := by rw [List.filter_append, hnone, hall, List.nil_append]

end

section
variable {α κ : Type} [LinearOrder κ] {key : α → κ} {l l' l₁ l₂ : List α} {x y : α} {m : Nat}

/-! ## A cut through a class -/

/-- The place `m` separates two different elements of equal keys in some arrangement. -/
def Cut (key : α → κ) (l : List α) (m : Nat) : Prop :=
  ∃ x ∈ l, ∃ y ∈ l, x ≠ y ∧ key x = key y ∧ below key l (key x) < m ∧ m < upTo key l (key x)

theorem Arranged.of_keys (h : Arranged key l l₁) (hp : l₂.Perm l₁)
    (hk : l₂.map key = l₁.map key) : Arranged key l l₂ where
  perm := hp.trans h.perm
  sorted := by
    have hs : (l₁.map key).Pairwise (· ≤ ·) := List.pairwise_map.mpr h.sorted
    rw [← hk] at hs
    exact List.pairwise_map.mp hs

section
variable [DecidableEq α]

theorem Arranged.count_take (h : Arranged key l l') (m : Nat) (a : α) :
    (l'.take m).count a = ((l'.filter (key · = key a)).take (m - below key l (key a))).count a := by
  have hlt : ((l'.filter (key · < key a)).take m).count a = 0 := by
    refine List.count_eq_zero.mpr fun ha => ?_
    have hf := List.mem_filter.mp (List.mem_of_mem_take ha)
    simp at hf
  have hgt : ∀ j, ((l'.filter (key a < key ·)).take j).count a = 0 := by
    intro j
    refine List.count_eq_zero.mpr fun ha => ?_
    have hf := List.mem_filter.mp (List.mem_of_mem_take ha)
    simp at hf
  conv_lhs => rw [h.split (key a)]
  rw [List.take_append, List.take_append, List.count_append, List.count_append, hlt, hgt,
    h.length_below, Nat.zero_add, Nat.add_zero]

/-- Where no class is cut, every arrangement has the same elements before the place. -/
theorem Arranged.take_perm (h₁ : Arranged key l l₁) (h₂ : Arranged key l l₂)
    (hm : ¬ Cut key l m) : (l₁.take m).Perm (l₂.take m) := by
  rw [List.perm_iff_count]
  intro a
  rw [h₁.count_take, h₂.count_take]
  have hlen : ∀ {l'}, Arranged key l l' →
      (l'.filter (key · = key a)).length + below key l (key a) = upTo key l (key a) := by
    intro l' h
    rw [upTo_eq, (h.perm.filter _).length_eq, Nat.add_comm]
  have hcount : ∀ {l'}, Arranged key l l' → (l'.filter (key · = key a)).count a = l.count a := by
    intro l' h
    rw [List.count_filter (by simp), h.perm.count_eq]
  by_cases hlow : m ≤ below key l (key a)
  · rw [Nat.sub_eq_zero_of_le hlow, List.take_zero, List.take_zero]
  by_cases hhigh : upTo key l (key a) ≤ m
  · have hl₁ := hlen h₁
    have hl₂ := hlen h₂
    rw [List.take_of_length_le (by omega), List.take_of_length_le (by omega), hcount h₁, hcount h₂]
  · -- the place is inside the class, so its elements are all the same
    by_cases ha : a ∈ l
    · have hsame : ∀ b ∈ l, key b = key a → b = a := by
        intro b hb hk
        by_contra hne
        exact hm ⟨a, ha, b, hb, Ne.symm hne, hk.symm, by omega, by omega⟩
      rw [h₁.filter_eq hsame, h₂.filter_eq hsame]
    · have hno : ∀ {l'}, Arranged key l l' → ∀ j,
          ((l'.filter (key · = key a)).take j).count a = 0 := by
        intro l' h j
        refine List.count_eq_zero.mpr fun hmem => ?_
        exact ha (h.perm.subset (List.mem_filter.mp (List.mem_of_mem_take hmem)).1)
      rw [hno h₁, hno h₂]

theorem Cut.exists_arranged (h : Cut key l m) :
    ∃ x y l₁ l₂, x ≠ y ∧ Arranged key l (l₁ ++ x :: y :: l₂) ∧
      Arranged key l (l₁ ++ y :: x :: l₂) ∧ l₁.length + 1 = m := by
  obtain ⟨x, hx, y, hy, hne, hk, hlow, hhigh⟩ := h
  let rest := ((l.filter (key · = key x)).erase x).erase y
  have hxc : x ∈ l.filter (key · = key x) := by simpa using hx
  have hyc : y ∈ (l.filter (key · = key x)).erase x :=
    (List.mem_erase_of_ne hne.symm).mpr (by simpa [hk] using hy)
  have hclass : (x :: y :: rest).Perm (l.filter (key · = key x)) :=
    (((List.perm_cons_erase hyc).cons x).symm).trans (List.perm_cons_erase hxc).symm
  let j := m - 1 - below key l (key x)
  have hc : (rest.take j ++ x :: y :: rest.drop j).Perm (l.filter (key · = key x)) := by
    refine List.Perm.trans ?_ hclass
    refine List.perm_middle.trans (List.Perm.cons x ?_)
    refine List.perm_middle.trans (List.Perm.cons y ?_)
    rw [List.take_append_drop]
  obtain ⟨l', ha, hf⟩ := exists_arranged_class hc
  have hs := ha.split (key x)
  have hbelow := ha.length_below (key x)
  rw [hf, List.append_assoc, List.cons_append, List.cons_append, ← List.append_assoc] at hs
  rw [hs] at ha
  refine ⟨x, y, _, _, hne, ha, ha.of_keys ?_ ?_, ?_⟩
  · exact (List.Perm.swap x y _).append_left _
  · simp [hk]
  · have hlen := hclass.length_eq
    rw [List.length_cons, List.length_cons] at hlen
    have hup := upTo_eq key l (key x)
    rw [List.length_append, hbelow, List.length_take]
    omega

/-! ## The pages together -/

theorem Arranged.page_perm {limit p : Nat} (h₁ : Arranged key l l₁) (h₂ : Arranged key l l₂)
    (hm : ∀ q, ¬ Cut key l (q * limit)) : (page limit p l₁).Perm (page limit p l₂) := by
  have hp := h₁.take_perm h₂ (hm p)
  have hs := h₁.take_perm h₂ (hm (p + 1))
  rw [Nat.succ_mul, List.take_add, List.take_add] at hs
  exact (List.perm_append_left_iff _).mp (hs.trans (hp.symm.append_right _))

theorem perm_flatMap_page {limit n : Nat} (hn : l.length ≤ n * limit)
    (hm : ∀ q, ¬ Cut key l (q * limit)) {ls : Nat → List α} (hls : ∀ p, Arranged key l (ls p)) :
    ((List.range n).flatMap fun p => page limit p (ls p)).Perm l := by
  have hfirst : ((List.range n).flatMap fun p => page limit p (ls p)).Perm
      ((List.range n).flatMap fun p => page limit p (ls 0)) :=
    List.Perm.flatMap_left _ fun p _ => (hls p).page_perm (hls 0) hm
  rw [flatMap_page, List.take_of_length_le (by rwa [(hls 0).perm.length_eq])] at hfirst
  exact hfirst.trans (hls 0).perm

/-- Pages of two arrangements, cut where they differ, have an element twice. -/
theorem Cut.not_perm {q n limit : Nat} (h : Cut key l (q * limit)) (hn : l.length ≤ n * limit) :
    ∃ ls : Nat → List α, (∀ p, Arranged key l (ls p)) ∧
      ¬ ((List.range n).flatMap fun p => page limit p (ls p)).Perm l := by
  have hq : q < n := by
    obtain ⟨_, _, _, _, _, _, _, hhigh⟩ := h
    have hle : q * limit < n * limit := (hhigh.trans_le List.countP_le_length).trans_le hn
    exact Nat.lt_of_mul_lt_mul_right hle
  obtain ⟨x, y, l₁, l₂, hne, hx, hy, hlen⟩ := h.exists_arranged
  refine ⟨fun p => if p < q then l₁ ++ x :: y :: l₂ else l₁ ++ y :: x :: l₂, fun p => ?_, ?_⟩
  · dsimp only
    split
    · exact hx
    · exact hy
  · intro hp
    obtain ⟨k, rfl⟩ : ∃ k, n = q + k := ⟨n - q, by omega⟩
    have htake : (l₁ ++ x :: y :: l₂).take (q * limit) = l₁ ++ [x] := by
      rw [← hlen, List.take_append, List.take_of_length_le (by omega)]
      simp
    have hdrop : (l₁ ++ y :: x :: l₂).drop (q * limit) = x :: l₂ := by
      rw [← hlen, List.drop_append, List.drop_eq_nil_of_le (by omega)]
      simp
    have hlen₂ : (x :: l₂).length ≤ k * limit := by
      rw [← hx.perm.length_eq, Nat.add_mul, List.length_append] at hn
      simp only [List.length_cons] at hn ⊢
      omega
    rw [flatMap_page_two, htake, hdrop, List.take_of_length_le hlen₂, List.append_assoc,
      List.singleton_append] at hp
    have htwice := (hp.trans hx.perm.symm).count_eq x
    simp [hne.symm] at htwice

/-- Pages of any arrangements, one for each page, hold each element once exactly if no
page ends inside a class of different elements. -/
theorem perm_flatMap_page_iff {limit n : Nat} (hn : l.length ≤ n * limit) :
    (∀ ls : Nat → List α, (∀ p, Arranged key l (ls p)) →
      ((List.range n).flatMap fun p => page limit p (ls p)).Perm l) ↔
    ∀ q, ¬ Cut key l (q * limit) := by
  constructor
  · intro h q hq
    obtain ⟨ls, hls, hno⟩ := hq.not_perm hn
    exact hno (h ls hls)
  · intro hm ls hls
    exact perm_flatMap_page hn hm hls

end

end

end Lib
