import Mathlib.Data.List.Count
import Mathlib.Data.List.Dedup
import Mathlib.Data.List.Perm.Basic
import Mathlib.Tactic.Common

/-!
# Generated lists

A list of items without duplicates, and what a function generates for each of
them. When items are added, the generated list can be extended by what the new
items generate instead of being generated again; `removed_iff` says when taking
that away again gives back the old list.
-/

namespace Lib

section
variable {α β : Type*} [DecidableEq α] [DecidableEq β] {f : α → List β}

theorem nodup_eraseDups (l : List α) : l.eraseDups.Nodup := by
  induction hn : l.length using Nat.strongRecOn generalizing l with
  | _ n ih =>
    cases l with
    | nil => simp
    | cons a l =>
      rw [List.eraseDups_cons, List.nodup_cons]
      constructor
      · simp [List.mem_eraseDups]
      · refine ih (l.filter fun b => !b == a).length ?_ _ rfl
        have hle := List.length_filter_le (fun b => !b == a) l
        simp only [List.length_cons] at hn
        omega

theorem count_flatMap_of_marks {x : β} {e : α} {l : List α}
    (h : ∀ a ∈ l, (f a).count x = if a = e then 1 else 0) : (l.flatMap f).count x = l.count e := by
  induction l with
  | nil => rfl
  | cons a l ih =>
    rw [List.flatMap_cons, List.count_append, h a List.mem_cons_self,
      ih fun b hb => h b (List.mem_cons_of_mem _ hb), List.count_cons]
    by_cases ha : a = e
    · simp [ha, Nat.add_comm]
    · simp [ha]

/-- `full` has the items of `old` and those of `made`. -/
structure Grows (full old made : List α) : Prop where
  fullNodup : full.Nodup
  oldNodup : old.Nodup
  madeNodup : made.Nodup
  mem : ∀ a, a ∈ full ↔ a ∈ old ∨ a ∈ made

variable {full old made added : List α}

theorem Grows.perm (h : Grows full old made) : full.Perm (old ++ made.filter fun a => a ∉ old) := by
  refine (List.perm_ext_iff_of_nodup h.fullNodup ?_).mpr fun a => ?_
  · rw [List.nodup_append']
    refine ⟨h.oldNodup, h.madeNodup.filter _, fun a ha hb => ?_⟩
    simp only [List.mem_filter, decide_eq_true_eq] at hb
    exact hb.2 ha
  · rw [h.mem, List.mem_append, List.mem_filter]
    by_cases ha : a ∈ old <;> simp [ha]

theorem Grows.count (h : Grows full old made) (b : β) :
    (full.flatMap f).count b =
      (old.flatMap f).count b + ((made.filter fun a => a ∉ old).flatMap f).count b := by
  rw [(h.perm.flatMap_right f).count_eq, List.flatMap_append, List.count_append]

/-- Every new item is added, and only new ones are. -/
def AddsNew (old made added : List α) : Prop :=
  (∀ e ∈ made, e ∉ old → e ∈ added) ∧ ∀ e ∈ added, e ∉ old

theorem AddsNew.perm (h : Grows full old made) (hadd : added.Nodup) (hsub : added ⊆ made)
    (hnew : AddsNew old made added) : full.Perm (old ++ added) := by
  refine h.perm.trans (List.Perm.append_left old ?_)
  refine (List.perm_ext_iff_of_nodup (h.madeNodup.filter _) hadd).mpr fun a => ?_
  rw [List.mem_filter, decide_eq_true_eq]
  exact ⟨fun ha => hnew.1 a ha.1 ha.2, fun ha => ⟨hsub ha, hnew.2 a ha⟩⟩

/-- Where every item to be made has a mark of its own, taking the added items
away leaves the old ones just when all new items were added and nothing else. -/
theorem removed_iff (h : Grows full old made) (hadd : added.Nodup) (hsub : added ⊆ made)
    {x : α → β} (hx : ∀ e ∈ made, ∀ a ∈ made, (f a).count (x e) = if a = e then 1 else 0) :
    (∀ b, (full.flatMap f).count b - (added.flatMap f).count b = (old.flatMap f).count b) ↔
      AddsNew old made added := by
  constructor
  · intro hc
    have hmark {l : List α} (hl : l.Nodup) (hlm : l ⊆ made) {e : α} (he : e ∈ made) :
        (l.flatMap f).count (x e) = if e ∈ l then 1 else 0 := by
      rw [count_flatMap_of_marks fun a ha => hx e he a (hlm ha)]
      exact hl.count
    have hnew : (made.filter fun a => a ∉ old).Nodup := h.madeNodup.filter _
    have hnewsub : (made.filter fun a => a ∉ old) ⊆ made := fun a ha => List.mem_of_mem_filter ha
    constructor
    · intro e he hold
      by_contra hne
      have hce := hc (x e)
      rw [h.count, hmark hnew hnewsub he, hmark hadd hsub he, if_neg hne,
        if_pos (List.mem_filter.mpr ⟨he, by simpa using hold⟩)] at hce
      omega
    · intro e hea hold
      have he := hsub hea
      have hpos : 0 < (old.flatMap f).count (x e) := by
        refine List.count_pos_iff.mpr (List.mem_flatMap.mpr ⟨e, hold, ?_⟩)
        refine List.count_pos_iff.mp ?_
        rw [hx e he e he, if_pos rfl]
        exact Nat.one_pos
      have hce := hc (x e)
      rw [h.count, hmark hnew hnewsub he, hmark hadd hsub he, if_pos hea,
        if_neg fun hm => by simp [hold] at hm] at hce
      omega
  · intro hnew b
    have hp := (hnew.perm h hadd hsub).flatMap_right f
    rw [hp.count_eq, List.flatMap_append, List.count_append]
    omega

end

end Lib
