import Mathlib.Data.List.AList
import Mathlib.Tactic.Common

/-!
# Hashes

Finite maps from keys to values, with the operations that rewrite or drop
values in place. Each is known by what a key finds afterwards.
-/

namespace Lib

abbrev Hash (κ ν : Type) := AList fun _ : κ => ν

namespace Hash

section
variable {κ ν μ : Type} [DecidableEq κ]

def values (h : Hash κ ν) : List ν := h.entries.map Sigma.snd

def mapVals (f : κ → ν → μ) (h : Hash κ ν) : Hash κ μ where
  entries := h.entries.map fun e => ⟨e.1, f e.1 e.2⟩
  nodupKeys := by
    have hk := h.nodupKeys
    unfold List.NodupKeys at hk ⊢
    have he : (h.entries.map fun e => (⟨e.1, f e.1 e.2⟩ : Sigma fun _ : κ => μ)).keys =
        h.entries.keys := by
      unfold List.keys
      rw [List.map_map]
      rfl
    rw [he]
    exact hk

/-- `delete_if`, with the condition for what stays. -/
def filterVals (p : κ → ν → Bool) (h : Hash κ ν) : Hash κ ν where
  entries := h.entries.filter fun e => p e.1 e.2
  nodupKeys := h.nodupKeys.sublist List.filter_sublist

def modify (k : κ) (f : ν → ν) (h : Hash κ ν) : Hash κ ν :=
  mapVals (fun x v => if x = k then f v else v) h

def isEmpty (h : Hash κ ν) : Bool := h.entries.isEmpty

theorem lookup_mapVals (f : κ → ν → μ) (h : Hash κ ν) (k : κ) :
    (mapVals f h).lookup k = (h.lookup k).map (f k) := by
  cases hk : h.lookup k with
  | none =>
    rw [Option.map_none, AList.lookup_eq_none, AList.mem_keys]
    rw [AList.lookup_eq_none, AList.mem_keys] at hk
    intro hmem
    apply hk
    unfold AList.keys mapVals List.keys at hmem
    rw [List.map_map] at hmem
    exact hmem
  | some v =>
    have hmem := AList.mem_lookup_iff.mp hk
    rw [Option.map_some]
    apply AList.mem_lookup_iff.mpr
    exact List.mem_map.mpr ⟨⟨k, v⟩, hmem, rfl⟩

theorem lookup_filterVals (p : κ → ν → Bool) (h : Hash κ ν) (k : κ) :
    (filterVals p h).lookup k = (h.lookup k).filter (p k) := by
  apply Option.ext
  intro v
  rw [Option.filter_eq_some_iff]
  show v ∈ (filterVals p h).lookup k ↔ v ∈ h.lookup k ∧ _
  rw [AList.mem_lookup_iff, AList.mem_lookup_iff]
  exact List.mem_filter

theorem lookup_modify (j : κ) (f : ν → ν) (h : Hash κ ν) (k : κ) :
    (modify j f h).lookup k = if k = j then (h.lookup k).map f else h.lookup k := by
  rw [modify, lookup_mapVals]
  by_cases hk : k = j
  · simp only [if_pos hk]
  · simp only [if_neg hk, Option.map_id']

theorem lookup_insert (j : κ) (v : ν) (h : Hash κ ν) (k : κ) :
    AList.lookup k (AList.insert j v h) = if k = j then some v else h.lookup k := by
  by_cases hk : k = j
  · rw [if_pos hk, hk]
    exact AList.lookup_insert h
  · rw [if_neg hk]
    exact AList.lookup_insert_ne hk

theorem lookup_erase (j : κ) (h : Hash κ ν) (k : κ) :
    AList.lookup k (AList.erase j h) = if k = j then none else h.lookup k := by
  by_cases hk : k = j
  · rw [if_pos hk, hk]
    exact AList.lookup_erase j h
  · rw [if_neg hk]
    exact AList.lookup_erase_ne hk

theorem isSome_lookup_modify (j : κ) (f : ν → ν) (h : Hash κ ν) (k : κ) :
    ((modify j f h).lookup k).isSome = (h.lookup k).isSome := by
  rw [lookup_modify]
  split
  · rw [Option.isSome_map]
  · rfl

theorem isSome_lookup_insert (j : κ) (x : ν) (h : Hash κ ν) (k : κ) :
    ((AList.insert j x h : Hash κ ν).lookup k).isSome = true ↔
      (h.lookup k).isSome = true ∨ k = j := by
  rw [lookup_insert]
  by_cases hk : k = j
  · simp [hk]
  · simp [hk]

theorem isSome_lookup_erase (j : κ) (h : Hash κ ν) (k : κ) :
    ((AList.erase j h : Hash κ ν).lookup k).isSome = true ↔
      (h.lookup k).isSome = true ∧ k ≠ j := by
  rw [lookup_erase]
  by_cases hk : k = j
  · simp [hk]
  · simp [hk]

/-- A key counts once. -/
theorem length_insert (k : κ) (v : ν) (h : Hash κ ν) : (AList.insert k v h).entries.length =
    if h.lookup k = none then h.entries.length + 1 else h.entries.length := by
  have hlen : ∀ h : Hash κ ν, h.entries.length = h.keys.length := fun h => (List.length_map ..).symm
  rw [hlen, hlen, AList.keys_insert, List.length_cons, List.length_erase]
  by_cases hk : k ∈ h.keys
  · have hne : h.lookup k ≠ none := by simpa [AList.lookup_eq_none, AList.mem_keys] using hk
    have hpos := List.length_pos_of_mem hk
    rw [if_pos hk, if_neg hne]
    omega
  · have hnone : h.lookup k = none := by simpa [AList.lookup_eq_none, AList.mem_keys] using hk
    rw [if_neg hk, if_pos hnone]

theorem mem_values {h : Hash κ ν} {v : ν} : v ∈ values h ↔ ∃ k, h.lookup k = some v := by
  constructor
  · intro hv
    obtain ⟨⟨k, w⟩, he, hw⟩ := List.mem_map.mp hv
    exact ⟨k, hw ▸ AList.mem_lookup_iff.mpr he⟩
  · intro ⟨k, hk⟩
    exact List.mem_map.mpr ⟨⟨k, v⟩, AList.mem_lookup_iff.mp hk, rfl⟩

theorem any_values {h : Hash κ ν} {p : ν → Bool} :
    (values h).any p = true ↔ ∃ k v, h.lookup k = some v ∧ p v = true := by
  rw [List.any_eq_true]
  constructor
  · rintro ⟨v, hm, hp⟩
    obtain ⟨k, hl⟩ := mem_values.mp hm
    exact ⟨k, v, hl, hp⟩
  · rintro ⟨k, v, hl, hp⟩
    exact ⟨v, mem_values.mpr ⟨k, hl⟩, hp⟩

theorem perm_of_lookup {h h' : Hash κ ν} (hk : ∀ k, h.lookup k = h'.lookup k) :
    h.entries.Perm h'.entries := by
  refine List.lookup_ext h.nodupKeys h'.nodupKeys fun k v => ?_
  show v ∈ h.lookup k ↔ v ∈ h'.lookup k
  rw [hk]

theorem isEmpty_iff {h : Hash κ ν} : isEmpty h = true ↔ ∀ k, h.lookup k = none := by
  unfold isEmpty
  rw [List.isEmpty_iff]
  constructor
  · intro he k
    rw [AList.lookup_eq_none, AList.mem_keys]
    unfold AList.keys
    rw [he]
    exact List.not_mem_nil
  · intro hk
    apply List.eq_nil_iff_forall_not_mem.mpr
    intro e he
    have hv : h.lookup e.1 = some e.2 := AList.mem_lookup_iff.mpr he
    rw [hk e.1] at hv
    cases hv

end

/-! ## What the values hold together -/

section
variable {κ ν α : Type} [DecidableEq κ] {F : ν → List α} {h : Hash κ ν} {k : κ} {a : α}

def Others (F : ν → List α) (h : Hash κ ν) (k : κ) (a : α) : Prop :=
  ∃ j ≠ k, ∃ w, h.lookup j = some w ∧ a ∈ F w

theorem mem_all : a ∈ (values h).flatMap F ↔ ∃ j w, h.lookup j = some w ∧ a ∈ F w := by
  simp only [List.mem_flatMap, mem_values]
  constructor
  · rintro ⟨w, ⟨j, hj⟩, ha⟩
    exact ⟨j, w, hj, ha⟩
  · rintro ⟨j, w, hj, ha⟩
    exact ⟨w, ⟨j, hj⟩, ha⟩

theorem mem_all_of_lookup {v : ν} (hk : h.lookup k = some v) :
    a ∈ (values h).flatMap F ↔ a ∈ F v ∨ Others F h k a := by
  rw [mem_all]
  constructor
  · rintro ⟨j, w, hj, ha⟩
    by_cases hjk : j = k
    · subst hjk
      rw [hk] at hj
      cases hj
      exact .inl ha
    · exact .inr ⟨j, hjk, w, hj, ha⟩
  · rintro (ha | ⟨j, -, w, hj, ha⟩)
    · exact ⟨k, v, hk, ha⟩
    · exact ⟨j, w, hj, ha⟩

theorem mem_all_of_not_lookup (hk : h.lookup k = none) :
    a ∈ (values h).flatMap F ↔ Others F h k a := by
  rw [mem_all]
  constructor
  · rintro ⟨j, w, hj, ha⟩
    refine ⟨j, ?_, w, hj, ha⟩
    rintro rfl
    rw [hk] at hj
    cases hj
  · rintro ⟨j, -, w, hj, ha⟩
    exact ⟨j, w, hj, ha⟩

theorem others_congr {h' : Hash κ ν} (he : ∀ j ≠ k, h'.lookup j = h.lookup j) :
    Others F h' k a ↔ Others F h k a := by
  refine exists_congr fun j => and_congr_right fun hj => ?_
  rw [he j hj]

theorem mem_all_modify {v : ν} (hk : h.lookup k = some v) (g : ν → ν) :
    a ∈ (values (modify k g h)).flatMap F ↔ a ∈ F (g v) ∨ Others F h k a := by
  have hk' : (modify k g h).lookup k = some (g v) := by
    rw [lookup_modify, hk]
    simp
  rw [mem_all_of_lookup hk', others_congr]
  intro j hj
  rw [lookup_modify]
  simp [hj]

theorem mem_all_modify_of_not_lookup (hk : h.lookup k = none) (g : ν → ν) :
    a ∈ (values (modify k g h)).flatMap F ↔ a ∈ (values h).flatMap F := by
  have hk' : (modify k g h).lookup k = none := by
    rw [lookup_modify, hk]
    simp
  rw [mem_all_of_not_lookup hk', mem_all_of_not_lookup hk, others_congr]
  intro j hj
  rw [lookup_modify]
  simp [hj]

theorem mem_all_insert (v : ν) (hk : h.lookup k = none) :
    a ∈ (values (h.insert k v)).flatMap F ↔ a ∈ F v ∨ a ∈ (values h).flatMap F := by
  have hk' : (h.insert k v).lookup k = some v := AList.lookup_insert h
  rw [mem_all_of_lookup hk', mem_all_of_not_lookup hk, others_congr]
  exact fun j hj => AList.lookup_insert_ne hj

theorem mem_all_erase : a ∈ (values (h.erase k)).flatMap F ↔ Others F h k a := by
  have hk : (h.erase k).lookup k = none := by rw [lookup_erase, if_pos rfl]
  rw [mem_all_of_not_lookup hk, others_congr]
  exact fun j hj => AList.lookup_erase_ne hj

end

/-! ## Values that are told apart -/

section
variable {κ ν α : Type} [DecidableEq κ] {f : ν → α} {h : Hash κ ν} {k : κ} {v : ν}

theorem nodup_map_values : (h.values.map f).Nodup ↔
    ∀ i j v w, h.lookup i = some v → h.lookup j = some w → f v = f w → i = j := by
  unfold values
  rw [List.map_map, List.nodup_map_iff_inj_on h.nodupKeys.nodup]
  constructor
  · intro hn i j v w hi hj he
    have := hn ⟨i, v⟩ (AList.mem_lookup_iff.mp hi) ⟨j, w⟩ (AList.mem_lookup_iff.mp hj) he
    exact congrArg Sigma.fst this
  · intro hn x hx y hy he
    have hx' := AList.mem_lookup_iff.mpr hx
    have hy' := AList.mem_lookup_iff.mpr hy
    have hk := hn x.1 y.1 x.2 y.2 hx' hy' he
    obtain ⟨i, v⟩ := x
    obtain ⟨j, w⟩ := y
    subst hk
    rw [hx'] at hy'
    cases hy'
    rfl

theorem nodup_map_values_erase (hn : (h.values.map f).Nodup) : ((values (h.erase k)).map f).Nodup := by
  rw [nodup_map_values] at hn ⊢
  have hle : ∀ i v, (h.erase k : Hash κ ν).lookup i = some v → h.lookup i = some v := by
    intro i v hi
    rw [lookup_erase] at hi
    split at hi
    · cases hi
    · exact hi
  intro i j v w hi hj
  exact hn i j v w (hle i v hi) (hle j w hj)

/-- A key that is written stays apart when its value is told from those of all the others. -/
theorem nodup_map_values_insert (hn : (h.values.map f).Nodup) :
    ((values (h.insert k v)).map f).Nodup ↔
      ∀ j ≠ k, ∀ w, h.lookup j = some w → f w ≠ f v := by
  rw [nodup_map_values] at hn ⊢
  constructor
  · intro hi j hj w hw he
    refine hj (hi j k w v ?_ ?_ he)
    · rw [lookup_insert, if_neg hj]
      exact hw
    · rw [lookup_insert, if_pos rfl]
  · intro hf i j x y hx hy he
    rw [lookup_insert] at hx hy
    by_cases hik : i = k
    · by_cases hjk : j = k
      · rw [hik, hjk]
      · rw [if_pos hik] at hx
        rw [if_neg hjk] at hy
        cases hx
        exact absurd he.symm (hf j hjk y hy)
    · rw [if_neg hik] at hx
      by_cases hjk : j = k
      · rw [if_pos hjk] at hy
        cases hy
        exact absurd he (hf i hik x hx)
      · rw [if_neg hjk] at hy
        exact hn i j x y hx hy he

end

end Hash

end Lib
