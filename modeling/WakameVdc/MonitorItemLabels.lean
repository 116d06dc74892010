import WakameVdc.MonitorItem

/-!
# The labels of monitoring items

How the names of the labels are told apart, by the split at their dots, by the patterns and
by the collation of the database, and what the labels of items are read back as.
-/

namespace WakameVdc

open Lib
open ResourceLabel (Bytes Engine LabelRow ResourceLabels)

namespace MonitorItem

variable {P : Type} {e : Engine} {i : Instance} {j : MultiJson P}

/-! ## Names -/

theorem not_mem_text (key : Key) : '.' ∉ key.text := by cases key <;> decide

theorem text_injective {key key' : Key} (h : key.text = key'.text) : key = key' := by
  revert h
  cases key <;> cases key' <;> decide

theorem isLiteral_head : ∀ c ∈ head, isLiteral c = true := List.all_eq_true.mp (by decide)

theorem of_mem_imonUuid {n : Nat} {c : Char} (h : c ∈ imonUuid i n) : c = '-' ∨ Text.isWord c = true := by
  unfold imonUuid at h
  rw [List.mem_append, List.mem_append] at h
  rcases h with h | h | h
  · have hhead : "imon-".toList.all (fun c => c == '-' || Text.isWord c) = true := by decide
    simpa using List.all_eq_true.mp hhead c h
  · exact .inr (i.word c h)
  · have hd := Text.isDigit_of_mem_ofNat h
    exact .inr (by simp [Text.isWord, Char.isAlphanum, hd])

theorem not_mem_imonUuid (n : Nat) : '.' ∉ imonUuid i n ∧ '\\' ∉ imonUuid i n := by
  constructor
  · intro h
    rcases of_mem_imonUuid h with h | h <;> exact absurd h (by decide)
  · intro h
    rcases of_mem_imonUuid h with h | h <;> exact absurd h (by decide)

theorem imonUuid_injective {n n' : Nat} (h : imonUuid i n = imonUuid i n') : n = n' :=
  Text.ofNat_injective (List.append_cancel_left (List.append_cancel_left h))

theorem itemName_inj {u u' : Text} {key key' : Key} (hu : '.' ∉ u) (hu' : '.' ∉ u')
    (h : itemName u key = itemName u' key') : u = u' ∧ key = key' := by
  have hsplit := congrArg (Text.splitMax '.' 1) (List.append_cancel_left h)
  rw [Text.splitMax_append hu, Text.splitMax_append hu'] at hsplit
  obtain ⟨hu, hkey⟩ := List.cons.inj hsplit
  exact ⟨hu, text_injective (List.cons.inj hkey).1⟩

theorem splitMax_itemName {u : Text} (hu : '.' ∉ u) (key : Key) :
    Text.splitMax '.' 3 (itemName u key) = ["monitoring".toList, "items".toList, u, key.text] := by
  show Text.splitMax '.' 3 ("monitoring".toList ++ '.' :: ("items".toList ++ '.' :: (u ++ '.' :: key.text))) = _
  rw [Text.splitMax_append (by decide), Text.splitMax_append (by decide), Text.splitMax_append hu]
  rfl

/-! ## Patterns -/

theorem prefix_of_like {p s : Text} (h : like (head ++ p) s = true) : head <+: s := by
  obtain ⟨rest, rfl, -⟩ := (like_append isLiteral_head).mp h
  exact List.prefix_append head rest

theorem beginsAlike_of_starts {s : Text} (h : head <+: s) : e.beginsAlike head s = true := by
  obtain ⟨rest, rfl⟩ := h
  simp [Engine.beginsAlike]

theorem like_itemPattern_self {u : Text} (hu : '\\' ∉ u) (key : Key) :
    like (itemPattern u) (itemName u key) = true := by
  unfold itemPattern itemName
  refine (like_append isLiteral_head).mpr ⟨_, rfl, ?_⟩
  refine like_append_self (fun c hc heq => hu (heq ▸ hc)) ?_
  show like (['.'] ++ ['%']) ('.' :: key.text) = true
  exact (like_prefix_iff (List.all_eq_true.mp (by decide))).mpr ⟨key.text, rfl⟩

/-- A uuid without a sign of a pattern is apart from every other. -/
theorem apart_of_isLiteral {items : Items P} {uuid : Text} (h : ∀ c ∈ uuid, isLiteral c = true)
    (hdot : ∀ u, items u ≠ none → '.' ∉ u) : State.Apart items uuid := by
  intro u hu hne key
  by_contra hlike
  rw [Bool.not_eq_false] at hlike
  have hpattern : itemPattern uuid = (head ++ (uuid ++ ['.'])) ++ ['%'] := by
    simp [itemPattern]
  have hliteral : ∀ c ∈ head ++ (uuid ++ ['.']), isLiteral c = true := by
    intro c hc
    rw [List.mem_append, List.mem_append, List.mem_singleton] at hc
    rcases hc with hc | hc | rfl
    · exact isLiteral_head c hc
    · exact h c hc
    · decide
  rw [hpattern, like_prefix_iff hliteral] at hlike
  obtain ⟨rest, hrest⟩ := hlike
  rw [List.append_assoc] at hrest
  have htext : uuid ++ '.' :: rest = u ++ '.' :: key.text := by
    have := List.append_cancel_left hrest
    simpa using this
  by_cases hd : '.' ∈ uuid
  · have hcount := congrArg (List.count '.') htext
    have hkey := List.count_eq_zero_of_not_mem (not_mem_text key)
    have hu := List.count_eq_zero_of_not_mem (hdot u hu)
    have hpos := List.count_pos_iff.mpr hd
    simp only [List.count_append, List.count_cons_self] at hcount
    omega
  · have hsplit := congrArg (Text.splitMax '.' 1) htext
    rw [Text.splitMax_append hd, Text.splitMax_append (hdot u hu)] at hsplit
    exact hne (List.cons.inj hsplit).1.symm

/-! ## Reading labels -/

def Item.value (j : MultiJson P) (item : Item P) : Key → Bytes
  | .title => item.title
  | .enabled => enabledText item.enabled
  | .params => j.dump item.params

def Item.field (item : Item P) : Key → Field P
  | .title => .text (some item.title)
  | .enabled => .enabled item.enabled
  | .params => .params item.params

theorem readValue_value (item : Item P) (key : Key) :
    readValue j key.text (some (item.value j key)) = some (item.field key) := by
  cases key with
  | title => rfl
  | enabled =>
    have hflag : decide (some (enabledText item.enabled) = some (ascii "true")) = item.enabled := by
      cases item.enabled <;> decide
    exact congrArg (fun b => some (Field.enabled b)) hflag
  | params =>
    show (j.load (j.dump item.params)).map Field.params = _
    rw [j.load_dump]
    rfl

theorem hash_text (item : Item P) (key : Key) : item.hash key.text = some (item.field key) := by
  cases key <;> rfl

theorem hashOf_of_ne {k : Text} (h : ∀ key : Key, k ≠ key.text) (b : Bool) (v : Option Bytes) (p : P) :
    hashOf b v p k = none := by
  unfold hashOf
  rw [if_neg (h .enabled), if_neg (h .title), if_neg (h .params)]

/-- A hash with the fields of an item under its keys, where nothing else was stored. -/
theorem eq_hash {h : Hash P} {item : Item P} (hkeys : ∀ key : Key, h key.text = item.hash key.text)
    (hrest : ∀ k, h k = item.hash k ∨ h k = hashOf false none j.empty k) : h = item.hash := by
  funext k
  by_cases hk : ∃ key : Key, k = key.text
  · obtain ⟨key, rfl⟩ := hk
    exact hkeys key
  · have hne : ∀ key : Key, k ≠ key.text := fun key heq => hk ⟨key, heq⟩
    rcases hrest k with h | h
    · exact h
    · rw [h, hashOf_of_ne hne]
      exact (hashOf_of_ne hne ..).symm

theorem readLabel_itemName {l : LabelRow} {u : Text} {key : Key} {item : Item P} (hu : '.' ∉ u)
    (hname : l.name = itemName u key) (hvalue : l.value = some (item.value j key)) :
    readLabel j l = some (u, key.text, item.field key) := by
  unfold readLabel
  rw [hname, splitMax_itemName hu]
  simp [hvalue, readValue_value]

theorem store_self (h : Hash P) (k : Text) (v : Field P) : h.store k v k = some v := Function.update_self ..

theorem store_of_ne (h : Hash P) {k k' : Text} (v : Field P) (hne : k' ≠ k) : h.store k v k' = h k' :=
  Function.update_of_ne hne ..

theorem foldlM_store (f : Hash P) (ls : List LabelRow)
    (hr : ∀ l ∈ ls, ∃ u k v, readLabel j l = some (u, k, v) ∧ f k = some v) (h : Hash P) :
    ∃ h' : Hash P,
      ls.foldlM (fun (h : Hash P) l => (readLabel j l).map fun r => h.store r.2.1 r.2.2) h = some h' ∧
      (∀ k, h' k = f k ∨ h' k = h k) ∧
      ∀ l ∈ ls, ∀ u k v, readLabel j l = some (u, k, v) → h' k = f k := by
  induction ls generalizing h with
  | nil => exact ⟨h, rfl, fun k => .inr rfl, by simp⟩
  | cons l ls ih =>
    obtain ⟨u, k, v, hread, hfk⟩ := hr l List.mem_cons_self
    obtain ⟨h', hfold, hrest, hkeys⟩ := ih (fun x hx => hr x (List.mem_cons_of_mem l hx)) (h.store k v)
    have hk : h' k = f k := by
      rcases hrest k with hk | hk
      · exact hk
      · rw [hk, store_self, hfk]
    refine ⟨h', ?_, fun k' => ?_, fun x hx u' k' v' hx' => ?_⟩
    · rw [List.foldlM_cons, hread]
      exact hfold
    · by_cases hkk : k' = k
      · exact .inl (hkk ▸ hk)
      · rw [← store_of_ne h v hkk]
        exact hrest k'
    · rcases List.mem_cons.mp hx with rfl | hx
      · rw [hread] at hx'
        cases hx'
        exact hk
      · exact hkeys x hx u' k' v' hx'

theorem foldlM_update (f : Text → Hash P) (ls : List LabelRow)
    (hr : ∀ l ∈ ls, ∃ u k v, readLabel j l = some (u, k, v) ∧ f u k = some v) (H : Text → Option (Hash P)) :
    ∃ H' : Text → Option (Hash P),
      ls.foldlM (fun (hlist : Text → Option (Hash P)) l => (readLabel j l).map fun r =>
        Function.update hlist r.1 (some (((hlist r.1).getD (hashOf false none j.empty)).store r.2.1 r.2.2))) H =
        some H' ∧
      (∀ u k, (H' u).getD (hashOf false none j.empty) k = f u k ∨
        (H' u).getD (hashOf false none j.empty) k = (H u).getD (hashOf false none j.empty) k) ∧
      (∀ l ∈ ls, ∀ u k v, readLabel j l = some (u, k, v) →
        (H' u).getD (hashOf false none j.empty) k = f u k) ∧
      ∀ u, H' u ≠ none ↔ H u ≠ none ∨ ∃ l ∈ ls, ∃ k v, readLabel j l = some (u, k, v) := by
  induction ls generalizing H with
  | nil => exact ⟨H, rfl, fun u k => .inr rfl, by simp, by simp⟩
  | cons l ls ih =>
    obtain ⟨u, k, v, hread, hfk⟩ := hr l List.mem_cons_self
    obtain ⟨H', hfold, hrest, hkeys, hsome⟩ := ih (fun x hx => hr x (List.mem_cons_of_mem l hx))
      (Function.update H u (some (((H u).getD (hashOf false none j.empty)).store k v)))
    have hk : (H' u).getD (hashOf false none j.empty) k = f u k := by
      rcases hrest u k with hk | hk
      · exact hk
      · rw [hk, Function.update_self, Option.getD_some, store_self, hfk]
    refine ⟨H', ?_, fun u' k' => ?_, fun x hx u' k' v' hx' => ?_, fun u' => ?_⟩
    · rw [List.foldlM_cons, hread]
      exact hfold
    · by_cases hu : u' = u
      · subst hu
        by_cases hkk : k' = k
        · exact .inl (hkk ▸ hk)
        · rcases hrest u' k' with h | h
          · exact .inl h
          · rw [Function.update_self, Option.getD_some, store_of_ne _ v hkk] at h
            exact .inr h
      · have h := hrest u' k'
        rwa [Function.update_of_ne hu] at h
    · rcases List.mem_cons.mp hx with rfl | hx
      · rw [hread] at hx'
        cases hx'
        exact hk
      · exact hkeys x hx u' k' v' hx'
    · rw [hsome]
      by_cases hu : u' = u
      · subst hu
        simp [hread]
      · rw [Function.update_of_ne hu]
        simp [hread, Ne.symm hu]

/-! ## What the database takes for the same -/

/-- The collation tells small letters and digits apart. -/
def TellsApart (e : Engine) : Prop :=
  ∀ a b : Char, (a.isLower || a.isDigit) = true → (b.isLower || b.isDigit) = true →
    e.weight a = e.weight b → a = b

def Key.first : Key → Text
  | .title => "titl".toList
  | .enabled => "enable".toList
  | .params => "param".toList

def Key.last : Key → Char
  | .title => 'e'
  | .enabled => 'd'
  | .params => 's'

theorem itemName_eq (u : Text) (key : Key) :
    itemName u key = (head ++ (u ++ '.' :: key.first)) ++ [key.last] := by
  have htext : key.text = key.first ++ [key.last] := by cases key <;> rfl
  unfold itemName
  rw [htext]
  simp only [List.append_assoc, List.cons_append]

theorem collate_itemName (u : Text) (key : Key) : e.collate (itemName u key) = (itemName u key).map e.weight := by
  unfold Engine.collate
  rw [itemName_eq, List.rdropWhile_concat_neg]
  cases key <;> decide

theorem eq_of_map_weight (hw : TellsApart e) {a b : Text} (ha : ∀ c ∈ a, c.isDigit = true)
    (hb : ∀ c ∈ b, c.isDigit = true) (h : a.map e.weight = b.map e.weight) : a = b := by
  induction a generalizing b with
  | nil => exact (List.map_eq_nil_iff.mp h.symm).symm
  | cons c a ih =>
    cases b with
    | nil => cases h
    | cons d b =>
      obtain ⟨hcd, hrest⟩ := List.cons.inj h
      rw [hw c d (by simp [ha c]) (by simp [hb d]) hcd,
        ih (fun x hx => ha x (by simp [hx])) (fun x hx => hb x (by simp [hx])) hrest]

theorem eq_of_collate (hw : TellsApart e) {n n' : Nat} {key key' : Key}
    (h : e.collate (itemName (imonUuid i n) key) = e.collate (itemName (imonUuid i n') key')) :
    n = n' ∧ key = key' := by
  rw [collate_itemName, collate_itemName] at h
  have hkey : key = key' := by
    have hlast := h
    rw [itemName_eq, itemName_eq] at hlast
    obtain ⟨-, hsame⟩ := List.append_inj' (List.map_append.symm.trans (hlast.trans List.map_append)) rfl
    have hweight : e.weight key.last = e.weight key'.last := (List.cons.inj hsame).1
    have heq := hw key.last key'.last (by cases key <;> decide) (by cases key' <;> decide) hweight
    revert heq
    cases key <;> cases key' <;> decide
  subst hkey
  refine ⟨?_, rfl⟩
  unfold itemName imonUuid at h
  simp only [List.map_append, List.append_assoc] at h
  have hdigits := List.append_cancel_right
    (List.append_cancel_left (List.append_cancel_left (List.append_cancel_left h)))
  exact Text.ofNat_injective (eq_of_map_weight hw (fun c hc => Text.isDigit_of_mem_ofNat hc)
    (fun c hc => Text.isDigit_of_mem_ofNat hc) hdigits)

theorem beginsAlike_of_collate {s u : Text} {key : Key} (h : e.collate s = e.collate (itemName u key)) :
    e.beginsAlike head s = true := by
  rw [collate_itemName] at h
  obtain ⟨blanks, hs⟩ := List.rdropWhile_prefix (p := (· = ' ')) (l := s)
  have hlen : head.length ≤ (s.rdropWhile (· = ' ')).length := by
    have hcongr := congrArg List.length h
    unfold Engine.collate itemName at hcongr
    rw [List.length_map, List.length_map, List.length_append] at hcongr
    omega
  unfold Engine.beginsAlike
  rw [beq_iff_eq, ← hs, List.take_append_of_le_length hlen, List.map_take]
  have hmap : (s.rdropWhile (· = ' ')).map e.weight =
      head.map e.weight ++ (u ++ '.' :: key.text).map e.weight := by
    rw [← List.map_append]
    exact h
  rw [hmap, List.take_left' (by simp)]

/-! ## Labels of the instance -/

/-- A label of the instance under `monitoring.items.` has the name of an item's label. -/
def Tidy (i : Instance) (t : ResourceLabels e) : Prop :=
  ∀ l ∈ t.table.rows, e.same l.resourceUuid i.canonicalUuid = true → e.beginsAlike head l.name = true →
    l.resourceUuid = i.canonicalUuid ∧ ∃ n key, l.name = itemName (imonUuid i n) key

variable {t t' : ResourceLabels e}

theorem told_of_tidy (hw : TellsApart e) (ht : Tidy i t) (n : Nat) (key : Key) :
    t.Told i.canonicalUuid (itemName (imonUuid i n) key) := by
  intro l hl hit
  obtain ⟨hu, hn⟩ := ResourceLabels.isOf_iff.mp hit
  obtain ⟨huuid, n', key', hname⟩ := ht l hl (beq_iff_eq.mpr hu) (beginsAlike_of_collate hn)
  rw [hname] at hn
  obtain ⟨rfl, rfl⟩ := eq_of_collate hw hn
  exact ⟨huuid, hname⟩

theorem tidy_of_wrote {n : Nat} {key : Key} {v : Bytes} (ht : Tidy i t)
    (h : t.Wrote i.canonicalUuid (itemName (imonUuid i n) key) v t') : Tidy i t' := by
  intro l hl hu hhead
  rcases h.fresh l hl with ⟨l₀, hl₀, -, huuid, hname⟩ | ⟨-, huuid, hname⟩
  · rw [← huuid, ← hname]
    exact ht l₀ hl₀ (huuid ▸ hu) (hname ▸ hhead)
  · exact ⟨huuid, n, key, hname⟩

theorem setLabel_item (hw : TellsApart e) (ht : Tidy i t) {n : Nat} {key : Key} {v : Bytes}
    (hf : ResourceLabels.Fits e i.canonicalUuid (itemName (imonUuid i n) key) v) :
    ∃ t', t.setLabel i.canonicalUuid (itemName (imonUuid i n) key) v = some t' ∧
      t.Wrote i.canonicalUuid (itemName (imonUuid i n) key) v t' ∧ Tidy i t' := by
  obtain ⟨t', hset, hwrote⟩ := ResourceLabels.setLabel_wrote (told_of_tidy hw ht n key) hf
  exact ⟨t', hset, hwrote, tidy_of_wrote ht hwrote⟩

theorem setBlobLabel_item (hw : TellsApart e) (ht : Tidy i t) {n : Nat} {key : Key} {v : Bytes}
    (hf : ResourceLabels.Fits e i.canonicalUuid (itemName (imonUuid i n) key) v) :
    ∃ t', t.setBlobLabel i.canonicalUuid (itemName (imonUuid i n) key) v = some t' ∧
      t.Wrote i.canonicalUuid (itemName (imonUuid i n) key) v t' ∧ Tidy i t' := by
  obtain ⟨t', hset, hwrote⟩ := ResourceLabels.setBlobLabel_wrote (told_of_tidy hw ht n key) hf
  exact ⟨t', hset, hwrote, tidy_of_wrote ht hwrote⟩

end MonitorItem

end WakameVdc
