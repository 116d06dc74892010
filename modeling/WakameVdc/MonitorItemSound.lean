import WakameVdc.MonitorItemLabels

/-!
# Monitoring items are kept apart

The labels of the items of an instance hold exactly the items that are added and not
deleted, as long as the uuid of each call goes into a pattern that takes no label of another
item.
-/

namespace WakameVdc

open Lib
open ResourceLabel (Bytes Engine LabelRow ResourceLabels)

namespace MonitorItem

variable {P : Type} {e : Engine} {i : Instance} {j : MultiJson P} {t t' t'' : ResourceLabels e}

/-! ## Writing labels of one item -/

/-- The table has the values under the names of the item's labels, everything else stays. -/
structure Put (i : Instance) (uuid : Text) (vs : Key → Option Bytes) (t t' : ResourceLabels e) : Prop where
  written : ∀ key v, vs key = some v → t'.held i.canonicalUuid (itemName uuid key) = some (some v)
  others : ∀ u n, (∀ key, vs key ≠ none → ¬ (u = i.canonicalUuid ∧ n = itemName uuid key)) →
    t'.held u n = t.held u n
  fresh : ∀ l ∈ t'.table.rows, (∃ l₀ ∈ t.table.rows, l₀.id = l.id ∧ l₀.resourceUuid = l.resourceUuid ∧
    l₀.name = l.name) ∨ t.table.next ≤ l.id ∧ l.resourceUuid = i.canonicalUuid ∧ ∃ key, l.name = itemName uuid key
  kept : ∀ l₀ ∈ t.table.rows, ∃ l ∈ t'.table.rows, l.id = l₀.id ∧ l.resourceUuid = l₀.resourceUuid ∧
    l.name = l₀.name
  next : t.table.next ≤ t'.table.next

def only (key : Key) (v : Option Bytes) : Key → Option Bytes := fun k => if k = key then v else none

section
variable {uuid : Text} {vs ws : Key → Option Bytes}

theorem put_refl (hvs : ∀ key, vs key = none) : Put i uuid vs t t where
  written key v h := by
    rw [hvs key] at h
    cases h
  others u n h := rfl
  fresh l hl := .inl ⟨l, hl, rfl, rfl, rfl⟩
  kept l hl := ⟨l, hl, rfl, rfl, rfl⟩
  next := Nat.le_refl _

theorem put_of_wrote {key : Key} {v : Bytes} (h : t.Wrote i.canonicalUuid (itemName uuid key) v t') :
    Put i uuid (only key (some v)) t t' where
  written k w hw := by
    unfold only at hw
    by_cases hk : k = key
    · rw [if_pos hk] at hw
      rw [h.held, if_pos ⟨rfl, by rw [hk]⟩, ← hw]
    · rw [if_neg hk] at hw
      cases hw
  others u n hne := by
    rw [h.held, if_neg (hne key (by simp [only]))]
  fresh l hl := by
    rcases h.fresh l hl with hold | ⟨hid, hu, hn⟩
    · exact .inl hold
    · exact .inr ⟨hid.ge, hu, key, hn⟩
  kept := h.kept
  next := h.next

theorem Put.trans (huuid : '.' ∉ uuid) (h : Put i uuid vs t t') (h' : Put i uuid ws t' t'') :
    Put i uuid (fun key => (ws key).or (vs key)) t t'' where
  written key v hv := by
    cases hws : ws key with
    | some w =>
      rw [hws, Option.some_or] at hv
      rw [h'.written key w hws, hv]
    | none =>
      rw [hws, Option.none_or] at hv
      rw [h'.others, h.written key v hv]
      rintro key' hkey' ⟨-, hname⟩
      obtain ⟨-, rfl⟩ := itemName_inj huuid huuid hname
      exact hkey' hws
  others u n hne := by
    rw [h'.others u n fun key hkey => hne key (by simp [Option.or_eq_none_iff, hkey]),
      h.others u n fun key hkey => hne key (by simp [Option.or_eq_none_iff, hkey])]
  fresh l hl := by
    rcases h'.fresh l hl with ⟨l₁, hl₁, hid₁, hu₁, hn₁⟩ | ⟨hid, hu, hn⟩
    · rw [← hid₁, ← hu₁, ← hn₁]
      exact h.fresh l₁ hl₁
    · exact .inr ⟨h.next.trans hid, hu, hn⟩
  kept l hl := by
    obtain ⟨l₁, hl₁, hid₁, hu₁, hn₁⟩ := h.kept l hl
    obtain ⟨l₂, hl₂, hid₂, hu₂, hn₂⟩ := h'.kept l₁ hl₁
    exact ⟨l₂, hl₂, hid₂.trans hid₁, hu₂.trans hu₁, hn₂.trans hn₁⟩
  next := h.next.trans h'.next

theorem setGiven_put (set : ResourceLabels e → Bytes → Option (ResourceLabels e)) (uuid : Text) (key : Key)
    (v : Option Bytes) (ht : Tidy i t) (hset : ∀ b, v = some b → ∃ t', set t b = some t' ∧
      t.Wrote i.canonicalUuid (itemName uuid key) b t' ∧ Tidy i t') :
    ∃ t', setGiven t set v = some t' ∧ Put i uuid (only key v) t t' ∧ Tidy i t' := by
  cases v with
  | none => exact ⟨t, rfl, put_refl fun k => by simp [only], ht⟩
  | some b =>
    obtain ⟨t', hsome, hwrote, htidy⟩ := hset b rfl
    exact ⟨t', hsome, put_of_wrote hwrote, htidy⟩

theorem only_or (vs : Key → Option Bytes) : (fun key => (only .params (vs .params) key).or
    ((only .enabled (vs .enabled) key).or (only .title (vs .title) key))) = vs := by
  funext key
  cases key <;> simp [only]

end

/-! ## The labels hold the items -/

/-- The labels of the instance under `monitoring.items.` are those of the items, and an item
is numbered no higher than a label of its own and one. -/
structure Mirrors (i : Instance) (j : MultiJson P) (t : ResourceLabels e) (items : Items P) : Prop where
  held : ∀ u item, items u = some item → ∀ key,
    t.held i.canonicalUuid (itemName u key) = some (some (item.value j key))
  rows : ∀ l ∈ t.table.rows, e.same l.resourceUuid i.canonicalUuid = true → e.beginsAlike head l.name = true →
    l.resourceUuid = i.canonicalUuid ∧ ∃ u key, items u ≠ none ∧ l.name = itemName u key
  uuid : ∀ u, items u ≠ none → ∃ n, u = imonUuid i n ∧ ∃ l ∈ t.table.rows,
    l.resourceUuid = i.canonicalUuid ∧ l.name = itemName u .params ∧ n ≤ l.id + 1

namespace Mirrors

variable {items : Items P}

theorem not_mem (h : Mirrors i j t items) {u : Text} (hu : items u ≠ none) : '.' ∉ u ∧ '\\' ∉ u := by
  obtain ⟨n, rfl, -⟩ := h.uuid u hu
  exact not_mem_imonUuid n

theorem tidy (h : Mirrors i j t items) : Tidy i t := by
  intro l hl hsame hhead
  obtain ⟨huuid, u, key, hu, hname⟩ := h.rows l hl hsame hhead
  obtain ⟨n, rfl, -⟩ := h.uuid u hu
  exact ⟨huuid, n, key, hname⟩

theorem value (h : Mirrors i j t items) {l : LabelRow} {u : Text} {key : Key} {item : Item P}
    (hl : l ∈ t.table.rows) (hu : items u = some item) (huuid : l.resourceUuid = i.canonicalUuid)
    (hname : l.name = itemName u key) : l.value = some (item.value j key) := by
  have hrow : t.row i.canonicalUuid (itemName u key) = some l :=
    ResourceLabels.row_eq_some.mpr ⟨hl, ResourceLabels.named_iff.mpr ⟨huuid, hname⟩⟩
  have hheld := h.held u item hu key
  unfold ResourceLabels.held at hheld
  rw [hrow, Option.map_some] at hheld
  exact Option.some.inj hheld

theorem exists_row (h : Mirrors i j t items) {u : Text} (hu : items u ≠ none) (key : Key) :
    ∃ l ∈ t.table.rows, l.resourceUuid = i.canonicalUuid ∧ l.name = itemName u key := by
  obtain ⟨item, hitem⟩ := Option.ne_none_iff_exists'.mp hu
  have hheld := h.held u item hitem key
  unfold ResourceLabels.held at hheld
  obtain ⟨l, hrow, -⟩ := Option.map_eq_some_iff.mp hheld
  exact ⟨l, ResourceLabels.mem_of_row hrow, ResourceLabels.named_of_row hrow⟩

theorem readLabel_of_mem (h : Mirrors i j t items) {l : LabelRow} {u : Text} {key : Key} {item : Item P}
    (hl : l ∈ t.table.rows) (hu : items u = some item) (huuid : l.resourceUuid = i.canonicalUuid)
    (hname : l.name = itemName u key) : readLabel j l = some (u, key.text, item.field key) :=
  readLabel_itemName (h.not_mem (by simp [hu])).1 hname (h.value hl hu huuid hname)

theorem mem_grep (h : Mirrors i j t items) {p : Text} {l : LabelRow}
    (hl : l ∈ t.table.rows.filter (grep i e (head ++ p))) :
    l ∈ t.table.rows ∧ like (head ++ p) l.name = true ∧ l.resourceUuid = i.canonicalUuid ∧
      ∃ u key, items u ≠ none ∧ l.name = itemName u key := by
  obtain ⟨hmem, hgrep⟩ := List.mem_filter.mp hl
  unfold grep at hgrep
  rw [Bool.and_eq_true] at hgrep
  exact ⟨hmem, hgrep.2, h.rows l hmem hgrep.1 (beginsAlike_of_starts (prefix_of_like hgrep.2))⟩

theorem grep_of_name {p : Text} {l : LabelRow} (hu : l.resourceUuid = i.canonicalUuid)
    (hl : like p l.name = true) : grep i e p l = true := by
  unfold grep
  rw [hu, hl, Bool.and_true]
  exact beq_self_eq_true _

theorem exists_read (h : Mirrors i j t items) {p u : Text} {item : Item P} (hu : items u = some item)
    (hp : ∀ key, like p (itemName u key) = true) (key : Key) :
    ∃ l ∈ t.table.rows.filter (grep i e p), readLabel j l = some (u, key.text, item.field key) := by
  obtain ⟨l, hl, huuid, hname⟩ := h.exists_row (u := u) (by simp [hu]) key
  exact ⟨l, List.mem_filter.mpr ⟨hl, grep_of_name huuid (hname ▸ hp key)⟩, h.readLabel_of_mem hl hu huuid hname⟩

theorem monitorItem_eq (h : Mirrors i j t items) {uuid : Text} (ha : State.Apart items uuid) :
    monitorItem i j t uuid = some ((items uuid).map Item.hash) := by
  have hmem : ∀ l ∈ t.table.rows.filter (grep i e (itemPattern uuid)), l ∈ t.table.rows ∧
      items uuid ≠ none ∧ l.resourceUuid = i.canonicalUuid ∧ ∃ key, l.name = itemName uuid key := by
    intro l hl
    obtain ⟨hrow, hlike, huuid, u, key, hu, hname⟩ := h.mem_grep hl
    by_cases hne : u = uuid
    · exact ⟨hrow, hne ▸ hu, huuid, key, hne ▸ hname⟩
    · have hno := ha u hu hne key
      rw [← hname] at hno
      exact absurd hlike (Bool.eq_false_iff.mp hno)
  unfold monitorItem
  cases hitem : items uuid with
  | none =>
    have hnil : t.table.rows.filter (grep i e (itemPattern uuid)) = [] :=
      List.eq_nil_iff_forall_not_mem.mpr fun l hl => (hmem l hl).2.1 hitem
    rw [hnil]
    rfl
  | some item =>
    have hslash := (h.not_mem (u := uuid) (by simp [hitem])).2
    have hall := h.exists_read hitem fun key => like_itemPattern_self hslash key
    obtain ⟨h', hfold, hrest, hkeys⟩ := foldlM_store item.hash
      (t.table.rows.filter (grep i e (itemPattern uuid))) (fun l hl => by
        obtain ⟨hrow, -, huuid, key, hname⟩ := hmem l hl
        exact ⟨uuid, key.text, item.field key, h.readLabel_of_mem hrow hitem huuid hname, hash_text item key⟩)
      (hashOf false none j.empty)
    have hhash : h' = item.hash := by
      refine eq_hash (fun key => ?_) hrest
      obtain ⟨l, hl, hread⟩ := hall key
      exact hkeys l hl uuid key.text _ hread
    have hempty : ¬ (t.table.rows.filter (grep i e (itemPattern uuid))).isEmpty = true := by
      obtain ⟨l, hl, -⟩ := hall .title
      rw [List.isEmpty_iff]
      exact List.ne_nil_of_mem hl
    dsimp only
    rw [if_neg hempty, hfold, hhash]
    rfl

theorem monitorItems_eq (h : Mirrors i j t items) :
    monitorItems i j t = some fun uuid => (items uuid).map Item.hash := by
  have hmem : ∀ l ∈ t.table.rows.filter (grep i e (head ++ ['%'])), ∃ u key item,
      items u = some item ∧ readLabel j l = some (u, key.text, item.field key) := by
    intro l hl
    obtain ⟨hrow, -, huuid, u, key, hu, hname⟩ := h.mem_grep hl
    obtain ⟨item, hitem⟩ := Option.ne_none_iff_exists'.mp hu
    exact ⟨u, key, item, hitem, h.readLabel_of_mem hrow hitem huuid hname⟩
  obtain ⟨H, hfold, hrest, hkeys, hsome⟩ := foldlM_update
    (fun u => ((items u).map Item.hash).getD fun _ => none)
    (t.table.rows.filter (grep i e (head ++ ['%']))) (fun l hl => by
      obtain ⟨u, key, item, hitem, hread⟩ := hmem l hl
      exact ⟨u, key.text, item.field key, hread, by rw [hitem]; exact hash_text item key⟩) (fun _ => none)
  refine hfold.trans (congrArg some (funext fun u => ?_))
  cases hitem : items u with
  | none =>
    by_contra hne
    rcases (hsome u).mp hne with hnone | ⟨l, hl, k, v, hread⟩
    · exact hnone rfl
    · obtain ⟨u', key, item, hitem', hread'⟩ := hmem l hl
      rw [hread] at hread'
      cases hread'
      rw [hitem] at hitem'
      cases hitem'
  | some item =>
    have hall := h.exists_read hitem fun key => (like_prefix_iff isLiteral_head).mpr (List.prefix_append _ _)
    obtain ⟨l, hl, hread⟩ := hall .title
    obtain ⟨h', hh'⟩ := Option.ne_none_iff_exists'.mp ((hsome u).mpr (.inr ⟨l, hl, _, _, hread⟩))
    rw [hh', Option.map_some, Option.some.injEq]
    refine eq_hash (j := j) (fun key => ?_) fun k => ?_
    · obtain ⟨l, hl, hread⟩ := hall key
      have := hkeys l hl u key.text _ hread
      rwa [hh', hitem] at this
    · have := hrest u k
      rwa [hh', hitem] at this

theorem put (h : Mirrors i j t items) {uuid : Text} {vs : Key → Option Bytes} {item : Item P}
    (hp : Put i uuid vs t t') (hvalue : ∀ key v, vs key = some v → item.value j key = v)
    (hold : ∀ key, vs key = none → ∃ old, items uuid = some old ∧ old.value j key = item.value j key)
    (hnum : ∃ n, uuid = imonUuid i n ∧ ∃ l ∈ t'.table.rows,
      l.resourceUuid = i.canonicalUuid ∧ l.name = itemName uuid .params ∧ n ≤ l.id + 1) :
    Mirrors i j t' (Function.update items uuid (some item)) := by
  have hdot : '.' ∉ uuid := by
    obtain ⟨n, rfl, -⟩ := hnum
    exact (not_mem_imonUuid n).1
  have hstay : ∀ u, items u ≠ none → Function.update items uuid (some item) u ≠ none := by
    intro u hu
    by_cases hne : u = uuid
    · simp [hne]
    · rwa [Function.update_of_ne hne]
  refine ⟨fun u it hu key => ?_, fun l hl hsame hhead => ?_, fun u hu => ?_⟩
  · by_cases hne : u = uuid
    · subst hne
      rw [Function.update_self] at hu
      cases hu
      cases hv : vs key with
      | some v => rw [hp.written key v hv, hvalue key v hv]
      | none =>
        obtain ⟨old, hitem, heq⟩ := hold key hv
        rw [hp.others, h.held u old hitem key, heq]
        rintro key' hkey' ⟨-, hname⟩
        obtain ⟨-, rfl⟩ := itemName_inj hdot hdot hname
        exact hkey' hv
    · rw [Function.update_of_ne hne] at hu
      rw [hp.others, h.held u it hu key]
      rintro key' hkey' ⟨-, hname⟩
      exact hne (itemName_inj (h.not_mem (by simp [hu])).1 hdot hname).1
  · rcases hp.fresh l hl with ⟨l₀, hl₀, -, huuid, hname⟩ | ⟨-, huuid, key, hname⟩
    · rw [← huuid] at hsame ⊢
      rw [← hname] at hhead ⊢
      obtain ⟨hres, u, key, hu, hn⟩ := h.rows l₀ hl₀ hsame hhead
      exact ⟨hres, u, key, hstay u hu, hn⟩
    · exact ⟨huuid, uuid, key, by simp, hname⟩
  · by_cases hne : u = uuid
    · rw [hne]
      exact hnum
    · rw [Function.update_of_ne hne] at hu
      obtain ⟨n, hn, l, hl, huuid, hname, hle⟩ := h.uuid u hu
      obtain ⟨l', hl', hid', hu', hn'⟩ := hp.kept l hl
      exact ⟨n, hn, l', hl', hu'.trans huuid, hn'.trans hname, hid' ▸ hle⟩

theorem destroy (h : Mirrors i j t items) {uuid : Text} (ha : State.Apart items uuid)
    (huuid : items uuid ≠ none) :
    Mirrors i j (t.destroy (grep i e (itemPattern uuid))) (Function.update items uuid none) := by
  have hstay : ∀ l u key, items u ≠ none → u ≠ uuid → l.name = itemName u key →
      grep i e (itemPattern uuid) l = false := by
    intro l u key hu hne hname
    unfold grep
    rw [hname, ha u hu hne key, Bool.and_false]
  have hmem : ∀ l, l ∈ (t.destroy (grep i e (itemPattern uuid))).table.rows ↔
      l ∈ t.table.rows ∧ grep i e (itemPattern uuid) l = false := fun l => Table.mem_delete t.table
  have hlive : ∀ u, Function.update items uuid none u ≠ none → u ≠ uuid ∧ items u ≠ none := by
    intro u hu
    by_cases hne : u = uuid
    · rw [hne, Function.update_self] at hu
      exact absurd rfl hu
    · rw [Function.update_of_ne hne] at hu
      exact ⟨hne, hu⟩
  refine ⟨fun u it hu key => ?_, fun l hl hsame hhead => ?_, fun u hu => ?_⟩
  · obtain ⟨hne, hitem⟩ := hlive u (by simp [hu])
    rw [Function.update_of_ne hne] at hu
    have hheld := h.held u it hu key
    unfold ResourceLabels.held at hheld
    obtain ⟨l, hrow, hvalue⟩ := Option.map_eq_some_iff.mp hheld
    have hno := hstay l u key hitem hne (ResourceLabels.named_of_row hrow).2
    rw [ResourceLabels.held_destroy, hrow, Option.filter_some, if_pos (by simp [hno]), Option.map_some, hvalue]
  · obtain ⟨hrow, hno⟩ := (hmem l).mp hl
    obtain ⟨hres, u, key, hu, hname⟩ := h.rows l hrow hsame hhead
    refine ⟨hres, u, key, ?_, hname⟩
    have hne : u ≠ uuid := by
      rintro rfl
      have hyes := grep_of_name (e := e) hres (hname ▸ like_itemPattern_self (h.not_mem huuid).2 key)
      rw [hno] at hyes
      cases hyes
    rwa [Function.update_of_ne hne]
  · obtain ⟨hne, hitem⟩ := hlive u hu
    obtain ⟨n, hn, l, hl, hres, hname, hle⟩ := h.uuid u hitem
    exact ⟨n, hn, l, (hmem l).mpr ⟨hl, hstay l u _ hitem hne hname⟩, hres, hname, hle⟩

end Mirrors

/-! ## A new item -/

theorem le_maxId {l : LabelRow} (hl : l ∈ t.table.rows) : l.id ≤ maxId t := by
  have hsorted := t.table.sorted
  unfold maxId
  rcases List.eq_nil_or_concat t.table.rows with hnil | ⟨rows, last, hrows⟩
  · rw [hnil] at hl
    cases hl
  · rw [hrows, List.concat_eq_append] at hl hsorted ⊢
    rw [List.getLast?_concat]
    rcases List.mem_append.mp hl with hl | hl
    · exact Nat.le_of_lt ((List.pairwise_append.mp hsorted).2.2 l hl last (List.mem_singleton_self _))
    · rw [List.mem_singleton.mp hl]
      exact Nat.le_refl _

theorem maxId_le_next (t : ResourceLabels e) : maxId t ≤ t.table.next := by
  unfold maxId
  cases h : t.table.rows.getLast? with
  | none => exact Nat.zero_le _
  | some l => exact Nat.le_of_lt (t.table.bound l (List.mem_of_getLast? h))

theorem generateUuid_eq {retryCount : Nat} {uuid : Text} (h : generateUuid i t retryCount = some uuid) :
    ∃ n, uuid = imonUuid i (maxId t + n) ∧ 2 ≤ n ∧ n ≤ retryCount := by
  induction retryCount with
  | zero => cases h
  | succ r ih =>
    unfold generateUuid at h
    dsimp only at h
    split at h
    · obtain ⟨n, hn, hle⟩ := ih h
      exact ⟨n, hn, hle.1, Nat.le_succ_of_le hle.2⟩
    · split at h
      · cases h
      · cases h
        exact ⟨r + 1, rfl, by omega, Nat.le_refl _⟩

theorem taken_of_generateUuid {retryCount n : Nat} (h : generateUuid i t retryCount = none)
    (htwo : 2 ≤ n) (hn : n ≤ retryCount) : taken t (imonUuid i (maxId t + n)) = true := by
  induction retryCount with
  | zero => omega
  | succ r ih =>
    unfold generateUuid at h
    dsimp only at h
    split at h
    · rename_i htaken
      rcases Nat.lt_or_eq_of_le hn with hlt | rfl
      · exact ih h (Nat.le_of_lt_succ hlt)
      · exact (Bool.and_eq_true_iff.mp htaken).1
    · split at h
      · omega
      · cases h

theorem Mirrors.items_imonUuid {items : Items P} (h : Mirrors i j t items) {n : Nat} (hn : 2 ≤ n) :
    items (imonUuid i (maxId t + n)) = none := by
  by_contra hne
  obtain ⟨n', heq, l, hl, -, -, hle⟩ := h.uuid _ hne
  have := imonUuid_injective heq
  have := le_maxId hl
  omega

theorem exists_of_wrote {name : Text} {v : Bytes} (h : t.Wrote i.canonicalUuid name v t')
    (hno : ∀ l ∈ t.table.rows, ¬ (l.resourceUuid = i.canonicalUuid ∧ l.name = name)) :
    ∃ l ∈ t'.table.rows, l.resourceUuid = i.canonicalUuid ∧ l.name = name ∧ l.id = t.table.next := by
  have hheld := h.held i.canonicalUuid name
  rw [if_pos ⟨rfl, rfl⟩] at hheld
  obtain ⟨l, hrow, -⟩ := Option.map_eq_some_iff.mp hheld
  have hl := ResourceLabels.mem_of_row hrow
  obtain ⟨hu, hn⟩ := ResourceLabels.named_of_row hrow
  rcases h.fresh l hl with ⟨l₀, hl₀, -, hu₀, hn₀⟩ | ⟨hid, -⟩
  · exact absurd ⟨hu₀.trans hu, hn₀.trans hn⟩ (hno l₀ hl₀)
  · exact ⟨l, hl, hu, hn, hid⟩

theorem not_mem_of_wrote {n : Nat} {key key' : Key} {v : Bytes}
    (h : t.Wrote i.canonicalUuid (itemName (imonUuid i n) key) v t') (hne : key' ≠ key)
    (hno : ∀ l ∈ t.table.rows, ¬ (l.resourceUuid = i.canonicalUuid ∧ l.name = itemName (imonUuid i n) key')) :
    ∀ l ∈ t'.table.rows, ¬ (l.resourceUuid = i.canonicalUuid ∧ l.name = itemName (imonUuid i n) key') := by
  rintro l hl ⟨hu, hn⟩
  rcases h.fresh l hl with ⟨l₀, hl₀, -, hu₀, hn₀⟩ | ⟨-, -, hname⟩
  · exact hno l₀ hl₀ ⟨hu₀.trans hu, hn₀.trans hn⟩
  · have hdot := (not_mem_imonUuid (i := i) n).1
    exact hne (itemName_inj hdot hdot (hn.symm.trans hname)).2

theorem Mirrors.not_mem_rows {items : Items P} (h : Mirrors i j t items) {n : Nat}
    (hnone : items (imonUuid i n) = none) (key : Key) :
    ∀ l ∈ t.table.rows, ¬ (l.resourceUuid = i.canonicalUuid ∧ l.name = itemName (imonUuid i n) key) := by
  rintro l hl ⟨hu, hname⟩
  obtain ⟨-, u, key', hitem, hname'⟩ := h.rows l hl (by rw [hu]; exact beq_self_eq_true _)
    (beginsAlike_of_starts (hname ▸ List.prefix_append _ _))
  obtain ⟨rfl, -⟩ := itemName_inj (h.not_mem hitem).1 (not_mem_imonUuid _).1 (hname'.symm.trans hname)
  exact hitem hnone

theorem exists_params {t₁ t₂ t₃ : ResourceLabels e} {n : Nat} {v₁ v₂ v₃ : Bytes}
    (h₁ : t.Wrote i.canonicalUuid (itemName (imonUuid i n) .title) v₁ t₁)
    (h₂ : t₁.Wrote i.canonicalUuid (itemName (imonUuid i n) .enabled) v₂ t₂)
    (h₃ : t₂.Wrote i.canonicalUuid (itemName (imonUuid i n) .params) v₃ t₃)
    (hno : ∀ key, ∀ l ∈ t.table.rows,
      ¬ (l.resourceUuid = i.canonicalUuid ∧ l.name = itemName (imonUuid i n) key)) :
    ∃ l ∈ t₃.table.rows, l.resourceUuid = i.canonicalUuid ∧ l.name = itemName (imonUuid i n) .params ∧
      t.table.next + 2 ≤ l.id := by
  obtain ⟨l₁, hl₁, -, -, hid₁⟩ := exists_of_wrote h₁ (hno .title)
  obtain ⟨l₂, hl₂, -, -, hid₂⟩ := exists_of_wrote h₂ (not_mem_of_wrote h₁ (by decide) (hno .enabled))
  obtain ⟨l₃, hl₃, hu₃, hn₃, hid₃⟩ := exists_of_wrote h₃
    (not_mem_of_wrote h₂ (by decide) (not_mem_of_wrote h₁ (by decide) (hno .params)))
  have hnext₁ : l₁.id < t₁.table.next := t₁.table.bound l₁ hl₁
  have hnext₂ : l₂.id < t₂.table.next := t₂.table.bound l₂ hl₂
  exact ⟨l₃, hl₃, hu₃, hn₃, by omega⟩

/-! ## One call -/

section
variable {s : State P e}

theorem step_of_some {c : Call P} {a : Answer P} (h : perform i j s.labels c = some (t', a)) :
    s.step i j c = ⟨t', c.effect (some a) s.items⟩ := by
  unfold State.step
  rw [h]
  rfl

theorem step_of_none {c : Call P} (h : perform i j s.labels c = none) :
    s.step i j c = ⟨s.labels, c.effect none s.items⟩ := by
  unfold State.step
  rw [h]
  rfl

/-- The labels hold the items after the call, and the answer is that of the items. -/
def Good (i : Instance) (j : MultiJson P) (s : State P e) (c : Call P) : Prop :=
  Mirrors i j (s.step i j c).labels (s.step i j c).items ∧
    c.Answers (Full i s.labels) ((perform i j s.labels c).map Prod.snd) s.items (s.step i j c).items

theorem good_of_some {c : Call P} {a : Answer P} (h : perform i j s.labels c = some (t', a))
    (hm : Mirrors i j t' (c.effect (some a) s.items))
    (ha : c.Answers (Full i s.labels) (some a) s.items (c.effect (some a) s.items)) :
    Good i j s c := by
  unfold Good
  rw [step_of_some h, h]
  exact ⟨hm, ha⟩

theorem good_add (hw : TellsApart e) (h : Mirrors i j s.labels s.items) {title : Bytes} {enabled : Bool}
    {params : P} (hp : s.Plain i j (.add title enabled params)) : Good i j s (.add title enabled params) := by
  have hadd : perform i j s.labels (.add title enabled params) =
      (addMonitorItem i j s.labels title enabled params).map fun a =>
        (a.1, .added a.2 title enabled params) := rfl
  unfold addMonitorItem at hadd
  cases hgen : generateUuid i s.labels 3 with
  | none =>
    rw [hgen] at hadd
    unfold Good
    rw [step_of_none hadd, hadd]
    exact ⟨h, .inl ⟨rfl, fun n => taken_of_generateUuid hgen⟩⟩
  | some uuid =>
    obtain ⟨n, rfl, htwo, hthree⟩ := generateUuid_eq hgen
    have hnone := h.items_imonUuid htwo
    obtain ⟨t₁, hset₁, hwrote₁, htidy₁⟩ := setLabel_item hw h.tidy (hp n hthree .title title rfl)
    obtain ⟨t₂, hset₂, hwrote₂, htidy₂⟩ := setLabel_item hw htidy₁
      (hp n hthree .enabled (enabledText enabled) rfl)
    obtain ⟨t₃, hset₃, hwrote₃, -⟩ := setLabel_item hw htidy₂ (hp n hthree .params (j.dump params) rfl)
    have hperform : perform i j s.labels (.add title enabled params) =
        some (t₃, .added (imonUuid i (maxId s.labels + n)) title enabled params) := by
      rw [hadd, hgen]
      simp only [Option.bind_eq_bind, Option.bind_some, hset₁, hset₂, hset₃]
      rfl
    obtain ⟨l, hl, hu, hname, hid⟩ := exists_params hwrote₁ hwrote₂ hwrote₃ fun key => h.not_mem_rows hnone key
    have hmax := maxId_le_next s.labels
    have hput := ((put_of_wrote hwrote₁).trans (not_mem_imonUuid _).1 (put_of_wrote hwrote₂)).trans
      (not_mem_imonUuid _).1 (put_of_wrote hwrote₃)
    have hvs := only_or (Data.value j ⟨some title, some enabled, some params⟩)
    refine good_of_some hperform ?_ (.inr ⟨_, rfl, hnone⟩)
    refine h.put (hvs ▸ hput) (fun key v hv => ?_) (fun key hv => ?_)
      ⟨_, rfl, l, hl, hu, hname, by omega⟩
    · cases key <;> exact Option.some.inj hv
    · cases key <;> cases hv

theorem value_patch (item : Item P) (data : Data P) (key : Key) :
    (item.patch data).value j key = (data.value j key).getD (item.value j key) := by
  cases key with
  | title => rfl
  | enabled =>
    show enabledText (data.enabled.getD item.enabled) = (data.enabled.map enabledText).getD _
    cases data.enabled <;> rfl
  | params =>
    show j.dump (data.params.getD item.params) = (data.params.map j.dump).getD _
    cases data.params <;> rfl

theorem apart_update {items : Items P} {uuid : Text} (h : State.Apart items uuid) (item : Option (Item P)) :
    State.Apart (Function.update items uuid item) uuid := by
  intro u hu hne
  rw [Function.update_of_ne hne] at hu
  exact h u hu hne

theorem good_update (hw : TellsApart e) (h : Mirrors i j s.labels s.items) {uuid : Text} {data : Data P}
    (hp : s.Plain i j (.update uuid data)) : Good i j s (.update uuid data) := by
  obtain ⟨ha, hfits⟩ := hp
  have hupdate : perform i j s.labels (.update uuid data) =
      (updateMonitorItem i j s.labels uuid data).map fun a => (a.1, .item a.2) := rfl
  have hread := h.monitorItem_eq ha
  unfold updateMonitorItem at hupdate
  rw [hread] at hupdate
  cases hitem : s.items uuid with
  | none =>
    rw [hitem] at hupdate
    have hsame : Function.update s.items uuid ((s.items uuid).map fun item => item.patch data) = s.items := by
      rw [hitem, Option.map_none, ← hitem, Function.update_eq_self]
    refine good_of_some hupdate ?_ ?_
    · show Mirrors i j s.labels (Function.update s.items uuid _)
      rwa [hsame]
    · show some (Answer.item none) = some (.item ((Function.update s.items uuid _ uuid).map Item.hash))
      rw [hsame, hitem]
      rfl
  | some item =>
    have hne : s.items uuid ≠ none := by simp [hitem]
    obtain ⟨n, hn, l, hl, huuid, hname, hle⟩ := h.uuid uuid hne
    have hdot := (h.not_mem hne).1
    obtain ⟨t₁, hset₁, hput₁, htidy₁⟩ := setGiven_put
      (fun t v => t.setLabel i.canonicalUuid (itemName uuid .title) v) uuid .title
      data.title h.tidy fun b hb => by
      subst hn
      exact setLabel_item hw h.tidy (hfits .title b hb)
    obtain ⟨t₂, hset₂, hput₂, htidy₂⟩ := setGiven_put
      (fun t v => t.setLabel i.canonicalUuid (itemName uuid .enabled) v) uuid .enabled
      (data.enabled.map enabledText) htidy₁ fun b hb => by
      subst hn
      exact setLabel_item hw htidy₁ (hfits .enabled b hb)
    obtain ⟨t₃, hset₃, hput₃, -⟩ := setGiven_put
      (fun t v => t.setBlobLabel i.canonicalUuid (itemName uuid .params) v) uuid .params
      (data.params.map j.dump) htidy₂ fun b hb => by
      subst hn
      exact setBlobLabel_item hw htidy₂ (hfits .params b hb)
    have hput := (hput₁.trans hdot hput₂).trans hdot hput₃
    have hvs := only_or (data.value j)
    have hmirrors : Mirrors i j t₃ (Function.update s.items uuid (some (item.patch data))) := by
      obtain ⟨l', hl', hid', hu', hn'⟩ := hput.kept l hl
      refine h.put (hvs ▸ hput) (fun key v hv => ?_) (fun key hv => ?_)
        ⟨n, hn, l', hl', hu'.trans huuid, hn'.trans hname, hid' ▸ hle⟩
      · rw [value_patch, hv, Option.getD_some]
      · exact ⟨item, hitem, by rw [value_patch, hv, Option.getD_none]⟩
    have hread' := hmirrors.monitorItem_eq (apart_update ha _)
    have hperform : perform i j s.labels (.update uuid data) =
        some (t₃, .item (some (item.patch data).hash)) := by
      rw [hupdate, hitem]
      simp only [Option.bind_eq_bind, Option.bind_some, Option.map_some, hset₁, hset₂, hset₃, hread',
        Function.update_self]
      rfl
    refine good_of_some hperform ?_ ?_
    · show Mirrors i j t₃ (Function.update s.items uuid ((s.items uuid).map _))
      rw [hitem]
      exact hmirrors
    · show _ = some (Answer.item ((Function.update s.items uuid ((s.items uuid).map _) uuid).map Item.hash))
      rw [hitem, Function.update_self]
      rfl

theorem good_delete (h : Mirrors i j s.labels s.items) {uuid : Text} (ha : State.Apart s.items uuid) :
    Good i j s (.delete uuid) := by
  have hdelete : perform i j s.labels (.delete uuid) =
      (deleteMonitorItem i j s.labels uuid).map fun a => (a.1, .item a.2) := rfl
  unfold deleteMonitorItem at hdelete
  rw [h.monitorItem_eq ha] at hdelete
  cases hitem : s.items uuid with
  | none =>
    rw [hitem] at hdelete
    have hsame : Function.update s.items uuid none = s.items := by
      rw [← hitem, Function.update_eq_self]
    refine good_of_some hdelete ?_ ?_
    · show Mirrors i j s.labels (Function.update s.items uuid none)
      rwa [hsame]
    · show _ = some (Answer.item ((s.items uuid).map Item.hash))
      rw [hitem]
      rfl
  | some item =>
    rw [hitem] at hdelete
    refine good_of_some hdelete (h.destroy ha (by simp [hitem])) ?_
    show _ = some (Answer.item ((s.items uuid).map Item.hash))
    rw [hitem]
    rfl

theorem good_get (h : Mirrors i j s.labels s.items) {uuid : Text} (ha : State.Apart s.items uuid) :
    Good i j s (.get uuid) := by
  have hget : perform i j s.labels (.get uuid) = some (s.labels, .item ((s.items uuid).map Item.hash)) :=
    congrArg (Option.map _) (h.monitorItem_eq ha)
  exact good_of_some hget h rfl

theorem good_of_plain (hw : TellsApart e) (h : Mirrors i j s.labels s.items) {c : Call P} (hp : s.Plain i j c) :
    Good i j s c := by
  cases c with
  | add title enabled params => exact good_add hw h hp
  | update uuid data => exact good_update hw h hp
  | delete uuid => exact good_delete h hp
  | get uuid => exact good_get h hp

end

/-! ## Runs -/

/-- The instance has no label under `monitoring.items.` -/
def NoItems (i : Instance) (t : ResourceLabels e) : Prop :=
  ∀ l ∈ t.table.rows, e.same l.resourceUuid i.canonicalUuid = true → e.beginsAlike head l.name = false

theorem mirrors_of_noItems (h : NoItems i t) : Mirrors i j t fun _ => none := by
  refine ⟨nofun, fun l hl hsame hhead => ?_, fun u hu => absurd rfl hu⟩
  rw [h l hl hsame] at hhead
  cases hhead

/-- In every run of calls whose uuids go into patterns that take no label of another item,
each call is right. -/
theorem items_right (hw : TellsApart e) (h₀ : NoItems i t) (cs : List (Call P))
    (h : Each (State.step i j) (State.Plain i j) (⟨t, fun _ => none⟩ : State P e) cs) :
    Each (State.step i j) (State.Right i j) (⟨t, fun _ => none⟩ : State P e) cs := by
  refine h.of_invariant (fun s => Mirrors i j s.labels s.items) (fun s c hm hp => ?_) (mirrors_of_noItems h₀)
  obtain ⟨hnext, hanswers⟩ := good_of_plain hw hm hp
  exact ⟨hnext, hanswers, hnext.monitorItems_eq⟩

/-! ## Samples -/

theorem tellsApart_strict : TellsApart ResourceLabels.strict := by
  intro a b ha hb h
  have hrange : ∀ c : Char, (c.isLower || c.isDigit) = true →
      97 ≤ c.toNat ∧ c.toNat ≤ 122 ∨ 48 ≤ c.toNat ∧ c.toNat ≤ 57 := by
    intro c hc
    rcases Bool.or_eq_true_iff.mp hc with hc | hc
    · obtain ⟨hlow, hhigh⟩ := Bool.and_eq_true_iff.mp hc
      exact .inl ⟨of_decide_eq_true hlow, of_decide_eq_true hhigh⟩
    · obtain ⟨hlow, hhigh⟩ := Bool.and_eq_true_iff.mp hc
      exact .inr ⟨of_decide_eq_true hlow, of_decide_eq_true hhigh⟩
  have hweight : (if 97 ≤ a.toNat ∧ a.toNat ≤ 122 then a.toNat - 32 else a.toNat) =
      if 97 ≤ b.toNat ∧ b.toNat ≤ 122 then b.toNat - 32 else b.toNat := h
  have ha := hrange a ha
  have hb := hrange b hb
  refine Char.toNat_inj.mp ?_
  split at hweight <;> split at hweight <;> omega

/-- Items without parameters. -/
def noParams : MultiJson Unit where
  dump _ := ascii "{}"
  load v := if v = ascii "{}" then some () else none
  empty := ()
  load_dump _ := if_pos rfl

theorem isWord_abc : ∀ c ∈ "abc12345".toList, Text.isWord c = true := List.all_eq_true.mp (by decide)

def abc : Instance := ⟨"abc12345".toList, isWord_abc⟩

def noLabels : State Unit ResourceLabels.strict := ⟨ResourceLabels.unlabelled, fun _ => none⟩

theorem fits_abc {n : Nat} (hn : n ≤ 6) (key : Key) {v : Bytes}
    (hv : v.all (fun b => b < 0xF0) = true ∧ v.length ≤ 65535) :
    ResourceLabels.Fits ResourceLabels.strict abc.canonicalUuid (itemName (imonUuid abc n) key) v := by
  have huuid : abc.canonicalUuid.length ≤ 255 ∧
      ∀ c ∈ abc.canonicalUuid, ResourceLabels.strict.inCharset c = true :=
    ⟨by decide, List.all_eq_true.mp (by decide)⟩
  have hname : ∀ m ≤ 6, (itemName (imonUuid abc m) key).length ≤ 255 ∧
      (itemName (imonUuid abc m) key).all ResourceLabels.strict.inCharset = true := by
    cases key <;> decide
  exact ⟨huuid, ⟨(hname n hn).1, List.all_eq_true.mp (hname n hn).2⟩,
    fun b hb => of_decide_eq_true (List.all_eq_true.mp hv.1 b hb), hv.2⟩

def sampleCalls : List (Call Unit) :=
  [.add (ascii "cpu") true (), .add (ascii "mem") false (),
    .update "imon-abc123453".toList ⟨none, some false, none⟩, .delete "imon-abc123456".toList,
    .get "imon-abc123453".toList]

theorem plain_add {s : State Unit ResourceLabels.strict} (title : Bytes) (enabled : Bool)
    (hmax : maxId s.labels ≤ 3)
    (htitle : title.all (fun b => b < 0xF0) = true ∧ title.length ≤ 65535) :
    s.Plain abc noParams (.add title enabled ()) := by
  intro n hn key v hv
  refine fits_abc (by omega) key ?_
  cases key with
  | title => cases hv; exact htitle
  | enabled => cases hv; cases enabled <;> decide
  | params => cases hv; decide

theorem apart_abc {s : State Unit ResourceLabels.strict}
    (h : Mirrors abc noParams s.labels s.items) (n : Nat)
    (hlit : (imonUuid abc n).all isLiteral = true) : State.Apart s.items (imonUuid abc n) :=
  apart_of_isLiteral (List.all_eq_true.mp hlit) fun _ hu => (h.not_mem hu).1

theorem plain_sampleCalls :
    Each (State.step abc noParams) (State.Plain abc noParams) noLabels sampleCalls := by
  have hw := tellsApart_strict
  have h₀ : Mirrors abc noParams noLabels.labels noLabels.items :=
    mirrors_of_noItems fun l hl => absurd hl List.not_mem_nil
  have p₁ := plain_add (s := noLabels) (ascii "cpu") true (by decide) (by decide)
  have h₁ := (good_of_plain hw h₀ p₁).1
  have p₂ := plain_add (s := noLabels.step abc noParams (.add (ascii "cpu") true ())) (ascii "mem")
    false (by decide) (by decide)
  have h₂ := (good_of_plain hw h₁ p₂).1
  have p₃ : State.Plain abc noParams _ (.update (imonUuid abc 3) ⟨none, some false, none⟩) :=
    ⟨apart_abc h₂ 3 (by decide), fun key v hv => fits_abc (by omega) key (by
      cases key with
      | title => cases hv
      | enabled => cases hv; decide
      | params => cases hv)⟩
  have h₃ := (good_of_plain hw h₂ p₃).1
  have p₄ : State.Plain abc noParams _ (.delete (imonUuid abc 6)) := apart_abc h₃ 6 (by decide)
  have h₄ := (good_of_plain hw h₃ p₄).1
  exact ⟨p₁, p₂, p₃, p₄, apart_abc h₄ 3 (by decide), trivial⟩

theorem items_right_calls :
    Each (State.step abc noParams) (State.Right abc noParams) noLabels sampleCalls :=
  items_right tellsApart_strict (fun _ hl => absurd hl List.not_mem_nil) _ plain_sampleCalls

/-- A sign goes into the pattern, and all items are deleted. -/
theorem not_items_right : ¬ Each (State.step abc noParams) (State.Right abc noParams) noLabels
    [.add (ascii "cpu") true (), .add (ascii "mem") false (), .delete "%".toList] := by
  rintro ⟨-, -, hright, -⟩
  have hlists := congrArg (fun m => m.map fun list => (list "imon-abc123453".toList).isSome) hright.lists
  revert hlists
  decide

end MonitorItem

end WakameVdc
