import WakameVdc.SecurityGroupReference

/-!
# What saving a group leaves in the references

After a save the group refers to the groups its rules name and to no others. The
cached association never holds more than the table does, so no reference is
left out for its sake.
-/

namespace WakameVdc

open Lib

namespace GroupModel

open SecurityGroup Netfilter

/-! ## Groups by their uuid -/

variable {collate : Text → List Nat}

def GroupRow.Named (collate : Text → List Nat) (names : List Text) (g : GroupRow) : Prop :=
  ∃ name ∈ names, g.answersTo collate name = true

theorem GroupRow.answersTo_iff {g : GroupRow} {name : Text} :
    g.answersTo collate name = true ↔
      ∃ u, Taggable.trimUuid groupPrefix name = some u ∧ collate g.uuid = collate u := by
  simp [answersTo, Option.any_eq_true]

theorem GroupRow.answersTo_canonicalUuid (g : GroupRow) :
    g.answersTo collate g.canonicalUuid = true :=
  answersTo_iff.mpr ⟨g.uuid, Taggable.trimUuid_canonicalUuid _ _, rfl⟩

theorem GroupRow.answersTo_congr {g g' : GroupRow} (h : g.uuid = g'.uuid) (name : Text) :
    g.answersTo collate name = g'.answersTo collate name := by
  unfold answersTo
  rw [h]

namespace Db

variable {db : Db collate} {g : GroupRow} {name : Text}

theorem eq_of_answersTo {g g' : GroupRow} (hg : g ∈ db.groups.rows) (hg' : g' ∈ db.groups.rows)
    (h : g.answersTo collate name = true) (h' : g'.answersTo collate name = true) : g = g' := by
  obtain ⟨u, hu, hc⟩ := GroupRow.answersTo_iff.mp h
  obtain ⟨u', hu', hc'⟩ := GroupRow.answersTo_iff.mp h'
  cases hu.symm.trans hu'
  exact List.inj_on_of_nodup_map db.uuids hg hg' (hc.trans hc'.symm)

theorem byUuid_eq_some :
    db.byUuid name = some g ↔ g ∈ db.groups.rows ∧ g.answersTo collate name = true := by
  rw [GroupRow.answersTo_iff]
  unfold byUuid
  cases ht : Taggable.trimUuid groupPrefix name with
  | none => simp
  | some u =>
    simp only [Option.bind_some, Option.some.injEq, exists_eq_left']
    constructor
    · intro h
      obtain ⟨hg, hu, -⟩ := Table.first_spec _ h
      exact ⟨hg, eq_of_beq hu⟩
    · rintro ⟨hg, hu⟩
      cases h : db.groups.first fun x => collate x.uuid == collate u with
      | none => simpa [hu] using Table.first_none _ h g hg
      | some x =>
        obtain ⟨hx, hxu, -⟩ := Table.first_spec _ h
        rw [List.inj_on_of_nodup_map db.uuids hx hg ((eq_of_beq hxu).trans hu.symm)]

theorem mem_referencees {id : Nat} {x : GroupRow} :
    x ∈ db.referencees id ↔ (id, x.id) ∈ db.references ∧ x ∈ db.groups.rows := by
  simp only [referencees, List.mem_filterMap, List.mem_filter, beq_iff_eq]
  constructor
  · rintro ⟨p, ⟨hp, rfl⟩, hx⟩
    obtain ⟨hm, hk⟩ := db.groups.find_eq_some.mp hx
    have hk : x.id = p.2 := hk
    exact ⟨by rw [hk]; exact hp, hm⟩
  · rintro ⟨hp, hx⟩
    exact ⟨(id, x.id), ⟨hp, rfl⟩, db.groups.find_of_mem hx⟩

end Db

/-! ## The lines of a text -/

section
variable {ipAddress : Text → Option IPAddr} {action : Action}

theorem foldlM_handleLine {lines : List Text} {s s' : Refs collate}
    (h : lines.foldlM (handleLine ipAddress action) s = .ok s') :
    ∃ rules, (lines.filter fun line => !isComment line).mapM
        (fun line => parseRule ipAddress (chomp line)) = .ok rules ∧
      s' = (ruleGroups rules.reduceOption).foldl (fun s g => s.refer action g) s := by
  induction lines generalizing s with
  | nil =>
    cases h
    exact ⟨[], rfl, rfl⟩
  | cons line lines ih =>
    rw [List.foldlM_cons] at h
    obtain ⟨t, ht, hrest⟩ := bind_ok h
    obtain ⟨rules, hrules, hs'⟩ := ih hrest
    unfold handleLine at ht
    by_cases hc : isComment line = true
    · rw [if_pos hc] at ht
      cases ht
      exact ⟨rules, by simpa [hc] using hrules, hs'⟩
    · rw [if_neg hc] at ht
      obtain ⟨parsed, hp, ht⟩ := bind_ok ht
      refine ⟨parsed :: rules, ?_, ?_⟩
      · have hp' : parseRule ipAddress (chomp line) = .ok parsed := by rw [parseRule_chomp, hp]
        simp only [Bool.not_eq_true] at hc
        simp only [List.filter_cons, hc, Bool.not_false, if_true, List.mapM_cons, hp', hrules]
        rfl
      · subst hs'
        cases parsed with
        | none =>
          cases ht
          rfl
        | some r =>
          dsimp only at ht
          cases hg : refGroupId r.ipSource with
          | none =>
            rw [hg] at ht
            cases ht
            simp [ruleGroups, List.reduceOption, hg]
          | some g =>
            rw [hg] at ht
            cases ht
            simp [ruleGroups, List.reduceOption, hg]

end

/-! ## The two passes -/

namespace Refs

/-- Everything but the references, the cache and the named groups. -/
structure SameRest (s s' : Refs collate) : Prop where
  groups : s'.db.groups = s.db.groups
  vnics : s'.db.vnics = s.db.vnics
  id : s'.id = s.id

theorem SameRest.refl (s : Refs collate) : SameRest s s := ⟨rfl, rfl, rfl⟩

theorem SameRest.trans {s t u : Refs collate} (h : SameRest s t) (k : SameRest t u) : SameRest s u :=
  ⟨k.groups.trans h.groups, k.vnics.trans h.vnics, k.id.trans h.id⟩

def Sound (s : Refs collate) : Prop :=
  ∀ l, s.cached = some l → ∀ x ∈ l, ∃ id y, s.id = some id ∧ (id, x.id) ∈ s.db.references ∧
    y ∈ s.db.groups.rows ∧ y.id = x.id ∧ y.uuid = x.uuid

variable {s : Refs collate}

theorem sound_load (h : s.Sound) : s.load.Sound := by
  intro l hl x hx
  cases hl
  unfold referencees at hx
  cases hc : s.cached with
  | some l =>
    rw [hc] at hx
    exact h l hc x hx
  | none =>
    rw [hc] at hx
    cases hi : s.id with
    | none => simp [hi] at hx
    | some id =>
      simp only [hi, Option.getD_none, Option.map_some, Option.getD_some, Db.mem_referencees] at hx
      exact ⟨id, x, hi, hx.1, hx.2, rfl, rfl⟩

theorem refer_delete (g : Text) :
    s.refer .delete g = { s.load with current := s.current ++ [g] } := by
  unfold refer
  dsimp only
  split
  · rfl
  · split
    · rfl
    · rfl

theorem refer_delete_spec (s : Refs collate) (g : Text) :
    (s.refer .delete g).db = s.db ∧ (s.refer .delete g).id = s.id ∧
      (s.refer .delete g).current = s.current ++ [g] ∧
      (s.refer .delete g).referencees = s.referencees ∧
      (s.Sound → (s.refer .delete g).Sound) := by
  rw [refer_delete]
  exact ⟨rfl, rfl, rfl, rfl, sound_load⟩

theorem foldl_refer_delete (gs : List Text) (s : Refs collate) :
    let s' := gs.foldl (fun s g => s.refer .delete g) s
    s'.db = s.db ∧ s'.id = s.id ∧ s'.current = s.current ++ gs ∧ s'.referencees = s.referencees ∧
      (s.Sound → s'.Sound) := by
  induction gs generalizing s with
  | nil => simp
  | cons g gs ih =>
    obtain ⟨h1, h2, h3, h4, h5⟩ := ih (s.refer .delete g)
    obtain ⟨r1, r2, r3, r4, r5⟩ := refer_delete_spec s g
    simp only [List.foldl_cons]
    refine ⟨h1.trans r1, h2.trans r2, ?_, h4.trans r4, fun hs => h5 (r5 hs)⟩
    rw [h3, r3, List.append_assoc]
    rfl

theorem removeReferencee_spec {id : Nat} (hid : s.id = some id) (g : GroupRow) :
    SameRest s (s.removeReferencee g) ∧ (s.removeReferencee g).current = s.current ∧
      (∀ p, p ∈ (s.removeReferencee g).db.references ↔ p ∈ s.db.references ∧ p ≠ (id, g.id)) ∧
      (s.Sound → (s.removeReferencee g).Sound) := by
  unfold removeReferencee
  simp only [hid]
  refine ⟨⟨rfl, rfl, hid.symm⟩, trivial, by simp, fun hs l hl x hx => ?_⟩
  obtain ⟨l', hl', rfl⟩ := Option.map_eq_some_iff.mp hl
  simp only [List.mem_filter, bne_iff_ne, ne_eq] at hx
  obtain ⟨id', y, hid', hr, hy⟩ := hs l' hl' x hx.1
  cases hid.symm.trans hid'
  exact ⟨id, y, rfl, by simp [hr, hx.2], hy⟩

theorem strike_cached {id : Nat} (hid : s.id = some id) {l : List GroupRow}
    (hl : s.cached = some l) (g : GroupRow) :
    ∃ l', (s.strike g).cached = some l' ∧
      ∀ y, y ∈ l' ↔ y ∈ l ∧ (g.canonicalUuid ∉ s.current → y.id ≠ g.id) := by
  unfold strike
  split
  · rename_i hc
    exact ⟨l, hl, fun y => by simp [List.contains_iff_mem.mp hc]⟩
  · rename_i hc
    rw [List.contains_iff_mem] at hc
    refine ⟨l.filter fun x => x.id != g.id, ?_, fun y => by simp [hc]⟩
    simp only [removeReferencee, hid, hl, Option.map_some]

theorem strike_current (g : GroupRow) :
    (s.strike g).current = s.current ∧ (s.strike g).id = s.id := by
  unfold strike removeReferencee
  split
  · exact ⟨rfl, rfl⟩
  · split
    · exact ⟨rfl, rfl⟩
    · exact ⟨rfl, rfl⟩

theorem foldl_strike_cached {id : Nat} (xs : List GroupRow) {s : Refs collate}
    (hid : s.id = some id) {l : List GroupRow} (hl : s.cached = some l) :
    ∃ l', (xs.foldl strike s).cached = some l' ∧
      ∀ y, y ∈ l' ↔ y ∈ l ∧ ∀ x ∈ xs, x.canonicalUuid ∉ s.current → y.id ≠ x.id := by
  induction xs generalizing s l with
  | nil => exact ⟨l, hl, by simp⟩
  | cons x xs ih =>
    obtain ⟨m, hm, hmem⟩ := strike_cached hid hl x
    obtain ⟨hcur, hid'⟩ := strike_current (s := s) x
    obtain ⟨l', hl', h⟩ := ih (hid'.trans hid) hm
    refine ⟨l', hl', fun y => ?_⟩
    rw [h y, hmem y, hcur, List.forall_mem_cons, and_assoc]

theorem foldl_strike {id : Nat} (xs : List GroupRow) {s : Refs collate} (hid : s.id = some id) :
    let s' := xs.foldl strike s
    SameRest s s' ∧
      (∀ p, p ∈ s'.db.references ↔ p ∈ s.db.references ∧
        ∀ x ∈ xs, x.canonicalUuid ∉ s.current → p ≠ (id, x.id)) ∧
      (s.Sound → s'.Sound) := by
  induction xs generalizing s with
  | nil => exact ⟨.refl _, by simp, fun h => h⟩
  | cons x xs ih =>
    simp only [List.foldl_cons]
    by_cases hx : x.canonicalUuid ∈ s.current
    · have hs : s.strike x = s := by simp [strike, hx]
      rw [hs]
      obtain ⟨h1, h2, h3⟩ := ih hid
      refine ⟨h1, fun p => ?_, h3⟩
      simp [h2 p, hx]
    · have hs : s.strike x = s.removeReferencee x := by simp [strike, hx]
      obtain ⟨r1, r2, r3, r4⟩ := removeReferencee_spec hid x
      rw [hs]
      obtain ⟨h1, h2, h3⟩ := ih (s := s.removeReferencee x) (r1.id.trans hid)
      refine ⟨r1.trans h1, fun p => ?_, fun h => h3 (r4 h)⟩
      rw [h2 p, r3 p, r2]
      simp [hx, and_assoc]

theorem addReferencee_spec {id : Nat} (hid : s.id = some id) {g : GroupRow}
    (hg : g ∈ s.db.groups.rows) :
    SameRest s (s.addReferencee g) ∧
      (∀ p, p ∈ (s.addReferencee g).db.references ↔ p ∈ s.db.references ∨ p = (id, g.id)) ∧
      (s.Sound → (s.addReferencee g).Sound) := by
  unfold addReferencee
  simp only [hid]
  refine ⟨⟨rfl, rfl, hid.symm⟩, by simp, fun hs l hl x hx => ?_⟩
  obtain ⟨l', hl', rfl⟩ := Option.map_eq_some_iff.mp hl
  have old : x ∈ l' → ∃ id' y, some id = some id' ∧
      (id', x.id) ∈ s.db.references ++ [(id, g.id)] ∧
      y ∈ s.db.groups.rows ∧ y.id = x.id ∧ y.uuid = x.uuid := by
    intro hx
    obtain ⟨id', y, hid', hr, hy⟩ := hs l' hl' x hx
    exact ⟨id', y, hid.symm.trans hid', by simp [hr], hy⟩
  split at hx
  · exact old hx
  · rcases List.mem_append.mp hx with hx | hx
    · exact old hx
    · cases List.mem_singleton.mp hx
      exact ⟨id, g, rfl, by simp, hg, rfl, rfl⟩

theorem refer_create {id : Nat} (hid : s.id = some id) (hs : s.Sound) (name : Text) :
    let s' := s.refer .create name
    SameRest s s' ∧
      (∀ p, p ∈ s'.db.references ↔ p ∈ s.db.references ∨
        ∃ x ∈ s.db.groups.rows, x.answersTo collate name = true ∧ p = (id, x.id)) ∧ s'.Sound := by
  have hl := sound_load hs
  unfold refer
  dsimp only
  split
  · rename_i x hx
    -- the cached group is in the table, so its row is the one the database finds
    obtain ⟨id', y, hid', hr, hy, hyx, hyu⟩ := hl _ rfl x (List.mem_of_find?_eq_some hx)
    cases hid.symm.trans hid'
    have hxc : x.canonicalUuid = name := by simpa using List.find?_some hx
    have hyn : y.answersTo collate name = true := by
      rw [GroupRow.answersTo_congr hyu, ← hxc]
      exact x.answersTo_canonicalUuid
    refine ⟨⟨rfl, rfl, rfl⟩, fun p => ⟨Or.inl, ?_⟩, hl⟩
    rintro (h | ⟨z, hz, hzn, rfl⟩)
    · exact h
    · have hzy : z = y := Db.eq_of_answersTo hz hy hzn hyn
      rw [hzy, hyx]
      exact hr
  · split
    · rename_i hb
      refine ⟨⟨rfl, rfl, rfl⟩, fun p => ⟨Or.inl, ?_⟩, hl⟩
      rintro (h | ⟨z, hz, hzu, rfl⟩)
      · exact h
      · have := Db.byUuid_eq_some.mpr ⟨hz, hzu⟩
        rw [load] at hb
        rw [hb] at this
        cases this
    · rename_i g hb
      obtain ⟨hg, hgu⟩ := Db.byUuid_eq_some.mp hb
      obtain ⟨a1, a2, a3⟩ := addReferencee_spec
        (s := { s.load with current := s.current ++ [name] })
        hid hg
      rw [if_pos rfl]
      refine ⟨⟨a1.groups, a1.vnics, a1.id⟩, fun p => ?_, a3 hl⟩
      rw [a2 p]
      constructor
      · rintro (h | h)
        · exact .inl h
        · exact .inr ⟨g, hg, hgu, h⟩
      · rintro (h | ⟨z, hz, hzu, rfl⟩)
        · exact .inl h
        · rw [Db.eq_of_answersTo hz hg hzu hgu]
          exact .inr rfl

/-- A name that no cached group has as its uuid is looked up, and the row it finds is
added, though another reading of it may be there. -/
theorem refer_create_cached {id : Nat} (hid : s.id = some id) {l : List GroupRow}
    (hl : s.cached = some l) (name : Text) :
    ∃ l', (s.refer .create name).cached = some l' ∧
      ∀ x, x ∈ l' ↔ x ∈ l ∨ x ∈ s.db.groups.rows ∧ x.answersTo collate name = true ∧
        ∀ y ∈ l, y.canonicalUuid ≠ name := by
  have hload : s.load.referencees = l := by simp [load, referencees, hl]
  have hcached : s.load.cached = some l := by rw [← hload]; rfl
  unfold refer
  dsimp only
  split
  · rename_i y hy
    change s.load.referencees.find? _ = some y at hy
    rw [hload] at hy
    have hyn : y.canonicalUuid = name := by simpa using List.find?_some hy
    refine ⟨l, hcached, fun x => ⟨Or.inl, ?_⟩⟩
    rintro (hx | ⟨-, -, hno⟩)
    · exact hx
    · exact absurd hyn (hno y (List.mem_of_find?_eq_some hy))
  · rename_i hnone
    change s.load.referencees.find? _ = none at hnone
    rw [hload] at hnone
    have hno : ∀ y ∈ l, y.canonicalUuid ≠ name := by simpa using hnone
    split
    · rename_i hb
      refine ⟨l, hcached, fun x => ⟨Or.inl, ?_⟩⟩
      rintro (hx | ⟨hx, hxn, -⟩)
      · exact hx
      · have := Db.byUuid_eq_some.mpr ⟨hx, hxn⟩
        rw [load] at hb
        rw [hb] at this
        cases this
    · rename_i g hb
      obtain ⟨hg, hgn⟩ := Db.byUuid_eq_some.mp hb
      refine ⟨if g ∈ l then l else l ++ [g], ?_, fun x => ?_⟩
      · simp only [if_true, addReferencee, load, hid, referencees, hl, Option.getD_some,
          Option.map_some]
      · have hgx : (x ∈ s.db.groups.rows ∧ x.answersTo collate name = true ∧
            ∀ y ∈ l, y.canonicalUuid ≠ name) ↔ x = g := by
          constructor
          · rintro ⟨hx, hxn, -⟩
            exact Db.eq_of_answersTo hx hg hxn hgn
          · rintro rfl
            exact ⟨hg, hgn, hno⟩
        rw [hgx]
        split
        · rename_i hmem
          refine ⟨Or.inl, ?_⟩
          rintro (hx | rfl)
          · exact hx
          · exact hmem
        · rw [List.mem_append, List.mem_singleton]

theorem foldl_refer_create_cached {id : Nat} (gs : List Text) {s : Refs collate}
    (hid : s.id = some id) (hs : s.Sound) {l : List GroupRow} (hl : s.cached = some l) :
    ∃ l', (gs.foldl (fun s g => s.refer .create g) s).cached = some l' ∧
      ∀ x, x ∈ l' ↔ x ∈ l ∨ x ∈ s.db.groups.rows ∧
        ∃ name ∈ gs, x.answersTo collate name = true ∧ ∀ y ∈ l, y.canonicalUuid ≠ name := by
  induction gs generalizing s l with
  | nil => exact ⟨l, hl, by simp⟩
  | cons g gs ih =>
    obtain ⟨m, hm, hmem⟩ := refer_create_cached hid hl g
    obtain ⟨c1, -, c3⟩ := refer_create hid hs g
    obtain ⟨l', hl', h⟩ := ih (c1.id.trans hid) c3 hm
    refine ⟨l', hl', fun x => ?_⟩
    rw [h x, hmem x, c1.groups]
    constructor
    · rintro ((hx | ⟨hx, hxg, hno⟩) | ⟨hx, name, hn, hxn, hno⟩)
      · exact .inl hx
      · exact .inr ⟨hx, g, List.mem_cons_self, hxg, hno⟩
      · exact .inr ⟨hx, name, List.mem_cons_of_mem _ hn, hxn,
          fun y hy => hno y ((hmem y).mpr (.inl hy))⟩
    · rintro (hx | ⟨hx, name, hn, hxn, hno⟩)
      · exact .inl (.inl hx)
      · rcases List.mem_cons.mp hn with rfl | hn
        · exact .inl (.inr ⟨hx, hxn, hno⟩)
        · by_cases hold : ∀ y ∈ m, y.canonicalUuid ≠ name
          · exact .inr ⟨hx, name, hn, hxn, hold⟩
          · -- the group of that uuid was added by the first name, so it is the one looked for
            push Not at hold
            obtain ⟨y, hy, hyn⟩ := hold
            rcases (hmem y).mp hy with hy | ⟨hyr, hyg, hno'⟩
            · exact absurd hyn (hno y hy)
            · have hxy : x = y := Db.eq_of_answersTo hx hyr hxn
                (by rw [← hyn]; exact y.answersTo_canonicalUuid)
              exact .inl (.inr ⟨hx, hxy ▸ hyg, hno'⟩)

theorem foldl_refer_create {id : Nat} (gs : List Text) {s : Refs collate}
    (hid : s.id = some id) (hs : s.Sound) :
    let s' := gs.foldl (fun s g => s.refer .create g) s
    SameRest s s' ∧ ∀ p, p ∈ s'.db.references ↔ p ∈ s.db.references ∨
      ∃ x ∈ s.db.groups.rows, x.Named collate gs ∧ p = (id, x.id) := by
  induction gs generalizing s with
  | nil => exact ⟨.refl _, by simp [GroupRow.Named]⟩
  | cons g gs ih =>
    obtain ⟨c1, c2, c3⟩ := refer_create hid hs g
    obtain ⟨h1, h2⟩ := ih (c1.id.trans hid) c3
    refine ⟨c1.trans h1, fun p => ?_⟩
    simp only [List.foldl_cons]
    rw [h2 p, c2 p, c1.groups]
    constructor
    · rintro ((h | ⟨x, hx, hg, heq⟩) | ⟨x, hx, ⟨name, hn, ha⟩, heq⟩)
      · exact .inl h
      · exact .inr ⟨x, hx, ⟨g, List.mem_cons_self, hg⟩, heq⟩
      · exact .inr ⟨x, hx, ⟨name, List.mem_cons_of_mem _ hn, ha⟩, heq⟩
    · rintro (h | ⟨x, hx, ⟨name, hn, ha⟩, heq⟩)
      · exact .inl (.inl h)
      · rcases List.mem_cons.mp hn with rfl | hn
        · exact .inl (.inr ⟨x, hx, ha, heq⟩)
        · exact .inr ⟨x, hx, ⟨name, hn, ha⟩, heq⟩

end Refs

section
variable {ipAddress : Text → Option IPAddr}

theorem rulesArray_of_mapM {text : Text} {rules : List (Option ParsedRule)}
    (h : ((eachLine text).filter fun line => !isComment line).mapM
      (fun line => parseRule ipAddress (chomp line)) = .ok rules) :
    rulesArray ipAddress text = .ok rules.reduceOption := by
  rw [rulesArray, h]
  rfl

/-- A pass that strikes references leaves those the names are the uuids of. -/
structure Struck (db : Db collate) (id : Nat) (names : List Text) (s : Refs collate) : Prop where
  references : ∀ p, p ∈ s.db.references ↔ p ∈ db.references ∧
    ∀ x ∈ db.referencees id, x.canonicalUuid ∉ names → p ≠ (id, x.id)
  cached : ∃ l, s.cached = some l ∧
    ∀ x, x ∈ l ↔ x ∈ db.referencees id ∧ x.canonicalUuid ∈ names

theorem handleRefs_delete {db : Db collate} {id : Option Nat} {rule : Option Text} {s' : Refs collate}
    (h : handleRefs ipAddress .delete rule ⟨db, id, none, []⟩ = .ok s') :
    ∃ rules, rulesArray ipAddress (rule.getD []) = .ok rules ∧
      Refs.SameRest ⟨db, id, none, []⟩ s' ∧ s'.Sound ∧
      (id = none → s'.db.references = db.references) ∧
      ∀ i, id = some i → Struck db i (ruleGroups rules) s' := by
  obtain ⟨t, ht, hs'⟩ := bind_ok h
  obtain ⟨rules, hr, hfold⟩ := foldlM_handleLine ht
  refine ⟨_, rulesArray_of_mapM hr, ?_⟩
  have f := Refs.foldl_refer_delete (ruleGroups rules.reduceOption) ⟨db, id, none, []⟩
  simp only [← hfold] at f
  obtain ⟨f1, f2, f3, f4, f5⟩ := f
  have hsound := Refs.sound_load (f5 (by intro l hl; cases hl))
  have hdb : t.load.db = db := f1
  have hid : t.load.id = id := f2
  have hcur : t.load.current = ruleGroups rules.reduceOption := f3
  have href : t.load.referencees = (id.map db.referencees).getD [] := f4
  -- with nothing to go through, both branches leave the object as it is
  have hstrike : s' = ((id.map db.referencees).getD []).foldl Refs.strike t.load := by
    simp only [href, hid, hdb] at hs'
    cases hl : (id.map db.referencees).getD [] with
    | nil =>
      rw [hl] at hs'
      cases hs'
      rfl
    | cons x xs =>
      rw [hl] at hs'
      cases hs'
      rfl
  cases id with
  | none =>
    subst hstrike
    exact ⟨⟨by rw [← hdb]; rfl, by rw [← hdb]; rfl, hid⟩, hsound, (fun _ => by rw [← hdb]; rfl),
      fun i hi => by cases hi⟩
  | some i =>
    obtain ⟨k1, k2, k3⟩ := Refs.foldl_strike (db.referencees i) (s := t.load) hid
    have hcached : t.load.cached = some (db.referencees i) := congrArg some href
    obtain ⟨l, hl, k4⟩ := Refs.foldl_strike_cached (db.referencees i) hid hcached
    subst hstrike
    refine ⟨⟨k1.groups.trans (by rw [hdb]), k1.vnics.trans (by rw [hdb]), k1.id.trans hid⟩,
      k3 hsound, (fun hi => by cases hi), fun j hj => ⟨fun p => ?_, l, hl, fun x => ?_⟩⟩
    · cases hj
      have := k2 p
      rw [hdb, hcur] at this
      exact this
    · cases hj
      rw [k4 x, hcur]
      refine and_congr_right fun hx => ⟨fun h => ?_, fun h y hy hn hxy => ?_⟩
      · by_contra hn
        exact h x hx hn rfl
      · rw [db.groups.eq_of_pk (Db.mem_referencees.mp hx).2 (Db.mem_referencees.mp hy).2 hxy] at h
        exact hn h

theorem handleRefs_create {rule : Option Text} {s s' : Refs collate} {id : Nat} (hid : s.id = some id)
    (hs : s.Sound) (h : handleRefs ipAddress .create rule s = .ok s') :
    ∃ rules, rulesArray ipAddress (rule.getD []) = .ok rules ∧ Refs.SameRest s s' ∧
      (∀ p, p ∈ s'.db.references ↔ p ∈ s.db.references ∨
        ∃ x ∈ s.db.groups.rows, x.Named collate (ruleGroups rules) ∧ p = (id, x.id)) ∧
      ∀ l, s.cached = some l → ∀ x, x ∈ s'.referencees ↔ x ∈ l ∨ x ∈ s.db.groups.rows ∧
        ∃ name ∈ ruleGroups rules, x.answersTo collate name = true ∧
          ∀ y ∈ l, y.canonicalUuid ≠ name := by
  obtain ⟨t, ht, hs'⟩ := bind_ok h
  obtain ⟨rules, hr, hfold⟩ := foldlM_handleLine ht
  refine ⟨_, rulesArray_of_mapM hr, ?_⟩
  have f := Refs.foldl_refer_create (ruleGroups rules.reduceOption)
    (s := { s with current := [] }) hid hs
  simp only [← hfold] at f
  obtain ⟨h1, h2⟩ := f
  have hload : s' = t.load := by
    simp only [Bool.or_eq_true, bne_iff_ne, ne_eq, reduceCtorEq, not_false_eq_true, or_true,
      if_true] at hs'
    cases hs'
    rfl
  rw [hload]
  refine ⟨⟨h1.groups, h1.vnics, h1.id⟩, h2, fun l hl x => ?_⟩
  obtain ⟨l', hl', h3⟩ := Refs.foldl_refer_create_cached (ruleGroups rules.reduceOption)
    (s := { s with current := [] }) hid hs hl
  rw [← hfold] at hl'
  have href : t.load.referencees = l' := by simp [Refs.load, Refs.referencees, hl']
  rw [href]
  exact h3 x

end

end GroupModel

end WakameVdc
