import WakameVdc.ReferenceEvent

/-!
# Events that follow the references

A request without rules says nothing of the references of its group, one that moves a vif
says that its group's references changed, and one that spells a group's reference to itself
anew says that it came. Apart from these the events are right.
-/

namespace WakameVdc

open Lib

namespace ReferenceEvent

open GroupModel SecurityGroup Netfilter

section
variable {ipAddress : Text → Option IPAddr} {column : Text → Option Text} {openvnet : Bool}
  {collate : Text → List Nat} {db db' : GroupModel.Db collate} {id : Nat} {uuid : Text}
  {rule : Option Text}

/-! ## Saves that go through -/

theorem handleLine_ok (action : Action) {line : Text} {parsed : Option ParsedRule}
    (h : parseRule ipAddress line = .ok parsed) (s : Refs collate) :
    ∃ s', handleLine ipAddress action s line = .ok s' := by
  unfold handleLine
  split
  · exact ⟨s, rfl⟩
  · rw [h]
    cases parsed with
    | none => exact ⟨s, rfl⟩
    | some r =>
      simp only [bind, Except.bind]
      split
      · exact ⟨s, rfl⟩
      · exact ⟨_, rfl⟩

theorem foldlM_handleLine_ok (action : Action) {lines : List Text} {rules : List (Option ParsedRule)}
    (h : (lines.filter fun line => !isComment line).mapM
      (fun line => parseRule ipAddress (chomp line)) = .ok rules) (s : Refs collate) :
    ∃ s', lines.foldlM (handleLine ipAddress action) s = .ok s' := by
  induction lines generalizing s rules with
  | nil => exact ⟨s, rfl⟩
  | cons line lines ih =>
    rw [List.foldlM_cons]
    by_cases hc : isComment line = true
    · simp only [List.filter_cons, hc, Bool.not_true, Bool.false_eq_true, if_false] at h
      obtain ⟨s', hs'⟩ := ih h s
      refine ⟨s', ?_⟩
      unfold handleLine
      rw [if_pos hc]
      exact hs'
    · simp only [List.filter_cons, hc, Bool.not_false, if_true, List.mapM_cons] at h
      obtain ⟨parsed, hp, h⟩ := bind_ok h
      obtain ⟨rest, hrest, _⟩ := bind_ok h
      rw [parseRule_chomp] at hp
      obtain ⟨t, ht⟩ := handleLine_ok action hp s
      rw [ht]
      exact ih hrest t

theorem handleRefs_ok (action : Action) {rules : List ParsedRule}
    (h : rulesArray ipAddress (rule.getD []) = .ok rules) (s : Refs collate) :
    ∃ s', handleRefs ipAddress action rule s = .ok s' := by
  obtain ⟨parsed, hp, _⟩ := bind_ok h
  obtain ⟨t, ht⟩ := foldlM_handleLine_ok action hp { s with current := [] }
  unfold handleRefs
  rw [ht]
  show ∃ s', (if t.load.referencees.isEmpty || action != .delete then Except.ok t.load
    else Except.ok _) = .ok s'
  split_ifs
  · exact ⟨_, rfl⟩
  · exact ⟨_, rfl⟩

theorem mapError_of_ok {ε ε' α : Type} {x : Except ε α} {f : ε → ε'} {a : α} (h : x = .ok a) :
    x.mapError f = .ok a := by
  rw [h]
  rfl

theorem create_ok_iff : (∃ db', create ipAddress column openvnet db uuid rule = .ok db') ↔
    ¬ db.hasUuid uuid ∧ validate ipAddress openvnet rule = .ok () ∧
      (∀ t ∈ rule, (column t).isSome) ∧ ∃ rules, rulesArray ipAddress (rule.getD []) = .ok rules := by
  constructor
  · rintro ⟨db', h⟩
    obtain ⟨_, hv, h⟩ := bind_ok h
    obtain ⟨s, hs, h⟩ := bind_ok h
    obtain ⟨stored, hst, h⟩ := bind_ok h
    obtain ⟨rules, hr, d1, _⟩ := handleRefs_delete (mapError_ok hs)
    split at h
    · cases h
    · rename_i hu
      rw [Db.hasUuid, d1.groups] at hu
      exact ⟨hu, mapError_ok hv, storeRule_ok_iff.mp ⟨stored, hst⟩, rules, hr⟩
  · rintro ⟨hu, hv, hc, rules, hr⟩
    obtain ⟨stored, hst⟩ := storeRule_ok_iff.mpr hc
    obtain ⟨s, hs⟩ := handleRefs_ok .delete hr ⟨db, none, none, []⟩
    obtain ⟨_, _, d1, _⟩ := handleRefs_delete hs
    have hu' : ¬ s.db.hasUuid uuid := by
      rw [Db.hasUuid, d1.groups]
      exact hu
    obtain ⟨t, ht⟩ := handleRefs_ok .create hr
      { s with db := s.db.insertGroup uuid stored hu', id := some s.db.groups.next }
    refine ⟨t.db, ?_⟩
    unfold create
    rw [mapError_of_ok hv, mapError_of_ok hs, hst]
    show (if h : s.db.hasUuid uuid then _ else _) = _
    rw [dif_neg hu', mapError_of_ok ht]
    rfl

theorem create_rows (h : create ipAddress column openvnet db uuid rule = .ok db') :
    ∃ stored, db'.groups.rows = db.groups.rows ++ [⟨db.groups.next, uuid, stored, 0⟩] := by
  obtain ⟨_, _, h⟩ := bind_ok h
  obtain ⟨s, hs, h⟩ := bind_ok h
  obtain ⟨stored, hst, h⟩ := bind_ok h
  obtain ⟨_, _, d1, d2, _⟩ := handleRefs_delete (mapError_ok hs)
  split at h
  · cases h
  · rename_i hu
    obtain ⟨t, ht, h⟩ := bind_ok h
    cases h
    have hsound : ({ s with db := s.db.insertGroup uuid stored hu,
                            id := some s.db.groups.next } : Refs collate).Sound := by
      intro l hl x hx
      obtain ⟨i, y, hid, _⟩ := d2 l hl x hx
      rw [d1.id] at hid
      cases hid
    obtain ⟨_, _, c1, _⟩ := handleRefs_create rfl hsound (mapError_ok ht)
    refine ⟨stored, ?_⟩
    rw [c1.groups]
    show s.db.groups.rows ++ [⟨s.db.groups.next, uuid, stored, 0⟩] = _
    rw [d1.groups]

theorem save_ok_iff : (∃ s, save ipAddress column openvnet db id rule = .ok s) ↔
    validate ipAddress openvnet rule = .ok () ∧
      (∃ rules, rulesArray ipAddress (rule.getD []) = .ok rules) ∧ Stores column db id rule := by
  constructor
  · rintro ⟨t, h⟩
    obtain ⟨stored, s, hp⟩ := save_ok h
    obtain ⟨rules, hr, _⟩ := handleRefs_delete hp.before
    exact ⟨hp.valid, ⟨rules, hr⟩, hp.stores⟩
  · rintro ⟨hv, ⟨rules, hr⟩, hst⟩
    obtain ⟨stored, hst⟩ := storeChanged_ok_iff.mpr hst
    obtain ⟨s, hs⟩ := handleRefs_ok .delete hr ⟨db, some id, none, []⟩
    obtain ⟨t, ht⟩ := handleRefs_ok .create hr { s with db := s.db.writeRule id stored }
    refine ⟨t, ?_⟩
    unfold save
    rw [mapError_of_ok hv, mapError_of_ok hs, hst]
    exact mapError_of_ok ht

/-! ## References and referencees -/

theorem mem_references_iff (hi : Inv db) {group ref : Nat} :
    (group, ref) ∈ db.references ↔ ∃ x ∈ db.referencees group, x.id = ref := by
  constructor
  · intro h
    obtain ⟨x, hx, hid⟩ := hi.referencee _ h
    exact ⟨x, Db.mem_referencees.mpr ⟨by rw [hid]; exact h, hx⟩, hid⟩
  · rintro ⟨x, hx, rfl⟩
    exact (Db.mem_referencees.mp hx).1

theorem referencees_eq_nil (hi : Inv db) :
    db.referencees id = [] ↔ ∀ ref, (id, ref) ∉ db.references := by
  rw [List.eq_nil_iff_forall_not_mem]
  constructor
  · intro h ref hr
    obtain ⟨x, hx, _⟩ := (mem_references_iff hi).mp hr
    exact h x hx
  · intro h x hx
    exact h x.id (Db.mem_referencees.mp hx).1

theorem mem_sendReferenceEvents_added {old new : List GroupRow} {group g ref : Nat} :
    .referencerAdded ref g ∈ sendReferenceEvents group old new ↔
      g = group ∧ ∃ x ∈ new, x ∉ old ∧ x.id = ref := by
  unfold sendReferenceEvents
  rw [List.mem_append, List.mem_map, List.mem_map]
  constructor
  · rintro (⟨x, _, hx⟩ | ⟨x, hm, hx⟩)
    · cases hx
    · cases hx
      obtain ⟨hn, ho⟩ := List.mem_filter.mp hm
      exact ⟨rfl, x, hn, by simpa using ho, rfl⟩
  · rintro ⟨rfl, x, hn, ho, rfl⟩
    exact .inr ⟨x, List.mem_filter.mpr ⟨hn, by simpa using ho⟩, rfl⟩

theorem mem_sendReferenceEvents_removed {old new : List GroupRow} {group g ref : Nat} :
    .referencerRemoved ref g ∈ sendReferenceEvents group old new ↔
      g = group ∧ ∃ x ∈ old, x ∉ new ∧ x.id = ref := by
  unfold sendReferenceEvents
  rw [List.mem_append, List.mem_map, List.mem_map]
  constructor
  · rintro (⟨x, hm, hx⟩ | ⟨x, _, hx⟩)
    · cases hx
      obtain ⟨ho, hn⟩ := List.mem_filter.mp hm
      exact ⟨rfl, x, ho, by simpa using hn, rfl⟩
    · cases hx
  · rintro ⟨rfl, x, ho, hn, rfl⟩
    exact .inl ⟨x, List.mem_filter.mpr ⟨ho, by simpa using hn⟩, rfl⟩

def Quiet (events : List Event) : Prop :=
  ∀ g r, Event.referencerAdded r g ∉ events ∧ Event.referencerRemoved r g ∉ events

theorem quiet_append {es fs : List Event} : Quiet (es ++ fs) ↔ Quiet es ∧ Quiet fs := by
  simp only [Quiet, List.mem_append, not_or]
  constructor
  · intro h
    exact ⟨fun g r => ⟨(h g r).1.1, (h g r).2.1⟩, fun g r => ⟨(h g r).1.2, (h g r).2.2⟩⟩
  · rintro ⟨he, hf⟩ g r
    exact ⟨⟨(he g r).1, (hf g r).1⟩, (he g r).2, (hf g r).2⟩

theorem quiet_sent_same (group : Nat) (referencees : List GroupRow) :
    Quiet (sendReferenceEvents group referencees referencees) := by
  intro g r
  rw [mem_sendReferenceEvents_added, mem_sendReferenceEvents_removed]
  constructor
  · rintro ⟨_, x, hx, hn, _⟩
    exact hn hx
  · rintro ⟨_, x, hx, hn, _⟩
    exact hn hx

theorem follow_nil_iff {events : List Event} (he : Quiet events) :
    Follow db db' events ↔ ∀ p, p ∈ db'.references ↔ p ∈ db.references := by
  constructor
  · intro h p
    obtain ⟨g, r⟩ := p
    constructor
    · intro hp
      by_contra hn
      exact (he g r).1 ((h.added g r).mpr ⟨hn, hp⟩)
    · intro hp
      by_contra hn
      exact (he g r).2 ((h.removed g r).mpr ⟨hp, hn⟩)
  · intro h
    refine ⟨?_, ?_⟩
    · intro g r
      rw [h]
      exact iff_of_false (he g r).1 fun hc => hc.1 hc.2
    · intro g r
      rw [h]
      exact iff_of_false (he g r).2 fun hc => hc.2 hc.1

/-- Where the references do not change, nothing may be published of them. -/
theorem follow_same_iff {events : List Event} (h : db'.references = db.references) :
    Follow db db' events ↔ Quiet events := by
  constructor
  · intro hf g r
    constructor
    · intro hm
      have := (hf.added g r).mp hm
      rw [h] at this
      exact this.1 this.2
    · intro hm
      have := (hf.removed g r).mp hm
      rw [h] at this
      exact this.2 this.1
  · intro hno
    exact (follow_nil_iff hno).mpr fun p => by rw [h]

/-- Where other groups keep their references, the two lists of the group must tell of its
own. -/
theorem follow_sent_iff {old new : List GroupRow} {pre : List Event} (hpre : Quiet pre)
    (hothers : ∀ p, p.1 ≠ id → (p ∈ db'.references ↔ p ∈ db.references)) :
    Follow db db' (pre ++ sendReferenceEvents id old new) ↔ ∀ ref,
      ((∃ x ∈ new, x ∉ old ∧ x.id = ref) ↔
        (id, ref) ∉ db.references ∧ (id, ref) ∈ db'.references) ∧
      ((∃ x ∈ old, x ∉ new ∧ x.id = ref) ↔
        (id, ref) ∈ db.references ∧ (id, ref) ∉ db'.references) := by
  have hadded : ∀ g r, .referencerAdded r g ∈ pre ++ sendReferenceEvents id old new ↔
      g = id ∧ ∃ x ∈ new, x ∉ old ∧ x.id = r := fun g r => by
    rw [List.mem_append, or_iff_right (hpre g r).1, mem_sendReferenceEvents_added]
  have hremoved : ∀ g r, .referencerRemoved r g ∈ pre ++ sendReferenceEvents id old new ↔
      g = id ∧ ∃ x ∈ old, x ∉ new ∧ x.id = r := fun g r => by
    rw [List.mem_append, or_iff_right (hpre g r).2, mem_sendReferenceEvents_removed]
  constructor
  · intro h ref
    have ha := h.added id ref
    have hr := h.removed id ref
    rw [hadded] at ha
    rw [hremoved] at hr
    exact ⟨by simpa using ha, by simpa using hr⟩
  · intro h
    refine ⟨fun g r => ?_, fun g r => ?_⟩
    · rw [hadded]
      by_cases hg : g = id
      · rw [hg]
        simpa using (h r).1
      · rw [hothers (g, r) hg]
        simp [hg]
    · rw [hremoved]
      by_cases hg : g = id
      · rw [hg]
        simpa using (h r).2
      · rw [hothers (g, r) hg]
        simp [hg]

/-! ## Requests about a group -/

theorem next_not_referencer (hi : Inv db) (ref : Nat) :
    (db.groups.next, ref) ∉ db.references := by
  intro h
  obtain ⟨g, hg, hid⟩ := hi.referencer _ h
  have := db.groups.bound g hg
  have hpk : Row.pk g = db.groups.next := hid
  omega

/-- A new group refers to the groups its rules name, itself among them. -/
theorem referencees_create_iff (hi : Inv db)
    (h : create ipAddress column openvnet db uuid rule = .ok db') {rules : List ParsedRule}
    (hr : rulesArray ipAddress (rule.getD []) = .ok rules) :
    db'.referencees db.groups.next ≠ [] ↔ NamesGroup db uuid rules := by
  obtain ⟨stored, hrows⟩ := create_rows h
  obtain ⟨rules', hr', hexact⟩ := (create_saved hi h).named
  rw [hr] at hr'
  cases hr'
  rw [List.ne_nil_iff_exists_cons]
  constructor
  · rintro ⟨x, l, hx⟩
    obtain ⟨hxm, hn⟩ := (hexact x).mp (by rw [hx]; exact List.mem_cons_self)
    rw [hrows, List.mem_append, List.mem_singleton] at hxm
    rcases hxm with hxm | rfl
    · exact .inl ⟨x, hxm, hn⟩
    · exact .inr hn
  · intro hn
    have hne : ∃ x, x ∈ db'.referencees db.groups.next := by
      rcases hn with ⟨x, hx, hn⟩ | hn
      · exact ⟨x, (hexact x).mpr ⟨by rw [hrows]; exact List.mem_append_left _ hx, hn⟩⟩
      · refine ⟨⟨db.groups.next, uuid, stored, 0⟩, (hexact _).mpr ⟨?_, hn⟩⟩
        rw [hrows]
        exact List.mem_append_right _ (List.mem_singleton.mpr rfl)
    exact List.exists_cons_of_ne_nil (List.ne_nil_of_mem hne.choose_spec)

theorem follow_created (hi : Inv db)
    (h : create ipAddress column openvnet db uuid rule = .ok db') :
    Follow db db' (sendReferenceEvents db.groups.next [] (db'.referencees db.groups.next)) := by
  have hs := create_saved hi h
  have hnew : ∀ ref, (db.groups.next, ref) ∈ db'.references ↔
      ∃ x ∈ db'.referencees db.groups.next, x.id = ref :=
    fun _ => mem_references_iff (inv_of_saved hi hs)
  rw [← List.nil_append (sendReferenceEvents _ _ _)]
  refine (follow_sent_iff (by simp [Quiet]) hs.others).mpr fun ref => ⟨?_, ?_⟩
  · rw [hnew]
    simp [next_not_referencer hi ref]
  · simp [next_not_referencer hi ref]

theorem postGroup_iff (hi : Inv db) (labels : Bool) :
    Follow db (postGroup ipAddress column openvnet db uuid rule labels).1
        (postGroup ipAddress column openvnet db uuid rule labels).2 ↔
      ¬ (Request.postGroup uuid rule labels).Misreports ipAddress column openvnet db := by
  unfold postGroup
  cases hc : create ipAddress column openvnet db uuid rule with
  | error e =>
    apply iff_of_true
    · exact (follow_same_iff rfl).mpr (by simp [Quiet])
    · rintro ⟨_, hu, hv, ht, rules, hr, _⟩
      obtain ⟨db', hok⟩ := create_ok_iff.mpr ⟨hu, hv, ht, rules, hr⟩
      rw [hc] at hok
      cases hok
  | ok db' =>
    obtain ⟨hu, hv, ht, rules, hr⟩ := create_ok_iff.mp ⟨db', hc⟩
    cases labels with
    | true =>
      apply iff_of_true (follow_created hi hc)
      rintro ⟨hl, _⟩
      cases hl
    | false =>
      have hne : ¬ (Request.postGroup uuid rule false).Misreports ipAddress column openvnet db ↔
          db'.referencees db.groups.next = [] := by
        rw [← not_iff_not, not_not, ← ne_eq, referencees_create_iff hi hc hr]
        constructor
        · rintro ⟨_, _, _, _, rules', hr', hn⟩
          rw [hr] at hr'
          cases hr'
          exact hn
        · intro hn
          exact ⟨rfl, hu, hv, ht, rules, hr, hn⟩
      rw [hne]
      refine (follow_same_iff rfl).trans ?_
      simp only [Quiet, mem_sendReferenceEvents_added, mem_sendReferenceEvents_removed]
      constructor
      · intro hno
        rw [List.eq_nil_iff_forall_not_mem]
        intro x hx
        exact (hno db.groups.next x.id).1 ⟨rfl, x, hx, List.not_mem_nil, rfl⟩
      · intro hnil g r
        rw [hnil]
        simp

/-! ## Saved groups -/

/-- The groups an object refers to after its save: those read before, if they are named by
their uuids, and what was read again for the other names. -/
theorem mem_referencees_save {s : Refs collate} {rules : List ParsedRule}
    (hg : (db.groups.find id).isSome) (h : save ipAddress column openvnet db id rule = .ok s)
    (hr : rulesArray ipAddress (rule.getD []) = .ok rules) (x : GroupRow) :
    x ∈ s.referencees ↔ (x ∈ db.referencees id ∧ x.canonicalUuid ∈ ruleGroups rules) ∨
      x ∈ s.db.groups.rows ∧ ∃ name ∈ ruleGroups rules, x.answersTo collate name = true ∧
        ∀ y ∈ db.referencees id, y.canonicalUuid ≠ name := by
  obtain ⟨stored, t, hp⟩ := save_ok h
  obtain ⟨rules', hr', d1, d2, _, d3⟩ := handleRefs_delete hp.before
  rw [hr] at hr'
  cases hr'
  obtain ⟨l, hl, hmem⟩ := (d3 id rfl).cached
  obtain ⟨rules', hr', c1, _, c3⟩ := handleRefs_create
    (s := { t with db := t.db.writeRule id stored }) d1.id (sound_writeRule d1.groups d2 hg) hp.after
  rw [hr] at hr'
  cases hr'
  rw [c3 l hl x, hmem, c1.groups]
  refine or_congr_right (and_congr_right fun _ => exists_congr fun name => and_congr_right fun hn =>
    and_congr_right fun _ => ⟨fun hno y hy hyn => ?_, fun hno y hy => hno y ((hmem y).mp hy).1⟩)
  exact hno y ((hmem y).mpr ⟨hy, by rw [hyn]; exact hn⟩) hyn

/-- The row of a saved group differs from what was read of it before. -/
theorem save_self {s : Refs collate} {g : GroupRow} (hg : db.groups.find id = some g)
    (h : save ipAddress column openvnet db id rule = .ok s) :
    ∃ g' ∈ s.db.groups.rows, g'.id = g.id ∧ g'.uuid = g.uuid ∧ g' ∉ db.groups.rows := by
  obtain ⟨stored, t, hp⟩ := save_ok h
  have hsome : (db.groups.find id).isSome := by rw [hg]; rfl
  obtain ⟨_, _, d1, d2, _, _⟩ := handleRefs_delete hp.before
  obtain ⟨_, _, c1, _⟩ := handleRefs_create
    (s := { t with db := t.db.writeRule id stored }) d1.id (sound_writeRule d1.groups d2 hsome) hp.after
  have hfind := t.db.find_writeRule id stored id
  rw [if_pos rfl, d1.groups, hg] at hfind
  have hnew := Table.mem_of_find _ hfind
  refine ⟨{ g with rule := stored, saves := g.saves + 1 }, by rw [c1.groups]; exact hnew, rfl, rfl,
    fun hm => ?_⟩
  have heq : g.saves + 1 = g.saves :=
    congrArg GroupRow.saves (db.groups.eq_of_pk hm (Table.mem_of_find _ hg) rfl)
  omega

section
variable {s : Refs collate} {g : GroupRow} {rules : List ParsedRule}

theorem answersTo_of_canonicalUuid {y : GroupRow} {name : Text} (h : y.canonicalUuid = name) :
    y.answersTo collate name = true := by
  rw [← h]
  exact y.answersTo_canonicalUuid

/-- What is named of the table before the save is named after it. -/
theorem mem_references_save_iff (hi : Inv db) (hg : (db.groups.find id).isSome)
    (h : save ipAddress column openvnet db id rule = .ok s)
    (hr : rulesArray ipAddress (rule.getD []) = .ok rules) {x : GroupRow}
    (hx : x ∈ db.groups.rows ∨ x ∈ s.db.groups.rows) :
    (id, x.id) ∈ s.db.references ↔ x.Named collate (ruleGroups rules) := by
  have hs := save_saved hi hg h
  obtain ⟨rules', hr', hexact⟩ := hs.named
  rw [hr] at hr'
  cases hr'
  have new : ∀ {y : GroupRow}, y ∈ s.db.groups.rows →
      ((id, y.id) ∈ s.db.references ↔ y.Named collate (ruleGroups rules)) := by
    intro y hy
    have := hexact y
    rw [Db.mem_referencees] at this
    exact ⟨fun hp => (this.mp ⟨hp, hy⟩).2, fun hn => (this.mpr ⟨hy, hn⟩).1⟩
  rcases hx with hx | hx
  · obtain ⟨x', hx', hid, hu⟩ := hs.kept x hx
    rw [← hid, new hx']
    exact exists_congr fun name => by rw [GroupRow.answersTo_congr hu]
  · exact new hx

/-- A name of a group that is not its uuid is the uuid of no group. -/
theorem not_uuid_of_named {x : GroupRow} (hx : x ∈ db.groups.rows) {name : Text}
    (hxn : x.answersTo collate name = true) (hne : x.canonicalUuid ≠ name) :
    ∀ y ∈ db.referencees id, y.canonicalUuid ≠ name := by
  intro y hy hyn
  have hyx : y = x := Db.eq_of_answersTo (Db.mem_referencees.mp hy).2 hx
    (answersTo_of_canonicalUuid hyn) hxn
  exact hne (by rw [← hyx]; exact hyn)

/-- A reference to the group itself that is spelled anew is published, though it was
there. -/
theorem not_follow_respelled {pre : List Event} (hpre : Quiet pre) (hi : Inv db)
    (hg : db.groups.find id = some g) (h : save ipAddress column openvnet db id rule = .ok s)
    (hr : rulesArray ipAddress (rule.getD []) = .ok rules) (hre : Respelled db id g rules) :
    ¬ Follow db s.db (pre ++ sendReferenceEvents id (db.referencees id) s.referencees) := by
  have hsome : (db.groups.find id).isSome := by rw [hg]; rfl
  obtain ⟨hgr, name, hn, hne, hgn⟩ := hre
  obtain ⟨hgm, hgid⟩ := db.groups.find_eq_some.mp hg
  have hgid : g.id = id := hgid
  obtain ⟨g', hg', hid, hu, hnew⟩ := save_self hg h
  rw [follow_sent_iff hpre (save_saved hi hsome h).others]
  intro hf
  have hmem : g' ∈ s.referencees := by
    refine (mem_referencees_save hsome h hr g').mpr (.inr ⟨hg', name, hn, ?_, ?_⟩)
    · rw [GroupRow.answersTo_congr hu]
      exact hgn
    · exact not_uuid_of_named hgm hgn hne.symm
  have := (hf id).1.mp ⟨g', hmem, fun ho => hnew (Db.mem_referencees.mp ho).2, hid.trans hgid⟩
  apply this.1
  rw [← hgid]
  exact hgid ▸ (Db.mem_referencees.mp hgr).1

/-- A row from before the save that is named otherwise than by its uuid is read again. -/
theorem again_of_named (hi : Inv db) (hg : db.groups.find id = some g)
    (h : save ipAddress column openvnet db id rule = .ok s)
    (hr : rulesArray ipAddress (rule.getD []) = .ok rules) (hre : ¬ Respelled db id g rules)
    {x : GroupRow} (hx : x ∈ db.referencees id) {name : Text} (hn : name ∈ ruleGroups rules)
    (hxn : x.answersTo collate name = true) (hne : x.canonicalUuid ≠ name) : x ∈ s.referencees := by
  have hsome : (db.groups.find id).isSome := by rw [hg]; rfl
  obtain ⟨hgm, hgid⟩ := db.groups.find_eq_some.mp hg
  have hs := save_saved hi hsome h
  have hxm := (Db.mem_referencees.mp hx).2
  by_cases hid : x.id = id
  · have hxg : x = g := db.groups.eq_of_pk hxm hgm (hid.trans hgid.symm)
    subst hxg
    exact absurd ⟨hx, name, hn, hne.symm, hxn⟩ hre
  · obtain ⟨x', hx', hid', _⟩ := hs.kept x hxm
    have hxx : x' = x := db.groups.eq_of_pk (hs.rows x' hx' (by rw [hid']; exact hid)) hxm hid'
    exact (mem_referencees_save hsome h hr x).mpr
      (.inr ⟨hxx ▸ hx', name, hn, hxn, not_uuid_of_named hxm hxn hne⟩)

theorem added_saved_iff (hi : Inv db) (hg : db.groups.find id = some g)
    (h : save ipAddress column openvnet db id rule = .ok s)
    (hr : rulesArray ipAddress (rule.getD []) = .ok rules) (hre : ¬ Respelled db id g rules)
    (ref : Nat) : (∃ x ∈ s.referencees, x ∉ db.referencees id ∧ x.id = ref) ↔
      (id, ref) ∉ db.references ∧ (id, ref) ∈ s.db.references := by
  have hsome : (db.groups.find id).isSome := by rw [hg]; rfl
  obtain ⟨hgm, hgid⟩ := db.groups.find_eq_some.mp hg
  have hs := save_saved hi hsome h
  have hmem := mem_referencees_save hsome h hr
  have hnamed := fun {x} => mem_references_save_iff hi hsome h hr (x := x)
  constructor
  · rintro ⟨x, hx, hold, rfl⟩
    rcases (hmem x).mp hx with ⟨ho, _⟩ | ⟨hxm, name, hn, hxn, hno⟩
    · exact absurd ho hold
    · refine ⟨fun hp => ?_, (hnamed (.inr hxm)).mpr ⟨name, hn, hxn⟩⟩
      obtain ⟨y, hy, hyid⟩ := (mem_references_iff hi).mp hp
      have hym := (Db.mem_referencees.mp hy).2
      by_cases hid : x.id = id
      · have hyg : y = g := db.groups.eq_of_pk hym hgm ((hyid.trans hid).trans hgid.symm)
        subst hyg
        obtain ⟨y', hy', hyid', hyu⟩ := hs.kept y hym
        have hxy : x = y' := s.db.groups.eq_of_pk hxm hy' (hyid.symm.trans hyid'.symm)
        apply hre
        refine ⟨hy, name, hn, (hno y hy).symm, ?_⟩
        rw [← GroupRow.answersTo_congr hyu, ← hxy]
        exact hxn
      · have hxy : x = y := db.groups.eq_of_pk (hs.rows x hxm hid) hym hyid.symm
        exact hold (hxy ▸ hy)
  · rintro ⟨hold, hp⟩
    obtain ⟨x, hx, rfl⟩ := (mem_references_iff (inv_of_saved hi hs)).mp hp
    have hxm := (Db.mem_referencees.mp hx).2
    obtain ⟨name, hn, hxn⟩ := (hnamed (.inr hxm)).mp hp
    refine ⟨x, (hmem x).mpr (.inr ⟨hxm, name, hn, hxn, ?_⟩), ?_, rfl⟩
    · intro y hy hyn
      obtain ⟨y', hy', hyid, hyu⟩ := hs.kept y (Db.mem_referencees.mp hy).2
      have hxy : x = y' := Db.eq_of_answersTo hxm hy' hxn
        (by rw [GroupRow.answersTo_congr hyu]; exact answersTo_of_canonicalUuid hyn)
      apply hold
      rw [hxy, hyid]
      exact (Db.mem_referencees.mp hy).1
    · intro ho
      exact hold (Db.mem_referencees.mp ho).1

theorem removed_saved_iff (hi : Inv db) (hg : db.groups.find id = some g)
    (h : save ipAddress column openvnet db id rule = .ok s)
    (hr : rulesArray ipAddress (rule.getD []) = .ok rules) (hre : ¬ Respelled db id g rules)
    (ref : Nat) : (∃ x ∈ db.referencees id, x ∉ s.referencees ∧ x.id = ref) ↔
      (id, ref) ∈ db.references ∧ (id, ref) ∉ s.db.references := by
  have hsome : (db.groups.find id).isSome := by rw [hg]; rfl
  have hmem := mem_referencees_save hsome h hr
  have hnamed := fun {x} => mem_references_save_iff hi hsome h hr (x := x)
  constructor
  · rintro ⟨x, hx, hgone, rfl⟩
    obtain ⟨hp, hxm⟩ := Db.mem_referencees.mp hx
    refine ⟨hp, fun hp' => hgone ?_⟩
    obtain ⟨name, hn, hxn⟩ := (hnamed (.inl hxm)).mp hp'
    by_cases hcan : x.canonicalUuid = name
    · exact (hmem x).mpr (.inl ⟨hx, by rw [hcan]; exact hn⟩)
    · exact again_of_named hi hg h hr hre hx hn hxn hcan
  · rintro ⟨hp, hgone⟩
    obtain ⟨x, hx, rfl⟩ := (mem_references_iff hi).mp hp
    have hxm := (Db.mem_referencees.mp hx).2
    refine ⟨x, hx, fun hm => hgone ?_, rfl⟩
    rcases (hmem x).mp hm with ⟨_, hn⟩ | ⟨_, name, hn, hxn, _⟩
    · exact (hnamed (.inl hxm)).mpr ⟨_, hn, x.answersTo_canonicalUuid⟩
    · exact (hnamed (.inl hxm)).mpr ⟨name, hn, hxn⟩

theorem follow_saved {pre : List Event} (hpre : Quiet pre) (hi : Inv db)
    (hg : db.groups.find id = some g) (h : save ipAddress column openvnet db id rule = .ok s)
    (hr : rulesArray ipAddress (rule.getD []) = .ok rules) (hre : ¬ Respelled db id g rules) :
    Follow db s.db (pre ++ sendReferenceEvents id (db.referencees id) s.referencees) := by
  have hs := save_saved hi (by rw [hg]; rfl) h
  refine (follow_sent_iff hpre hs.others).mpr fun ref => ⟨?_, ?_⟩
  · exact added_saved_iff hi hg h hr hre ref
  · exact removed_saved_iff hi hg h hr hre ref

/-- The rows of the table are those from before the save, up to that of the group. -/
theorem row_before (hs : Saved ipAddress column db db' id rule) (hg : (db.groups.find id).isSome)
    {x : GroupRow} (hx : x ∈ db'.groups.rows) :
    ∃ y ∈ db.groups.rows, y.id = x.id ∧ y.uuid = x.uuid := by
  by_cases hid : x.id = id
  · obtain ⟨g, hg⟩ := Option.isSome_iff_exists.mp hg
    obtain ⟨hgm, hgid⟩ := db.groups.find_eq_some.mp hg
    have hgx : g.id = x.id := hgid.trans hid.symm
    obtain ⟨g', hg', hid', hu⟩ := hs.kept g hgm
    have hxg : x = g' := db'.groups.eq_of_pk hx hg' (hgx.symm.trans hid'.symm)
    exact ⟨g, hgm, hgx, by rw [hxg, hu]⟩
  · exact ⟨x, hs.rows x hx hid, rfl, rfl⟩

/-- A save changes the references unless they were what the rules name. -/
theorem references_saved_iff (hi : Inv db) (hg : (db.groups.find id).isSome)
    (h : save ipAddress column openvnet db id rule = .ok s)
    (hr : rulesArray ipAddress (rule.getD []) = .ok rules) :
    (∀ p, p ∈ s.db.references ↔ p ∈ db.references) ↔
      ∀ x ∈ db.groups.rows, x.Named collate (ruleGroups rules) ↔ x ∈ db.referencees id := by
  have hs := save_saved hi hg h
  have hnamed := fun {x} => mem_references_save_iff hi hg h hr (x := x)
  constructor
  · intro hsame x hx
    rw [← hnamed (.inl hx), hsame, Db.mem_referencees, and_iff_left hx]
  · rintro hall ⟨a, ref⟩
    by_cases ha : a = id
    · rw [ha, mem_references_iff hi, mem_references_iff (inv_of_saved hi hs)]
      constructor
      · rintro ⟨x, hx, rfl⟩
        obtain ⟨hp, hxm⟩ := Db.mem_referencees.mp hx
        obtain ⟨name, hn, hxn⟩ := (hnamed (.inr hxm)).mp hp
        obtain ⟨y, hy, hyid, hyu⟩ := row_before hs hg hxm
        refine ⟨y, (hall y hy).mp ⟨name, hn, ?_⟩, hyid⟩
        rw [GroupRow.answersTo_congr hyu]
        exact hxn
      · rintro ⟨x, hx, rfl⟩
        obtain ⟨hp, hxm⟩ := Db.mem_referencees.mp hx
        obtain ⟨x', hx', hid, _⟩ := hs.kept x hxm
        refine ⟨x', Db.mem_referencees.mpr ⟨?_, hx'⟩, hid⟩
        rw [hid]
        exact (hnamed (.inl hxm)).mpr ((hall x hxm).mpr hx)
    · exact hs.others (a, ref) ha

end

theorem changed_iff {g : GroupRow} {others : Bool} :
    (others || rule.any fun t => g.rule != some t) = true ↔
      others = true ∨ ∃ t ∈ rule, g.rule ≠ some t := by
  simp [Option.any_eq_true]

theorem putGroup_iff (hi : Inv db) (others : Bool) :
    Follow db (putGroup ipAddress column openvnet db id rule others).1
        (putGroup ipAddress column openvnet db id rule others).2 ↔
      ¬ (Request.putGroup id rule others).Misreports ipAddress column openvnet db := by
  unfold putGroup
  cases hg : db.groups.find id with
  | none =>
    apply iff_of_true
    · exact (follow_same_iff rfl).mpr (by simp [Quiet])
    · rintro ⟨g, _, hs, _⟩
      have := hs.found
      rw [hg] at this
      cases this
  | some g =>
    have hsome : (db.groups.find id).isSome := by rw [hg]; rfl
    dsimp only
    by_cases hch : (others || rule.any fun t => g.rule != some t) = true
    · rw [if_pos hch]
      cases hu : save ipAddress column openvnet db id (rule.or g.rule) with
      | error e =>
        apply iff_of_true
        · exact (follow_same_iff rfl).mpr (by simp [Quiet])
        · rintro ⟨g', rules, hs, _⟩
          cases hg.symm.trans hs.found
          obtain ⟨t, hok⟩ := save_ok_iff.mpr ⟨hs.valid, ⟨rules, hs.rules⟩, hs.stores⟩
          rw [hu] at hok
          cases hok
      | ok s =>
        obtain ⟨hv, ⟨rules, hr⟩, hst⟩ := save_ok_iff.mp ⟨s, hu⟩
        have hsaves : Saves ipAddress column openvnet db id rule others g rules :=
          ⟨hg, changed_iff.mp hch, hv, hr, hst⟩
        cases rule with
        | none =>
          refine ((follow_nil_iff (by simp [Quiet])).trans
            (references_saved_iff hi hsome hu hr)).trans ?_
          constructor
          · rintro hall ⟨g', rules', hs, hno⟩
            cases hg.symm.trans hs.found
            cases hr.symm.trans hs.rules
            exact hno hall
          · intro hmis
            by_contra hno
            exact hmis ⟨g, rules, hsaves, hno⟩
        | some t =>
          simp only [Option.isSome_some, if_true]
          constructor
          · rintro hf ⟨g', rules', hs, hre⟩
            cases hg.symm.trans hs.found
            cases hr.symm.trans hs.rules
            exact not_follow_respelled (by simp [Quiet]) hi hg hu hr hre hf
          · intro hmis
            exact follow_saved (by simp [Quiet]) hi hg hu hr fun hre => hmis ⟨g, rules, hsaves, hre⟩
    · rw [if_neg hch]
      apply iff_of_true
      · refine (follow_same_iff rfl).mpr ?_
        cases rule with
        | none => simp [Quiet]
        | some t =>
          exact quiet_append.mpr ⟨by simp [Quiet], quiet_sent_same id (db.referencees id)⟩
      · rintro ⟨g', rules, hs, _⟩
        cases hg.symm.trans hs.found
        exact hch (changed_iff.mpr hs.changed)

theorem deleteGroup_iff (hi : Inv db) :
    Follow db (deleteGroup db id).1 (deleteGroup db id).2 ↔
      ¬ (Request.deleteGroup id).Misreports ipAddress column openvnet db := by
  unfold deleteGroup
  cases hg : db.groups.find id with
  | none =>
    apply iff_of_true
    · exact (follow_same_iff rfl).mpr (by simp [Quiet])
    · rintro ⟨hs, _⟩
      rw [hg] at hs
      cases hs
  | some g =>
    cases hd : destroy db id with
    | error e =>
      apply iff_of_true
      · exact (follow_same_iff rfl).mpr (by simp [Quiet])
      · rintro ⟨_, hv, hr, _⟩
        obtain ⟨db', hok⟩ := destroy_ok_iff.mpr ⟨hv, hr⟩
        rw [hd] at hok
        cases hok
    | ok db' =>
      obtain ⟨hv, hr⟩ := destroy_ok_iff.mp ⟨db', hd⟩
      have hrefs : ∀ p, p ∈ db'.references ↔ p ∈ db.references ∧ p.1 ≠ id := by
        unfold destroy at hd
        split at hd
        · cases hd
        · split at hd
          · cases hd
          · cases hd
            intro p
            simp [Db.deleteGroup]
      have hmis : ¬ (Request.deleteGroup id).Misreports ipAddress column openvnet db ↔
          db.referencees id = [] := by
        rw [← not_iff_not, not_not]
        constructor
        · rintro ⟨_, _, _, hne⟩
          exact hne
        · intro hne
          exact ⟨by rw [hg]; rfl, hv, hr, hne⟩
      refine (follow_nil_iff (by simp [Quiet])).trans ?_
      rw [hmis, referencees_eq_nil hi]
      constructor
      · intro hsame ref hp
        exact ((hrefs _).mp ((hsame _).mpr hp)).2 rfl
      · rintro hno ⟨g, ref⟩
        rw [hrefs]
        constructor
        · intro hp
          exact hp.1
        · intro hp
          refine ⟨hp, ?_⟩
          intro he
          exact hno ref (by rw [← show g = id from he]; exact hp)

/-! ## Vifs that join and leave -/

theorem quiet_flatMap {α : Type} {l : List α} {f : α → List Event} :
    Quiet (l.flatMap f) ↔ ∀ a ∈ l, Quiet (f a) := by
  simp only [Quiet, List.mem_flatMap, not_exists, not_and]
  constructor
  · intro h a ha g r
    exact ⟨(h g r).1 a ha, (h g r).2 a ha⟩
  · intro h g r
    exact ⟨fun a ha => (h a ha g r).1, fun a ha => (h a ha g r).2⟩

theorem quiet_joinEvents_iff (vif group : Nat) :
    Quiet (joinEvents db vif group) ↔ db.referencees group = [] := by
  rw [List.eq_nil_iff_forall_not_mem]
  constructor
  · intro h x hx
    apply (h group x.id).1
    exact List.mem_append_right _ (List.mem_map.mpr ⟨x, hx, rfl⟩)
  · intro h g r
    simp only [joinEvents, List.mem_append, List.mem_map]
    constructor
    · rintro (hm | ⟨x, hx, _⟩)
      · simp at hm
      · exact h x hx
    · rintro (hm | ⟨x, hx, _⟩)
      · simp at hm
      · exact h x hx

theorem quiet_leaveEvents_iff (vif group : Nat) :
    Quiet (leaveEvents db vif group) ↔ db.referencees group = [] := by
  rw [List.eq_nil_iff_forall_not_mem]
  constructor
  · intro h x hx
    apply (h group x.id).2
    exact List.mem_append_right _ (List.mem_map.mpr ⟨x, hx, rfl⟩)
  · intro h g r
    simp only [leaveEvents, List.mem_append, List.mem_map]
    constructor
    · rintro (hm | ⟨x, hx, _⟩)
      · simp at hm
      · exact h x hx
    · rintro (hm | ⟨x, hx, _⟩)
      · simp at hm
      · exact h x hx

theorem quiet_nil : Quiet [] := by simp [Quiet]

theorem quiet_addSecurityGroup_iff (vif : Nat) (accepted : Bool) :
    Quiet (addSecurityGroup db vif id accepted).2 ↔
      ¬ (Request.addSecurityGroup vif id accepted).Misreports ipAddress column openvnet db := by
  unfold addSecurityGroup
  split_ifs with h
  · simp only [Bool.and_eq_true, Bool.not_eq_true', List.contains_eq_mem, decide_eq_false_iff_not] at h
    rw [quiet_joinEvents_iff, ← not_iff_not, not_not]
    constructor
    · intro hne
      exact ⟨h.1.1, h.1.2, h.2, hne⟩
    · rintro ⟨_, _, _, hne⟩
      exact hne
  · apply iff_of_true quiet_nil
    rintro ⟨ha, hs, hm, _⟩
    exact h (by simp [ha, hs, hm])

theorem quiet_removeSecurityGroup_iff (vif : Nat) :
    Quiet (removeSecurityGroup db vif id).2 ↔
      ¬ (Request.removeSecurityGroup vif id).Misreports ipAddress column openvnet db := by
  unfold removeSecurityGroup
  split_ifs with h
  · simp only [Bool.and_eq_true, List.contains_eq_mem, decide_eq_true_eq] at h
    rw [quiet_leaveEvents_iff, ← not_iff_not, not_not]
    constructor
    · intro hne
      exact ⟨h.1, h.2, hne⟩
    · rintro ⟨_, _, hne⟩
      exact hne
  · apply iff_of_true quiet_nil
    rintro ⟨hs, hm, _⟩
    exact h (by simp [hs, hm])

theorem quiet_putInstance_iff (r : InstanceGroups) :
    Quiet (r.run db).2 ↔ ¬ (Request.putInstance r).Misreports ipAddress column openvnet db := by
  unfold InstanceGroups.run
  cases hg : r.uuids.mapM db.byUuid with
  | none =>
    apply iff_of_true quiet_nil
    rintro ⟨_, groups, hg', _⟩
    rw [hg] at hg'
    cases hg'
  | some groups =>
    dsimp only
    split_ifs with hn
    · apply iff_of_true quiet_nil
      rintro ⟨hne, _⟩
      exact hne (List.isEmpty_iff.mp hn)
    · rw [quiet_append, quiet_flatMap, quiet_flatMap, ← not_iff_not, not_not]
      simp only [quiet_leaveEvents_iff, quiet_joinEvents_iff]
      rw [← List.forall_mem_append]
      constructor
      · intro h
        obtain ⟨p, hp⟩ := not_forall.mp h
        obtain ⟨hm, hne⟩ := Classical.not_imp.mp hp
        exact ⟨fun he => hn (List.isEmpty_iff.mpr he), groups, hg, p, hm, hne⟩
      · rintro ⟨_, groups', hg', p, hm, hne⟩ h
        rw [hg] at hg'
        cases hg'
        exact hne (h p hm)

/-- The requests that move vifs keep groups and references. -/
structure SameGroups (db db' : GroupModel.Db collate) : Prop where
  groups : db'.groups = db.groups
  references : db'.references = db.references

theorem sameGroups_removeVnics (l : List (Nat × Nat)) (db : GroupModel.Db collate) :
    SameGroups db (l.foldl (fun db p => removeVnic db p.1 p.2) db) := by
  induction l generalizing db with
  | nil => exact ⟨rfl, rfl⟩
  | cons p l ih => exact ⟨(ih _).groups, (ih _).references⟩

theorem sameGroups_addVnics (l : List (Nat × Nat)) (db : GroupModel.Db collate) :
    SameGroups db (l.foldl (fun db p => addVnic db p.1 p.2) db) := by
  induction l generalizing db with
  | nil => exact ⟨rfl, rfl⟩
  | cons p l ih => exact ⟨(ih _).groups, (ih _).references⟩

theorem sameGroups_putInstance (r : InstanceGroups) : SameGroups db (r.run db).1 := by
  unfold InstanceGroups.run
  cases r.uuids.mapM db.byUuid with
  | none => exact ⟨rfl, rfl⟩
  | some groups =>
    dsimp only
    split_ifs with hn
    · exact ⟨rfl, rfl⟩
    · have hleft := sameGroups_removeVnics (r.leaves db) db
      have hjoin := sameGroups_addVnics (r.joins db groups) (r.left db)
      exact ⟨hjoin.groups.trans hleft.groups, hjoin.references.trans hleft.references⟩

theorem sameGroups_addSecurityGroup (vif : Nat) (accepted : Bool) :
    SameGroups db (addSecurityGroup db vif id accepted).1 := by
  unfold addSecurityGroup
  split_ifs
  · exact ⟨rfl, rfl⟩
  · exact ⟨rfl, rfl⟩

theorem sameGroups_removeSecurityGroup (vif : Nat) :
    SameGroups db (removeSecurityGroup db vif id).1 := by
  unfold removeSecurityGroup
  split_ifs
  · exact ⟨rfl, rfl⟩
  · exact ⟨rfl, rfl⟩

theorem inv_sameGroups (hi : Inv db) (h : SameGroups db db') : Inv db' := by
  refine ⟨?_, ?_⟩
  · rw [h.groups, h.references]
    exact hi.referencer
  · rw [h.groups, h.references]
    exact hi.referencee

/-! ## One request -/

variable {r : Request}

theorem follow_iff (hi : Inv db) (r : Request) :
    Follow db (r.run ipAddress column openvnet db).1 (r.run ipAddress column openvnet db).2 ↔
      ¬ r.Misreports ipAddress column openvnet db := by
  cases r with
  | postGroup uuid rule labels => exact postGroup_iff hi labels
  | putGroup id rule others => exact putGroup_iff hi others
  | deleteGroup id => exact deleteGroup_iff hi
  | addSecurityGroup vif id accepted =>
    exact (follow_same_iff (sameGroups_addSecurityGroup vif accepted).references).trans
      (quiet_addSecurityGroup_iff vif accepted)
  | removeSecurityGroup vif id =>
    exact (follow_same_iff (sameGroups_removeSecurityGroup vif).references).trans
      (quiet_removeSecurityGroup_iff vif)
  | putInstance r =>
    exact (follow_same_iff (sameGroups_putInstance r).references).trans (quiet_putInstance_iff r)

theorem foldl_handle_quiet {events : List Event} (h : Quiet events) (n : Listener) :
    events.foldl (Listener.handle db) n = n := by
  induction events generalizing n with
  | nil => rfl
  | cons e events ih =>
    have hq := quiet_append.mp (show Quiet ([e] ++ events) from h)
    have he : n.handle db e = n := by
      cases e with
      | referencerAdded g r => exact absurd (List.mem_singleton.mpr rfl) (hq.1 r g).1
      | referencerRemoved g r => exact absurd (List.mem_singleton.mpr rfl) (hq.1 r g).2
      | _ => rfl
    rw [List.foldl_cons, he]
    exact ih hq.2 n

/-- A request by which vifs leave publishes nothing of references, if it is right. -/
theorem quiet_of_leaving (hl : r.leaving db ≠ []) (h : ¬ r.Misreports ipAddress column openvnet db) :
    Quiet (r.run ipAddress column openvnet db).2 := by
  cases r with
  | removeSecurityGroup vif id => exact (quiet_removeSecurityGroup_iff vif).mpr h
  | putInstance r => exact (quiet_putInstance_iff r).mpr h
  | _ => exact absurd rfl hl

theorem kept_iff (hi : Inv db) (r : Request) :
    Kept ipAddress column openvnet db r ↔ ¬ r.Misreports ipAddress column openvnet db := by
  constructor
  · intro h
    exact (follow_iff hi r).mp h.follow
  · intro h
    refine ⟨(follow_iff hi r).mpr h, ?_⟩
    intro hl n
    rw [foldl_handle_quiet (quiet_of_leaving hl h)]
    exact ⟨fun _ _ _ _ _ _ _ _ _ _ ho => ho, fun _ _ _ _ hs => hs⟩

theorem inv_step (hi : Inv db) (r : Request) :
    Inv (r.step ipAddress column openvnet db) := by
  cases r with
  | postGroup uuid rule labels =>
    show Inv (postGroup ipAddress column openvnet db uuid rule labels).1
    unfold postGroup
    cases hc : create ipAddress column openvnet db uuid rule with
    | error e => exact hi
    | ok db' =>
      cases labels with
      | true => exact inv_of_saved hi (create_saved hi hc)
      | false => exact hi
  | putGroup id rule others =>
    show Inv (putGroup ipAddress column openvnet db id rule others).1
    unfold putGroup
    cases hg : db.groups.find id with
    | none => exact hi
    | some g =>
      by_cases hch : (others || rule.any fun t => g.rule != some t) = true
      · simp only [if_pos hch]
        cases hu : save ipAddress column openvnet db id (rule.or g.rule) with
        | error e => exact hi
        | ok s => exact inv_of_saved hi (save_saved hi (by rw [hg]; rfl) hu)
      · simp only [if_neg hch]
        exact hi
  | deleteGroup id =>
    show Inv (deleteGroup db id).1
    unfold deleteGroup
    cases db.groups.find id with
    | none => exact hi
    | some g =>
      cases hd : destroy db id with
      | error e => exact hi
      | ok db' => exact inv_destroy hi hd
  | addSecurityGroup vif id accepted =>
    exact inv_sameGroups hi (sameGroups_addSecurityGroup vif accepted)
  | removeSecurityGroup vif id => exact inv_sameGroups hi (sameGroups_removeSecurityGroup vif)
  | putInstance r => exact inv_sameGroups hi (sameGroups_putInstance r)

/-! ## What the handler of a removed referencer keeps -/

theorem mem_referencers (hi : Inv db) {group ref : Nat}
    (h : (group, ref) ∈ db.references) : ∃ x ∈ db.referencers ref, x.id = group := by
  obtain ⟨g, hg, hid⟩ := hi.referencer _ h
  refine ⟨g, ?_, hid⟩
  refine List.mem_filterMap.mpr ⟨(group, ref), by simpa using h, ?_⟩
  show db.groups.find group = some g
  rw [← show g.id = group from hid]
  exact db.groups.find_of_mem hg

/-- A group that is still a referencer has an entry once the cache is updated. -/
theorem localReferencersLeft_update (hi : Inv db) {n : Listener} {c : CachedGroup}
    {group ref : Nat} (hr : (group, ref) ∈ db.references) (hc : n.group ref = some c) :
    (n.update db ref).localReferencersLeft group = true := by
  have hm := List.mem_of_find?_eq_some hc
  have hcid : c.id = ref := by simpa using List.find?_some hc
  apply List.any_eq_true.mpr
  refine ⟨c.update db, ?_, ?_⟩
  · exact List.mem_map.mpr ⟨c, hm, if_pos hcid⟩
  · obtain ⟨x, hx, hxid⟩ := mem_referencers hi hr
    rw [← hcid] at hx
    unfold CachedGroup.referencer
    rw [Option.isSome_map, List.find?_isSome]
    exact ⟨(x.id, members db x.id), List.mem_map_of_mem hx, by simpa using hxid⟩

/-- The node stays subscribed to a group that still refers to one of its own. -/
theorem subscribed_referencerRemoved (hi : Inv db) {n : Listener} {group ref : Nat}
    (hr : (group, ref) ∈ db.references) (hs : group ∈ n.subscribed) :
    group ∈ (n.referencerRemoved db ref group).subscribed := by
  unfold Listener.referencerRemoved
  cases hc : n.group ref with
  | none => exact hs
  | some c =>
    dsimp only
    split_ifs with hraise hleft
    · exact hs
    · exact hs
    · have hclosed := localReferencersLeft_update (c := c) (n := { n with
        arpOpenings := (c.arpTasks ((c.referencer group).getD [])).foldl List.erase n.arpOpenings })
        hi hr hc
      rw [hclosed, Bool.true_or] at hleft
      exact absurd rfl hleft

end

/-- The referencer events follow the references along a run exactly if no request of it
says something wrong of them. -/
theorem events_run_iff {ipAddress : Text → Option IPAddr} {column : Text → Option Text}
    {openvnet : Bool} {collate : Text → List Nat} {db : GroupModel.Db collate}
    {requests : List Request} (hi : GroupModel.Inv db) :
    Each (fun db (r : Request) => r.step ipAddress column openvnet db)
        (Kept ipAddress column openvnet) db requests ↔
      Each (fun db (r : Request) => r.step ipAddress column openvnet db)
        (fun db r => ¬ r.Misreports ipAddress column openvnet db) db requests :=
  each_congr GroupModel.Inv (fun _ r hi => inv_step hi r) (fun _ r hi => kept_iff hi r) hi

/-! ## Two groups -/

def referencedRun : List Request :=
  [.postGroup "a".toList none true, .postGroup "b".toList (some "tcp:22,22,sg-A".toList) true,
    .addSecurityGroup 7 1 true, .removeSecurityGroup 7 1, .putGroup 2 (some []) false,
    .addSecurityGroup 7 2 true]

theorem events_run_referenced :
    Each (fun (db : GroupModel.Db caseless) (r : Request) => r.step (fun _ => none) some false db)
      (Kept (fun _ => none) some false) .empty referencedRun := by
  apply (events_run_iff inv_empty).mpr
  refine ⟨?_, ?_, ?_, ?_, ?_, ?_, trivial⟩
  · rintro ⟨hl, _⟩
    cases hl
  · rintro ⟨hl, _⟩
    cases hl
  · rintro ⟨_, _, _, hne⟩
    exact hne (by decide +kernel)
  · rintro ⟨_, _, hne⟩
    exact hne (by decide +kernel)
  · rintro ⟨g, rules, hs, _, name, hn, _⟩
    have hr : Except.ok [] = Except.ok rules := hs.rules
    cases hr
    cases hn
  · rintro ⟨_, _, _, hne⟩
    exact hne (by decide +kernel)

def referencerLeft : List Request :=
  [.postGroup "a".toList none true, .postGroup "b".toList (some "tcp:22,22,sg-a".toList) true,
    .addSecurityGroup 7 2 true, .addSecurityGroup 8 2 true, .removeSecurityGroup 7 2]

/-- A node with a vnic of the referenced group, which hears of the vif that stays. -/
def referencedNode : Listener := ⟨[⟨1, [5], [], [(2, [8])]⟩], [(5, 8)], [2]⟩

theorem opening_of_another_closed :
    ¬ ∀ (ipAddress : Text → Option IPAddr) (column : Text → Option Text) (openvnet : Bool)
        (collate : Text → List Nat) (requests : List Request),
      Each (fun (db : GroupModel.Db collate) (r : Request) => r.step ipAddress column openvnet db)
        (Kept ipAddress column openvnet) .empty requests := by
  intro h
  have hk := (h (fun _ => none) some false caseless referencerLeft).2.2.2.2.1.spared
    (List.cons_ne_nil _ _) referencedNode
  have hopen := hk.arpOpenings 2 1 (by decide +kernel) ⟨1, [5], [], [(2, [8])]⟩ rfl 5
    (by decide) 8 (by decide +kernel) (by decide) (by decide)
  revert hopen
  decide +kernel

end ReferenceEvent

end WakameVdc
