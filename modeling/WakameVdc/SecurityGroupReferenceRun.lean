import WakameVdc.SecurityGroupReferenceSound

/-!
# References over whole runs

Along every run of creations, updates and deletions the references of a saved
group are the groups it names, and a group nothing else refers to can be
destroyed unless it names itself.
-/

namespace WakameVdc

open Lib

namespace GroupModel

open SecurityGroup Netfilter

variable (ipAddress : Text → Option IPAddr) {collate : Text → List Nat}

def Names (collate : Text → List Nat) (g x : GroupRow) : Prop :=
  ∃ rules, rulesArray ipAddress (g.rule.getD []) = .ok rules ∧ x.Named collate (ruleGroups rules)

/-- The group's referencees are the existing groups its rules name. -/
def Exact (db : Db collate) (id : Nat) : Prop :=
  ∃ g rules, db.groups.find id = some g ∧ rulesArray ipAddress (g.rule.getD []) = .ok rules ∧
    ∀ x, x ∈ db.referencees id ↔ x ∈ db.groups.rows ∧ x.Named collate (ruleGroups rules)

/-- No vnic is in the group and no other group refers to it. -/
def Unused (db : Db collate) (id : Nat) : Prop :=
  (∀ p ∈ db.vnics, p.2 ≠ id) ∧ ∀ p ∈ db.references, p.2 = id → p.1 = id

/-- The keys of the references are those of groups. -/
structure Inv (db : Db collate) : Prop where
  referencer : ∀ p ∈ db.references, ∃ g ∈ db.groups.rows, g.id = p.1
  referencee : ∀ p ∈ db.references, ∃ g ∈ db.groups.rows, g.id = p.2

/-- A group refers to itself just when its rules name it. -/
def OwnNamed (db : Db collate) : Prop :=
  ∀ g ∈ db.groups.rows, (g.id, g.id) ∈ db.references ↔ Names ipAddress collate g g

variable (column : Text → Option Text)

/-- What the column takes of the rules is all of them. -/
def Keeps (rule : Option Text) : Prop := ∀ t ∈ rule, ∀ u ∈ column t, u = t

/-- What the save of a group with these rules leaves. -/
structure Saved (db db' : Db collate) (id : Nat) (rule : Option Text) : Prop where
  row : ∃ g, db'.groups.find id = some g ∧ (Keeps column rule → g.rule = rule)
  named : ∃ rules, rulesArray ipAddress (rule.getD []) = .ok rules ∧
    ∀ x, x ∈ db'.referencees id ↔ x ∈ db'.groups.rows ∧ x.Named collate (ruleGroups rules)
  others : ∀ p, p.1 ≠ id → (p ∈ db'.references ↔ p ∈ db.references)
  referencee : ∀ p ∈ db'.references, p.1 = id → ∃ g ∈ db'.groups.rows, g.id = p.2
  rows : ∀ g ∈ db'.groups.rows, g.id ≠ id → g ∈ db.groups.rows
  kept : ∀ g ∈ db.groups.rows, ∃ g' ∈ db'.groups.rows, g'.id = g.id ∧ g'.uuid = g.uuid

variable {ipAddress} {column} {db db' : Db collate} {id : Nat} {rule : Option Text}

theorem Saved.exact (hs : Saved ipAddress column db db' id rule) (hk : Keeps column rule) :
    Exact ipAddress db' id := by
  obtain ⟨g, hg, hrule⟩ := hs.row
  obtain ⟨rules, hr, hn⟩ := hs.named
  exact ⟨g, rules, hg, by rw [hrule hk]; exact hr, hn⟩

theorem inv_of_saved (h : Inv db) (hs : Saved ipAddress column db db' id rule) : Inv db' := by
  obtain ⟨g, hg, -⟩ := hs.row
  obtain ⟨hgm, hgid⟩ := db'.groups.find_eq_some.mp hg
  have hgid : g.id = id := hgid
  have old : ∀ {k}, (∃ x ∈ db.groups.rows, x.id = k) → ∃ x ∈ db'.groups.rows, x.id = k := by
    rintro k ⟨x, hx, rfl⟩
    obtain ⟨x', hx', hid, -⟩ := hs.kept x hx
    exact ⟨x', hx', hid⟩
  refine ⟨fun p hp => ?_, fun p hp => ?_⟩
  · by_cases hpid : p.1 = id
    · exact ⟨g, hgm, hgid.trans hpid.symm⟩
    · exact old (h.referencer p ((hs.others p hpid).mp hp))
  · by_cases hpid : p.1 = id
    · exact hs.referencee p hp hpid
    · exact old (h.referencee p ((hs.others p hpid).mp hp))

theorem ownNamed_of_exact (h : OwnNamed ipAddress db) (hs : Saved ipAddress column db db' id rule)
    (he : Exact ipAddress db' id) : OwnNamed ipAddress db' := by
  obtain ⟨g, rules, hg, hrules, hexact⟩ := he
  obtain ⟨hgm, hgid⟩ := db'.groups.find_eq_some.mp hg
  have hgid : g.id = id := hgid
  intro x hx
  by_cases hxid : x.id = id
  · obtain rfl : x = g := db'.groups.eq_of_pk hx hgm (hxid.trans hgid.symm)
    have := hexact x
    rw [Db.mem_referencees] at this
    constructor
    · intro hr
      exact ⟨rules, hrules, (this.mp ⟨by rw [← hxid]; exact hr, hx⟩).2⟩
    · rintro ⟨rules', hrules', hn⟩
      rw [hrules] at hrules'
      cases hrules'
      have hr := (this.mpr ⟨hx, hn⟩).1
      rwa [← hxid] at hr
  · exact (hs.others _ hxid).trans (h x (hs.rows x hx hxid))

/-! ## The operations -/

theorem mapError_ok {ε ε' α : Type} {x : Except ε α} {f : ε → ε'} {a : α}
    (h : x.mapError f = .ok a) : x = .ok a := by
  cases x with
  | error e => cases h
  | ok b => cases h; rfl

theorem Db.find_writeRule (db : Db collate) (id : Nat) (rule : Option Text) (k : Nat) :
    (db.writeRule id rule).groups.find k =
      if k = id then (db.groups.find k).map fun g => { g with rule, saves := g.saves + 1 }
      else db.groups.find k :=
  db.groups.find_modify id (fun g => { g with rule, saves := g.saves + 1 }) (fun _ => rfl) k

theorem storeRule_ok {stored : Option Text} (h : storeRule column rule = .ok stored)
    (hk : Keeps column rule) : stored = rule := by
  cases rule with
  | none =>
    cases h
    rfl
  | some t =>
    cases hc : column t with
    | none =>
      simp only [storeRule, hc] at h
      cases h
    | some u =>
      simp only [storeRule, hc] at h
      cases h
      rw [hk t rfl u hc]

/-- The rows of the written table, up to those of the group itself. -/
structure Written (db w : Db collate) (id : Nat) (stored : Option Text) : Prop where
  self : ∃ g, w.groups.find id = some g ∧ g.rule = stored
  rows : ∀ g ∈ w.groups.rows, g.id ≠ id → g ∈ db.groups.rows
  kept : ∀ g ∈ db.groups.rows, ∃ g' ∈ w.groups.rows, g'.id = g.id ∧ g'.uuid = g.uuid

theorem saved_of_passes {w : Db collate} {stored : Option Text} {rules : List ParsedRule} {t : Refs collate}
    (hw : Written db w id stored) (hk : Keeps column rule → stored = rule)
    (hr : rulesArray ipAddress (rule.getD []) = .ok rules)
    (hothers : ∀ p, p.1 ≠ id → (p ∈ w.references ↔ p ∈ db.references))
    (hstruck : ∀ x ∈ w.groups.rows, (id, x.id) ∈ w.references → x.Named collate (ruleGroups rules))
    (hstored : ∀ p ∈ w.references, p.1 = id → ∃ g ∈ w.groups.rows, g.id = p.2)
    (hgroups : t.db.groups = w.groups)
    (hadded : ∀ p, p ∈ t.db.references ↔ p ∈ w.references ∨
      ∃ x ∈ w.groups.rows, x.Named collate (ruleGroups rules) ∧ p = (id, x.id)) :
    Saved ipAddress column db t.db id rule := by
  obtain ⟨g, hg, rfl⟩ := hw.self
  refine ⟨⟨g, by rw [hgroups]; exact hg, hk⟩, ⟨rules, hr, fun x => ?_⟩, fun p hp => ?_,
    fun p hp hid => ?_, by rw [hgroups]; exact hw.rows, by rw [hgroups]; exact hw.kept⟩
  · rw [Db.mem_referencees, hgroups, hadded]
    constructor
    · rintro ⟨h | ⟨y, hy, hn, heq⟩, hx⟩
      · exact ⟨hx, hstruck x hx h⟩
      · have hyx : x = y := w.groups.eq_of_pk hx hy (Prod.mk.inj heq).2
        exact ⟨hx, hyx ▸ hn⟩
    · rintro ⟨hx, hn⟩
      exact ⟨.inr ⟨x, hx, hn, rfl⟩, hx⟩
  · rw [hadded, hothers p hp]
    constructor
    · rintro (h | ⟨x, -, -, rfl⟩)
      · exact h
      · exact absurd rfl hp
    · exact .inl
  · rw [hgroups]
    rcases (hadded p).mp hp with h | ⟨x, hx, -, rfl⟩
    · exact hstored p h hid
    · exact ⟨x, hx, rfl⟩

theorem written_writeRule {s : Db collate} {stored : Option Text} (hgroups : s.groups = db.groups)
    (hg : (db.groups.find id).isSome) : Written db (s.writeRule id stored) id stored := by
  have hfind := s.find_writeRule id stored
  rw [hgroups] at hfind
  refine ⟨?_, fun g hg hid => ?_, fun g hg => ?_⟩
  · obtain ⟨g, hg⟩ := Option.isSome_iff_exists.mp hg
    exact ⟨{ g with rule := stored, saves := g.saves + 1 }, by rw [hfind, if_pos rfl, hg]; rfl, rfl⟩
  · have hk := (hfind g.id).symm.trans ((s.writeRule id stored).groups.find_of_mem hg)
    rw [if_neg hid] at hk
    exact Table.mem_of_find _ hk
  · have hk := hfind g.id
    rw [show db.groups.find g.id = some g from db.groups.find_of_mem hg] at hk
    split at hk
    · exact ⟨_, Table.mem_of_find _ hk, rfl, rfl⟩
    · exact ⟨g, Table.mem_of_find _ hk, rfl, rfl⟩

/-- What the cache holds is still in the table once the row is written. -/
theorem sound_writeRule {s : Refs collate} {stored : Option Text} (hgroups : s.db.groups = db.groups)
    (hs : s.Sound) (hg : (db.groups.find id).isSome) :
    ({ s with db := s.db.writeRule id stored } : Refs collate).Sound := by
  have hw : Written db (s.db.writeRule id stored) id stored := written_writeRule hgroups hg
  intro l hl x hx
  obtain ⟨i, y, hid, hp, hy, hyx⟩ := hs l hl x hx
  rw [hgroups] at hy
  obtain ⟨y', hy', h1, h2⟩ := hw.kept y hy
  exact ⟨i, y', hid, hp, hy', h1.trans hyx.1, h2.trans hyx.2⟩

/-- The row of the group holds this already, or the column takes it. -/
def Stores (column : Text → Option Text) (db : Db collate) (id : Nat) (rule : Option Text) : Prop :=
  (∃ g ∈ db.groups.find id, g.rule = rule) ∨ ∀ t ∈ rule, (column t).isSome

theorem storeRule_ok_iff :
    (∃ stored, storeRule column rule = .ok stored) ↔ ∀ t ∈ rule, (column t).isSome := by
  cases rule with
  | none => simp [storeRule]
  | some t => cases hc : column t <;> simp [storeRule, hc]

theorem storeChanged_ok {stored : Option Text} (h : storeChanged column db id rule = .ok stored)
    (hk : Keeps column rule) : stored = rule := by
  unfold storeChanged at h
  split at h
  · cases h
    rfl
  · exact storeRule_ok h hk

theorem storeChanged_ok_iff :
    (∃ stored, storeChanged column db id rule = .ok stored) ↔ Stores column db id rule := by
  unfold storeChanged Stores
  have hsame : ((db.groups.find id).any fun g => g.rule == rule) = true ↔
      ∃ g ∈ db.groups.find id, g.rule = rule := by
    simp [Option.any_eq_true]
  split
  · rename_i h
    exact iff_of_true ⟨rule, rfl⟩ (.inl (hsame.mp h))
  · rename_i h
    rw [storeRule_ok_iff, or_iff_right fun hs => h (hsame.mpr hs)]

/-- The two passes of a save around the writing of the row. -/
structure Passes (ipAddress : Text → Option IPAddr) (column : Text → Option Text) (openvnet : Bool)
    (db : Db collate) (id : Nat) (rule stored : Option Text) (s t : Refs collate) : Prop where
  valid : validate ipAddress openvnet rule = .ok ()
  before : handleRefs ipAddress .delete rule ⟨db, some id, none, []⟩ = .ok s
  stores : Stores column db id rule
  keeps : Keeps column rule → stored = rule
  after : handleRefs ipAddress .create rule { s with db := s.db.writeRule id stored } = .ok t

theorem save_ok {openvnet : Bool} {t : Refs collate}
    (h : save ipAddress column openvnet db id rule = .ok t) :
    ∃ stored s, Passes ipAddress column openvnet db id rule stored s t := by
  obtain ⟨_, hv, h⟩ := bind_ok h
  obtain ⟨s, hs, h⟩ := bind_ok h
  obtain ⟨stored, hst, h⟩ := bind_ok h
  exact ⟨stored, s, mapError_ok hv, mapError_ok hs, storeChanged_ok_iff.mp ⟨stored, hst⟩,
    storeChanged_ok hst, mapError_ok h⟩

theorem save_saved {openvnet : Bool} {t : Refs collate} (hi : Inv db)
    (hg : (db.groups.find id).isSome) (h : save ipAddress column openvnet db id rule = .ok t) :
    Saved ipAddress column db t.db id rule := by
  obtain ⟨stored, s, hp⟩ := save_ok h
  obtain ⟨rules, hr, d1, d2, -, d3⟩ := handleRefs_delete hp.before
  have d3 := (d3 id rfl).references
  have hw : Written db (s.db.writeRule id stored) id stored := written_writeRule d1.groups hg
  have hsound : ({ s with db := s.db.writeRule id stored } : Refs collate).Sound :=
    sound_writeRule d1.groups d2 hg
  obtain ⟨rules', hr', c1, c2, -⟩ := handleRefs_create
    (s := { s with db := s.db.writeRule id stored }) d1.id hsound hp.after
  rw [hr] at hr'
  cases hr'
  refine saved_of_passes hw hp.keeps hr (fun p hp => ?_) (fun x hx hp => ?_) (fun p hp _ => ?_)
    c1.groups c2
  · refine (d3 p).trans ⟨And.left, fun h => ⟨h, ?_⟩⟩
    rintro x - - rfl
    exact hp rfl
  · obtain ⟨hp, hkeep⟩ := (d3 (id, x.id)).mp hp
    -- the row stood in the table under the same uuid when the pass went through it
    obtain ⟨y, hy, hyid⟩ := hi.referencee _ hp
    obtain ⟨y', hy', h1, h2⟩ := hw.kept y hy
    have hxy : x = y' := (s.db.writeRule id stored).groups.eq_of_pk hx hy' (h1.trans hyid).symm
    have hcan : x.canonicalUuid = y.canonicalUuid := by
      rw [hxy]
      exact congrArg (Taggable.canonicalUuid groupPrefix) h2
    have hn : x.canonicalUuid ∈ ruleGroups rules := by
      by_contra hn
      rw [hcan] at hn
      exact hkeep y (Db.mem_referencees.mpr ⟨by rw [hyid]; exact hp, hy⟩) hn (by rw [hyid])
    exact ⟨_, hn, x.answersTo_canonicalUuid⟩
  · obtain ⟨y, hy, hyid⟩ := hi.referencee _ ((d3 p).mp hp).1
    obtain ⟨y', hy', h1, -⟩ := hw.kept y hy
    exact ⟨y', hy', h1.trans hyid⟩

theorem written_insertGroup {s : Db collate} {uuid : Text} {stored : Option Text}
    (hgroups : s.groups = db.groups) (hu : ¬ s.hasUuid uuid) :
    Written db (s.insertGroup uuid stored hu) db.groups.next stored := by
  have hmem : ∀ g, g ∈ (s.insertGroup uuid stored hu).groups.rows ↔
      g ∈ db.groups.rows ∨ g = ⟨db.groups.next, uuid, stored, 0⟩ := by
    intro g
    rw [← hgroups]
    exact s.groups.mem_create
  refine ⟨⟨⟨db.groups.next, uuid, stored, 0⟩, ?_, rfl⟩, fun g hg hid => ?_, fun g hg => ?_⟩
  · exact (s.insertGroup uuid stored hu).groups.find_of_mem ((hmem _).mpr (.inr rfl))
  · rcases (hmem g).mp hg with h | rfl
    · exact h
    · exact absurd rfl hid
  · exact ⟨g, (hmem g).mpr (.inl hg), rfl, rfl⟩

theorem create_saved {openvnet : Bool} {uuid : Text} (hi : Inv db)
    (h : create ipAddress column openvnet db uuid rule = .ok db') :
    Saved ipAddress column db db' db.groups.next rule := by
  obtain ⟨-, -, h⟩ := bind_ok h
  obtain ⟨s, hs, h⟩ := bind_ok h
  obtain ⟨stored, hst, h⟩ := bind_ok h
  obtain ⟨rules, hr, d1, d2, d3, -⟩ := handleRefs_delete (mapError_ok hs)
  have d3 := d3 rfl
  split at h
  · cases h
  · rename_i hu
    obtain ⟨t, ht, h⟩ := bind_ok h
    cases h
    have hw : Written db (s.db.insertGroup uuid stored hu) db.groups.next stored :=
      written_insertGroup d1.groups hu
    have hnext : s.db.groups.next = db.groups.next := by rw [d1.groups]
    rw [hnext] at ht
    have hsound : ({ s with db := s.db.insertGroup uuid stored hu,
                            id := some db.groups.next } : Refs collate).Sound := by
      intro l hl x hx
      obtain ⟨i, y, hid, -⟩ := d2 l hl x hx
      rw [d1.id] at hid
      cases hid
    obtain ⟨rules', hr', c1, c2, -⟩ := handleRefs_create
      (s := { s with db := s.db.insertGroup uuid stored hu, id := some db.groups.next })
      rfl hsound (mapError_ok ht)
    rw [hr] at hr'
    cases hr'
    -- no reference starts from a key that was not handed out
    have hfresh : ∀ p ∈ (s.db.insertGroup uuid stored hu).references, p.1 ≠ db.groups.next := by
      intro p hp hid
      have hp : p ∈ s.db.references := hp
      rw [d3] at hp
      obtain ⟨g, hg, hgid⟩ := hi.referencer p hp
      have := db.groups.bound g hg
      have hpk : Row.pk g = db.groups.next := hgid.trans hid
      omega
    refine saved_of_passes hw (storeRule_ok hst) hr (fun p _ => ?_) (fun x _ hp => absurd rfl (hfresh _ hp))
      (fun p hp hid => absurd hid (hfresh p hp)) c1.groups c2
    exact (show p ∈ s.db.references ↔ _ by rw [d3])

theorem referencers_eq_nil (hi : Inv db) :
    db.referencers id = [] ↔ ∀ p ∈ db.references, p.2 ≠ id := by
  simp only [Db.referencers, List.filterMap_eq_nil_iff, List.mem_filter, beq_iff_eq]
  constructor
  · intro h p hp hid
    obtain ⟨g, hg, hgid⟩ := hi.referencer p hp
    have := h p ⟨hp, hid⟩
    rw [← hgid, show db.groups.find g.id = some g from db.groups.find_of_mem hg] at this
    cases this
  · intro h p hp
    exact absurd hp.2 (h p hp.1)

theorem destroy_ok_iff : (∃ db', destroy db id = .ok db') ↔
    (∀ p ∈ db.vnics, p.2 ≠ id) ∧ db.referencers id = [] := by
  unfold destroy
  by_cases hv : (db.vnics.any fun p => p.2 == id) = true
  · simp only [hv, if_true, reduceCtorEq, exists_false, false_iff, not_and]
    obtain ⟨p, hp, hid⟩ := List.any_eq_true.mp hv
    exact fun h => absurd (by simpa using hid) (h p hp)
  · have hv' : ∀ p ∈ db.vnics, p.2 ≠ id := fun p hp hid =>
      hv (List.any_eq_true.mpr ⟨p, hp, by simpa using hid⟩)
    simp only [hv]
    cases hr : db.referencers id with
    | nil => simpa using hv'
    | cons x xs => simp

/-- The row goes with the references from it. -/
structure Destroyed (db db' : Db collate) (id : Nat) : Prop where
  references : ∀ p, p ∈ db'.references ↔ p ∈ db.references ∧ p.1 ≠ id
  groups : ∀ g, g ∈ db'.groups.rows ↔ g ∈ db.groups.rows ∧ g.id ≠ id

theorem destroy_destroyed (h : destroy db id = .ok db') : Destroyed db db' id := by
  unfold destroy at h
  split at h
  · cases h
  · split at h
    · cases h
    · cases h
      refine ⟨fun p => by simp [Db.deleteGroup], fun g => ?_⟩
      show g ∈ (db.groups.delete fun g => g.id == id).rows ↔ _
      rw [Table.mem_delete]
      simp

theorem inv_destroy (hi : Inv db) (h : destroy db id = .ok db') : Inv db' := by
  obtain ⟨-, hr⟩ := destroy_ok_iff.mp ⟨db', h⟩
  have hno := (referencers_eq_nil hi).mp hr
  obtain ⟨hp, hg⟩ := destroy_destroyed h
  refine ⟨fun p h => ?_, fun p h => ?_⟩
  · obtain ⟨h1, h2⟩ := (hp p).mp h
    obtain ⟨g, hgm, hgid⟩ := hi.referencer p h1
    exact ⟨g, (hg g).mpr ⟨hgm, by rw [hgid]; exact h2⟩, hgid⟩
  · obtain ⟨h1, -⟩ := (hp p).mp h
    obtain ⟨g, hgm, hgid⟩ := hi.referencee p h1
    exact ⟨g, (hg g).mpr ⟨hgm, by rw [hgid]; exact hno p h1⟩, hgid⟩

theorem ownNamed_destroy (ho : OwnNamed ipAddress db) (h : destroy db id = .ok db') :
    OwnNamed ipAddress db' := by
  obtain ⟨hp, hg⟩ := destroy_destroyed h
  intro g h
  obtain ⟨h1, h2⟩ := (hg g).mp h
  exact ((hp _).trans (and_iff_left h2)).trans (ho g h1)

/-! ## Runs -/

/-- What one operation leaves of groups and references. -/
inductive Left (ipAddress : Text → Option IPAddr) (column : Text → Option Text) (db : Db collate)
    (op : Op) (db' : Db collate) : Option Nat → Prop
  | saved (id : Nat) (h : Saved ipAddress column db db' id op.rule) : Left ipAddress column db op db' (some id)
  | destroyed (id : Nat) (h : destroy db id = .ok db') : Left ipAddress column db op db' none
  | same (hg : db'.groups = db.groups) (hr : db'.references = db.references) :
      Left ipAddress column db op db' none

theorem run_left {openvnet : Bool} {op : Op} {saved : Option Nat} (hi : Inv db)
    (h : op.run ipAddress column openvnet db = .ok (db', saved)) :
    Left ipAddress column db op db' saved := by
  cases op with
  | create uuid rule =>
    obtain ⟨w, hw, h⟩ := bind_ok h
    cases h
    exact .saved _ (create_saved hi hw)
  | update id rule =>
    unfold Op.run at h
    cases hg : db.groups.find id with
    | none => simp [hg] at h
    | some g =>
      simp only [hg] at h
      split at h
      · cases h
        exact .same rfl rfl
      · obtain ⟨t, ht, h⟩ := bind_ok h
        cases h
        exact .saved _ (save_saved hi (by rw [hg]; rfl) ht)
  | destroy id =>
    unfold Op.run at h
    cases hg : db.groups.find id with
    | none => simp [hg] at h
    | some g =>
      simp only [hg] at h
      obtain ⟨w, hw, h⟩ := bind_ok h
      cases h
      exact .destroyed _ hw
  | vnicJoined vif id =>
    simp only [Op.run] at h
    split at h
    · cases h
      exact .same rfl rfl
    · cases h
  | vnicLeft vif id =>
    cases h
    exact .same rfl rfl

theorem inv_of_left {op : Op} {saved : Option Nat} (hi : Inv db)
    (h : Left ipAddress column db op db' saved) : Inv db' := by
  cases h with
  | saved id h => exact inv_of_saved hi h
  | destroyed id h => exact inv_destroy hi h
  | same hg hr =>
    refine ⟨?_, ?_⟩
    · rw [hg, hr]
      exact hi.referencer
    · rw [hg, hr]
      exact hi.referencee

theorem ownNamed_of_left {op : Op} {saved : Option Nat} (ho : OwnNamed ipAddress db)
    (hk : Keeps column op.rule) (h : Left ipAddress column db op db' saved) :
    OwnNamed ipAddress db' := by
  cases h with
  | saved id h => exact ownNamed_of_exact ho h (h.exact hk)
  | destroyed id h => exact ownNamed_destroy ho h
  | same hg hr =>
    unfold OwnNamed
    rw [hg, hr]
    exact ho

theorem inv_step {openvnet : Bool} (op : Op) (hi : Inv db) :
    Inv (step ipAddress column openvnet db op) := by
  unfold step
  split
  · exact inv_of_left hi (run_left hi ‹_›)
  · exact hi

theorem ownNamed_step {openvnet : Bool} {op : Op} (hi : Inv db) (ho : OwnNamed ipAddress db)
    (hk : Keeps column op.rule) : OwnNamed ipAddress (step ipAddress column openvnet db op) := by
  unfold step
  split
  · exact ownNamed_of_left ho hk (run_left hi ‹_›)
  · exact ho

theorem inv_empty : Inv (.empty : Db collate) where
  referencer := by simp [Db.empty]
  referencee := by simp [Db.empty]

theorem ownNamed_empty : OwnNamed ipAddress (.empty : Db collate) := by
  simp [OwnNamed, Db.empty, Table.empty]

theorem destroy_unused_iff (hi : Inv db) (ho : OwnNamed ipAddress db) {g : GroupRow}
    (hg : g ∈ db.groups.rows) (hu : Unused db g.id) :
    (∃ db', destroy db g.id = .ok db') ↔ ¬Names ipAddress collate g g := by
  rw [destroy_ok_iff, referencers_eq_nil hi, ← ho g hg]
  constructor
  · rintro ⟨-, h⟩ hself
    exact h _ hself rfl
  · intro h
    refine ⟨hu.1, fun p hp hid => h ?_⟩
    have hpg : p = (g.id, g.id) := Prod.ext (hu.2 p hp hid) hid
    rwa [← hpg]

/-- In every run a group saved with rules the column keeps refers to the existing groups
they name, and where the column keeps all rules, in every state reached a group without
vnics that no other group refers to can be destroyed just when its rules do not name the
group itself. -/
theorem references_along_runs (ipAddress : Text → Option IPAddr) (column : Text → Option Text)
    (collate : Text → List Nat) (openvnet : Bool) (ops : List Op) :
    Each (step ipAddress column openvnet)
      (fun (db : Db collate) op => Keeps column op.rule →
        ∀ db' id, op.run ipAddress column openvnet db = .ok (db', some id) →
          Exact ipAddress db' id) .empty ops ∧
    ((∀ op ∈ ops, Keeps column op.rule) →
      ∀ g ∈ (ops.foldl (step ipAddress column openvnet) (.empty : Db collate)).groups.rows,
        Unused (ops.foldl (step ipAddress column openvnet) (.empty : Db collate)) g.id →
        ((∃ db', destroy (ops.foldl (step ipAddress column openvnet) (.empty : Db collate)) g.id =
            .ok db') ↔ ¬Names ipAddress collate g g)) := by
  constructor
  · refine Each.of_invariant (P := fun _ _ => True) Inv (fun db op hi _ => ?_)
      each_true inv_empty
    refine ⟨inv_step op hi, fun hk db' id h => ?_⟩
    cases run_left hi h with
    | saved _ hs => exact hs.exact hk
  · intro hk g hg hu
    have hreached : Inv (ops.foldl (step ipAddress column openvnet) (.empty : Db collate)) ∧
        OwnNamed ipAddress (ops.foldl (step ipAddress column openvnet) (.empty : Db collate)) :=
      Each.invariant (P := fun _ op => Keeps column op.rule)
        (fun db => Inv db ∧ OwnNamed ipAddress db)
        (fun db op h hk => ⟨inv_step op h.1, ownNamed_step h.1 h.2 hk⟩)
        (each_forall.mpr hk) ⟨inv_empty, ownNamed_empty⟩
    exact destroy_unused_iff hreached.1 hreached.2 hg hu

def namesItself : List Op :=
  [.create "x".toList none, .update 1 (some "tcp:22,22,sg-x".toList)]

/-- A collation that tells letters apart but not their cases. -/
def caseless (t : Text) : List Nat := t.map fun c => c.toLower.toNat

def namedItself : Db caseless := namesItself.foldl (step (fun _ => none) some false) .empty

theorem unused_not_destroyed :
    ¬ ∀ (ipAddress : Text → Option IPAddr) (column : Text → Option Text)
        (collate : Text → List Nat) (openvnet : Bool) (ops : List Op),
      ∀ g ∈ (ops.foldl (step ipAddress column openvnet) (.empty : Db collate)).groups.rows,
        Unused (ops.foldl (step ipAddress column openvnet) (.empty : Db collate)) g.id →
        ∃ db', destroy (ops.foldl (step ipAddress column openvnet) (.empty : Db collate)) g.id =
          .ok db' := by
  intro h
  have hrows : namedItself.groups.rows = [⟨1, "x".toList, some "tcp:22,22,sg-x".toList, 1⟩] := by
    decide +kernel
  have hrefs : namedItself.references = [(1, 1)] := by decide +kernel
  have hvnics : namedItself.vnics = [] := by decide +kernel
  rw [namedItself] at hrows hrefs hvnics
  have hd := h (fun _ => none) some caseless false namesItself _
    (by rw [hrows]; exact List.mem_singleton.mpr rfl) ⟨by simp [hvnics], by simp [hrefs]⟩
  have hnil := (destroy_ok_iff.mp hd).2
  simp only [Db.referencers, hrefs, Table.find, hrows] at hnil
  exact absurd hnil (by decide)

end GroupModel

end WakameVdc
