import WakameVdc.ServiceNetfilter

/-!
# What the handlers do to the referencees

A group of the cache lists, for each group its rules name, the vnics of that
group. Every method of the cache keeps these lists equal to the memberships in
the database, but for the pairs an event is still awaited for.
-/

namespace WakameVdc

open Lib

namespace Netfilter

/-- The group lists the vnic under `:referencees`. -/
def GroupMap.refers (group : GroupMap) (refGroupId vnicId : Text) : Prop :=
  ∃ vnics, group.referencees.lookup refGroupId = some vnics ∧ (vnics.lookup vnicId).isSome = true

def Db.isMember (db : Db) (groupId vnicId : Text) : Prop :=
  ∃ r, db.vnics.lookup vnicId = some r ∧ r.inGroup groupId = true

/-- An event about the vnic's membership is not yet handled. -/
def Awaited (pending : List Event) (refGroupId vnicId : Text) : Prop :=
  Event.vnicJoined refGroupId vnicId ∈ pending ∨ Event.vnicLeft refGroupId vnicId ∈ pending

/-- Each group there is that rules name has its row. -/
def Db.Recorded (db : Db) : Prop :=
  ∀ g rules, db.groups.lookup g = some rules → ∀ r ∈ ruleGroups rules,
    (db.groups.lookup r).isSome = true → (g, r) ∈ db.references

/-- Memberships are memberships of groups that exist. -/
structure Db.Wf (db : Db) : Prop where
  exist : ∀ g v, db.isMember g v → (db.groups.lookup g).isSome = true
  recorded : db.Recorded

/-- A group of the cache has the rules of the database, and lists the members of
the groups they name. -/
structure GroupOk (db : Db) (pending : List Event) (g : Text) (group : GroupMap) : Prop where
  stored : (db.groups.lookup g).isSome = true
  rules : Event.rulesUpdated g ∈ pending ∨ db.groups.lookup g = some group.rules
  referencees : ∀ r ∈ ruleGroups group.rules, ∀ v, ¬ Awaited pending r v →
    (GroupMap.refers group r v ↔ db.isMember r v)

def CacheOk (db : Db) (pending : List Event) (c : Cache) : Prop :=
  ∀ g group, c.securityGroups.lookup g = some group → GroupOk db pending g group

def NodeOk (db : Db) (pending : List Event) (node : Node) : Prop := CacheOk db pending node.cache

/-! ## One group -/

section
variable {group : GroupMap} {g v r u : Text}

theorem refers_putVnic (vnic : VnicMap) :
    GroupMap.refers (putVnic g v vnic group) r u ↔
      GroupMap.refers group r u ∨
        r = g ∧ u = v ∧ (group.referencees.lookup g).isSome = true := by
  simp only [GroupMap.refers, putVnic, Hash.lookup_mapVals, Hash.lookup_modify, replaceVnic]
  by_cases hr : r = g
  · rw [if_pos hr, hr]
    cases hl : group.referencees.lookup g with
    | none => simp
    | some vnics =>
      simp only [Option.map_some, Option.some.injEq, exists_eq_left', Hash.isSome_lookup_modify,
        Hash.isSome_lookup_insert, Option.isSome_some, and_true, true_and]
  · rw [if_neg hr]
    cases hl : group.referencees.lookup r with
    | none => simp [hr]
    | some vnics =>
      simp only [Option.map_some, Option.some.injEq, exists_eq_left', Hash.isSome_lookup_modify, hr,
        false_and, or_false]

theorem refers_leaveGroup : GroupMap.refers (leaveGroup g v group) r u ↔
    GroupMap.refers group r u := by
  simp only [GroupMap.refers, leaveGroup, Hash.lookup_modify]
  by_cases hr : r = g
  · rw [if_pos hr]
    cases hl : group.referencees.lookup r with
    | none => simp
    | some vnics =>
      simp only [Option.map_some, Option.some.injEq, exists_eq_left', Hash.isSome_lookup_modify]
  · rw [if_neg hr]

theorem refers_removeReference :
    GroupMap.refers { group with referencees := removeReference g v group.referencees } r u ↔
      GroupMap.refers group r u ∧ ¬ (r = g ∧ u = v) := by
  simp only [GroupMap.refers, removeReference, Hash.lookup_filterVals, Hash.lookup_modify]
  by_cases hr : r = g
  · rw [if_pos hr]
    cases hl : group.referencees.lookup r with
    | none => simp
    | some vnics =>
      simp only [Option.map_some, Option.some.injEq, exists_eq_left', Option.filter_eq_some_iff,
        hr, true_and]
      constructor
      · intro ⟨vs, ⟨hv, _⟩, hs⟩
        rw [← hv, Hash.isSome_lookup_erase] at hs
        exact hs
      · intro ⟨hs, hu⟩
        have hs' := (Hash.isSome_lookup_erase v vnics u).mpr ⟨hs, hu⟩
        refine ⟨_, ⟨rfl, ?_⟩, hs'⟩
        have hne : Hash.isEmpty (AList.erase v vnics : Hash Text VnicMap) ≠ true := by
          intro he
          rw [Hash.isEmpty_iff.mp he u] at hs'
          cases hs'
        simp [hne]
  · rw [if_neg hr]
    cases hl : group.referencees.lookup r with
    | none => simp
    | some vnics => simp [hr]

theorem refers_erase {locals foreigns : Hash Text VnicMap}
    {referencers : Hash Text (Hash Text VnicMap)} :
    GroupMap.refers { group with
      localVnics := locals
      foreignVnics := foreigns
      referencers := referencers
      referencees := Hash.mapVals (fun _ sg => AList.erase v sg) group.referencees } r u ↔
      GroupMap.refers group r u ∧ u ≠ v := by
  simp only [GroupMap.refers, Hash.lookup_mapVals]
  cases hl : group.referencees.lookup r with
  | none => simp
  | some vnics =>
    simp only [Option.map_some, Option.some.injEq, exists_eq_left', Hash.isSome_lookup_erase]

end

section
variable {db : Db} {pending : List Event}

/-- A change that keeps the rules and, where no event is awaited, what is listed. -/
theorem GroupOk.change {g : Text} {group group' : GroupMap} (h : GroupOk db pending g group)
    (hrules : group'.rules = group.rules)
    (hrefs : ∀ r v, ¬ Awaited pending r v → (GroupMap.refers group r v ↔ db.isMember r v) →
      (GroupMap.refers group' r v ↔ db.isMember r v)) : GroupOk db pending g group' := by
  refine ⟨h.stored, ?_, ?_⟩
  · rw [hrules]
    exact h.rules
  · intro r hr v hv
    rw [hrules] at hr
    exact hrefs r v hv (h.referencees r hr v hv)

/-- A member that joins its group's entry, where there is one, is a member. -/
theorem GroupOk.putVnic {g g' v : Text} {group : GroupMap} (h : GroupOk db pending g group)
    (hmem : db.isMember g' v) (vnic : VnicMap) :
    GroupOk db pending g (putVnic g' v vnic group) := by
  refine h.change (by rfl) ?_
  intro r u hw hr
  rw [refers_putVnic, hr]
  constructor
  · intro hx
    rcases hx with hx | ⟨hg, hu, _⟩
    · exact hx
    · rw [hg, hu]
      exact hmem
  · exact Or.inl

theorem GroupOk.leaveGroup {g g' v : Text} {group : GroupMap} (h : GroupOk db pending g group) :
    GroupOk db pending g (leaveGroup g' v group) := by
  refine h.change (by rfl) ?_
  intro r u _ hr
  rw [refers_leaveGroup]
  exact hr

theorem GroupOk.removeReference {g g' v : Text} {group : GroupMap}
    (h : GroupOk db pending g group) (hno : ¬ db.isMember g' v) :
    GroupOk db pending g
      { group with referencees := removeReference g' v group.referencees } := by
  refine h.change (by rfl) ?_
  intro r u _ hr
  rw [refers_removeReference, hr]
  constructor
  · intro hx
    exact hx.1
  · intro hx
    refine ⟨hx, ?_⟩
    intro ⟨hg, hu⟩
    rw [hg, hu] at hx
    exact hno hx

/-! ## The documents of the collector -/

theorem isSome_lookup_members (g v : Text) :
    ((db.members g).lookup v).isSome = true ↔ db.isMember g v := by
  unfold Db.members Db.isMember
  rw [Hash.lookup_mapVals, Option.isSome_map, Hash.lookup_filterVals]
  constructor
  · intro h
    obtain ⟨r, hr⟩ := Option.isSome_iff_exists.mp h
    exact ⟨r, (Option.filter_eq_some_iff.mp hr).1, (Option.filter_eq_some_iff.mp hr).2⟩
  · intro ⟨r, hr, hg⟩
    exact Option.isSome_iff_exists.mpr ⟨r, Option.filter_eq_some_iff.mpr ⟨hr, hg⟩⟩

theorem refers_answer (hwf : db.Wf) {g : Text} {group : GroupMap} {rules : List ParsedRule}
    (hrules : db.groups.lookup g = some rules)
    (he : group.referencees = db.getReferenceesOfSecurityGroup g) {r : Text}
    (hr : r ∈ ruleGroups rules) (v : Text) : GroupMap.refers group r v ↔ db.isMember r v := by
  unfold GroupMap.refers
  rw [he]
  unfold Db.getReferenceesOfSecurityGroup
  rw [Hash.lookup_mapVals, Hash.lookup_filterVals]
  cases hg : db.groups.lookup r with
  | none =>
    constructor
    · intro ⟨vnics, hv, _⟩
      cases hv
    · intro hm
      have := hwf.exist r v hm
      rw [hg] at this
      cases this
  | some x =>
    have hp : db.references.contains (g, r) = true := by
      rw [List.contains_iff_mem]
      apply hwf.recorded g rules hrules r hr
      rw [hg]
      rfl
    rw [Option.filter_some, if_pos hp, Option.map_some]
    simp only [Option.some.injEq, exists_eq_left']
    exact isSome_lookup_members r v

theorem groupOk_document (hwf : db.Wf) {g nodeId : Text} {rules : List ParsedRule}
    (hg : db.groups.lookup g = some rules) :
    GroupOk db pending g (db.toNetfilterDocument g rules nodeId) := by
  refine ⟨?_, Or.inr hg, ?_⟩
  · rw [hg]
    rfl
  · intro r hr v _
    exact refers_answer hwf hg rfl hr v

/-! ## The cache -/

theorem CacheOk.mapGroups {c : Cache} (h : CacheOk db pending c) {f : GroupMap → GroupMap}
    (hf : ∀ g group, GroupOk db pending g group → GroupOk db pending g (f group)) :
    CacheOk db pending (c.mapGroups f) := by
  intro g group hg
  simp only [Cache.mapGroups, Hash.lookup_mapVals, Option.map_eq_some_iff] at hg
  obtain ⟨old, ho, he⟩ := hg
  rw [← he]
  exact hf g old (h g old ho)

theorem CacheOk.modify {c : Cache} (h : CacheOk db pending c) (j : Text) {f : GroupMap → GroupMap}
    (hf : ∀ g group, GroupOk db pending g group → GroupOk db pending g (f group)) :
    CacheOk db pending { c with securityGroups := Hash.modify j f c.securityGroups } := by
  intro g group hg
  simp only [Hash.lookup_modify] at hg
  split at hg
  · obtain ⟨old, ho, he⟩ := Option.map_eq_some_iff.mp hg
    rw [← he]
    exact hf g old (h g old ho)
  · exact h g group hg

theorem CacheOk.dropEmptyGroups {c : Cache} (h : CacheOk db pending c) :
    CacheOk db pending c.dropEmptyGroups := by
  intro g group hg
  simp only [Cache.dropEmptyGroups, Hash.lookup_filterVals, Option.filter_eq_some_iff] at hg
  exact h g group hg.1

theorem CacheOk.removeSecurityGroup {c : Cache} (h : CacheOk db pending c) (g' : Text) :
    CacheOk db pending (c.removeSecurityGroup g') := by
  intro g group hg
  simp only [Cache.removeSecurityGroup, Hash.lookup_erase] at hg
  split at hg
  · cases hg
  · exact h g group hg

theorem CacheOk.insert {c : Cache} (h : CacheOk db pending c) {g' : Text} {group' : GroupMap}
    (hg' : GroupOk db pending g' group') :
    CacheOk db pending { c with securityGroups := AList.insert g' group' c.securityGroups } := by
  intro g group hg
  simp only [Hash.lookup_insert] at hg
  split at hg
  · rename_i he
    cases hg
    rw [he]
    exact hg'
  · exact h g group hg

theorem CacheOk.addToGroup {c : Cache} (h : CacheOk db pending c) {g v : Text}
    (hmem : db.isMember g v) (isLocal : Bool) (vnic : VnicMap) :
    CacheOk db pending (addToGroup isLocal v g vnic c) := by
  refine CacheOk.mapGroups (h.modify g ?_) fun g' group hg => hg.putVnic hmem vnic
  intro g' group hg
  unfold addMember
  split
  · exact hg.change (by rfl) fun _ _ _ hr => hr
  · exact hg.change (by rfl) fun _ _ _ hr => hr

theorem CacheOk.removeVnic {c : Cache} (h : CacheOk db pending c) {v : Text}
    (hno : ∀ g, ¬ db.isMember g v) : CacheOk db pending (c.removeVnic v) := by
  apply CacheOk.dropEmptyGroups
  intro g group hg
  simp only [Hash.lookup_mapVals, Option.map_eq_some_iff] at hg
  obtain ⟨old, ho, he⟩ := hg
  rw [← he]
  refine (h g old ho).change (by rfl) ?_
  intro r u _ hr
  rw [refers_erase, hr]
  constructor
  · intro hx
    exact hx.1
  · intro hx
    refine ⟨hx, ?_⟩
    intro hu
    rw [hu] at hx
    exact hno r hx

theorem CacheOk.removeForeignVnic {c : Cache} (h : CacheOk db pending c) (g v : Text) :
    CacheOk db pending (c.removeForeignVnic g v) := by
  refine CacheOk.mapGroups (h.modify g ?_) fun g' group hg => hg.leaveGroup
  intro g' group hg
  exact hg.change (by rfl) fun _ _ _ hr => hr

theorem CacheOk.removeVnicFromReferencees {c : Cache} (h : CacheOk db pending c) {g v : Text}
    (hno : ¬ db.isMember g v) : CacheOk db pending (c.removeVnicFromReferencees g v) :=
  h.mapGroups fun _ _ hg => hg.removeReference hno

theorem CacheOk.removeVnicFromReferencers {c : Cache} (h : CacheOk db pending c) (g v : Text) :
    CacheOk db pending (c.removeVnicFromReferencers g v) :=
  h.mapGroups fun _ _ hg => hg.change (by rfl) fun _ _ _ hr => hr

theorem CacheOk.getNetfilterData (hwf : db.Wf) (nodeId : Text) :
    CacheOk db pending (db.getNetfilterData nodeId) := by
  intro g group hg
  simp only [Db.getNetfilterData, Hash.lookup_mapVals, Hash.lookup_filterVals,
    Option.map_eq_some_iff, Option.filter_eq_some_iff] at hg
  obtain ⟨rules, ⟨hr, _⟩, he⟩ := hg
  rw [← he]
  exact groupOk_document hwf hr

end

end Netfilter

end WakameVdc
