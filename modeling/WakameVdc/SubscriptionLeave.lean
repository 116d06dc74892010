import WakameVdc.SubscriptionHandler

/-!
# Vnics that leave

`left_group` and `vnic_destroyed` unsubscribe when the last local vnic of a group
goes. The node may still need the group's vnics for the rules of another group;
the groups the emptied group named are never unsubscribed from.
-/

namespace WakameVdc

open Lib

namespace Netfilter

section
variable {c : Cache} {g v r : Text} {node : Node} {events : List Topic}

/-! ## The cache without the vnic -/

theorem isEmpty_erase_of_empty {vnics : Hash Text VnicMap} (h : Hash.isEmpty vnics = true) :
    Hash.isEmpty (AList.erase v vnics : Hash Text VnicMap) = true := by
  rw [Hash.isEmpty_iff] at h ⊢
  intro u
  rw [Hash.lookup_erase, h u]
  split
  · rfl
  · rfl

theorem names_erase (group : GroupMap) {group' : GroupMap} (hr : group'.rules = group.rules)
    (hl : group'.localVnics = AList.erase v group.localVnics) :
    (asLocal group').map LocalGroup.names =
      if Hash.isEmpty (AList.erase v group.localVnics : Hash Text VnicMap) then none
      else (asLocal group).map LocalGroup.names := by
  unfold asLocal
  rw [hl, hr]
  split
  case isTrue => rfl
  case isFalse h =>
    rw [if_neg]
    · rfl
    · intro he
      exact h (isEmpty_erase_of_empty he)

theorem localNames_takeOut (g' : Text) : (c.takeOut v g).localNames g' =
    if g' = g ∧ c.otherLocalVnicsLeftInGroup v g = false then none else c.localNames g' := by
  unfold Cache.localNames Cache.takeOut
  rw [localGroups_dropEmptyGroups, localGroups_mapGroups asLocal_leaveGroup, localGroups_modify]
  unfold Cache.localGroups Cache.otherLocalVnicsLeftInGroup
  by_cases hg : g' = g
  · rw [if_pos hg, hg]
    cases c.securityGroups.lookup g with
    | none => simp
    | some group =>
      rw [Option.bind_some, Option.bind_some, names_erase (v := v) group]
      · simp
      · rfl
      · rfl
  · rw [if_neg hg, if_neg fun h => hg h.1]

theorem localNames_removeVnic (g' : Text) : (c.removeVnic v).localNames g' =
    if c.otherLocalVnicsLeftInGroup v g' then c.localNames g' else none := by
  unfold Cache.localNames Cache.removeVnic
  rw [localGroups_dropEmptyGroups]
  unfold Cache.localGroups Cache.otherLocalVnicsLeftInGroup
  rw [Hash.lookup_mapVals]
  cases c.securityGroups.lookup g' with
  | none => simp
  | some group =>
    rw [Option.map_some, Option.bind_some, Option.bind_some, names_erase (v := v) group]
    · show _ = if (!Hash.isEmpty (AList.erase v group.localVnics : Hash Text VnicMap)) = true
        then _ else _
      cases Hash.isEmpty (AList.erase v group.localVnics : Hash Text VnicMap) with
      | true => rfl
      | false => rfl
    · rfl
    · rfl

theorem localNames_eq_none : c.localNames g = none ↔ c.localVnicsLeftInGroup g = false := by
  unfold Cache.localNames
  rw [Option.map_eq_none_iff, ← Option.not_isSome_iff_eq_none, isSome_localGroups,
    Bool.not_eq_true]

theorem isSome_localNames : (c.localNames g).isSome = c.localVnicsLeftInGroup g := by
  unfold Cache.localNames
  rw [Option.isSome_map, isSome_localGroups]

theorem needs_iff_localNames : c.localGroups.Needs r ↔
    (c.localNames r).isSome = true ∨ ∃ g names, c.localNames g = some names ∧ r ∈ names := by
  unfold LocalGroups.Needs LocalGroups.Named Cache.localNames
  simp

theorem namesBut_iff_localNames : c.namesBut g r ↔
    ∃ h names, h ≠ g ∧ c.localNames h = some names ∧ r ∈ names := by
  rw [namesBut_iff]
  unfold Cache.localNames
  simp

theorem localNames_removeSecurityGroup (h : c.localVnicsLeftInGroup g = false) :
    (c.removeSecurityGroup g).localNames = c.localNames := by
  funext g'
  unfold Cache.localNames
  rw [localGroups_removeSecurityGroup]
  split
  · rename_i hg
    rw [hg]
    exact (localNames_eq_none.mpr h).symm
  · rfl

theorem otherLocalVnicsLeft_of_none (h : c.localVnicsLeftInGroup g = false) :
    c.otherLocalVnicsLeftInGroup v g = false := by
  unfold Cache.localVnicsLeftInGroup at h
  unfold Cache.otherLocalVnicsLeftInGroup
  cases hl : c.securityGroups.lookup g with
  | none => rfl
  | some group =>
    rw [hl] at h
    simp only [Bool.not_eq_false'] at h ⊢
    exact isEmpty_erase_of_empty h

theorem getLocalVnicsInGroup_isEmpty :
    (c.getLocalVnicsInGroup g).isEmpty = !c.localVnicsLeftInGroup g := by
  unfold Cache.getLocalVnicsInGroup Cache.localVnicsLeftInGroup
  cases c.securityGroups.lookup g with
  | none => rfl
  | some group =>
    show (Hash.values group.localVnics).isEmpty = !!Hash.isEmpty group.localVnics
    rw [Bool.not_not]
    unfold Hash.values Hash.isEmpty
    rw [List.isEmpty_map]

/-! ## A vnic leaves a group -/

/-- The cache after a local vnic left: its tasks are removed first, and they
raise before the cache is changed. -/
def Cache.afterLeave (c : Cache) (v g : Text) : Cache :=
  if (c.getLocalVnic v).isSome then (c.takeOut v g).removeVnicFromReferencees g v else c

theorem ends_getCache {E : Node → Prop} : Proc.Ends (fun n : Node => n.cache = c) getCache
    (fun a n => a = c ∧ n.cache = c) E := by
  refine ⟨?_, ?_⟩
  · intro n hn a t h
    cases h
    exact ⟨hn, hn⟩
  · intro n _ e t h
    cases h

theorem ends_removeLocalVnicFromGroup : Proc.Ends (fun n : Node => n.cache = c)
    (removeLocalVnicFromGroup v g) (fun _ n => n.cache = c.takeOut v g) fun n => n.cache = c := by
  apply Proc.Ends.bind ends_getCache
  intro a
  apply Proc.Ends.pre
  intro ha
  split
  · apply Proc.ends_modify
    intro n hn
    show Cache.takeOut n.cache v g = _
    rw [hn]
  · exact Proc.ends_throw

theorem ends_leaveAsLocal : Proc.Ends (fun n : Node => n.cache = c) (leaveAsLocal v g)
    (fun _ n => n.cache = c.afterLeave v g) fun n => n.cache = c := by
  apply Proc.Ends.bind ends_getCache
  intro a
  apply Proc.Ends.pre
  intro ha
  rw [ha]
  unfold Cache.afterLeave
  cases c.getLocalVnic v with
  | none => exact Proc.ends_pure
  | some vnic =>
    apply Proc.Ends.bind (keeps_secgroupTasksFor (I := fun x => x = c) ..).ends
    intro _
    apply Proc.Ends.bind (keeps_lift (I := fun x => x = c) _).ends
    intro localFriends
    apply Proc.Ends.bind (Proc.keeps_forM fun friend _ =>
      keeps_removeIsolation (I := fun x => x = c) friend.uuid [vnic]).ends
    intro _
    apply Proc.Ends.bind (keeps_lift (I := fun x => x = c) _).ends
    intro friends
    apply Proc.Ends.bind (keeps_removeIsolation (I := fun x => x = c) ..).ends
    intro _
    apply Proc.Ends.bind ends_removeLocalVnicFromGroup
    intro _
    apply Proc.ends_modify
    intro n hn
    show n.cache.removeVnicFromReferencees g v = _
    rw [hn]
    rfl

/-- Another group has an entry for the group, as the test that comes after the
vnic is taken out has it. -/
def Cache.stillLists (c : Cache) (v g : Text) : Prop :=
  ∃ h group, h ≠ g ∧ c.securityGroups.lookup h = some group ∧
    if (c.getLocalVnic v).isSome = true then
      c.localVnicsLeftInGroup h = true ∧ ∃ vnics, group.referencees.lookup g = some vnics ∧
        ∃ u, u ≠ v ∧ (vnics.lookup u).isSome = true
    else (group.referencees.lookup g).isSome = true

/-- The group that loses its last local vnic names no group that is not needed for
another reason, and is itself named where it is listed. -/
structure LeftGroupFits (c : Cache) (v g : Text) : Prop where
  needed : c.localVnicsLeftInGroup g = true → ∀ group, c.securityGroups.lookup g = some group →
    ∀ r ∈ ruleGroups group.rules, (r ≠ g ∧ c.localVnicsLeftInGroup r = true) ∨ c.namesBut g r
  listed : c.namesBut g g ↔ c.stillLists v g

theorem localReferenceesLeft_iff : c.localReferenceesLeft r = true ↔
    ∃ h group, c.securityGroups.lookup h = some group ∧
      (group.referencees.lookup r).isSome = true := by
  unfold Cache.localReferenceesLeft
  exact Hash.any_values

theorem isSome_removeReference {refs : Hash Text (Hash Text VnicMap)} :
    ((removeReference g v refs).lookup g).isSome = true ↔
      ∃ vnics, refs.lookup g = some vnics ∧ ∃ u, u ≠ v ∧ (vnics.lookup u).isSome = true := by
  unfold removeReference
  rw [Hash.lookup_filterVals, Hash.lookup_modify, if_pos rfl]
  cases refs.lookup g with
  | none => simp
  | some vnics =>
    have hempty : Hash.isEmpty (AList.erase v vnics : Hash Text VnicMap) = false ↔
        ∃ u, u ≠ v ∧ (vnics.lookup u).isSome = true := by
      rw [← Bool.not_eq_true, Hash.isEmpty_iff, not_forall]
      apply exists_congr
      intro u
      rw [← ne_eq, ← Option.isSome_iff_ne_none, Hash.isSome_lookup_erase, and_comm]
    simp [Option.filter_some, hempty]

theorem entry_leaveGroup {group : GroupMap} :
    (∃ vnics, (leaveGroup g v group).referencees.lookup g = some vnics ∧
      ∃ u, u ≠ v ∧ (vnics.lookup u).isSome = true) ↔
    ∃ vnics, group.referencees.lookup g = some vnics ∧
      ∃ u, u ≠ v ∧ (vnics.lookup u).isSome = true := by
  unfold leaveGroup
  rw [Hash.lookup_modify, if_pos rfl]
  cases group.referencees.lookup g with
  | none => simp
  | some vnics => simp [Hash.isSome_lookup_modify]

theorem lookup_afterLeave {h : Text} (hne : h ≠ g) (hv : (c.getLocalVnic v).isSome = true)
    {group' : GroupMap} : (c.afterLeave v g).securityGroups.lookup h = some group' ↔
      ∃ group, c.securityGroups.lookup h = some group ∧ c.localVnicsLeftInGroup h = true ∧
        { leaveGroup g v group with
          referencees := removeReference g v (leaveGroup g v group).referencees } = group' := by
  unfold Cache.afterLeave Cache.localVnicsLeftInGroup
  rw [if_pos hv]
  simp only [Cache.removeVnicFromReferencees, Cache.takeOut, Cache.dropEmptyGroups,
    Cache.mapGroups, Hash.lookup_mapVals, Hash.lookup_filterVals, Hash.lookup_modify, if_neg hne]
  cases c.securityGroups.lookup h with
  | none => simp
  | some group =>
    have hempty : Hash.isEmpty (leaveGroup g v group).localVnics = Hash.isEmpty group.localVnics :=
      isEmpty_congr fun u => Hash.isSome_lookup_modify ..
    simp [Option.filter_some, hempty]

theorem localReferenceesLeft_afterLeave :
    ((c.afterLeave v g).removeSecurityGroup g).localReferenceesLeft g = true ↔ c.stillLists v g := by
  rw [localReferenceesLeft_iff]
  unfold Cache.stillLists
  apply exists_congr
  intro h
  simp only [Cache.removeSecurityGroup, Hash.lookup_erase]
  by_cases hne : h = g
  · simp [hne]
  · rw [if_neg hne]
    by_cases hv : (c.getLocalVnic v).isSome = true
    · simp only [lookup_afterLeave hne hv, if_pos hv]
      constructor
      · intro hx
        obtain ⟨_, hx, hr⟩ := hx
        obtain ⟨group, hl, hlocal, he⟩ := hx
        rw [← he] at hr
        exact ⟨group, hne, hl, hlocal, entry_leaveGroup.mp (isSome_removeReference.mp hr)⟩
      · intro hx
        obtain ⟨group, _, hl, hlocal, hr⟩ := hx
        exact ⟨_, ⟨group, hl, hlocal, rfl⟩, isSome_removeReference.mpr (entry_leaveGroup.mpr hr)⟩
    · simp only [if_neg hv]
      unfold Cache.afterLeave
      simp [hv, hne]

theorem localNames_afterLeave (h : (c.afterLeave v g).localVnicsLeftInGroup g = true) :
    (c.afterLeave v g).localNames = c.localNames := by
  rw [← Bool.not_eq_false, ← localNames_eq_none] at h
  unfold Cache.afterLeave at h ⊢
  split
  case isFalse => rfl
  case isTrue hv =>
    rw [if_pos hv, localNames_removeVnicFromReferencees, localNames_takeOut] at h
    rw [localNames_removeVnicFromReferencees]
    funext g'
    rw [localNames_takeOut, if_neg]
    intro hx
    exact h (if_pos ⟨rfl, hx.2⟩)

theorem localNames_afterLast (g' : Text) :
    ((c.afterLeave v g).removeSecurityGroup g).localNames g' =
      if g' = g then none else c.localNames g' := by
  unfold Cache.localNames
  rw [localGroups_removeSecurityGroup]
  by_cases hg : g' = g
  · rw [if_pos hg, if_pos hg]
    rfl
  · rw [if_neg hg, if_neg hg]
    show (c.afterLeave v g).localNames g' = c.localNames g'
    unfold Cache.afterLeave
    split
    · rw [localNames_removeVnicFromReferencees, localNames_takeOut, if_neg fun h => hg h.1]
    · rfl

theorem otherLocalVnicsLeft_of_afterLeave
    (h : (c.afterLeave v g).localVnicsLeftInGroup g = false) :
    c.otherLocalVnicsLeftInGroup v g = false := by
  rw [← localNames_eq_none] at h
  unfold Cache.afterLeave at h
  split at h
  · rw [localNames_removeVnicFromReferencees, localNames_takeOut] at h
    split at h
    case isTrue hx => exact hx.2
    case isFalse hx => exact otherLocalVnicsLeft_of_none (localNames_eq_none.mp h)
  · exact otherLocalVnicsLeft_of_none (localNames_eq_none.mp h)

/-- What is needed once a group has no local vnics. -/
theorem needs_without {c' : Cache} (h : ∀ g', c'.localNames g' = if g' = g then none else c.localNames g') :
    c'.localGroups.Needs r ↔ (r ≠ g ∧ c.localVnicsLeftInGroup r = true) ∨ c.namesBut g r := by
  rw [needs_iff_localNames, namesBut_iff_localNames, ← isSome_localNames, h]
  constructor
  · intro hx
    rcases hx with hx | hx
    · split at hx
      · cases hx
      · exact Or.inl ⟨‹_›, hx⟩
    · obtain ⟨h', names, hn, hr⟩ := hx
      rw [h] at hn
      split at hn
      · cases hn
      · exact Or.inr ⟨h', names, ‹_›, hn, hr⟩
  · intro hx
    rcases hx with hx | hx
    · left
      rw [if_neg hx.1]
      exact hx.2
    · obtain ⟨h', names, hne, hn, hr⟩ := hx
      refine Or.inr ⟨h', names, ?_, hr⟩
      rw [h, if_neg hne]
      exact hn

theorem getLocalGroupsThatReferenceGroup_isEmpty :
    (c.getLocalGroupsThatReferenceGroup r).isEmpty = !c.localReferenceesLeft r := by
  unfold Cache.getLocalGroupsThatReferenceGroup Cache.localReferenceesLeft
  rw [Bool.eq_iff_iff, List.isEmpty_iff, List.filter_eq_nil_iff, Bool.not_eq_true',
    ← Bool.not_eq_true, List.any_eq_true]
  simp

theorem drops_lastLeft (node : Node) (g : Text) :
    Drops node (unsubscribeFromSecurityGroup g >>= fun _ => (do
      let c ← onNode getCache
      Proc.when (c.getLocalGroupsThatReferenceGroup g).isEmpty
        (unsubscribeFromReferencedSecurityGroup g)))
      fun t => (node.cache.localReferenceesLeft g = false ∧ vnicsOf g t) ∨ ownEvents g t := by
  have hsecond : Drops node (onNode getCache >>= fun c : Cache =>
      Proc.when (c.getLocalGroupsThatReferenceGroup g).isEmpty
        (unsubscribeFromReferencedSecurityGroup g))
      fun t => (node.cache.getLocalGroupsThatReferenceGroup g).isEmpty = true ∧ vnicsOf g t := by
    apply drops_after_getCache
    exact drops_when (drops_unsubscribeFromReferencedSecurityGroup g)
  apply ((drops_unsubscribeFromSecurityGroup g).bind hsecond).congr
  intro t _
  rw [getLocalGroupsThatReferenceGroup_isEmpty, Bool.not_eq_true']
  constructor
  · intro hx
    rcases hx with hx | hx
    · exact hx
    · exact Or.inl hx
  · exact Or.inl

theorem exact_withoutGroup {c' : Cache} {events' : List Topic} {left : Bool}
    (h : Exact c.localGroups events) (hf : LeftGroupFits c v g)
    (hleft : left = true ↔ c.stillLists v g)
    (hnames : ∀ g', c'.localNames g' = if g' = g then none else c.localNames g')
    (hevents : ∀ t, t.ofGroup = true → (t ∈ events' ↔
      t ∈ events ∧ ¬ ((left = false ∧ vnicsOf g t) ∨ ownEvents g t))) :
    Exact c'.localGroups events' := by
  apply exact_of_events
  · intro r t ht
    have hof := ofGroup_vnicsOf ht
    have hown : ¬ ownEvents g t := fun ho => not_vnicsOf_of_own ho ht
    rw [hevents t hof, h t hof, wants_vnicsOf ht, wants_vnicsOf ht, vnicsOf_iff ht,
      needs_without hnames, needs_iff]
    have hnamed : c.names r ↔ (∃ names, c.localNames g = some names ∧ r ∈ names) ∨
        c.namesBut g r := by
      rw [names_iff, named_cases _ g, namesBut_iff]
      unfold Cache.localNames
      simp
    have hneeded : (∃ names, c.localNames g = some names ∧ r ∈ names) →
        (r ≠ g ∧ c.localVnicsLeftInGroup r = true) ∨ c.namesBut g r := by
      intro hx
      obtain ⟨names, hn, hr⟩ := hx
      obtain ⟨x, hx, he⟩ := Option.map_eq_some_iff.mp hn
      obtain ⟨group, hl, hgroup⟩ := localGroups_eq_some.mp hx
      apply hf.needed _ group hl r
      · rw [← he, ← (asLocal_eq_some.mp hgroup).2] at hr
        exact hr
      · rw [← isSome_localNames, hn]
        rfl
    by_cases hr : r = g
    · have hiff := hf.listed.trans hleft.symm
      rw [hr] at hnamed hneeded ⊢
      rw [hnamed, hiff]
      rw [hiff] at hneeded
      cases left with
      | true => simp [hown]
      | false => simp
    · rw [hnamed]
      have hne : ¬ g = r := fun he => hr he.symm
      simp only [hown, hne, hr, ne_eq, not_false_eq_true, true_and, and_false, or_self, and_true]
      simp only [hr, ne_eq, not_false_eq_true, true_and] at hneeded
      constructor
      · intro hx
        rcases hx with hx | hx | hx
        · exact Or.inl hx
        · exact hneeded hx
        · exact Or.inr hx
      · intro hx
        rcases hx with hx | hx
        · exact Or.inl hx
        · exact Or.inr (Or.inr hx)
  · intro g' t ht
    have hof := ofGroup_ownEvents ht
    have hno : ¬ vnicsOf g t := fun hv => not_vnicsOf_of_own ht hv
    rw [hevents t hof, h t hof, wants_ownEvents ht, wants_ownEvents ht, isSome_localGroups,
      isSome_localGroups, ← isSome_localNames, ← isSome_localNames, hnames, ownEvents_iff ht]
    by_cases hg : g' = g
    · simp [hg]
    · have hne : ¬ g = g' := fun he => hg he.symm
      simp [hg, hne, hno]

theorem exact_leftGroup (h : Exact node.cache.localGroups events)
    (hf : node.cache.otherLocalVnicsLeftInGroup v g = false → LeftGroupFits node.cache v g)
    {s : Service} (hs : s = Proc.final (Service.leftGroup v g) ⟨node, events⟩) :
    Exact s.node.cache.localGroups s.subscribedEvents := by
  rw [hs]
  apply final_onNode_bind (G := fun s => Exact s.node.cache.localGroups s.subscribedEvents)
  · intro e node' he
    rw [ends_leaveAsLocal.error node rfl e node' he]
    exact h
  · intro a node' he
    have hc := ends_leaveAsLocal.ok node rfl a node' he
    rw [final_onNode_getCache]
    cases hleft : node'.cache.localVnicsLeftInGroup g with
    | true =>
      rw [getLocalVnicsInGroup_isEmpty, hleft]
      show Exact (if node'.cache.localVnicsLeftInGroup g then node'.cache
        else node'.cache.removeSecurityGroup g).localGroups events
      rw [if_pos hleft]
      rw [hc] at hleft ⊢
      exact h.of_localNames (localNames_afterLeave hleft)
    | false =>
      rw [getLocalVnicsInGroup_isEmpty, hleft]
      have hfit := hf (otherLocalVnicsLeft_of_afterLeave (hc ▸ hleft))
      generalize hn₂ : ({ node' with cache := node'.cache.removeSecurityGroup g } : Node) = node₂
      have hc₂ : node₂.cache = (node.cache.afterLeave v g).removeSecurityGroup g := by
        rw [← hn₂, ← hc]
      have hnone : node₂.cache.localVnicsLeftInGroup g = false := by
        rw [← localNames_eq_none, hc₂, localNames_afterLast, if_pos rfl]
      obtain ⟨events', hr, hm⟩ := (drops_lastLeft node₂ g).runs events
      have hremoved : Proc.Runs (onNode (modifyCache (Cache.removeSecurityGroup g)))
          ⟨node', events⟩ () ⟨node₂, events⟩ := by
        rw [← hn₂]
        exact runs_onNode (runs_modifyCache _ node') events
      have hwhen : Proc.Runs (Proc.when (!false) (do
          onNode (modifyCache (Cache.removeSecurityGroup g))
          unsubscribeFromSecurityGroup g
          let c ← onNode getCache
          Proc.when (c.getLocalGroupsThatReferenceGroup g).isEmpty
            (unsubscribeFromReferencedSecurityGroup g))) ⟨node', events⟩ () ⟨node₂, events'⟩ :=
        Proc.Runs.bind hremoved hr
      rw [hwhen.final_bind]
      have hnames : ∀ g', (node₂.cache.removeSecurityGroup g).localNames g' =
          if g' = g then none else node.cache.localNames g' := by
        intro g'
        rw [localNames_removeSecurityGroup hnone, hc₂]
        exact localNames_afterLast g'
      have hexact := exact_withoutGroup h hfit (by rw [hc₂]; exact localReferenceesLeft_afterLeave)
        hnames hm
      show Exact (if node₂.cache.localVnicsLeftInGroup g then node₂.cache
        else node₂.cache.removeSecurityGroup g).localGroups events'
      rw [hnone]
      exact hexact

/-! ## A vnic is destroyed -/

/-- A group that keeps a local vnic names the group. -/
def Cache.namesAfter (c : Cache) (v r : Text) : Prop :=
  ∃ h group, c.securityGroups.lookup h = some group ∧ c.otherLocalVnicsLeftInGroup v h = true ∧
    r ∈ ruleGroups group.rules

/-- None of the tasks that are removed with the vnic raises. -/
structure CleansUp (c : Cache) (v : Text) (vif : VnicMap) : Prop where
  friends : ∀ friends, c.getAllLocalFriends v = .ok friends → ∀ f ∈ friends,
    (c.getVnicNetworkMode f.uuid).isOk = true
  own : (c.getVnicNetworkMode vif.uuid).isOk = true
  natted : ∀ d, c.getVnic v = .ok (some d) → d.natIpLease.isSome = true →
    (c.getAllFriends v).isOk = true

/-- The groups that are emptied are those of the vnic's document; they name no group
that is not needed for another reason, and are themselves named where they are listed. -/
structure VnicDestroyedFits (c : Cache) (v : Text) (vif : VnicMap) : Prop where
  tasks : ∀ d, c.getVnic v = .ok (some d) → d.address.isSome = true → CleansUp c v vif
  own : ∀ g, c.localVnicsLeftInGroup g = true → c.otherLocalVnicsLeftInGroup v g = false →
    g ∈ vif.securityGroups
  needed : ∀ g group, c.securityGroups.lookup g = some group → c.localVnicsLeftInGroup g = true →
    c.otherLocalVnicsLeftInGroup v g = false → ∀ r ∈ ruleGroups group.rules,
      c.otherLocalVnicsLeftInGroup v r = true ∨ c.namesAfter v r
  listed : ∀ g ∈ vif.securityGroups, c.otherLocalVnicsLeftInGroup v g = false →
    (c.localReferenceesLeft g = true ↔ c.namesAfter v g)

theorem exists_getVnic {vif : VnicMap}
    (hvif : (c.getLocalVnic v).or (c.getEmptyVnic v) = some vif) :
    ∃ d, c.getVnic v = .ok (some d) := by
  unfold Cache.getVnic
  cases he : c.getEmptyVnic v with
  | some e => exact ⟨e, rfl⟩
  | none =>
    cases hl : c.getLocalVnic v with
    | some d => exact ⟨d, rfl⟩
    | none =>
      rw [he, hl] at hvif
      cases hvif

theorem succeeds_vnicHasIp {d : VnicMap} (h : c.getVnic v = .ok (some d)) :
    Proc.Succeeds (fun n : Node => n.cache = c) (vnicHasIp v) fun a => a = d.address.isSome := by
  apply Proc.Succeeds.bind succeeds_cache
  intro a ha
  rw [ha]
  apply Proc.Succeeds.bind (succeeds_lift (Q := fun x => x = some d) h rfl)
  intro x hx
  rw [hx]
  exact Proc.succeeds_pure rfl

theorem getVnic_of_mode (h : (c.getVnicNetworkMode v).isOk = true) :
    ∃ d, c.getVnic v = .ok (some d) := by
  unfold Cache.getVnicNetworkMode at h
  cases hv : c.getVnic v with
  | error e =>
    rw [hv] at h
    cases h
  | ok x =>
    cases x with
    | some d => exact ⟨d, rfl⟩
    | none =>
      rw [hv] at h
      cases h

theorem succeeds_vnicIsNatted {d : VnicMap} (h : c.getVnic v = .ok (some d)) :
    Proc.Succeeds (fun n : Node => n.cache = c) (vnicIsNatted v)
      fun a => a = d.natIpLease.isSome := by
  apply Proc.Succeeds.bind succeeds_cache
  intro a ha
  rw [ha]
  apply Proc.Succeeds.bind (succeeds_lift (Q := fun x => x = some d) h rfl)
  intro x hx
  rw [hx]
  exact Proc.succeeds_pure rfl

theorem succeeds_cleanUpIsolation {vif d : VnicMap} (hd : c.getVnic v = .ok (some d))
    (h : CleansUp c v vif) : Proc.Succeeds (fun n : Node => n.cache = c)
      (cleanUpIsolation vif v) fun _ => True := by
  have hfriends : ∃ friends, c.getAllLocalFriends v = .ok friends := by
    unfold Cache.getAllLocalFriends
    rw [hd]
    exact ⟨_, rfl⟩
  obtain ⟨friends, hfriends⟩ := hfriends
  apply Proc.Succeeds.bind succeeds_cache
  intro a ha
  rw [ha]
  apply Proc.Succeeds.bind (succeeds_lift (Q := fun x => x = friends) hfriends rfl)
  intro x hx
  rw [hx]
  apply Proc.Succeeds.bind
  · apply Proc.succeeds_forM
    intro friend hm
    have hmode := h.friends friends hfriends friend hm
    obtain ⟨e, he⟩ := getVnic_of_mode hmode
    apply Proc.Succeeds.bind (succeeds_vnicHasIp he)
    intro hasIp _
    exact Proc.succeeds_when fun _ => succeeds_removeIsolation hmode _
  · intro _ _
    apply Proc.Succeeds.bind (succeeds_vnicIsNatted hd)
    intro natted hn
    apply Proc.Succeeds.bind
    · apply Proc.succeeds_when
      intro hnat
      obtain ⟨all, hall⟩ := exists_ok (h.natted d hd (hn ▸ hnat))
      apply Proc.Succeeds.bind (succeeds_lift (Q := fun _ => True) hall trivial)
      intro all _
      exact succeeds_removeIsolation h.own all
    · intro _ _
      obtain ⟨mode, hmode⟩ := exists_ok h.own
      apply Proc.Succeeds.bind (succeeds_vnicNetworkMode hmode)
      intro _ _
      exact Proc.succeeds_pure trivial

theorem otherLocalVnicsLeft_eq_false : c.otherLocalVnicsLeftInGroup v g = false ↔
    ∀ u, u ≠ v → c.localDoc g u = none := by
  unfold Cache.otherLocalVnicsLeftInGroup Cache.localDoc
  cases c.securityGroups.lookup g with
  | none => simp
  | some group =>
    simp only [Bool.not_eq_false', Hash.isEmpty_iff, Hash.lookup_erase, Option.bind_some]
    apply forall_congr'
    intro u
    by_cases hu : u = v
    · simp [hu]
    · simp [hu]

theorem localVnicsLeft_eq_false : c.localVnicsLeftInGroup g = false ↔
    ∀ u, c.localDoc g u = none := by
  unfold Cache.localVnicsLeftInGroup Cache.localDoc
  cases c.securityGroups.lookup g with
  | none => simp
  | some group => simp only [Bool.not_eq_false', Hash.isEmpty_iff, Option.bind_some]

/-- The rules of the groups, and a vnic that is in none of them. -/
structure GoneFrom (names : Text → Option (List Text)) (v : Text) (c : Cache) : Prop where
  names : c.localNames = names
  gone : ∀ g, c.localDoc g v = none

theorem answers_getCache {I : Cache → Prop} :
    Proc.Answers (fun n : Node => I n.cache) getCache I := by
  refine ⟨keeps_getCache, ?_⟩
  intro s hs a t h
  cases h
  exact hs

theorem keeps_removeEmptied {names : Text → Option (List Text)} (groups : List Text) :
    Proc.Keeps (fun n : Node => GoneFrom names v n.cache) (groups.forM fun g => do
      let c ← getCache
      Proc.when (!c.otherLocalVnicsLeftInGroup v g) (modifyCache (Cache.removeSecurityGroup g))) := by
  apply Proc.keeps_forM
  intro g _
  apply answers_getCache.bind_keeps
  intro c hc
  apply Proc.keeps_when
  intro hleft
  have hnone : names g = none := by
    rw [← hc.names, localNames_eq_none, localVnicsLeft_eq_false]
    intro u
    by_cases hu : u = v
    · rw [hu]
      exact hc.gone g
    · exact otherLocalVnicsLeft_eq_false.mp (by simpa using hleft) u hu
  apply keeps_modifyCache
  intro c hc
  refine ⟨?_, ?_⟩
  · rw [localNames_removeSecurityGroup, hc.names]
    rw [← localNames_eq_none, hc.names]
    exact hnone
  · intro g'
    rw [localDoc_removeSecurityGroup]
    split
    · rfl
    · exact hc.gone g'

theorem localNames_vnicDestroyed {vif : VnicMap}
    (hvif : (node.cache.getLocalVnic v).or (node.cache.getEmptyVnic v) = some vif)
    (htasks : ∀ d, node.cache.getVnic v = .ok (some d) → d.address.isSome = true →
      CleansUp node.cache v vif) (g' : Text) :
    (Proc.final (vnicDestroyed v) node).cache.localNames g' =
      if node.cache.otherLocalVnicsLeftInGroup v g' then node.cache.localNames g' else none := by
  obtain ⟨d, hd⟩ := exists_getVnic hvif
  have hgone : GoneFrom (node.cache.removeVnic v).localNames v
      (Proc.final (vnicDestroyed v) node).cache := by
    unfold vnicDestroyed
    rw [final_bind_getCache, hvif]
    refine (succeeds_vnicHasIp hd).final_bind (J := fun n : Node =>
      GoneFrom (node.cache.removeVnic v).localNames v n.cache) rfl ?_
    intro hasIp n hn hip
    have hclean : Proc.Succeeds (fun n : Node => n.cache = node.cache)
        (Proc.when hasIp (cleanUpIsolation vif v)) fun _ => True :=
      Proc.succeeds_when fun h => succeeds_cleanUpIsolation hd (htasks d hd (hip ▸ h))
    refine hclean.final_bind (J := fun n : Node =>
      GoneFrom (node.cache.removeVnic v).localNames v n.cache) hn ?_
    intro _ n hn _
    have hchains : Proc.Succeeds (fun n : Node => n.cache = node.cache)
        (removeVnicChains vif.uuid) fun _ => True := Proc.succeeds_modify fun _ h => h
    refine hchains.final_bind (J := fun n : Node =>
      GoneFrom (node.cache.removeVnic v).localNames v n.cache) hn ?_
    intro _ n hn _
    rw [(runs_modifyCache (Cache.removeVnic v) _).final_bind, hn]
    have hstart : GoneFrom (node.cache.removeVnic v).localNames v (node.cache.removeVnic v) := by
      refine ⟨rfl, ?_⟩
      intro g
      rw [localDoc_removeVnic, if_pos rfl]
    refine Proc.Keeps.at_final (I := fun n : Node =>
      GoneFrom (node.cache.removeVnic v).localNames v n.cache) ?_ _ hstart
    apply Proc.Keeps.bind (keeps_removeEmptied vif.securityGroups)
    intro _
    apply keeps_modifyCache
    intro c hc
    split
    · exact hc
    · unfold Cache.removeNetwork
      split
      · exact hc
      · exact ⟨hc.names, hc.gone⟩
  rw [hgone.names]
  exact localNames_removeVnic g'

theorem drops_unsubscribeFromGroupsOf (node : Node) (v : Text) (groups : List Text) :
    Drops node (unsubscribeFromGroupsOf v groups) fun t => ∃ g ∈ groups,
      node.cache.otherLocalVnicsLeftInGroup v g = false ∧
        ((node.cache.localReferenceesLeft g = false ∧ vnicsOf g t) ∨ ownEvents g t) := by
  have hone : ∀ g, Drops node (do
      let c ← onNode getCache
      Proc.when (!c.otherLocalVnicsLeftInGroup v g) do
        unsubscribeFromSecurityGroup g
        unsubscribeFromReferencees c g) _ := fun g =>
    drops_after_getCache (drops_when ((drops_unsubscribeFromSecurityGroup g).bind
      (drops_unsubscribeFromReferencees node.cache g)))
  have hall := drops_forM fun g (_ : g ∈ groups) => hone g
  apply hall.congr
  intro t _
  simp only [Bool.not_eq_true', or_false]

theorem namesAfter_iff : c.namesAfter v r ↔ ∃ g names, c.localNames g = some names ∧
    c.otherLocalVnicsLeftInGroup v g = true ∧ r ∈ names := by
  unfold Cache.namesAfter Cache.localNames Cache.localGroups
  constructor
  · intro h
    obtain ⟨g, group, hl, ho, hr⟩ := h
    refine ⟨g, ruleGroups group.rules, ?_, ho, hr⟩
    have hne : Hash.isEmpty group.localVnics = false := by
      rw [← Bool.not_eq_true]
      intro he
      unfold Cache.otherLocalVnicsLeftInGroup at ho
      rw [hl] at ho
      simp [isEmpty_erase_of_empty he] at ho
    rw [hl, Option.bind_some]
    unfold asLocal
    rw [hne]
    rfl
  · intro h
    obtain ⟨g, names, hn, ho, hr⟩ := h
    obtain ⟨x, hx, he⟩ := Option.map_eq_some_iff.mp hn
    obtain ⟨group, hl, hgroup⟩ := Option.bind_eq_some_iff.mp hx
    refine ⟨g, group, hl, ho, ?_⟩
    rw [← he, ← (asLocal_eq_some.mp hgroup).2] at hr
    exact hr

theorem localVnicsLeft_of_other (h : c.otherLocalVnicsLeftInGroup v g = true) :
    c.localVnicsLeftInGroup g = true := by
  rw [← Bool.not_eq_false] at h ⊢
  intro hx
  exact h (otherLocalVnicsLeft_of_none hx)

/-- What is needed once a vnic is in no group. -/
theorem needs_withoutVnic {c' : Cache} (h : ∀ g, c'.localNames g =
      if c.otherLocalVnicsLeftInGroup v g then c.localNames g else none) :
    c'.localGroups.Needs r ↔ c.otherLocalVnicsLeftInGroup v r = true ∨ c.namesAfter v r := by
  rw [needs_iff_localNames, namesAfter_iff, h]
  have hsome : (if c.otherLocalVnicsLeftInGroup v r then c.localNames r else none).isSome = true ↔
      c.otherLocalVnicsLeftInGroup v r = true := by
    cases ho : c.otherLocalVnicsLeftInGroup v r with
    | false => simp
    | true =>
      rw [if_pos rfl, isSome_localNames, localVnicsLeft_of_other ho]
  rw [hsome]
  apply or_congr_right
  apply exists_congr
  intro g
  apply exists_congr
  intro names
  rw [h]
  cases c.otherLocalVnicsLeftInGroup v g with
  | true => simp
  | false => simp

/-- What is needed without the vnic is what the tests leave subscribed. -/
theorem exact_withoutVnic {c' : Cache} {events' : List Topic} {vif : VnicMap}
    (h : Exact c.localGroups events) (hf : VnicDestroyedFits c v vif)
    (hnames : ∀ g, c'.localNames g =
      if c.otherLocalVnicsLeftInGroup v g then c.localNames g else none)
    (hevents : ∀ t, t.ofGroup = true → (t ∈ events' ↔ t ∈ events ∧
      ¬ ∃ g ∈ vif.securityGroups, c.otherLocalVnicsLeftInGroup v g = false ∧
        ((c.localReferenceesLeft g = false ∧ vnicsOf g t) ∨ ownEvents g t))) :
    Exact c'.localGroups events' := by
  apply exact_of_events
  · intro r t ht
    have hof := ofGroup_vnicsOf ht
    have hown : ∀ g, ¬ ownEvents g t := fun g ho => not_vnicsOf_of_own ho ht
    have hthis : ∀ g, vnicsOf g t ↔ g = r := fun g => vnicsOf_iff ht
    rw [hevents t hof, h t hof, wants_vnicsOf ht, wants_vnicsOf ht, needs_withoutVnic hnames,
      needs_iff]
    simp only [hown, hthis, or_false]
    have hnamed : c.names r ↔ c.namesAfter v r ∨ ∃ g names, c.localNames g = some names ∧
        c.otherLocalVnicsLeftInGroup v g = false ∧ r ∈ names := by
      rw [namesAfter_iff, names_iff]
      unfold LocalGroups.Named Cache.localNames
      constructor
      · intro hx
        obtain ⟨g, x, hx, hr⟩ := hx
        cases ho : c.otherLocalVnicsLeftInGroup v g with
        | true => exact Or.inl ⟨g, x.names, by rw [hx]; rfl, ho, hr⟩
        | false => exact Or.inr ⟨g, x.names, by rw [hx]; rfl, ho, hr⟩
      · intro hx
        rcases hx with hx | hx
        · obtain ⟨g, names, hn, _, hr⟩ := hx
          obtain ⟨x, hx, he⟩ := Option.map_eq_some_iff.mp hn
          exact ⟨g, x, hx, he ▸ hr⟩
        · obtain ⟨g, names, hn, _, hr⟩ := hx
          obtain ⟨x, hx, he⟩ := Option.map_eq_some_iff.mp hn
          exact ⟨g, x, hx, he ▸ hr⟩
    have hneeded : (∃ g names, c.localNames g = some names ∧
        c.otherLocalVnicsLeftInGroup v g = false ∧ r ∈ names) →
        c.otherLocalVnicsLeftInGroup v r = true ∨ c.namesAfter v r := by
      intro hx
      obtain ⟨g, names, hn, ho, hr⟩ := hx
      obtain ⟨x, hx, he⟩ := Option.map_eq_some_iff.mp hn
      obtain ⟨group, hl, hgroup⟩ := localGroups_eq_some.mp hx
      apply hf.needed g group hl _ ho r
      · rw [← he, ← (asLocal_eq_some.mp hgroup).2] at hr
        exact hr
      · rw [← isSome_localNames, hn]
        rfl
    have hlisted := hf.listed r
    have howned := hf.own r
    have hlocal := localVnicsLeft_of_other (c := c) (v := v) (g := r)
    generalize (∃ g names, c.localNames g = some names ∧
        c.otherLocalVnicsLeftInGroup v g = false ∧ r ∈ names) = p at hnamed hneeded
    grind
  · intro g' t ht
    have hof := ofGroup_ownEvents ht
    have hno : ∀ g, ¬ vnicsOf g t := fun g hv => not_vnicsOf_of_own ht hv
    have hthis : ∀ g, ownEvents g t ↔ g = g' := fun g => ownEvents_iff ht
    rw [hevents t hof, h t hof, wants_ownEvents ht, wants_ownEvents ht, isSome_localGroups,
      isSome_localGroups, ← isSome_localNames (c := c'), hnames]
    simp only [hno, hthis, and_false, false_or]
    have howned := hf.own g'
    have hlocal := localVnicsLeft_of_other (c := c) (v := v) (g := g')
    cases ho : c.otherLocalVnicsLeftInGroup v g' with
    | true =>
      rw [if_pos rfl, isSome_localNames]
      grind
    | false =>
      rw [if_neg Bool.false_ne_true]
      grind

theorem exact_vnicDestroyed (h : Exact node.cache.localGroups events)
    (hf : ∀ vif, (node.cache.getLocalVnic v).or (node.cache.getEmptyVnic v) = some vif →
      VnicDestroyedFits node.cache v vif)
    {s : Service} (hs : s = Proc.final (Service.vnicDestroyed v) ⟨node, events⟩) :
    Exact s.node.cache.localGroups s.subscribedEvents := by
  rw [hs]
  unfold Service.vnicDestroyed
  rw [final_onNode_getCache]
  cases hvif : (node.cache.getLocalVnic v).or (node.cache.getEmptyVnic v) with
  | none => exact h
  | some vif =>
    have hfit := hf vif hvif
    obtain ⟨events₁, hr₁, hm₁⟩ := (drops_unsubscribeFromGroupsOf node v vif.securityGroups).runs events
    have hvnic : Drops node (unsubscribeFromLocalVnic vif.uuid) fun _ => False :=
      drops_unsubscribeFromLocalVnic vif.uuid
    obtain ⟨events₂, hr₂, hm₂⟩ := hvnic.runs events₁
    rw [hr₁.final_bind, hr₂.final_bind, final_onNode]
    have hnames := localNames_vnicDestroyed hvif hfit.tasks
    generalize hc' : (Proc.final (vnicDestroyed v) node).cache = c' at hnames
    show Exact c'.localGroups events₂
    have hdropped : ∀ t, t.ofGroup = true → (t ∈ events₂ ↔ t ∈ events ∧
        ¬ ∃ g ∈ vif.securityGroups, node.cache.otherLocalVnicsLeftInGroup v g = false ∧
          ((node.cache.localReferenceesLeft g = false ∧ vnicsOf g t) ∨ ownEvents g t)) := by
      intro t ht
      rw [hm₂ t ht, hm₁ t ht]
      simp
    exact exact_withoutVnic h hfit hnames hdropped

end

end Netfilter

end WakameVdc
