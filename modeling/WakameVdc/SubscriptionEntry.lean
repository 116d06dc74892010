import WakameVdc.NetfilterSubscription

/-!
# The groups a node has local vnics in

Of a cache only this matters for the subscriptions: which groups have a local
vnic, whom their rules name, and whom their entries list as referencees.
-/

namespace WakameVdc

open Lib

namespace Netfilter

/-! ## Groups and the events they call for -/

structure LocalGroup where
  names : List Text
  lists : Text → Bool

abbrev LocalGroups := Text → Option LocalGroup

namespace LocalGroups

def Named (groups : LocalGroups) (r : Text) : Prop :=
  ∃ g group, groups g = some group ∧ r ∈ group.names

/-- The group has a local vnic, or the rules of such a group name it. -/
def Needs (groups : LocalGroups) (r : Text) : Prop := (groups r).isSome = true ∨ groups.Named r

def Wants (groups : LocalGroups) : Topic → Prop
  | .vnicJoined r | .vnicLeft r => groups.Needs r
  | .rulesUpdated g | .referencerAdded g | .referencerRemoved g => (groups g).isSome = true
  | _ => False

end LocalGroups

def Topic.ofGroup : Topic → Bool
  | .vnicJoined _ | .vnicLeft _ | .rulesUpdated _ | .referencerAdded _ | .referencerRemoved _ => true
  | _ => false

/-- Of the events of groups, exactly those the groups call for are subscribed to. -/
def Exact (groups : LocalGroups) (events : List Topic) : Prop :=
  ∀ t, t.ofGroup = true → (t ∈ events ↔ groups.Wants t)

/-! ## The groups of a cache -/

def asLocal (group : GroupMap) : Option LocalGroup :=
  if Hash.isEmpty group.localVnics then none
  else some ⟨ruleGroups group.rules, fun r => (group.referencees.lookup r).isSome⟩

def Cache.localGroups (c : Cache) : LocalGroups := fun g =>
  (c.securityGroups.lookup g).bind asLocal

section
variable {c : Cache} {g v : Text}

theorem asLocal_eq_some {group : GroupMap} {x : LocalGroup} : asLocal group = some x ↔
    Hash.isEmpty group.localVnics = false ∧
      ⟨ruleGroups group.rules, fun r => (group.referencees.lookup r).isSome⟩ = x := by
  unfold asLocal
  cases Hash.isEmpty group.localVnics with
  | true => simp
  | false => simp

theorem isSome_localGroups : (c.localGroups g).isSome = c.localVnicsLeftInGroup g := by
  unfold Cache.localGroups Cache.localVnicsLeftInGroup
  cases c.securityGroups.lookup g with
  | none => rfl
  | some group =>
    rw [Option.bind_some]
    show (asLocal group).isSome = !Hash.isEmpty group.localVnics
    unfold asLocal
    cases Hash.isEmpty group.localVnics with
    | true => rfl
    | false => rfl

theorem localGroups_eq_some {x : LocalGroup} : c.localGroups g = some x ↔
    ∃ group, c.securityGroups.lookup g = some group ∧ asLocal group = some x :=
  Option.bind_eq_some_iff

theorem names_iff {r : Text} : c.names r ↔ c.localGroups.Named r := by
  unfold Cache.names LocalGroups.Named
  constructor
  · intro h
    obtain ⟨g, group, hg, hl, hr⟩ := h
    rw [← isSome_localGroups] at hl
    obtain ⟨x, hx⟩ := Option.isSome_iff_exists.mp hl
    obtain ⟨group', hg', hx'⟩ := localGroups_eq_some.mp hx
    rw [hg] at hg'
    cases hg'
    refine ⟨g, x, hx, ?_⟩
    rw [← (asLocal_eq_some.mp hx').2]
    exact hr
  · intro h
    obtain ⟨g, x, hx, hr⟩ := h
    obtain ⟨group, hg, hx'⟩ := localGroups_eq_some.mp hx
    refine ⟨g, group, hg, ?_, ?_⟩
    · rw [← isSome_localGroups, hx]
      rfl
    · rw [← (asLocal_eq_some.mp hx').2] at hr
      exact hr

theorem inStep_iff {s : Service} :
    InStep s ↔ Exact s.node.cache.localGroups s.subscribedEvents := by
  have hneeds : ∀ r, s.node.cache.localVnicsLeftInGroup r = true ∨ s.node.cache.names r ↔
      s.node.cache.localGroups.Needs r := by
    intro r
    unfold LocalGroups.Needs
    rw [isSome_localGroups, names_iff]
  have hlocal : ∀ g, s.node.cache.localVnicsLeftInGroup g = true ↔
      (s.node.cache.localGroups g).isSome = true := by
    intro g
    rw [isSome_localGroups]
  constructor
  · intro h t ht
    cases t with
    | vnicJoined r => exact (h.vnicJoined r).trans (hneeds r)
    | vnicLeft r => exact (h.vnicLeft r).trans (hneeds r)
    | rulesUpdated g => exact (h.rulesUpdated g).trans (hlocal g)
    | referencerAdded g => exact (h.referencerAdded g).trans (hlocal g)
    | referencerRemoved g => exact (h.referencerRemoved g).trans (hlocal g)
    | vnicCreated | vnicDestroyed | joinedGroup _ | leftGroup _ | vnicsJoined _ | vnicsLeft _ =>
      cases ht
  · intro h
    exact ⟨fun r => (h (.vnicJoined r) rfl).trans (hneeds r).symm,
      fun r => (h (.vnicLeft r) rfl).trans (hneeds r).symm,
      fun g => (h (.rulesUpdated g) rfl).trans (hlocal g).symm,
      fun g => (h (.referencerAdded g) rfl).trans (hlocal g).symm,
      fun g => (h (.referencerRemoved g) rfl).trans (hlocal g).symm⟩

/-! ## Methods of the cache -/

theorem isEmpty_congr {κ ν μ : Type} [DecidableEq κ] {h : Hash κ ν} {k : Hash κ μ}
    (hk : ∀ x, (h.lookup x).isSome = (k.lookup x).isSome) : Hash.isEmpty h = Hash.isEmpty k := by
  rw [Bool.eq_iff_iff, Hash.isEmpty_iff, Hash.isEmpty_iff]
  apply forall_congr'
  intro x
  rw [← Option.not_isSome_iff_eq_none, ← Option.not_isSome_iff_eq_none, hk]

theorem asLocal_congr {group group' : GroupMap} (hr : group'.rules = group.rules)
    (hl : ∀ u, (group'.localVnics.lookup u).isSome = (group.localVnics.lookup u).isSome)
    (hk : ∀ r, (group'.referencees.lookup r).isSome = (group.referencees.lookup r).isSome) :
    asLocal group' = asLocal group := by
  unfold asLocal
  rw [isEmpty_congr hl, hr]
  simp only [hk]

theorem localGroups_mapGroups {f : GroupMap → GroupMap}
    (hf : ∀ group, asLocal (f group) = asLocal group) :
    (c.mapGroups f).localGroups = c.localGroups := by
  funext g
  unfold Cache.localGroups Cache.mapGroups
  rw [Hash.lookup_mapVals]
  cases c.securityGroups.lookup g with
  | none => rfl
  | some group => exact hf group

theorem localGroups_modify {f : GroupMap → GroupMap} (g' : Text) :
    { c with securityGroups := Hash.modify g f c.securityGroups }.localGroups g' =
      if g' = g then (c.securityGroups.lookup g').bind fun group => asLocal (f group)
      else c.localGroups g' := by
  unfold Cache.localGroups
  rw [Hash.lookup_modify]
  split
  · rw [Option.bind_map]
    rfl
  · rfl

/-- Groups without local vnics do not count. -/
theorem localGroups_dropEmptyGroups : c.dropEmptyGroups.localGroups = c.localGroups := by
  funext g
  unfold Cache.localGroups Cache.dropEmptyGroups
  rw [Hash.lookup_filterVals]
  apply bind_filter_nonempty
  intro group he
  unfold asLocal
  rw [if_pos he]

theorem localGroups_removeSecurityGroup (g' : Text) :
    (c.removeSecurityGroup g).localGroups g' = if g' = g then none else c.localGroups g' := by
  unfold Cache.localGroups Cache.removeSecurityGroup
  rw [Hash.lookup_erase]
  split
  · rfl
  · rfl

theorem asLocal_putVnic (vnic : VnicMap) (group : GroupMap) :
    asLocal (putVnic g v vnic group) = asLocal group := by
  apply asLocal_congr
  · rfl
  · intro u
    exact Hash.isSome_lookup_modify ..
  · intro r
    show ((Hash.mapVals _ (Hash.modify g (AList.insert v vnic) group.referencees)).lookup r).isSome = _
    rw [Hash.lookup_mapVals, Option.isSome_map]
    exact Hash.isSome_lookup_modify ..

theorem asLocal_leaveGroup (group : GroupMap) : asLocal (leaveGroup g v group) = asLocal group := by
  apply asLocal_congr
  · rfl
  · intro u
    exact Hash.isSome_lookup_modify ..
  · intro r
    exact Hash.isSome_lookup_modify ..

theorem isEmpty_insert (u : Text) (vnic : VnicMap) (vnics : Hash Text VnicMap) :
    Hash.isEmpty (AList.insert u vnic vnics : Hash Text VnicMap) = false := by
  rw [← Bool.not_eq_true, Hash.isEmpty_iff]
  intro h
  have := h u
  rw [Hash.lookup_insert, if_pos rfl] at this
  cases this

theorem localGroups_addToGroup (isLocal : Bool) (vnic : VnicMap)
    (h : c.isLocalGroup g = true → (c.localGroups g).isSome = true) :
    (addToGroup isLocal v g vnic c).localGroups = c.localGroups := by
  unfold addToGroup
  rw [localGroups_mapGroups fun group => asLocal_putVnic vnic group]
  funext g'
  rw [localGroups_modify]
  split
  case isFalse => rfl
  case isTrue hg =>
    rw [hg]
    unfold Cache.localGroups at h ⊢
    cases hl : c.securityGroups.lookup g with
    | none => rfl
    | some group =>
      have hsome := h (by unfold Cache.isLocalGroup; rw [hl]; rfl)
      rw [hl, Option.bind_some] at hsome
      obtain ⟨x, hx⟩ := Option.isSome_iff_exists.mp hsome
      rw [Option.bind_some, Option.bind_some, hx, asLocal_eq_some]
      obtain ⟨hne, hx⟩ := asLocal_eq_some.mp hx
      cases isLocal with
      | true => exact ⟨isEmpty_insert .., hx⟩
      | false => exact ⟨hne, hx⟩

theorem localGroups_removeForeignVnic (g v : Text) :
    (c.removeForeignVnic g v).localGroups = c.localGroups := by
  unfold Cache.removeForeignVnic
  rw [localGroups_mapGroups asLocal_leaveGroup]
  funext g'
  rw [localGroups_modify]
  split
  · rfl
  · rfl

theorem localGroups_removeVnicFromReferencers (g v : Text) :
    (c.removeVnicFromReferencers g v).localGroups = c.localGroups :=
  localGroups_mapGroups fun _ => rfl

end

end Netfilter

end WakameVdc
