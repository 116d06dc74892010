import WakameVdc.SubscriptionSound

/-!
# The events of groups

What the handlers of the events of groups do to the subscriptions: vnics that
join and leave, referencers, and new rules.
-/

namespace WakameVdc

open Lib

namespace Netfilter

def Cache.localNames (c : Cache) (g : Text) : Option (List Text) :=
  (c.localGroups g).map LocalGroup.names

def GroupsAre (groups : LocalGroups) (c : Cache) : Prop := c.localGroups = groups

def NamesAre (names : Text → Option (List Text)) (c : Cache) : Prop := c.localNames = names

section
variable {db : Db} {nodeId : Text} {c : Cache} {g v r : Text} {node : Node} {events : List Topic}

theorem localNames_of_localGroups {c' : Cache} (h : c'.localGroups = c.localGroups) :
    c'.localNames = c.localNames := by
  unfold Cache.localNames
  rw [h]

theorem Exact.of_localNames {c' : Cache} (h : Exact c.localGroups events)
    (hn : c'.localNames = c.localNames) : Exact c'.localGroups events :=
  h.congr fun g => congrFun hn g

theorem ofGroup_vnicsOf {t : Topic} (ht : vnicsOf r t) : t.ofGroup = true := by
  rcases ht with ht | ht
  · rw [ht]
    rfl
  · rw [ht]
    rfl

theorem vnicsOf_iff {r' : Text} {t : Topic} (ht : vnicsOf r t) : vnicsOf r' t ↔ r' = r := by
  unfold vnicsOf at ht ⊢
  rcases ht with ht | ht
  · simp [ht, eq_comm]
  · simp [ht, eq_comm]

theorem ofGroup_ownEvents {t : Topic} (ht : ownEvents g t) : t.ofGroup = true := by
  rcases ht with ht | ht | ht
  · rw [ht]
    rfl
  · rw [ht]
    rfl
  · rw [ht]
    rfl

theorem not_vnicsOf_of_own {t : Topic} (ht : ownEvents g t) (hv : vnicsOf r t) : False := by
  unfold ownEvents vnicsOf at *
  rcases hv with hv | hv
  · simp [hv] at ht
  · simp [hv] at ht

theorem ownEvents_iff {g' : Text} {t : Topic} (ht : ownEvents g t) : ownEvents g' t ↔ g' = g := by
  unfold ownEvents at ht ⊢
  rcases ht with ht | ht | ht
  · simp [ht, eq_comm]
  · simp [ht, eq_comm]
  · simp [ht, eq_comm]

/-- Exactness, for the events about the vnics of a group and for its own. -/
theorem exact_of_events {groups : LocalGroups}
    (hv : ∀ r t, vnicsOf r t → (t ∈ events ↔ groups.Wants t))
    (ho : ∀ g t, ownEvents g t → (t ∈ events ↔ groups.Wants t)) : Exact groups events := by
  intro t ht
  cases t with
  | vnicJoined r => exact hv r _ (Or.inl rfl)
  | vnicLeft r => exact hv r _ (Or.inr rfl)
  | referencerAdded g => exact ho g _ (Or.inl rfl)
  | referencerRemoved g => exact ho g _ (Or.inr (Or.inl rfl))
  | rulesUpdated g => exact ho g _ (Or.inr (Or.inr rfl))
  | vnicCreated | vnicDestroyed | joinedGroup _ | leftGroup _ | vnicsJoined _ | vnicsLeft _ =>
    cases ht

theorem needs_iff : c.localGroups.Needs r ↔ c.localVnicsLeftInGroup r = true ∨ c.names r := by
  unfold LocalGroups.Needs
  rw [isSome_localGroups, names_iff]

theorem wants_vnicsOf {groups : LocalGroups} {t : Topic} (ht : vnicsOf r t) :
    groups.Wants t ↔ groups.Needs r := by
  rcases ht with ht | ht
  · rw [ht]
    exact Iff.rfl
  · rw [ht]
    exact Iff.rfl

theorem wants_ownEvents {groups : LocalGroups} {t : Topic} (ht : ownEvents g t) :
    groups.Wants t ↔ (groups g).isSome = true := by
  rcases ht with ht | ht | ht
  · rw [ht]
    exact Iff.rfl
  · rw [ht]
    exact Iff.rfl
  · rw [ht]
    exact Iff.rfl

/-! ## Vnics that join and leave -/

theorem localGroups_addVnicToSecurityGroup (hc : node.cache.isLocalGroup g = true)
    (hg : (node.cache.localGroups g).isSome = true) :
    (Proc.final (addVnicToSecurityGroup db nodeId v g) node).cache.localGroups =
      node.cache.localGroups := by
  unfold addVnicToSecurityGroup
  rw [final_bind_getCache, hc]
  refine Proc.final_bind (I := fun n : Node => GroupsAre node.cache.localGroups n.cache) rfl ?_
  intro _
  apply Proc.Keeps.bind (keeps_lift _)
  intro result
  apply Proc.Keeps.bind keeps_getCache
  intro c
  split
  · apply keeps_modifyCache
    intro c hsame
    exact (localGroups_addToGroup _ _ fun _ => by rw [hsame]; exact hg).trans hsame
  · exact Proc.keeps_throw _

/-- A group without local vnics would get one. -/
theorem localGroups_vnicJoined
    (hr : node.cache.isLocalGroup r = true → node.cache.localVnicsLeftInGroup r = true) :
    (Proc.final (vnicJoined db nodeId r v) node).cache.localGroups = node.cache.localGroups := by
  unfold vnicJoined
  rw [final_bind_getCache]
  refine Proc.final_bind (I := fun n : Node => GroupsAre node.cache.localGroups n.cache) ?_ ?_
  · cases hc : node.cache.isLocalGroup r && !node.cache.isLocalVnicInGroup v r with
    | false => rfl
    | true =>
      rw [Bool.and_eq_true] at hc
      apply localGroups_addVnicToSecurityGroup hc.1
      rw [isSome_localGroups]
      exact hr hc.1
  · intro _
    apply Proc.Keeps.bind
    · unfold addVnicToReferencersAndReferenceesForGroup
      split
      · exact Proc.keeps_throw _
      · apply keeps_modifyCache
        intro c hsame
        exact (localGroups_mapGroups fun group => asLocal_putVnic _ group).trans hsame
    · intro _
      exact keeps_afterJoin ..

theorem localNames_mapGroups {f : GroupMap → GroupMap}
    (hf : ∀ group, (asLocal (f group)).map LocalGroup.names = (asLocal group).map LocalGroup.names) :
    (c.mapGroups f).localNames = c.localNames := by
  funext g
  unfold Cache.localNames Cache.localGroups Cache.mapGroups
  rw [Hash.lookup_mapVals]
  cases c.securityGroups.lookup g with
  | none => rfl
  | some group => exact hf group

theorem names_asLocal {group group' : GroupMap} (hr : group'.rules = group.rules)
    (hl : group'.localVnics = group.localVnics) :
    (asLocal group').map LocalGroup.names = (asLocal group).map LocalGroup.names := by
  unfold asLocal
  rw [hl, hr]
  split
  · rfl
  · rfl

theorem localNames_removeVnicFromReferencees (g v : Text) :
    (c.removeVnicFromReferencees g v).localNames = c.localNames :=
  localNames_mapGroups fun _ => names_asLocal rfl rfl

theorem localNames_vnicLeft :
    (Proc.final (vnicLeft r v) node).cache.localNames = node.cache.localNames := by
  have hkeeps : Proc.Keeps (fun n : Node => NamesAre node.cache.localNames n.cache)
      (vnicLeft r v) := by
    apply Proc.Keeps.bind (keeps_forgetForeign ..)
    intro _
    apply Proc.Keeps.bind (keeps_handleRefGroupVnic ..)
    intro _
    apply keeps_modifyCache
    intro c hsame
    calc _ = ((c.removeForeignVnic r v).removeVnicFromReferencees r v).localNames :=
          localNames_of_localGroups (localGroups_removeVnicFromReferencers ..)
      _ = (c.removeForeignVnic r v).localNames := localNames_removeVnicFromReferencees ..
      _ = c.localNames := localNames_of_localGroups (localGroups_removeForeignVnic ..)
      _ = _ := hsame
  exact hkeeps.at_final node rfl

/-! ## Referencers -/

theorem updateGroup_ok {f : List ParsedRule → GroupMap → GroupMap} {node' : Node}
    (h : Proc.exec (updateGroup db g f) node = (.ok (), node')) :
    ∃ rules, db.groups.lookup g = some rules ∧ node'.cache = { node.cache with
      securityGroups := Hash.modify g (f rules) node.cache.securityGroups } := by
  unfold updateGroup at h
  obtain ⟨c, n, hc, h⟩ := Proc.exec_bind_ok h
  cases hc
  split at h
  · rename_i group rules _ hrules
    cases h
    exact ⟨rules, hrules, rfl⟩
  · cases h

theorem keeps_updateGroup_names {names : Text → Option (List Text)}
    {f : List ParsedRule → GroupMap → GroupMap} (hr : ∀ rules group, (f rules group).rules = group.rules)
    (hl : ∀ rules group, (f rules group).localVnics = group.localVnics) :
    Proc.Keeps (fun n : Node => NamesAre names n.cache) (updateGroup db g f) := by
  apply Proc.Keeps.bind keeps_getCache
  intro c
  split
  · rename_i group rules _ _
    apply keeps_modifyCache
    intro c hsame
    refine Eq.trans ?_ hsame
    funext g'
    unfold Cache.localNames
    rw [localGroups_modify]
    split
    · rw [Option.map_bind, Cache.localGroups, Option.map_bind]
      congr 1
      funext group
      exact names_asLocal (hr ..) (hl ..)
    · rfl
  · exact Proc.keeps_throw _

theorem keeps_updateReferencees_names {names : Text → Option (List Text)} :
    Proc.Keeps (fun n : Node => NamesAre names n.cache) (updateReferencees db g) :=
  keeps_updateGroup_names (fun _ _ => rfl) fun _ _ => rfl

theorem keeps_updateReferencers_names {names : Text → Option (List Text)} :
    Proc.Keeps (fun n : Node => NamesAre names n.cache) (updateReferencers db g) :=
  keeps_updateGroup_names (fun _ _ => rfl) fun _ _ => rfl

theorem localNames_referencerAdded :
    (Proc.final (referencerAdded db g r) node).cache.localNames = node.cache.localNames := by
  have hkeeps : Proc.Keeps (fun n : Node => NamesAre node.cache.localNames n.cache)
      (referencerAdded db g r) := by
    apply Proc.Keeps.bind keeps_updateReferencers_names
    intro _
    apply Proc.Keeps.bind keeps_updateReferencees_names
    intro _
    exact keeps_arpForReferencer ..
  exact hkeeps.at_final node rfl

theorem localNames_referencerRemoved :
    (Proc.final (referencerRemoved db g r) node).cache.localNames = node.cache.localNames := by
  have hkeeps : Proc.Keeps (fun n : Node => NamesAre node.cache.localNames n.cache)
      (referencerRemoved db g r) := by
    apply Proc.Keeps.bind (keeps_arpForReferencer ..)
    intro _
    apply Proc.Keeps.bind keeps_updateReferencers_names
    intro _
    exact keeps_updateReferencees_names
  exact hkeeps.at_final node rfl

theorem exec_final {α : Type} {x : NodeM α} {a : Except NetfilterError α} {node' : Node}
    (h : Proc.exec x node = (a, node')) : Proc.final x node = node' := by
  unfold Proc.final
  rw [h]

theorem exact_referencerAdded (h : Exact node.cache.localGroups events)
    (hg : .referencerAdded g ∈ events) {s : Service}
    (hs : s = Proc.final (Service.referencerAdded db g r) ⟨node, events⟩) :
    Exact s.node.cache.localGroups s.subscribedEvents := by
  rw [hs]
  apply final_onNode_bind (G := fun s => Exact s.node.cache.localGroups s.subscribedEvents)
  · intro e node' he
    rw [← exec_final he]
    exact h.of_localNames localNames_referencerAdded
  · intro a node' he
    have hnames : (Proc.final (referencerAdded db g r) node).cache.localNames = node.cache.localNames :=
      localNames_referencerAdded
    rw [exec_final he] at hnames
    have hnode := h.of_localNames hnames
    have hlocal : (node'.cache.localGroups g).isSome = true := (hnode _ rfl).mp hg
    have hadds : Adds node' (subscribeToReferencees g) (vnicsOf g) := adds_subscribeToReferencees g
    obtain ⟨hsame, hexact⟩ : (Proc.final (subscribeToReferencees g) ⟨node', events⟩).node = node' ∧
        Exact node'.cache.localGroups
          (Proc.final (subscribeToReferencees g) ⟨node', events⟩).subscribedEvents :=
      hnode.adds hadds (by
        intro t _
        constructor
        · exact Or.inl
        · intro ht
          rcases ht with ht | ht
          · exact ht
          · exact (wants_vnicsOf ht).mpr (Or.inl hlocal))
    rw [hsame]
    exact hexact

/-- Another group with a local vnic names the group. -/
def Cache.namesBut (c : Cache) (g r : Text) : Prop :=
  ∃ h group, h ≠ g ∧ c.securityGroups.lookup h = some group ∧ c.localVnicsLeftInGroup h = true ∧
    r ∈ ruleGroups group.rules

/-- A group that is named still has a referencer left, as the test has it. -/
def ReferencerRemovedFits (db : Db) (c : Cache) (g r : Text) : Prop :=
  c.names r → c.localVnicsLeftInGroup r = false →
    ((db.getReferencersOfSecurityGroup g).lookup r).isSome = true ∨
      ∃ h group, h ≠ g ∧ c.securityGroups.lookup h = some group ∧
        (group.referencers.lookup r).isSome = true

theorem localReferencersLeft_iff : c.localReferencersLeft r = true ↔
    ∃ h group, c.securityGroups.lookup h = some group ∧
      (group.referencers.lookup r).isSome = true := by
  unfold Cache.localReferencersLeft
  exact Hash.any_values

theorem localReferencersLeft_of_removed {node' : Node} (hg : node.cache.isLocalGroup g = true)
    (he : Proc.exec (referencerRemoved db g r) node = (.ok (), node'))
    (h : ((db.getReferencersOfSecurityGroup g).lookup r).isSome = true ∨
      ∃ h group, h ≠ g ∧ node.cache.securityGroups.lookup h = some group ∧
        (group.referencers.lookup r).isSome = true) :
    node'.cache.localReferencersLeft r = true := by
  unfold referencerRemoved at he
  obtain ⟨_, node₁, h₁, he⟩ := Proc.exec_bind_ok he
  obtain ⟨_, node₂, h₂, h₃⟩ := Proc.exec_bind_ok he
  have hc₁ : node₁.cache = node.cache := by
    have hk := (keeps_arpForReferencer (I := fun c => c = node.cache) g r).at_final node rfl
    rw [exec_final h₁] at hk
    exact hk
  obtain ⟨rules, _, hc₂⟩ := updateGroup_ok h₂
  obtain ⟨rules', _, hc₃⟩ := updateGroup_ok h₃
  rw [hc₁] at hc₂
  rw [hc₂] at hc₃
  rw [localReferencersLeft_iff, hc₃]
  simp only [Hash.lookup_modify]
  rcases h with h | h
  · obtain ⟨group, hgroup⟩ := Option.isSome_iff_exists.mp hg
    exact ⟨g, _, (if_pos rfl).trans (by rw [if_pos rfl, hgroup]; rfl), h⟩
  · obtain ⟨g', group, hne, hl, hr⟩ := h
    refine ⟨g', group, ?_, hr⟩
    rw [if_neg hne, if_neg hne]
    exact hl

theorem isLocalGroup_of_localVnicsLeft (h : c.localVnicsLeftInGroup g = true) :
    c.isLocalGroup g = true := by
  unfold Cache.localVnicsLeftInGroup at h
  unfold Cache.isLocalGroup
  cases hl : c.securityGroups.lookup g with
  | none =>
    rw [hl] at h
    cases h
  | some group => rfl

theorem exact_referencerRemoved (h : Exact node.cache.localGroups events)
    (hg : .referencerRemoved g ∈ events) (hf : ReferencerRemovedFits db node.cache g r)
    {s : Service} (hs : s = Proc.final (Service.referencerRemoved db g r) ⟨node, events⟩) :
    Exact s.node.cache.localGroups s.subscribedEvents := by
  rw [hs]
  apply final_onNode_bind (G := fun s => Exact s.node.cache.localGroups s.subscribedEvents)
  · intro e node' he
    rw [← exec_final he]
    exact h.of_localNames localNames_referencerRemoved
  · intro a node' he
    rw [final_onNode_getCache]
    have hnames : (Proc.final (referencerRemoved db g r) node).cache.localNames = node.cache.localNames :=
      localNames_referencerRemoved
    rw [exec_final he] at hnames
    have hnode := h.of_localNames hnames
    have hcached : node.cache.isLocalGroup g = true := by
      apply isLocalGroup_of_localVnicsLeft
      rw [← isSome_localGroups]
      exact (h _ rfl).mp hg
    have hgroup : Drops node' (unsubscribeFromReferencedSecurityGroup r) (vnicsOf r) :=
      drops_unsubscribeFromReferencedSecurityGroup r
    have hdrops := drops_when
      (b := !(node'.cache.localReferencersLeft r || node'.cache.localVnicsLeftInGroup r)) hgroup
    have hwants : ∀ t, t.ofGroup = true → (node'.cache.localGroups.Wants t ↔
        node'.cache.localGroups.Wants t ∧
          ¬ ((!(node'.cache.localReferencersLeft r || node'.cache.localVnicsLeftInGroup r)) = true ∧
            vnicsOf r t)) := by
        intro t _
        constructor
        · intro ht
          refine ⟨ht, ?_⟩
          intro hx
          obtain ⟨hb, hv⟩ := hx
          simp only [Bool.not_eq_true', Bool.or_eq_false_iff] at hb
          rcases (wants_vnicsOf hv).mp ht with hlocal | hnamed
          · rw [isSome_localGroups, hb.2] at hlocal
            cases hlocal
          · have hlocal : node.cache.localVnicsLeftInGroup r = false := by
              rw [← isSome_localGroups, ← LocalGroups.isSome_congr (congrFun hnames),
                isSome_localGroups]
              exact hb.2
            have hold := names_iff.mpr ((LocalGroups.named_congr (congrFun hnames) r).mp hnamed)
            rw [localReferencersLeft_of_removed hcached he (hf hold hlocal)] at hb
            cases hb.1
        · intro ht
          exact ht.1
    obtain ⟨hsame, hexact⟩ := hnode.drops hdrops hwants
    rw [hsame]
    exact hexact

/-! ## New rules -/

theorem namesBut_iff : c.namesBut g r ↔
    ∃ h x, h ≠ g ∧ c.localGroups h = some x ∧ r ∈ x.names := by
  unfold Cache.namesBut
  constructor
  · intro hx
    obtain ⟨h, group, hne, hl, hlocal, hr⟩ := hx
    rw [← isSome_localGroups] at hlocal
    obtain ⟨x, hx⟩ := Option.isSome_iff_exists.mp hlocal
    obtain ⟨group', hl', hx'⟩ := localGroups_eq_some.mp hx
    rw [hl] at hl'
    cases hl'
    refine ⟨h, x, hne, hx, ?_⟩
    rw [← (asLocal_eq_some.mp hx').2]
    exact hr
  · intro hx
    obtain ⟨h, x, hne, hx, hr⟩ := hx
    obtain ⟨group, hl, hx'⟩ := localGroups_eq_some.mp hx
    refine ⟨h, group, hne, hl, ?_, ?_⟩
    · rw [← isSome_localGroups, hx]
      rfl
    · rw [← (asLocal_eq_some.mp hx').2] at hr
      exact hr

/-- The rows of a group are those of the groups that its rules name, and these exist. -/
def Db.HasRows (db : Db) (g : Text) (rules : List ParsedRule) : Prop :=
  ∀ r, (g, r) ∈ db.references ∧ (db.groups.lookup r).isSome = true ↔ r ∈ ruleGroups rules

/-- The tasks can be built, and no group needs to be dropped: one that is named
no longer is needed for another reason, one that is named now was not listed
before its rules were, and the test that is the wrong way round does not fire. -/
structure RulesFit (db : Db) (c : Cache) (g : Text) (rules : List ParsedRule) : Prop where
  tasks : ∀ e ∈ c.getLocalVnicsInGroup g, c.getVnicNetworkMode e.uuid = .ok .securityGroup
  rows : db.HasRows g rules
  fresh : ∀ r ∈ ruleGroups rules, r ∈ c.referenceeIds g →
    c.localVnicsLeftInGroup r = true ∨ c.names r
  dropped : ∀ group, c.securityGroups.lookup g = some group → ∀ r ∈ ruleGroups group.rules,
    r ∉ ruleGroups rules → c.localVnicsLeftInGroup r = true ∨ c.namesBut g r
  kept : ∀ r ∈ c.referenceeIds g, r ∉ ruleGroups rules → c.localVnicsLeftInGroup r = true →
    c.localReferencersLeft r = false

abbrev Cache.modifyGroup (c : Cache) (g : Text) (f : GroupMap → GroupMap) : Cache :=
  { c with securityGroups := Hash.modify g f c.securityGroups }

section
variable {f : GroupMap → GroupMap} (hf : ∀ group, (f group).localVnics = group.localVnics)
include hf

theorem getLocalVnic_modify : (c.modifyGroup g f).getLocalVnic v = c.getLocalVnic v := by
  unfold Cache.getLocalVnic Hash.values Cache.modifyGroup Hash.modify Hash.mapVals
  rw [List.map_map, List.findSome?_map, List.findSome?_map]
  congr 1
  funext e
  simp only [Function.comp_apply]
  split
  · rw [hf]
  · rfl

theorem getVnicNetworkMode_modify :
    (c.modifyGroup g f).getVnicNetworkMode v = c.getVnicNetworkMode v := by
  have hempty : Hash.isEmpty (Hash.modify g f c.securityGroups) = Hash.isEmpty c.securityGroups :=
    isEmpty_congr fun x => Hash.isSome_lookup_modify ..
  unfold Cache.getVnicNetworkMode Cache.getVnic
  rw [getLocalVnic_modify hf, hempty]
  rfl

theorem localVnicsLeftInGroup_modify (g' : Text) :
    (c.modifyGroup g f).localVnicsLeftInGroup g' = c.localVnicsLeftInGroup g' := by
  unfold Cache.localVnicsLeftInGroup Cache.modifyGroup
  rw [Hash.lookup_modify]
  by_cases hg : g' = g
  · rw [if_pos hg]
    cases c.securityGroups.lookup g' with
    | none => rfl
    | some group => simp [hf]
  · rw [if_neg hg]

theorem getLocalVnicsInGroup_modify (g' : Text) :
    (c.modifyGroup g f).getLocalVnicsInGroup g' = c.getLocalVnicsInGroup g' := by
  unfold Cache.getLocalVnicsInGroup Cache.modifyGroup
  rw [Hash.lookup_modify]
  by_cases hg : g' = g
  · rw [if_pos hg]
    cases c.securityGroups.lookup g' with
    | none => rfl
    | some group => simp [hf]
  · rw [if_neg hg]

end

theorem localReferencersLeft_modify {f : GroupMap → GroupMap}
    (hf : ∀ group, (f group).referencers = group.referencers) (r : Text) :
    (c.modifyGroup g f).localReferencersLeft r = c.localReferencersLeft r := by
  unfold Cache.localReferencersLeft Hash.values Cache.modifyGroup Hash.modify Hash.mapVals
  rw [List.map_map, List.any_map, List.any_map]
  congr 1
  funext e
  simp only [Function.comp_apply]
  split
  · rw [hf]
  · rfl

def withRules (db : Db) (g : Text) (rules : List ParsedRule) (group : GroupMap) : GroupMap :=
  { group with rules := rules, referencees := db.getReferenceesOfSecurityGroup g }

theorem succeeds_secgroupTasksFor (h : c.getVnicNetworkMode v = .ok .securityGroup)
    (group : GroupMap) : Proc.Succeeds (fun n : Node => n.cache = c)
      (secgroupTasksFor v (some group)) fun _ => True := by
  apply Proc.Succeeds.bind (succeeds_vnicNetworkMode h)
  intro mode hm
  rw [hm]
  exact succeeds_lift (a := ()) rfl trivial

theorem runs_rulesUpdated {group : GroupMap} {rules : List ParsedRule}
    (hg : node.cache.securityGroups.lookup g = some group) (hdb : db.groups.lookup g = some rules)
    (hf : RulesFit db node.cache g rules) :
    ∃ node', Proc.Runs (rulesUpdated db g) node () node' ∧
      node'.cache = node.cache.modifyGroup g (withRules db g rules) := by
  have hcached : node.cache.isLocalGroup g = true := by
    unfold Cache.isLocalGroup
    rw [hg]
    rfl
  have hrequest : ∀ (n : Node) (x : GroupMap) (f : List ParsedRule → GroupMap → GroupMap),
      n.cache.securityGroups.lookup g = some x →
      Proc.Runs (updateGroup db g f) n () ⟨n.cache.modifyGroup g (f rules), n.chains⟩ := by
    intro n x f hx
    apply (runs_getCache n).bind
    rw [hx, hdb]
    exact runs_modifyCache _ n
  have hboth : (node.cache.modifyGroup g fun x => { x with rules := rules }).modifyGroup g
      (fun x => { x with referencees := db.getReferenceesOfSecurityGroup g }) =
      node.cache.modifyGroup g (withRules db g rules) := by
    unfold Cache.modifyGroup Hash.modify Hash.mapVals
    congr 2
    rw [List.map_map]
    apply List.map_congr_left
    intro e _
    simp only [Function.comp_apply]
    split
    · rfl
    · rfl
  have hlookup : (node.cache.modifyGroup g (withRules db g rules)).securityGroups.lookup g =
      some (withRules db g rules group) := by
    rw [Hash.lookup_modify, if_pos rfl, hg]
    rfl
  generalize hc' : node.cache.modifyGroup g (withRules db g rules) = c' at hboth hlookup
  have htasks : Proc.Succeeds (fun n : Node => n.cache = c')
      ((c'.getLocalVnicsInGroup g).forM fun vnic => do
        secgroupTasksFor vnic.uuid (c'.securityGroups.lookup g)
        secgroupTasksFor vnic.uuid (node.cache.securityGroups.lookup g)) fun _ => True := by
    apply Proc.succeeds_forM
    intro e he
    have hmode : c'.getVnicNetworkMode e.uuid = .ok .securityGroup := by
      rw [← hc'] at he ⊢
      rw [getLocalVnicsInGroup_modify (f := withRules db g rules) fun _ => rfl] at he
      rw [getVnicNetworkMode_modify (f := withRules db g rules) fun _ => rfl]
      exact hf.tasks e he
    rw [hlookup, hg]
    apply Proc.Succeeds.bind (succeeds_secgroupTasksFor hmode _)
    intro _ _
    exact succeeds_secgroupTasksFor hmode _
  obtain ⟨_, node', hruns, hsame, _⟩ := htasks.runs ⟨c', node.chains⟩ rfl
  refine ⟨node', ?_, hsame⟩
  unfold rulesUpdated
  apply (runs_getCache node).bind
  apply Proc.Runs.bind (t := node) (a := ())
  · rw [hcached]
    rfl
  · apply (hrequest node group _ hg).bind
    apply Proc.Runs.bind (hrequest _ { group with rules := rules } _ (by
      show (Hash.modify g _ node.cache.securityGroups).lookup g = _
      rw [Hash.lookup_modify, if_pos rfl, hg]
      rfl))
    rw [hboth]
    exact (runs_getCache _).bind hruns

theorem mem_referenceeIds {x : LocalGroup} (hx : c.localGroups g = some x) :
    r ∈ c.referenceeIds g ↔ x.lists r = true := by
  obtain ⟨group, hg, hx⟩ := localGroups_eq_some.mp hx
  unfold Cache.referenceeIds
  rw [hg, ← (asLocal_eq_some.mp hx).2]
  exact mem_keys_iff

theorem isSome_getReferencees (db : Db) (g r : Text) :
    ((db.getReferenceesOfSecurityGroup g).lookup r).isSome = true ↔
      (g, r) ∈ db.references ∧ (db.groups.lookup r).isSome = true := by
  unfold Db.getReferenceesOfSecurityGroup
  rw [Hash.lookup_mapVals, Option.isSome_map, Hash.lookup_filterVals]
  cases db.groups.lookup r with
  | none => simp
  | some x => simp [Option.filter_some]

theorem localGroups_withRules {x : LocalGroup} (hx : c.localGroups g = some x)
    (rules : List ParsedRule) (g' : Text) :
    (c.modifyGroup g (withRules db g rules)).localGroups g' =
      if g' = g then some ⟨ruleGroups rules,
        fun r => ((db.getReferenceesOfSecurityGroup g).lookup r).isSome⟩
      else c.localGroups g' := by
  rw [localGroups_modify]
  split
  case isFalse => rfl
  case isTrue hg =>
    obtain ⟨group, hl, hx⟩ := localGroups_eq_some.mp hx
    rw [hg, hl, Option.bind_some, asLocal_eq_some]
    exact ⟨(asLocal_eq_some.mp hx).1, rfl⟩

theorem named_cases (groups : LocalGroups) (g r : Text) : groups.Named r ↔
    (∃ x, groups g = some x ∧ r ∈ x.names) ∨ ∃ h x, h ≠ g ∧ groups h = some x ∧ r ∈ x.names := by
  constructor
  · intro hx
    obtain ⟨h, x, hx, hr⟩ := hx
    by_cases hg : h = g
    · rw [hg] at hx
      exact Or.inl ⟨x, hx, hr⟩
    · exact Or.inr ⟨h, x, hg, hx, hr⟩
  · intro hx
    rcases hx with hx | hx
    · obtain ⟨x, hx, hr⟩ := hx
      exact ⟨g, x, hx, hr⟩
    · obtain ⟨h, x, _, hx, hr⟩ := hx
      exact ⟨h, x, hx, hr⟩

/-- What is needed after the rules of a group with local vnics are exchanged. -/
theorem needs_withRules {x : LocalGroup} (hx : c.localGroups g = some x)
    (rules : List ParsedRule) : (c.modifyGroup g (withRules db g rules)).localGroups.Needs r ↔
      c.localVnicsLeftInGroup r = true ∨ r ∈ ruleGroups rules ∨ c.namesBut g r := by
  have hsome : ((c.modifyGroup g (withRules db g rules)).localGroups r).isSome = true ↔
      c.localVnicsLeftInGroup r = true := by
    rw [localGroups_withRules hx, ← isSome_localGroups]
    split
    case isFalse => rfl
    case isTrue hr => simp [hr, hx]
  unfold LocalGroups.Needs
  rw [hsome, named_cases _ g, namesBut_iff]
  simp only [localGroups_withRules hx, if_true, Option.some.injEq, exists_eq_left']
  constructor
  · intro h
    rcases h with h | h | h
    · exact Or.inl h
    · exact Or.inr (Or.inl h)
    · obtain ⟨g', y, hne, hy, hr⟩ := h
      rw [if_neg hne] at hy
      exact Or.inr (Or.inr ⟨g', y, hne, hy, hr⟩)
  · intro h
    rcases h with h | h | h
    · exact Or.inl h
    · exact Or.inr (Or.inl h)
    · obtain ⟨g', y, hne, hy, hr⟩ := h
      refine Or.inr (Or.inr ⟨g', y, hne, ?_, hr⟩)
      rw [if_neg hne]
      exact hy

theorem keeps_rulesUpdated_unknown (hdb : db.groups.lookup g = none)
    {names : Text → Option (List Text)} :
    Proc.Keeps (fun n : Node => NamesAre names n.cache) (rulesUpdated db g) := by
  have hraises : ∀ f, Proc.Keeps (fun n : Node => NamesAre names n.cache) (updateGroup db g f) := by
    intro f
    apply Proc.Keeps.bind keeps_getCache
    intro c
    rw [hdb]
    split
    · rename_i hx
      cases hx
    · exact Proc.keeps_throw _
  apply Proc.Keeps.bind keeps_getCache
  intro c
  apply Proc.Keeps.bind
  · apply Proc.keeps_when
    intro _
    exact Proc.keeps_throw _
  · intro _
    apply Proc.Keeps.bind (hraises _)
    intro _
    apply Proc.Keeps.bind (hraises _)
    intro _
    exact keeps_rulesTasks ..

theorem exact_rulesUpdated (h : Exact node.cache.localGroups events)
    (hg : .rulesUpdated g ∈ events)
    (hf : ∀ rules, db.groups.lookup g = some rules → RulesFit db node.cache g rules)
    {s : Service} (hs : s = Proc.final (Service.rulesUpdated db g) ⟨node, events⟩) :
    Exact s.node.cache.localGroups s.subscribedEvents := by
  rw [hs]
  unfold Service.rulesUpdated
  rw [final_onNode_getCache]
  cases hdb : db.groups.lookup g with
  | none =>
    apply final_onNode_bind (G := fun s => Exact s.node.cache.localGroups s.subscribedEvents)
    · intro e node' he
      rw [← exec_final he]
      exact h.of_localNames ((keeps_rulesUpdated_unknown hdb).at_final node rfl)
    · intro a node' he
      unfold rulesUpdated at he
      obtain ⟨_, _, _, he⟩ := Proc.exec_bind_ok he
      obtain ⟨_, _, _, he⟩ := Proc.exec_bind_ok he
      obtain ⟨_, _, he, _⟩ := Proc.exec_bind_ok he
      obtain ⟨rules, hrules, _⟩ := updateGroup_ok he
      rw [hdb] at hrules
      cases hrules
  | some rules =>
    have hfit := hf rules hdb
    obtain ⟨x, hx⟩ := Option.isSome_iff_exists.mp ((h _ rfl).mp hg)
    obtain ⟨group, hl, hgroup⟩ := localGroups_eq_some.mp hx
    obtain ⟨node', hruns, hc'⟩ := runs_rulesUpdated hl hdb hfit
    rw [(runs_onNode hruns events).final_bind, final_onNode_getCache]
    have hold : ∀ r, r ∈ node.cache.referenceeIds g ↔ x.lists r = true := fun r =>
      mem_referenceeIds hx
    have hnew : ∀ r, r ∈ node'.cache.referenceeIds g ↔ r ∈ ruleGroups rules := by
      intro r
      rw [mem_referenceeIds (by rw [hc', localGroups_withRules hx, if_pos rfl])]
      exact (isSome_getReferencees db g r).trans (hfit.rows r)
    have hadd : ∀ ref, Adds node' (subscribeToReferencees ref) (vnicsOf ref) := fun ref =>
      adds_subscribeToReferencees ref
    have hdrop : ∀ ref, Drops node' (unsubscribeFromReferencedSecurityGroup ref) (vnicsOf ref) :=
      fun ref => drops_unsubscribeFromReferencedSecurityGroup ref
    obtain ⟨events₁, hr₁, hm₁⟩ := (adds_forM fun ref _ =>
      adds_when (b := !(node.cache.referenceeIds g).contains ref) (hadd ref)).runs events
    obtain ⟨events₂, hr₂, hm₂⟩ := (drops_forM fun ref _ =>
      drops_when (b := !(node'.cache.referenceeIds g).contains ref &&
        node'.cache.localVnicsLeftInGroup ref && node'.cache.localReferencersLeft ref)
        (hdrop ref)).runs events₁
    rw [(hr₁.bind hr₂).final]
    have hvnics : ∀ r t, vnicsOf r t → (t ∈ events₂ ↔ node'.cache.localGroups.Wants t) := by
      intro r t ht
      have hone : ∀ ref, vnicsOf ref t ↔ ref = r := fun ref => vnicsOf_iff ht
      have hof := ofGroup_vnicsOf ht
      rw [hm₂ t hof, hm₁ t hof, h t hof, wants_vnicsOf ht, wants_vnicsOf ht, hc',
        needs_withRules hx, needs_iff]
      simp only [hone, ← hc', Bool.not_eq_true', Bool.and_eq_true, ← Bool.not_eq_true,
        List.contains_iff_mem, hnew]
      have hnames : node.cache.names r ↔ r ∈ ruleGroups group.rules ∨ node.cache.namesBut g r := by
        rw [names_iff, named_cases _ g, namesBut_iff, hx, ← (asLocal_eq_some.mp hgroup).2]
        simp
      have hlocal : node'.cache.localVnicsLeftInGroup r = node.cache.localVnicsLeftInGroup r := by
        rw [hc', localVnicsLeftInGroup_modify (f := withRules db g rules) fun _ => rfl]
      have hleft : node'.cache.localReferencersLeft r = node.cache.localReferencersLeft r := by
        rw [hc', localReferencersLeft_modify (f := withRules db g rules) fun _ => rfl]
      have hfresh := hfit.fresh r
      have hdropped := hfit.dropped group hl r
      have hkept := hfit.kept r
      grind
    apply exact_of_events hvnics
    intro g' t ht
    have hno : ∀ ref, ¬ vnicsOf ref t := fun ref hv => not_vnicsOf_of_own ht hv
    have hof := ofGroup_ownEvents ht
    rw [hm₂ t hof, hm₁ t hof, h t hof, wants_ownEvents ht, wants_ownEvents ht,
      isSome_localGroups, isSome_localGroups, hc',
      localVnicsLeftInGroup_modify (f := withRules db g rules) fun _ => rfl]
    simp [hno]

end

end Netfilter

end WakameVdc
