import WakameVdc.SubscriptionJoin

/-!
# The subscriptions over whole runs

The node starts with the subscriptions its groups call for, and each handler keeps
them exact as long as its tests answer what the cache is.
-/

namespace WakameVdc

open Lib

namespace Netfilter

/-! ## The start -/

/-- The tasks of the vnics the node starts with can be built, their instances count
as running, and the groups have their rows. -/
structure StartFits (db : Db) (nodeId : Text) : Prop where
  tasks : (Proc.exec (Service.initializeHook nodeId db)
    ⟨⟨⟨∅, ∅, ∅⟩, ∅⟩, [.vnicCreated, .vnicDestroyed]⟩).1.isOk = true
  live : ∀ r ∈ Hash.values db.vnics, Db.startsWith r nodeId = true → r.live nodeId = true
  rows : ∀ g rules, db.groups.lookup g = some rules → db.HasRows g rules

section
variable {db : Db} {nodeId : Text} {c : Cache} {g v : Text} {node : Node} {events : List Topic}

theorem exact_nothing (h : ∀ t, t.ofGroup = true → t ∉ events) : Exact (fun _ => none) events := by
  have hneeds : ∀ r, ¬ LocalGroups.Needs (fun _ => none) r := by
    intro r hr
    rcases hr with hr | ⟨g, x, hx, _⟩
    · cases hr
    · cases hx
  intro t ht
  apply iff_of_false (h t ht)
  cases t with
  | vnicJoined r | vnicLeft r => exact hneeds r
  | rulesUpdated g | referencerAdded g | referencerRemoved g => exact Bool.false_ne_true
  | vnicCreated | vnicDestroyed | joinedGroup _ | leftGroup _ | vnicsJoined _ | vnicsLeft _ => cases ht

theorem keeps_initialTasks (I : Cache → Prop) (c : Cache) (vif : VnicMap) :
    Proc.Keeps (fun n : Node => I n.cache) (initialTasks c vif) := by
  unfold initialTasks
  apply Proc.Keeps.bind (keeps_lift _)
  intro friends
  apply Proc.Keeps.bind (keeps_modifyChains _)
  intro _
  apply Proc.Keeps.bind (keeps_vnicNetworkMode _)
  intro mode
  apply Proc.Keeps.bind (keeps_lift _)
  intro ips
  exact keeps_modifyChains _

theorem exec_startVnic {vif : VnicMap} {s s' : Service} (h : Proc.exec (do
    onNode (initialTasks c vif)
    subscribeToLocalVnic vif.uuid) s = (.ok (), s')) : s'.node.cache = s.node.cache ∧
      ∀ t, t.ofGroup = true → (t ∈ s'.subscribedEvents ↔ t ∈ s.subscribedEvents) := by
  obtain ⟨_, u, hu, h⟩ := Proc.exec_bind_ok h
  have hend : (⟨(Proc.exec (initialTasks c vif) s.node).2, s.subscribedEvents⟩ : Service) = u :=
    congrArg Prod.snd hu
  have hcache : u.node.cache = s.node.cache := by
    rw [← hend]
    exact cache_of_keeps (fun I => keeps_initialTasks I c vif) rfl
  have hadds : Adds u.node (subscribeToLocalVnic vif.uuid) fun _ => False :=
    adds_subscribeToLocalVnic vif.uuid
  obtain ⟨events, hruns, hmem⟩ := hadds.runs u.subscribedEvents
  have hlast : s' = ⟨u.node, events⟩ := congrArg Prod.snd (h.symm.trans hruns)
  rw [hlast]
  refine ⟨hcache, fun t ht => ?_⟩
  rw [hmem t ht, or_false, ← hend]

theorem entry_toNetfilterDocument {rules : List ParsedRule} (hrows : db.HasRows g rules) (r : Text) :
    (((db.toNetfilterDocument g rules nodeId).referencees).lookup r).isSome = true ↔
      r ∈ ruleGroups rules :=
  (isSome_getReferencees db g r).trans (hrows r)

theorem grown_start (hf : StartFits db nodeId) : Grown (fun _ => none)
    (db.getNetfilterData nodeId).localGroups (db.getNetfilterData nodeId).securityGroups.keys := by
  have hstart : ∀ g, (db.getNetfilterData nodeId).securityGroups.lookup g =
      ((db.groups.lookup g).filter fun _ => (Hash.values db.vnics).any fun r =>
        Db.startsWith r nodeId && r.inGroup g).map fun rules => db.toNetfilterDocument g rules nodeId := by
    intro g
    unfold Db.getNetfilterData
    rw [Hash.lookup_mapVals, Hash.lookup_filterVals]
  have hgroup : ∀ g ∈ (db.getNetfilterData nodeId).securityGroups.keys, ∃ rules,
      db.groups.lookup g = some rules ∧
        (db.getNetfilterData nodeId).localGroups g = some (entry (db.toNetfilterDocument g rules nodeId)) := by
    intro g hg
    obtain ⟨group, hgroup⟩ := Option.isSome_iff_exists.mp (mem_keys_iff.mp hg)
    have hl := hgroup
    rw [hstart, Option.map_eq_some_iff] at hgroup
    obtain ⟨rules, hrules, hdoc⟩ := hgroup
    obtain ⟨hrules, hany⟩ := Option.filter_eq_some_iff.mp hrules
    refine ⟨rules, hrules, ?_⟩
    rw [localGroups_eq_entry, hl, hdoc, Option.map_some]
    obtain ⟨r, hr, hmine⟩ := List.any_eq_true.mp hany
    rw [Bool.and_eq_true] at hmine
    obtain ⟨u, hu⟩ := Hash.mem_values.mp hr
    apply localVnicsLeft_of_doc (u := u)
    have hdoc := localDoc_start.mpr
      ⟨Option.isSome_of_eq_some hrules, hany, r, hu, rfl, hmine.2, hf.live r hr hmine.1⟩
    rw [hdoc]
    rfl
  refine ⟨?_, ?_, ?_, ?_⟩
  · intro g hg
    unfold Cache.localGroups
    rw [Option.not_isSome_iff_eq_none.mp fun h => hg (mem_keys_iff.mpr h), Option.bind_none]
  · intro g hg
    obtain ⟨rules, _, hs⟩ := hgroup g hg
    rw [hs]
    rfl
  · intro g _ x hx
    cases hx
  · intro r _ _
    apply exists_congr
    intro g
    apply and_congr_right
    intro hg
    obtain ⟨rules, hrules, hs⟩ := hgroup g hg
    rw [hs]
    simp only [Option.some.injEq, exists_eq_left']
    exact entry_toNetfilterDocument (hf.rows g rules hrules) r

theorem exact_start (hf : StartFits db nodeId) : Exact (Service.start nodeId db).node.cache.localGroups
    (Service.start nodeId db).subscribedEvents := by
  obtain ⟨s, hs⟩ : ∃ s, Proc.exec (Service.initializeHook nodeId db)
      ⟨⟨⟨∅, ∅, ∅⟩, ∅⟩, [.vnicCreated, .vnicDestroyed]⟩ = (.ok (), s) := by
    have hok := hf.tasks
    cases h : Proc.exec (Service.initializeHook nodeId db)
        ⟨⟨⟨∅, ∅, ∅⟩, ∅⟩, [.vnicCreated, .vnicDestroyed]⟩ with
    | mk a s =>
      rw [h] at hok
      cases a with
      | ok _ => exact ⟨s, rfl⟩
      | error _ => cases hok
  have hfinal : Service.start nodeId db = s := by
    unfold Service.start Proc.final
    rw [hs]
  unfold Service.initializeHook at hs
  obtain ⟨_, s₁, h₁, hs⟩ := Proc.exec_bind_ok hs
  cases h₁
  obtain ⟨c, s₂, h₂, hs⟩ := Proc.exec_bind_ok hs
  cases h₂
  obtain ⟨_, s₃, h₃, hs⟩ := Proc.exec_bind_ok hs
  -- the vnics are subscribed to one by one, and none of these events is of a group
  have hvifs : s₃.node.cache = db.getNetfilterData nodeId ∧ ∀ t, t.ofGroup = true → t ∉ s₃.subscribedEvents := by
    refine Proc.forM_invariant (fun _ (s : Service) => s.node.cache = db.getNetfilterData nodeId ∧
      ∀ t, t.ofGroup = true → t ∉ s.subscribedEvents) ?_ ⟨rfl, ?_⟩ h₃
    · intro _ vif _ s s' _ hsame h
      obtain ⟨hcache, hevents⟩ := exec_startVnic h
      refine ⟨hcache.trans hsame.1, fun t ht => ?_⟩
      rw [hevents t ht]
      exact hsame.2 t ht
    · intro t ht hin
      cases t with
      | vnicCreated | vnicDestroyed | joinedGroup _ | leftGroup _ | vnicsJoined _ | vnicsLeft _ => cases ht
      | _ => simp at hin
  have hadds : Adds s₃.node ((db.getNetfilterData nodeId).securityGroups.keys.forM
      subscribeToGroupAndReferencees) fun t => ∃ g ∈ (db.getNetfilterData nodeId).securityGroups.keys,
        subscribesFor s₃.node.cache.localGroups g t := by
    apply adds_forM
    intro g hg
    apply adds_group
    rw [hvifs.1]
    exact (grown_start hf).present g hg
  obtain ⟨hnode, hexact⟩ := (exact_nothing hvifs.2).subscribe (hvifs.1 ▸ grown_start hf) hadds
  have hend : Proc.final ((db.getNetfilterData nodeId).securityGroups.keys.forM
      subscribeToGroupAndReferencees) ⟨s₃.node, s₃.subscribedEvents⟩ = s := by
    unfold Proc.final
    exact congrArg Prod.snd hs
  rw [hend] at hnode hexact
  rw [hfinal, hnode]
  exact hexact

/-! ## An event -/

def Event.TestsFit (db : Db) (nodeId : Text) (node : Node) : Event → Prop
  | .vnicCreated v => ∀ r, db.vnics.lookup v = some r → VnicCreatedFits db nodeId v node r
  | .vnicDestroyed v => ∀ vif, (node.cache.getLocalVnic v).or (node.cache.getEmptyVnic v) = some vif →
    VnicDestroyedFits node.cache v vif
  | .joinedGroup v g => JoinedGroupFits db nodeId v g node
  | .leftGroup v g => node.cache.otherLocalVnicsLeftInGroup v g = false → LeftGroupFits node.cache v g
  | .vnicJoined r _ => node.cache.isLocalGroup r = true → node.cache.localVnicsLeftInGroup r = true
  | .vnicLeft _ _ => True
  | .referencerAdded _ _ => True
  | .referencerRemoved g r => ReferencerRemovedFits db node.cache g r
  | .rulesUpdated g => ∀ rules, db.groups.lookup g = some rules → RulesFit db node.cache g rules

def Delivery.Fits (nodeId : Text) (s : Service) (d : Delivery) : Prop :=
  d.event.topic ∈ s.subscribedEvents → d.event.TestsFit d.db nodeId s.node

theorem createVnicTasks_unknown (hv : db.vnics.lookup v = none) (node : Node) :
    Proc.exec (createVnicTasks db nodeId v) node = (.error (.vnicNotFound v), node) := by
  unfold createVnicTasks addVnic vnicWithNodeId
  rw [hv]
  rfl

theorem exact_step {s : Service} {d : Delivery} (h : Exact s.node.cache.localGroups s.subscribedEvents)
    (hf : d.Fits nodeId s) : Exact (s.step nodeId d).node.cache.localGroups
      (s.step nodeId d).subscribedEvents := by
  unfold Service.step
  split
  case isFalse => exact h
  case isTrue hin =>
    have hfits := hf hin
    generalize hev : d.event = ev at hin hfits ⊢
    cases ev with
    | vnicCreated v =>
      cases hv : d.db.vnics.lookup v with
      | none =>
        apply final_onNode_bind (G := fun s => Exact s.node.cache.localGroups s.subscribedEvents)
        · intro e node' he
          rw [createVnicTasks_unknown hv] at he
          cases he
          exact h
        · intro a node' he
          rw [createVnicTasks_unknown hv] at he
          cases he
      | some r => exact exact_vnicCreated h hv (d.uuids v r hv) (hfits r hv) rfl
    | vnicDestroyed v => exact exact_vnicDestroyed h hfits rfl
    | joinedGroup v g => exact exact_joinedGroup h hfits rfl
    | leftGroup v g => exact exact_leftGroup h hfits rfl
    | vnicJoined r v =>
      show Exact (Proc.final (vnicJoined d.db nodeId r v) s.node).cache.localGroups s.subscribedEvents
      rw [localGroups_vnicJoined hfits]
      exact h
    | vnicLeft r v => exact h.of_localNames localNames_vnicLeft
    | referencerAdded g r => exact exact_referencerAdded h hin rfl
    | referencerRemoved g r => exact exact_referencerRemoved h hin hfits rfl
    | rulesUpdated g => exact exact_rulesUpdated h hin hfits rfl

/-! ## The run -/

/-- What a group that is not in the cache yet is answered with lists what it names. -/
theorem listsNamed_fetched {gs : List Text}
    (hrows : ∀ g rules, db.groups.lookup g = some rules → db.HasRows g rules)
    (hc : ∀ g ∈ gs, c.securityGroups.lookup g = none)
    (hgroups : ∀ g ∈ gs, (db.groups.lookup g).isSome = true) : c.ListsNamed db nodeId gs := by
  intro g hg
  obtain ⟨rules, hrules⟩ := Option.isSome_iff_exists.mp (hgroups g hg)
  refine ⟨db.toNetfilterDocument g rules nodeId, ?_, fun r _ _ =>
    entry_toNetfilterDocument (hrows g rules hrules) r⟩
  unfold Cache.groupOf Db.getNetfilterSecurityGroup
  rw [hc g hg, hrules]
  rfl

end

/-- The rules of `sg-a` name `sg-b`; `vif-a` runs in these groups, if it is started. -/
def namingDb (vif : Option (List Text)) : Db where
  vnics := match vif with
    | none => ∅
    | some groups => AList.insert "vif-a".toList (runningVnic "vif-a".toList "hva.1".toList 1 groups) ∅
  groups := AList.insert "sg-a".toList
    [⟨"tcp".toList, some 22, some 22, none, none, some "tcp".toList, "sg-b".toList⟩]
    (AList.insert "sg-b".toList [] ∅)
  networks := AList.insert "nw-demo".toList ⟨.securityGroup⟩ ∅
  references := [("sg-a".toList, "sg-b".toList)]

theorem namingDb_rows (vif : Option (List Text)) (g : Text) (rules : List ParsedRule)
    (hg : (namingDb vif).groups.lookup g = some rules) : (namingDb vif).HasRows g rules := by
  have hnames : ∀ x ∈ (namingDb none).groups.entries, ∀ r ∈ ruleGroups x.2,
      (x.1, r) ∈ (namingDb none).references ∧ ((namingDb none).groups.lookup r).isSome = true := by
    decide +kernel
  have hrow : ∀ x ∈ (namingDb none).groups.entries, ∀ p ∈ (namingDb none).references, p.1 = x.1 →
      p.2 ∈ ruleGroups x.2 := by
    decide +kernel
  have hmem : ⟨g, rules⟩ ∈ (namingDb none).groups.entries := AList.mem_lookup_iff.mp hg
  intro r
  constructor
  · intro h
    exact hrow _ hmem (g, r) h.1 rfl
  · exact hnames _ hmem r

theorem namingDb_uuids (vif : Option (List Text)) (v : Text) (r : VnicRecord)
    (h : (namingDb vif).vnics.lookup v = some r) : r.vnic.uuid = v := by
  cases vif with
  | none => cases h
  | some groups =>
    replace h : (AList.insert "vif-a".toList _ ∅ : Hash Text VnicRecord).lookup v = some r := h
    rw [Hash.lookup_insert] at h
    split at h
    · rename_i hv
      rw [← Option.some.inj h, hv]
      rfl
    · cases h

/-- An event, and the groups `vif-a` is in by then. -/
def namingEvent (event : Event) (groups : List Text) : Delivery :=
  ⟨event, namingDb (some groups), namingDb_uuids (some groups)⟩

end Netfilter

end WakameVdc
