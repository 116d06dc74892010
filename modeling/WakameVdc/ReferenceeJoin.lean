import WakameVdc.ReferenceeStep

/-!
# Vnics that join or leave a referenced group

Of the handlers two can miss what their event says: a vnic joins only the
entries that are there, and leaves only after the tasks of the local vnics are
built. With these given, and after new rules, the referencees are right again.
-/

namespace WakameVdc

open Lib

namespace Netfilter

section
variable {db : Db} {pending : List Event}

/-! ## An event is dealt with -/

theorem GroupOk.handled {e : Event} {g : Text} {group : GroupMap}
    (h : GroupOk db (e :: pending) g group) (hrules : e ≠ Event.rulesUpdated g)
    (hpairs : ∀ r v, e = Event.vnicJoined r v ∨ e = Event.vnicLeft r v →
      r ∈ ruleGroups group.rules → (GroupMap.refers group r v ↔ db.isMember r v)) :
    GroupOk db pending g group := by
  refine ⟨h.stored, ?_, ?_⟩
  · rcases h.rules with hr | hr
    · rcases List.mem_cons.mp hr with hr | hr
      · exact absurd hr.symm hrules
      · exact Or.inl hr
    · exact Or.inr hr
  · intro r hr v hv
    by_cases he : e = Event.vnicJoined r v ∨ e = Event.vnicLeft r v
    · exact hpairs r v he hr
    · apply h.referencees r hr v
      intro hw
      rcases hw with hw | hw
      · rcases List.mem_cons.mp hw with hw | hw
        · exact he (Or.inl hw.symm)
        · exact hv (Or.inl hw)
      · rcases List.mem_cons.mp hw with hw | hw
        · exact he (Or.inr hw.symm)
        · exact hv (Or.inr hw)

/-- Events that are not about memberships or rules are dealt with by any change
the referencees stay right under. -/
theorem NodeOk.handled {e : Event} {node : Node} (h : NodeOk db (e :: pending) node)
    (hrules : ∀ g, e ≠ Event.rulesUpdated g) (hj : ∀ r v, e ≠ Event.vnicJoined r v)
    (hl : ∀ r v, e ≠ Event.vnicLeft r v) : NodeOk db pending node := by
  intro g group hg
  apply (h g group hg).handled (hrules g)
  intro r v he _
  rcases he with he | he
  · exact absurd he (hj r v)
  · exact absurd he (hl r v)

/-! ## A vnic joins -/

/-- Every local group whose rules name the group has an entry for it. -/
def Cache.HasEntry (c : Cache) (r : Text) : Prop :=
  ∀ group ∈ Hash.values c.securityGroups, r ∈ ruleGroups group.rules →
    (group.referencees.lookup r).isSome = true

/-- Every local group whose rules name the group lists the vnic. -/
def Cache.Lists (c : Cache) (r v : Text) : Prop :=
  ∀ group ∈ Hash.values c.securityGroups, r ∈ ruleGroups group.rules → GroupMap.refers group r v

theorem refers_iff {group : GroupMap} {r v : Text} : GroupMap.refers group r v ↔
    (group.referencees.lookup r).any (fun vnics => (vnics.lookup v).isSome) = true := by
  unfold GroupMap.refers
  cases group.referencees.lookup r with
  | none => simp
  | some vnics => simp

instance (group : GroupMap) (r v : Text) : Decidable (GroupMap.refers group r v) :=
  decidable_of_iff _ refers_iff.symm

instance (c : Cache) (r : Text) : Decidable (c.HasEntry r) :=
  inferInstanceAs (Decidable (∀ group ∈ Hash.values c.securityGroups, _ → _))

instance (c : Cache) (r v : Text) : Decidable (c.Lists r v) :=
  inferInstanceAs (Decidable (∀ group ∈ Hash.values c.securityGroups, _ → _))

theorem mem_values_modify {κ ν : Type} [DecidableEq κ] {k : κ} {f : ν → ν} {h : Hash κ ν} {x : ν}
    (hx : x ∈ Hash.values (Hash.modify k f h)) : ∃ old ∈ Hash.values h, x = f old ∨ x = old := by
  obtain ⟨j, hj⟩ := Hash.mem_values.mp hx
  rw [Hash.lookup_modify] at hj
  split at hj
  · obtain ⟨old, ho, he⟩ := Option.map_eq_some_iff.mp hj
    exact ⟨old, Hash.mem_values.mpr ⟨j, ho⟩, Or.inl he.symm⟩
  · exact ⟨x, Hash.mem_values.mpr ⟨j, hj⟩, Or.inr rfl⟩

theorem mem_values_mapGroups {c : Cache} {f : GroupMap → GroupMap} {group : GroupMap}
    (h : group ∈ Hash.values (c.mapGroups f).securityGroups) :
    ∃ old ∈ Hash.values c.securityGroups, group = f old := by
  obtain ⟨g, hg⟩ := Hash.mem_values.mp h
  simp only [Cache.mapGroups, Hash.lookup_mapVals, Option.map_eq_some_iff] at hg
  obtain ⟨old, ho, he⟩ := hg
  exact ⟨old, Hash.mem_values.mpr ⟨g, ho⟩, he.symm⟩

theorem isSome_lookup_putVnic {g v r : Text} {vnic : VnicMap} {group : GroupMap} :
    ((putVnic g v vnic group).referencees.lookup r).isSome =
      (group.referencees.lookup r).isSome := by
  simp only [putVnic, Hash.lookup_mapVals, Option.isSome_map, Hash.isSome_lookup_modify]

theorem HasEntry.addToGroup {c : Cache} {r : Text} (h : c.HasEntry r) (isLocal : Bool) (v g : Text)
    (vnic : VnicMap) : (addToGroup isLocal v g vnic c).HasEntry r := by
  intro group hgroup hr
  obtain ⟨mid, hmid, he⟩ := mem_values_mapGroups hgroup
  rw [he] at hr ⊢
  rw [isSome_lookup_putVnic]
  obtain ⟨old, hold, he'⟩ := mem_values_modify hmid
  rcases he' with he' | he'
  · rw [he'] at hr ⊢
    cases isLocal with
    | true => exact h old hold hr
    | false => exact h old hold hr
  · rw [he'] at hr ⊢
    exact h old hold hr

theorem succeeds_getCache {I : Node → Prop} {Q : Cache → Prop} (h : ∀ node, I node → Q node.cache) :
    Proc.Succeeds I getCache Q :=
  ⟨fun node hn => ⟨node.cache, node, rfl, hn, h node hn⟩⟩

theorem succeeds_lift {I : Node → Prop} {α : Type} {x : Except NetfilterError α} {a : α}
    {Q : α → Prop} (h : x = .ok a) (ha : Q a) : Proc.Succeeds I (lift x) Q := by
  rw [h]
  exact Proc.succeeds_pure ha

/-- What holds before a vnic that joins is put under `:referencees`. -/
structure Joining (db : Db) (pending : List Event) (r v : Text) (node : Node) : Prop where
  ok : NodeOk db (Event.vnicJoined r v :: pending) node
  entry : node.cache.HasEntry r

theorem succeeds_addVnicToSecurityGroup {nodeId r v : Text} (hmem : db.isMember r v)
    (hinst : ∃ result, vnicWithNodeId db v = .ok result) :
    Proc.Succeeds (fun node => Joining db pending r v node ∧ node.cache.isLocalGroup r = true)
      (addVnicToSecurityGroup db nodeId v r) fun _ => True := by
  obtain ⟨result, hres⟩ := hinst
  apply Proc.Succeeds.bind (succeeds_getCache (Q := fun c => c.isLocalGroup r = true)
    fun _ hn => hn.2)
  intro c hc
  apply Proc.Succeeds.bind
  · apply Proc.succeeds_when
    intro hno
    rw [hc] at hno
    cases hno
  · intro _ _
    apply Proc.Succeeds.bind (succeeds_lift (Q := fun a => a = result) hres rfl)
    intro a ha
    apply Proc.Succeeds.bind (succeeds_getCache (Q := fun c => c.isLocalGroup r = true)
      fun _ hn => hn.2)
    intro c hc
    rw [if_pos hc]
    apply Proc.succeeds_modify
    intro node hn
    refine ⟨⟨?_, ?_⟩, ?_⟩
    · exact CacheOk.addToGroup hn.1.ok hmem _ _
    · exact HasEntry.addToGroup hn.1.entry _ _ _ _
    · show Cache.isLocalGroup (addToGroup _ _ _ _ node.cache) r = true
      rw [isLocalGroup_addToGroup]
      exact hn.2

/-- The vnic is listed once it is put under the entries. -/
theorem nodeOk_joined {r v : Text} {node : Node} (h : Joining db pending r v node)
    (hmem : db.isMember r v) (vnic : VnicMap) :
    CacheOk db pending (node.cache.mapGroups (putVnic r v vnic)) := by
  intro g group hg
  simp only [Cache.mapGroups, Hash.lookup_mapVals, Option.map_eq_some_iff] at hg
  obtain ⟨old, ho, he⟩ := hg
  rw [← he]
  apply GroupOk.handled ((h.ok g old ho).putVnic hmem vnic)
  · intro hx
    cases hx
  · intro r' u hx hr'
    rcases hx with hx | hx
    · cases hx
      refine iff_of_true ?_ hmem
      rw [refers_putVnic]
      exact Or.inr ⟨rfl, rfl, h.entry old (Hash.mem_values.mpr ⟨g, ho⟩) hr'⟩
    · cases hx

theorem keeps_isolateForeign {I : Cache → Prop} (r v : Text) (wasForeign : Bool) :
    Proc.Keeps (fun node : Node => I node.cache) (isolateForeign r v wasForeign) := by
  apply Proc.Keeps.bind keeps_getCache
  intro c
  split
  · exact Proc.keeps_pure _
  · apply Proc.keeps_when
    intro _
    apply Proc.Keeps.bind (keeps_lift _)
    intro localFriends
    apply Proc.keeps_forM
    intro friend _
    exact keeps_applyIsolation ..

theorem keeps_arpForReferenced {I : Cache → Prop} (r v : Text) :
    Proc.Keeps (fun node : Node => I node.cache) (arpForReferenced r v) := by
  apply Proc.Keeps.bind keeps_getCache
  intro c
  apply Proc.keeps_forM
  intro secg _
  split
  · exact Proc.keeps_pure _
  · apply Proc.keeps_forM
    intro vnic _
    exact keeps_arpIsolationFor ..

theorem keeps_afterJoin {I : Cache → Prop} (r v : Text) (wasForeign : Bool) :
    Proc.Keeps (fun node : Node => I node.cache) (do
      let c ← getCache
      Proc.when (!(c.isForeignVnicInGroup v r || (c.getLocalVnic v).isSome ||
        c.isReferenceeVnicInGroup v r)) (throw (.unknownVnic v))
      isolateForeign r v wasForeign
      arpForReferenced r v
      handleRefGroupVnic r v) := by
  apply Proc.Keeps.bind keeps_getCache
  intro c
  apply Proc.Keeps.bind
  · apply Proc.keeps_when
    intro _
    exact Proc.keeps_throw _
  · intro _
    apply Proc.Keeps.bind (keeps_isolateForeign ..)
    intro _
    apply Proc.Keeps.bind (keeps_arpForReferenced ..)
    intro _
    exact keeps_handleRefGroupVnic ..

/-- A vnic that joins is listed already, or finds the entries, and the collector
answers where the node asks. -/
def JoinFits (db : Db) (c : Cache) (r v : Text) : Prop :=
  c.Lists r v ∨ (c.HasEntry r ∧ (c.isLocalGroup r = true → c.isLocalVnicInGroup v r = false →
    (vnicWithNodeId db v).isOk = true))

instance (db : Db) (c : Cache) (r v : Text) : Decidable (JoinFits db c r v) :=
  inferInstanceAs (Decidable (_ ∨ _))

theorem vnicJoined_entry {nodeId r v : Text} {node : Node} (h : Joining db pending r v node)
    (hmem : db.isMember r v) (hinst : node.cache.isLocalGroup r = true →
      node.cache.isLocalVnicInGroup v r = false → (vnicWithNodeId db v).isOk = true) :
    NodeOk db pending (Proc.final (vnicJoined db nodeId r v) node) := by
  have hrest : ∀ t, Joining db pending r v t → ∀ wasForeign,
      NodeOk db pending (Proc.final (do
        addVnicToReferencersAndReferenceesForGroup db v r
        let c ← getCache
        Proc.when (!(c.isForeignVnicInGroup v r || (c.getLocalVnic v).isSome ||
          c.isReferenceeVnicInGroup v r)) (throw (.unknownVnic v))
        isolateForeign r v wasForeign
        arpForReferenced r v
        handleRefGroupVnic r v) t) := by
    intro t ht wasForeign
    apply Proc.final_bind
    · have ⟨record, hrec, _⟩ := hmem
      unfold addVnicToReferencersAndReferenceesForGroup
      rw [hrec]
      exact nodeOk_joined ht hmem record.vnic
    · intro _
      exact keeps_afterJoin ..
  unfold vnicJoined
  rw [final_bind_getCache]
  cases hc : node.cache.isLocalGroup r && !node.cache.isLocalVnicInGroup v r with
  | false => exact hrest node h _
  | true =>
    rw [Bool.and_eq_true, Bool.not_eq_true'] at hc
    have hok : ∃ result, vnicWithNodeId db v = .ok result := by
      have hi := hinst hc.1 hc.2
      cases hv : vnicWithNodeId db v with
      | ok result => exact ⟨result, rfl⟩
      | error e =>
        rw [hv] at hi
        cases hi
    apply Proc.Succeeds.final_bind (succeeds_addVnicToSecurityGroup hmem hok) ⟨h, hc.1⟩
    intro _ t ht _
    exact hrest t ht.1 _

theorem keeps_vnicJoined (hwf : db.Wf) (nodeId : Text) {r v : Text} (hmem : db.isMember r v) :
    Proc.Keeps (NodeOk db pending) (vnicJoined db nodeId r v) := by
  apply Proc.Keeps.bind keeps_getCache
  intro old
  apply Proc.Keeps.bind
  · apply Proc.keeps_when
    intro _
    exact keeps_addVnicToSecurityGroup hwf nodeId hmem
  · intro _
    apply Proc.Keeps.bind (keeps_addToReferencees hmem)
    intro _
    exact keeps_afterJoin ..

theorem vnicJoined_ok (hwf : db.Wf) {nodeId r v : Text} {node : Node}
    (h : NodeOk db (Event.vnicJoined r v :: pending) node) (hmem : db.isMember r v)
    (hfit : JoinFits db node.cache r v) :
    NodeOk db pending (Proc.final (vnicJoined db nodeId r v) node) := by
  rcases hfit with hl | ⟨he, hi⟩
  · apply (keeps_vnicJoined hwf nodeId hmem).at_final
    intro g group hg
    apply (h g group hg).handled
    · intro hx
      cases hx
    · intro r' u hx hr
      rcases hx with hx | hx
      · cases hx
        exact iff_of_true (hl group (Hash.mem_values.mpr ⟨g, hg⟩) hr) hmem
      · cases hx
  · exact vnicJoined_entry ⟨h, he⟩ hmem hi

/-! ## A vnic leaves -/

/-- The tasks of the local vnics of the group are built where the vnic is a
foreign one of it, and those of the vnics of each group with an entry. -/
structure LeavesCleanly (c : Cache) (r v : Text) : Prop where
  friends : c.isForeignVnicInGroup v r = true →
    ∀ friend ∈ ((c.getLocalFriendsInGroup v r).toOption.getD []),
      (c.getVnicNetworkMode friend.uuid).isOk = true
  entries : ∀ secg ∈ Hash.values c.securityGroups, ∀ vnics ∈ secg.referencees.lookup r,
    ∀ vnic ∈ c.getLocalVnicsInGroup secg.uuid, vnic.uuid ≠ v →
      c.getVnicNetworkMode vnic.uuid = .ok .securityGroup ∧ (vnics.lookup v).isSome = true

instance (c : Cache) (r v : Text) : Decidable (LeavesCleanly c r v) :=
  decidable_of_iff (_ ∧ _) ⟨fun h => ⟨h.1, h.2⟩, fun h => ⟨h.friends, h.entries⟩⟩

/-- A vnic that leaves is not listed, or can be taken out. -/
def LeaveFits (c : Cache) (r v : Text) : Prop :=
  c.isReferenceeVnicInGroup v r = false ∨ LeavesCleanly c r v

instance (c : Cache) (r v : Text) : Decidable (LeaveFits c r v) :=
  inferInstanceAs (Decidable (_ ∨ _))

section
variable {c : Cache}

theorem succeeds_cache : Proc.Succeeds (fun node : Node => node.cache = c) getCache fun a => a = c :=
  succeeds_getCache fun _ hn => hn

theorem exists_ok {α : Type} {x : Except NetfilterError α} (h : x.isOk = true) :
    ∃ a, x = .ok a := by
  cases x with
  | ok a => exact ⟨a, rfl⟩
  | error e => cases h

theorem succeeds_vnicNetworkMode {v : Text} {mode : NetworkMode}
    (h : c.getVnicNetworkMode v = .ok mode) :
    Proc.Succeeds (fun node : Node => node.cache = c) (vnicNetworkMode v) fun a => a = mode := by
  apply Proc.Succeeds.bind succeeds_cache
  intro a ha
  rw [ha]
  exact succeeds_lift h rfl

theorem succeeds_removeIsolation {v : Text} (h : (c.getVnicNetworkMode v).isOk = true)
    (friends : List VnicMap) : Proc.Succeeds (fun node : Node => node.cache = c)
      (removeIsolation v friends) fun _ => True := by
  obtain ⟨mode, hm⟩ := exists_ok h
  apply Proc.Succeeds.bind (succeeds_vnicNetworkMode hm)
  intro _ _
  exact Proc.succeeds_modify fun _ hn => hn

theorem succeeds_forgetForeign {r v : Text} (h : LeavesCleanly c r v) :
    Proc.Succeeds (fun node : Node => node.cache = c) (forgetForeign r v) fun _ => True := by
  apply Proc.Succeeds.bind succeeds_cache
  intro a ha
  rw [ha]
  split
  · exact Proc.succeeds_pure trivial
  · rename_i foreign hf
    obtain ⟨group, hg, hv⟩ := Option.bind_eq_some_iff.mp hf
    have hfor : c.isForeignVnicInGroup v r = true := by
      unfold Cache.isForeignVnicInGroup
      rw [hg]
      show (group.foreignVnics.lookup v).isSome = true
      rw [hv]
      rfl
    have hfriends := h.friends hfor
    cases hl : c.getLocalFriendsInGroup v r with
    | error e =>
      unfold Cache.getLocalFriendsInGroup at hl
      rw [hg] at hl
      cases hl
    | ok localFriends =>
      rw [hl] at hfriends
      apply Proc.Succeeds.bind (succeeds_lift (Q := fun x => x = localFriends) rfl rfl)
      intro x hx
      rw [hx]
      apply Proc.succeeds_forM
      intro friend hm
      exact succeeds_removeIsolation (hfriends friend hm) _

theorem succeeds_handleRefGroupVnic {r v : Text} (h : LeavesCleanly c r v) :
    Proc.Succeeds (fun node : Node => node.cache = c) (handleRefGroupVnic r v) fun _ => True := by
  apply Proc.Succeeds.bind succeeds_cache
  intro a ha
  rw [ha]
  apply Proc.succeeds_forM
  intro secg hsecg
  split
  · exact Proc.succeeds_pure trivial
  · rename_i vnics hvnics
    apply Proc.succeeds_forM
    intro vnic hvnic
    split
    · exact Proc.succeeds_pure trivial
    · rename_i hne
      obtain ⟨hmode, hlisted⟩ := h.entries secg hsecg vnics hvnics vnic hvnic hne
      apply Proc.Succeeds.bind
      · apply Proc.Succeeds.bind (succeeds_vnicNetworkMode hmode)
        intro mode hm
        rw [hm]
        apply succeeds_lift (a := ()) (Q := fun _ => True)
        · simp [NetworkMode.arpIsolationTasks, hlisted]
        · trivial
      · intro _ _
        apply Proc.Succeeds.bind (succeeds_vnicNetworkMode hmode)
        intro mode hm
        rw [hm]
        exact succeeds_lift (a := ()) rfl trivial

end

theorem cacheOk_left {r v : Text} {c : Cache}
    (h : CacheOk db (Event.vnicLeft r v :: pending) c) (hno : ¬ db.isMember r v) :
    CacheOk db pending (((c.removeForeignVnic r v).removeVnicFromReferencees
      r v).removeVnicFromReferencers r v) := by
  apply CacheOk.removeVnicFromReferencers
  intro g group hg
  simp only [Cache.removeVnicFromReferencees, Cache.mapGroups, Hash.lookup_mapVals,
    Option.map_eq_some_iff] at hg
  obtain ⟨old, ho, he⟩ := hg
  have hold := (h.removeForeignVnic r v) g old ho
  rw [← he]
  apply GroupOk.handled (hold.removeReference hno)
  · intro hx
    cases hx
  · intro r' u hx hr
    rcases hx with hx | hx
    · cases hx
    · cases hx
      refine iff_of_false ?_ hno
      rw [refers_removeReference]
      intro hx
      exact hx.2 ⟨rfl, rfl⟩

theorem keeps_forgetForeign {I : Cache → Prop} (r v : Text) :
    Proc.Keeps (fun node : Node => I node.cache) (forgetForeign r v) := by
  apply Proc.Keeps.bind keeps_getCache
  intro c
  split
  · exact Proc.keeps_pure _
  · apply Proc.Keeps.bind (keeps_lift _)
    intro localFriends
    apply Proc.keeps_forM
    intro friend _
    exact keeps_removeIsolation ..

theorem keeps_vnicLeft {r v : Text} (hno : ¬ db.isMember r v) :
    Proc.Keeps (NodeOk db pending) (vnicLeft r v) := by
  apply Proc.Keeps.bind (keeps_forgetForeign ..)
  intro _
  apply Proc.Keeps.bind (keeps_handleRefGroupVnic ..)
  intro _
  apply keeps_modifyCache
  intro c h
  apply CacheOk.removeVnicFromReferencers
  exact (h.removeForeignVnic r v).removeVnicFromReferencees hno

theorem vnicLeft_ok {r v : Text} {node : Node}
    (h : NodeOk db (Event.vnicLeft r v :: pending) node) (hno : ¬ db.isMember r v)
    (hfit : LeaveFits node.cache r v) :
    NodeOk db pending (Proc.final (vnicLeft r v) node) := by
  rcases hfit with hl | hc
  · apply (keeps_vnicLeft hno).at_final
    intro g group hg
    apply (h g group hg).handled
    · intro hx
      cases hx
    · intro r' u hx _
      rcases hx with hx | hx
      · cases hx
      · cases hx
        refine iff_of_false ?_ hno
        intro ⟨vnics, hvs, hv⟩
        have hany := List.any_eq_false.mp hl group (Hash.mem_values.mpr ⟨g, hg⟩)
        rw [hvs] at hany
        exact hany hv
  · apply Proc.Succeeds.final_bind (succeeds_forgetForeign hc) (rfl : node.cache = node.cache)
    intro _ t ht _
    apply Proc.Succeeds.final_bind (succeeds_handleRefGroupVnic hc) ht
    intro _ u hu _
    have hcache : CacheOk db (Event.vnicLeft r v :: pending) u.cache := by
      rw [hu]
      exact h
    exact cacheOk_left hcache hno

/-! ## New rules -/

theorem final_bind_updateGroup {g : Text} {f : List ParsedRule → GroupMap → GroupMap}
    {node : Node} {group : GroupMap} {rules : List ParsedRule}
    (hg : node.cache.securityGroups.lookup g = some group) (hr : db.groups.lookup g = some rules)
    {β : Type} (k : Unit → NodeM β) :
    Proc.final (updateGroup db g f >>= k) node =
      Proc.final (k ()) { node with cache := { node.cache with
        securityGroups := Hash.modify g (f rules) node.cache.securityGroups } } := by
  have he : Proc.exec (updateGroup db g f) node = (.ok (), { node with cache := { node.cache with
      securityGroups := Hash.modify g (f rules) node.cache.securityGroups } }) := by
    have hget : Proc.exec getCache node = (.ok node.cache, node) := rfl
    unfold updateGroup
    rw [Proc.exec_bind, hget]
    dsimp only
    rw [hg, hr]
    rfl
  unfold Proc.final
  rw [Proc.exec_bind, he]

theorem keeps_rulesTasks {I : Cache → Prop} (g : Text) (old : Option GroupMap) :
    Proc.Keeps (fun node : Node => I node.cache) (do
      let updated ← getCache
      (updated.getLocalVnicsInGroup g).forM fun vnic => do
        secgroupTasksFor vnic.uuid (updated.securityGroups.lookup g)
        secgroupTasksFor vnic.uuid old) := by
  apply Proc.Keeps.bind keeps_getCache
  intro updated
  apply Proc.keeps_forM
  intro vnic _
  apply Proc.Keeps.bind (keeps_secgroupTasksFor ..)
  intro _
  exact keeps_secgroupTasksFor ..

theorem rulesUpdated_ok (hwf : db.Wf) {g : Text} {node : Node}
    (h : NodeOk db (Event.rulesUpdated g :: pending) node) :
    NodeOk db pending (Proc.final (rulesUpdated db g) node) := by
  have hother : ∀ g' group, g' ≠ g → node.cache.securityGroups.lookup g' = some group →
      GroupOk db pending g' group := by
    intro g' group hne hg'
    apply (h g' group hg').handled
    · intro hx
      cases hx
      exact hne rfl
    · intro r v hx _
      rcases hx with hx | hx
      · cases hx
      · cases hx
  unfold rulesUpdated
  rw [final_bind_getCache]
  cases hl : node.cache.securityGroups.lookup g with
  | none =>
    have hloc : node.cache.isLocalGroup g = false := by
      unfold Cache.isLocalGroup
      rw [hl]
      rfl
    rw [hloc]
    show NodeOk db pending node
    intro g' group hg'
    apply hother g' group _ hg'
    intro he
    rw [he, hl] at hg'
    cases hg'
  | some group =>
    have hloc : node.cache.isLocalGroup g = true := by
      unfold Cache.isLocalGroup
      rw [hl]
      rfl
    obtain ⟨rules, hrules⟩ := Option.isSome_iff_exists.mp (h g group hl).stored
    rw [hloc]
    show NodeOk db pending (Proc.final (updateRules db g >>= _) node)
    unfold updateRules updateReferencees
    rw [final_bind_updateGroup hl hrules]
    have hl' : (Hash.modify g (fun group => { group with rules := rules })
        node.cache.securityGroups).lookup g = some { group with rules := rules } := by
      rw [Hash.lookup_modify, if_pos rfl, hl]
      rfl
    rw [final_bind_updateGroup hl' hrules]
    apply (keeps_rulesTasks (I := CacheOk db pending) g (some group)).at_final
    intro g' group' hg'
    simp only [Hash.lookup_modify] at hg'
    split at hg'
    · rename_i he
      rw [he, hl] at hg'
      cases hg'
      rw [he]
      refine ⟨?_, Or.inr hrules, ?_⟩
      · rw [hrules]
        rfl
      · intro r hr v _
        exact refers_answer hwf hrules rfl hr v
    · rename_i hne
      exact hother g' group' hne hg'

end

end Netfilter

end WakameVdc
