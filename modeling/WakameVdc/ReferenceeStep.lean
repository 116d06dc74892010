import WakameVdc.ReferenceeSound

/-!
# What one event does to the referencees

Each handler is a sequence of requests, tasks and changes of the cache, and may
raise between any two of them. All but two leave the referencees right whatever
raises; a vnic that joins needs an entry to join, and one that leaves needs the
tasks of the local vnics to be built.
-/

namespace WakameVdc

open Lib

namespace Netfilter

/-! ## Tasks do not change the cache -/

section
variable {I : Cache → Prop}

theorem keeps_getCache : Proc.Keeps (fun node : Node => I node.cache) getCache := by
  apply Proc.Keeps.bind Proc.keeps_get
  intro node
  exact Proc.keeps_pure _

theorem keeps_lift {α : Type} (x : Except NetfilterError α) :
    Proc.Keeps (fun node : Node => I node.cache) (lift x) := by
  cases x with
  | ok a => exact Proc.keeps_pure _
  | error e => exact Proc.keeps_throw _

theorem keeps_lift_bind {J : Node → Prop} {α β : Type} {x : Except NetfilterError α}
    {f : α → NodeM β} (hf : ∀ a, x = .ok a → Proc.Keeps J (f a)) : Proc.Keeps J (lift x >>= f) := by
  cases x with
  | ok a => exact hf a rfl
  | error e => exact ⟨fun _ hs => hs⟩

theorem keeps_modifyChains (f : Hash Text (List Ipv4) → Hash Text (List Ipv4)) :
    Proc.Keeps (fun node : Node => I node.cache) (modifyChains f) :=
  Proc.keeps_modify fun _ h => h

theorem keeps_modifyCache {f : Cache → Cache} (hf : ∀ c, I c → I (f c)) :
    Proc.Keeps (fun node : Node => I node.cache) (modifyCache f) :=
  Proc.keeps_modify fun node h => hf node.cache h

theorem keeps_vnicNetworkMode (v : Text) :
    Proc.Keeps (fun node : Node => I node.cache) (vnicNetworkMode v) := by
  apply Proc.Keeps.bind keeps_getCache
  intro c
  exact keeps_lift _

theorem keeps_applyIsolation (v : Text) (friends : List VnicMap) :
    Proc.Keeps (fun node : Node => I node.cache) (applyIsolation v friends) := by
  apply Proc.Keeps.bind (keeps_vnicNetworkMode v)
  intro mode
  exact keeps_modifyChains _

theorem keeps_removeIsolation (v : Text) (friends : List VnicMap) :
    Proc.Keeps (fun node : Node => I node.cache) (removeIsolation v friends) := by
  apply Proc.Keeps.bind (keeps_vnicNetworkMode v)
  intro mode
  exact keeps_modifyChains _

theorem keeps_secgroupTasksFor (v : Text) (group : Option GroupMap) :
    Proc.Keeps (fun node : Node => I node.cache) (secgroupTasksFor v group) := by
  apply Proc.Keeps.bind (keeps_vnicNetworkMode v)
  intro mode
  exact keeps_lift _

theorem keeps_arpIsolationFor (v : Text) (friends : List (Option VnicMap)) :
    Proc.Keeps (fun node : Node => I node.cache) (arpIsolationFor v friends) := by
  apply Proc.Keeps.bind (keeps_vnicNetworkMode v)
  intro mode
  exact keeps_lift _

theorem keeps_vnicHasIp (v : Text) :
    Proc.Keeps (fun node : Node => I node.cache) (vnicHasIp v) := by
  apply Proc.Keeps.bind keeps_getCache
  intro c
  apply Proc.Keeps.bind (keeps_lift _)
  intro vnic
  exact Proc.keeps_pure _

theorem keeps_vnicIsNatted (v : Text) :
    Proc.Keeps (fun node : Node => I node.cache) (vnicIsNatted v) := by
  apply Proc.Keeps.bind keeps_getCache
  intro c
  apply Proc.Keeps.bind (keeps_lift _)
  intro vnic
  split
  · exact Proc.keeps_throw _
  · exact Proc.keeps_pure _

theorem keeps_initializeVnic (vnic : VnicMap) (friends : List VnicMap)
    (groups : List (Option GroupMap)) :
    Proc.Keeps (fun node : Node => I node.cache) (initializeVnic vnic friends groups) := by
  apply Proc.Keeps.bind (keeps_modifyChains _)
  intro _
  apply Proc.Keeps.bind (keeps_vnicNetworkMode _)
  intro mode
  apply Proc.Keeps.bind (keeps_lift _)
  intro ips
  apply Proc.Keeps.bind (keeps_modifyChains _)
  intro _
  apply Proc.Keeps.bind keeps_getCache
  intro c
  apply Proc.Keeps.bind (keeps_lift _)
  intro localFriends
  apply Proc.keeps_forM
  intro friend _
  exact keeps_applyIsolation ..

theorem keeps_cleanUpIsolation (vif : VnicMap) (v : Text) :
    Proc.Keeps (fun node : Node => I node.cache) (cleanUpIsolation vif v) := by
  apply Proc.Keeps.bind keeps_getCache
  intro c
  apply Proc.Keeps.bind (keeps_lift _)
  intro localFriends
  apply Proc.Keeps.bind
  · apply Proc.keeps_forM
    intro friend _
    apply Proc.Keeps.bind (keeps_vnicHasIp _)
    intro hasIp
    apply Proc.keeps_when
    intro _
    exact keeps_removeIsolation ..
  · intro _
    apply Proc.Keeps.bind (keeps_vnicIsNatted _)
    intro natted
    apply Proc.Keeps.bind
    · apply Proc.keeps_when
      intro _
      apply Proc.Keeps.bind (keeps_lift _)
      intro allFriends
      exact keeps_removeIsolation ..
    · intro _
      apply Proc.Keeps.bind (keeps_vnicNetworkMode _)
      intro _
      exact Proc.keeps_pure _

theorem keeps_handleRefGroupVnic (r v : Text) :
    Proc.Keeps (fun node : Node => I node.cache) (handleRefGroupVnic r v) := by
  apply Proc.Keeps.bind keeps_getCache
  intro c
  apply Proc.keeps_forM
  intro secg _
  split
  · exact Proc.keeps_pure _
  · apply Proc.keeps_forM
    intro vnic _
    split
    · exact Proc.keeps_pure _
    · apply Proc.Keeps.bind (keeps_arpIsolationFor ..)
      intro _
      exact keeps_secgroupTasksFor ..

theorem keeps_arpForReferencer (g r : Text) :
    Proc.Keeps (fun node : Node => I node.cache) (arpForReferencer g r) := by
  apply Proc.Keeps.bind keeps_getCache
  intro c
  apply Proc.Keeps.bind (keeps_lift _)
  intro referencer
  apply Proc.keeps_forM
  intro vnic _
  cases referencer with
  | none => exact Proc.keeps_throw _
  | some vnics => exact keeps_arpIsolationFor ..

end

/-! ## Changes of the cache -/

section
variable {db : Db} {pending : List Event}

theorem keeps_addNetwork (networkId : Option Text) :
    Proc.Keeps (NodeOk db pending) (addNetwork db networkId) := by
  apply Proc.Keeps.bind keeps_getCache
  intro c
  split
  · exact Proc.keeps_pure _
  · split
    · exact keeps_modifyCache fun c h => h
    · exact Proc.keeps_throw _

theorem keeps_addSecurityGroup (hwf : db.Wf) (nodeId g : Text) :
    Proc.Keeps (NodeOk db pending) (addSecurityGroup db nodeId g) := by
  unfold addSecurityGroup Db.getNetfilterSecurityGroup
  cases hg : db.groups.lookup g with
  | none => exact Proc.keeps_pure _
  | some rules =>
    apply Proc.Keeps.bind
    · exact keeps_modifyCache fun c h => h.insert (groupOk_document hwf hg)
    · intro _
      apply Proc.keeps_forM
      intro vnic _
      exact keeps_addNetwork _

theorem vnicWithNodeId_ok {v : Text} {vnic : VnicMap} {n : Text}
    (h : vnicWithNodeId db v = .ok (vnic, n)) {g : Text} (hg : g ∈ vnic.securityGroups) :
    db.isMember g v := by
  unfold vnicWithNodeId at h
  split at h
  · cases h
  · rename_i r hr
    split at h
    · cases h
    · cases h
      exact ⟨r, hr, List.contains_iff_mem.mpr hg⟩

theorem keeps_addVnicToGroups (hwf : db.Wf) (nodeId v : Text) (vnic : VnicMap) (isLocal : Bool)
    (hmem : ∀ g ∈ vnic.securityGroups, db.isMember g v) :
    Proc.Keeps (NodeOk db pending) (addVnicToGroups db nodeId v vnic isLocal) := by
  unfold addVnicToGroups
  split
  · exact keeps_modifyCache fun c h => h
  · apply Proc.keeps_forM
    intro g hg
    apply Proc.Keeps.bind keeps_getCache
    intro c
    split
    · exact keeps_modifyCache fun c h => h.addToGroup (hmem g hg) _ _
    · exact keeps_addSecurityGroup hwf ..

theorem keeps_addVnic (hwf : db.Wf) (nodeId v : Text) :
    Proc.Keeps (NodeOk db pending) (addVnic db nodeId v) := by
  apply keeps_lift_bind
  intro result hv
  apply Proc.Keeps.bind
  · exact keeps_addVnicToGroups hwf _ _ _ _ fun g hg => vnicWithNodeId_ok hv hg
  · intro _
    exact keeps_addNetwork _

theorem keeps_addVnicToSecurityGroup (hwf : db.Wf) (nodeId : Text) {v g : Text}
    (hmem : db.isMember g v) :
    Proc.Keeps (NodeOk db pending) (addVnicToSecurityGroup db nodeId v g) := by
  apply Proc.Keeps.bind keeps_getCache
  intro c
  apply Proc.Keeps.bind
  · apply Proc.keeps_when
    intro _
    exact keeps_addSecurityGroup hwf ..
  · intro _
    apply Proc.Keeps.bind (keeps_lift _)
    intro result
    apply Proc.Keeps.bind keeps_getCache
    intro c
    split
    · exact keeps_modifyCache fun c h => h.addToGroup hmem _ _
    · exact Proc.keeps_throw _

theorem keeps_addToReferencees {v g : Text} (hmem : db.isMember g v) :
    Proc.Keeps (NodeOk db pending) (addVnicToReferencersAndReferenceesForGroup db v g) := by
  unfold addVnicToReferencersAndReferenceesForGroup
  split
  · exact Proc.keeps_throw _
  · exact keeps_modifyCache fun c h => h.mapGroups fun _ _ hg => hg.putVnic hmem _

theorem keeps_updateReferencers (g : Text) :
    Proc.Keeps (NodeOk db pending) (updateReferencers db g) := by
  apply Proc.Keeps.bind keeps_getCache
  intro c
  split
  · apply keeps_modifyCache
    intro c h
    apply h.modify
    intro _ _ hg
    exact hg.change (by rfl) fun _ _ _ hr => hr
  · exact Proc.keeps_throw _

theorem keeps_removeLocalVnicFromGroup (v g : Text) :
    Proc.Keeps (NodeOk db pending) (removeLocalVnicFromGroup v g) := by
  apply Proc.Keeps.bind keeps_getCache
  intro c
  split
  · apply keeps_modifyCache
    intro c h
    apply CacheOk.dropEmptyGroups
    refine CacheOk.mapGroups (h.modify g ?_) fun _ _ hg => hg.leaveGroup
    intro _ _ hg
    exact hg.change (by rfl) fun _ _ _ hr => hr
  · exact Proc.keeps_throw _

theorem keeps_updateReferencees (hwf : db.Wf) {g : Text}
    (hcur : Event.rulesUpdated g ∉ pending) :
    Proc.Keeps (NodeOk db pending) (updateReferencees db g) := by
  apply Proc.Keeps.bind keeps_getCache
  intro c
  split
  · rename_i rules _ hrules
    apply keeps_modifyCache
    intro c h g' group hg'
    simp only [Hash.lookup_modify] at hg'
    split at hg'
    · rename_i he
      obtain ⟨old, ho, he'⟩ := Option.map_eq_some_iff.mp hg'
      have hold := h g' old ho
      rw [he] at hold ⊢
      rcases hold.rules with hr | hr
      · exact absurd hr hcur
      · rw [hrules] at hr
        cases hr
        rw [← he']
        refine ⟨hold.stored, Or.inr hrules, ?_⟩
        intro r hr v _
        exact refers_answer hwf hrules rfl hr v
    · exact h g' group hg'
  · exact Proc.keeps_throw _

/-! ## Handlers -/

theorem keeps_forgetSiblings (vnic : VnicMap) (groups : List Text) :
    Proc.Keeps (NodeOk db pending) (forgetSiblings vnic groups) := by
  apply Proc.keeps_forM
  intro g _
  apply Proc.Keeps.bind keeps_getCache
  intro c
  apply Proc.keeps_forM
  intro other _
  split
  · exact keeps_removeLocalVnicFromGroup ..
  · exact Proc.keeps_pure _

theorem keeps_vnicCreated (hwf : db.Wf) (nodeId v : Text) :
    Proc.Keeps (NodeOk db pending) (vnicCreated db nodeId v) := by
  apply Proc.Keeps.bind keeps_getCache
  intro old
  apply Proc.Keeps.bind (keeps_addVnic hwf ..)
  intro _
  apply Proc.Keeps.bind keeps_getCache
  intro c
  split
  · apply Proc.Keeps.bind (keeps_forgetSiblings ..)
    intro _
    apply Proc.Keeps.bind keeps_getCache
    intro c
    apply Proc.Keeps.bind (keeps_lift _)
    intro friends
    exact keeps_initializeVnic ..
  · split
    · exact Proc.keeps_throw _
    · exact keeps_initializeVnic ..

theorem keeps_vnicDestroyed {v : Text} (hno : ∀ g, ¬ db.isMember g v) :
    Proc.Keeps (NodeOk db pending) (vnicDestroyed v) := by
  apply Proc.Keeps.bind keeps_getCache
  intro c
  split
  · exact Proc.keeps_pure _
  · apply Proc.Keeps.bind (keeps_vnicHasIp _)
    intro hasIp
    apply Proc.Keeps.bind
    · apply Proc.keeps_when
      intro _
      exact keeps_cleanUpIsolation ..
    · intro _
      apply Proc.Keeps.bind (keeps_modifyChains _)
      intro _
      apply Proc.Keeps.bind (keeps_modifyCache fun c h => h.removeVnic hno)
      intro _
      apply Proc.Keeps.bind
      · apply Proc.keeps_forM
        intro g _
        apply Proc.Keeps.bind keeps_getCache
        intro c
        apply Proc.keeps_when
        intro _
        exact keeps_modifyCache fun c h => h.removeSecurityGroup g
      · intro _
        apply keeps_modifyCache
        intro c h
        split
        · exact h
        · unfold Cache.removeNetwork
          split
          · exact h
          · exact h

theorem keeps_joinedGroup (hwf : db.Wf) (nodeId : Text) {v g : Text} (hmem : db.isMember g v) :
    Proc.Keeps (NodeOk db pending) (joinedGroup db nodeId v g) := by
  apply Proc.Keeps.bind (keeps_addVnicToSecurityGroup hwf nodeId hmem)
  intro _
  apply Proc.Keeps.bind keeps_getCache
  intro c
  split
  · split
    · exact Proc.keeps_pure _
    · apply Proc.Keeps.bind (keeps_secgroupTasksFor ..)
      intro _
      apply Proc.Keeps.bind (keeps_lift _)
      intro localFriends
      apply Proc.Keeps.bind
      · apply Proc.keeps_forM
        intro friend _
        exact keeps_applyIsolation ..
      · intro _
        apply Proc.Keeps.bind (keeps_lift _)
        intro friends
        exact keeps_applyIsolation ..
  · exact Proc.keeps_throw _

theorem keeps_leftGroup {v g : Text} (hno : ¬ db.isMember g v) :
    Proc.Keeps (NodeOk db pending) (leftGroup v g) := by
  apply Proc.Keeps.bind
  · apply Proc.Keeps.bind keeps_getCache
    intro c
    split
    · exact Proc.keeps_pure _
    · apply Proc.Keeps.bind (keeps_secgroupTasksFor ..)
      intro _
      apply Proc.Keeps.bind (keeps_lift _)
      intro localFriends
      apply Proc.Keeps.bind
      · apply Proc.keeps_forM
        intro friend _
        exact keeps_removeIsolation ..
      · intro _
        apply Proc.Keeps.bind (keeps_lift _)
        intro friends
        apply Proc.Keeps.bind (keeps_removeIsolation ..)
        intro _
        apply Proc.Keeps.bind (keeps_removeLocalVnicFromGroup ..)
        intro _
        exact keeps_modifyCache fun c h => h.removeVnicFromReferencees hno
  · intro _
    apply keeps_modifyCache
    intro c h
    split
    · exact h
    · exact h.removeSecurityGroup g

theorem keeps_referencerAdded (hwf : db.Wf) {g : Text} (r : Text)
    (hcur : Event.rulesUpdated g ∉ pending) :
    Proc.Keeps (NodeOk db pending) (referencerAdded db g r) := by
  apply Proc.Keeps.bind (keeps_updateReferencers g)
  intro _
  apply Proc.Keeps.bind (keeps_updateReferencees hwf hcur)
  intro _
  exact keeps_arpForReferencer ..

theorem keeps_referencerRemoved (hwf : db.Wf) {g : Text} (r : Text)
    (hcur : Event.rulesUpdated g ∉ pending) :
    Proc.Keeps (NodeOk db pending) (referencerRemoved db g r) := by
  apply Proc.Keeps.bind (keeps_arpForReferencer ..)
  intro _
  apply Proc.Keeps.bind (keeps_updateReferencers g)
  intro _
  exact keeps_updateReferencees hwf hcur

end

end Netfilter

end WakameVdc
