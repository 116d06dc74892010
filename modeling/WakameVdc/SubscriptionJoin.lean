import WakameVdc.SubscriptionLeave

/-!
# Vnics that join groups

A group that gets a local vnic is subscribed to at the end of the handler, with the
groups it lists. Until then whatever raises leaves the group in the cache.
-/

namespace WakameVdc

open Lib

namespace Netfilter

/-! ## Groups that get local vnics -/

/-- Groups get local vnics. What they name and what they list is the same, apart
from the groups that are needed already. -/
structure Grown (groups groups' : LocalGroups) (gs : List Text) : Prop where
  same : ∀ g, g ∉ gs → groups' g = groups g
  present : ∀ g ∈ gs, (groups' g).isSome = true
  kept : ∀ g ∈ gs, ∀ x, groups g = some x → groups' g = some x
  agree : ∀ r, r ∉ gs → ¬ groups.Needs r →
    ((∃ g ∈ gs, ∃ x, groups' g = some x ∧ x.lists r = true) ↔
      ∃ g ∈ gs, ∃ x, groups' g = some x ∧ r ∈ x.names)

section
variable {groups groups' : LocalGroups} {gs : List Text} {events : List Topic}
  {c : Cache} {g v r : Text} {node : Node}

theorem Grown.isSome_iff (h : Grown groups groups' gs) (r : Text) :
    (groups' r).isSome = true ↔ (groups r).isSome = true ∨ r ∈ gs := by
  by_cases hr : r ∈ gs
  · simp [hr, h.present r hr]
  · rw [h.same r hr]
    simp [hr]

theorem Grown.named_iff (h : Grown groups groups' gs) (r : Text) : groups'.Named r ↔
    groups.Named r ∨ ∃ g ∈ gs, ∃ x, groups' g = some x ∧ r ∈ x.names := by
  constructor
  · rintro ⟨g, x, hx, hr⟩
    by_cases hg : g ∈ gs
    · exact Or.inr ⟨g, hg, x, hx, hr⟩
    · rw [h.same g hg] at hx
      exact Or.inl ⟨g, x, hx, hr⟩
  · rintro (⟨g, x, hx, hr⟩ | ⟨g, _, x, hx, hr⟩)
    · by_cases hg : g ∈ gs
      · exact ⟨g, x, h.kept g hg x hx, hr⟩
      · exact ⟨g, x, (h.same g hg).trans hx, hr⟩
    · exact ⟨g, x, hx, hr⟩

theorem Grown.needs_iff (h : Grown groups groups' gs) (r : Text) : groups'.Needs r ↔
    groups.Needs r ∨ r ∈ gs ∨ ∃ g ∈ gs, ∃ x, groups' g = some x ∧ x.lists r = true := by
  have hneeds : groups'.Needs r ↔ groups.Needs r ∨ r ∈ gs ∨
      ∃ g ∈ gs, ∃ x, groups' g = some x ∧ r ∈ x.names := by
    unfold LocalGroups.Needs
    rw [h.isSome_iff, h.named_iff]
    tauto
  rw [hneeds]
  by_cases hr : r ∈ gs
  · simp [hr]
  · by_cases hn : groups.Needs r
    · simp [hn]
    · rw [h.agree r hr hn]

def subscribesFor (groups : LocalGroups) (g : Text) (t : Topic) : Prop :=
  (vnicsOf g t ∨ ownEvents g t) ∨ ∃ r, (∃ x, groups g = some x ∧ x.lists r = true) ∧ vnicsOf r t

theorem Grown.wants_iff (h : Grown groups groups' gs) {t : Topic} (ht : t.ofGroup = true) :
    groups'.Wants t ↔ groups.Wants t ∨ ∃ g ∈ gs, subscribesFor groups' g t := by
  have hvnics : ∀ r t, vnicsOf r t →
      (groups'.Wants t ↔ groups.Wants t ∨ ∃ g ∈ gs, subscribesFor groups' g t) := by
    intro r t ht
    have hone : ∀ r', vnicsOf r' t ↔ r' = r := fun r' => vnicsOf_iff ht
    have hown : ∀ g, ¬ ownEvents g t := fun g ho => not_vnicsOf_of_own ho ht
    rw [wants_vnicsOf ht, wants_vnicsOf ht, h.needs_iff]
    simp only [subscribesFor, hone, hown, or_false, exists_eq_right]
    grind
  have howns : ∀ g t, ownEvents g t →
      (groups'.Wants t ↔ groups.Wants t ∨ ∃ g ∈ gs, subscribesFor groups' g t) := by
    intro g t ht
    have hone : ∀ g', ownEvents g' t ↔ g' = g := fun g' => ownEvents_iff ht
    have hv : ∀ r, ¬ vnicsOf r t := fun r hv => not_vnicsOf_of_own ht hv
    rw [wants_ownEvents ht, wants_ownEvents ht, h.isSome_iff]
    simp only [subscribesFor, hone, hv, false_or, and_false, exists_false, or_false]
    simp
  cases t with
  | vnicJoined r => exact hvnics r _ (Or.inl rfl)
  | vnicLeft r => exact hvnics r _ (Or.inr rfl)
  | referencerAdded g => exact howns g _ (Or.inl rfl)
  | referencerRemoved g => exact howns g _ (Or.inr (Or.inl rfl))
  | rulesUpdated g => exact howns g _ (Or.inr (Or.inr rfl))
  | vnicCreated | vnicDestroyed | joinedGroup _ | leftGroup _ | vnicsJoined _ | vnicsLeft _ =>
    cases ht

theorem adds_group (hg : (node.cache.localGroups g).isSome = true) :
    Adds node (subscribeToGroupAndReferencees g) (subscribesFor node.cache.localGroups g) := by
  obtain ⟨x, hx⟩ := Option.isSome_iff_exists.mp hg
  obtain ⟨group, hl, hx'⟩ := localGroups_eq_some.mp hx
  apply (adds_subscribeToGroupAndReferencees hl).congr
  intro t _
  unfold subscribesFor
  simp only [hx, Option.some.injEq, exists_eq_left']
  rw [← (asLocal_eq_some.mp hx').2]

theorem Exact.subscribe (h : Exact groups events) (hg : Grown groups node.cache.localGroups gs)
    {x : ServiceM Unit} (hx : Adds node x fun t => ∃ g ∈ gs, subscribesFor node.cache.localGroups g t) :
    (Proc.final x ⟨node, events⟩).node = node ∧
      Exact node.cache.localGroups (Proc.final x ⟨node, events⟩).subscribedEvents :=
  h.adds hx fun _ ht => hg.wants_iff ht

end

/-! ## The groups of a vnic -/

def entry (group : GroupMap) : LocalGroup :=
  ⟨ruleGroups group.rules, fun r => (group.referencees.lookup r).isSome⟩

def Cache.groupOf (c : Cache) (db : Db) (nodeId g : Text) : Option GroupMap :=
  (c.securityGroups.lookup g).or (db.getNetfilterSecurityGroup g nodeId)

/-- The groups are in the cache, and all else is as it was. -/
structure Put (db : Db) (nodeId : Text) (old : Cache) (done : List Text) (c : Cache) : Prop where
  entries : ∀ g, (c.securityGroups.lookup g).map entry =
    if g ∈ done then (old.groupOf db nodeId g).map entry else (old.securityGroups.lookup g).map entry
  docs : ∀ g u, g ∉ done → (c.localDoc g u).isSome = (old.localDoc g u).isSome

/-- The vnic stands in the groups, and everywhere with the same document. -/
structure Stands (v : Text) (d : VnicMap) (done : List Text) (c : Cache) : Prop where
  here : ∀ g ∈ done, c.localDoc g v = some d
  only : ∀ g e, c.localDoc g v = some e → e = d

section
variable {db : Db} {nodeId : Text} {old c c' : Cache} {g v : Text} {d : VnicMap} {done : List Text}
  {r : VnicRecord} {node node' : Node}

theorem put_nothing : Put db nodeId old [] old := ⟨fun _ => rfl, fun _ _ _ => rfl⟩

theorem localGroups_eq_entry (h : c.localVnicsLeftInGroup g = true) :
    c.localGroups g = (c.securityGroups.lookup g).map entry := by
  unfold Cache.localGroups
  unfold Cache.localVnicsLeftInGroup at h
  cases hl : c.securityGroups.lookup g with
  | none => rfl
  | some group =>
    rw [hl] at h
    simp only [Bool.not_eq_true'] at h
    exact asLocal_eq_some.mpr ⟨h, rfl⟩

theorem localGroups_eq_none (h : c.localVnicsLeftInGroup g = false) : c.localGroups g = none := by
  rw [← isSome_localGroups] at h
  exact Option.not_isSome_iff_eq_none.mp (by rw [h]; exact Bool.false_ne_true)

theorem localVnicsLeft_of_doc {u : Text} (h : (c.localDoc g u).isSome = true) :
    c.localVnicsLeftInGroup g = true := by
  cases hl : c.localVnicsLeftInGroup g with
  | true => rfl
  | false =>
    rw [localVnicsLeft_eq_false.mp hl u] at h
    cases h

/-- Where the groups have local vnics, these are the groups that changed. -/
theorem Put.localGroups (h : Put db nodeId old done c)
    (hleft : ∀ g ∈ done, c.localVnicsLeftInGroup g = true) (g : Text) :
    c.localGroups g = if g ∈ done then (old.groupOf db nodeId g).map entry else old.localGroups g := by
  by_cases hg : g ∈ done
  · rw [if_pos hg, localGroups_eq_entry (hleft g hg), h.entries, if_pos hg]
  · rw [if_neg hg]
    have hsame : c.localVnicsLeftInGroup g = old.localVnicsLeftInGroup g := by
      rw [Bool.eq_iff_iff, ← Bool.not_eq_false, ← Bool.not_eq_false, not_iff_not,
        localVnicsLeft_eq_false, localVnicsLeft_eq_false]
      apply forall_congr'
      intro u
      rw [← Option.not_isSome_iff_eq_none, ← Option.not_isSome_iff_eq_none, h.docs g u hg]
    cases hl : old.localVnicsLeftInGroup g with
    | true =>
      rw [localGroups_eq_entry (hsame.trans hl), localGroups_eq_entry hl, h.entries, if_neg hg]
    | false => rw [localGroups_eq_none (hsame.trans hl), localGroups_eq_none hl]

theorem entry_addToGroup (isLocal : Bool) (d : VnicMap) (g' : Text) :
    ((addToGroup isLocal v g d c).securityGroups.lookup g').map entry =
      (c.securityGroups.lookup g').map entry := by
  have hput : ∀ group, entry (putVnic g v d group) = entry group := by
    intro group
    simp only [entry, putVnic, LocalGroup.mk.injEq, true_and]
    funext r
    rw [Hash.lookup_mapVals, Option.isSome_map]
    exact Hash.isSome_lookup_modify ..
  have hadd : ∀ group, entry (addMember isLocal v d group) = entry group := by
    intro group
    unfold addMember
    split
    · rfl
    · rfl
  simp only [addToGroup, Cache.mapGroups, Hash.lookup_mapVals, Hash.lookup_modify]
  cases c.securityGroups.lookup g' with
  | none => simp
  | some group =>
    by_cases hg : g' = g
    · simp [hg, hput, hadd]
    · simp [hg, hput]

theorem isSome_localDoc_addToGroup (isLocal : Bool) (d : VnicMap) {g' : Text} (hg : g' ≠ g) (u : Text) :
    ((addToGroup isLocal v g d c).localDoc g' u).isSome = (c.localDoc g' u).isSome := by
  simp only [addToGroup, Cache.localDoc, Cache.mapGroups, Hash.lookup_mapVals, Hash.lookup_modify,
    if_neg hg]
  cases c.securityGroups.lookup g' with
  | none => rfl
  | some group => exact Hash.isSome_lookup_modify ..

theorem Put.add (h : Put db nodeId old done c) (hc : c.isLocalGroup g = true) (isLocal : Bool) (d : VnicMap) :
    Put db nodeId old (done ++ [g]) (addToGroup isLocal v g d c) := by
  have hmem : ∀ g', g' ∈ done ++ [g] ↔ g' ∈ done ∨ g' = g := fun g' => by simp
  constructor
  · intro g'
    rw [entry_addToGroup, h.entries]
    by_cases hd : g' ∈ done
    · simp [hd]
    · by_cases hg : g' = g
      · rw [hg] at hd ⊢
        rw [if_neg hd, if_pos ((hmem g).mpr (Or.inr rfl))]
        have he := h.entries g
        rw [if_neg hd] at he
        have hsome : (old.securityGroups.lookup g).isSome = true := by
          rw [← Option.isSome_map (f := entry), ← he, Option.isSome_map]
          exact hc
        obtain ⟨group, hgroup⟩ := Option.isSome_iff_exists.mp hsome
        unfold Cache.groupOf
        rw [hgroup, Option.some_or]
      · simp [hd, hg]
  · intro g' u hg'
    rw [hmem, not_or] at hg'
    rw [isSome_localDoc_addToGroup isLocal d hg'.2]
    exact h.docs g' u hg'.1

theorem Put.of_mem {done' : List Text} (h : Put db nodeId old done c) (hd : ∀ g, g ∈ done ↔ g ∈ done') :
    Put db nodeId old done' c :=
  ⟨fun g => by simp only [h.entries, hd], fun g u hg => h.docs g u fun hin => hg ((hd g).mp hin)⟩

theorem Put.fetch (h : Put db nodeId old done node.cache) (hc : node.cache.isLocalGroup g = false) :
    Put db nodeId old (done ++ [g]) (Proc.final (addSecurityGroup db nodeId g) node).cache := by
  have hmem : ∀ g', g' ∈ done ++ [g] ↔ g' ∈ done ∨ g' = g := fun g' => by simp
  have hnone : node.cache.securityGroups.lookup g = none := by
    rw [← Option.not_isSome_iff_eq_none]
    unfold Cache.isLocalGroup at hc
    rw [hc]
    exact Bool.false_ne_true
  have hold := h.entries g
  rw [hnone, Option.map_none] at hold
  have hfetched : (old.groupOf db nodeId g).map entry = (db.getNetfilterSecurityGroup g nodeId).map entry := by
    unfold Cache.groupOf
    cases hl : old.securityGroups.lookup g with
    | none => rw [Option.none_or]
    | some group =>
      -- the cache had the group, so it would have it still
      unfold Cache.groupOf at hold
      rw [hl] at hold
      split at hold
      · cases hold
      · cases hold
  have hgroups : ∀ g', (Proc.final (addSecurityGroup db nodeId g) node).cache.securityGroups.lookup g' =
      if g' = g then db.getNetfilterSecurityGroup g nodeId else node.cache.securityGroups.lookup g' := by
    intro g'
    cases hrules : db.groups.lookup g with
    | none =>
      unfold addSecurityGroup Db.getNetfilterSecurityGroup
      rw [hrules]
      show node.cache.securityGroups.lookup g' = if g' = g then none else _
      split
      · rename_i hg
        rw [hg, hnone]
      · rfl
    | some rules =>
      rw [(after_addSecurityGroup hrules node.cache node.chains).groups]
      unfold Cache.withGroup Db.getNetfilterSecurityGroup
      rw [Hash.lookup_insert, hrules]
      rfl
  constructor
  · intro g'
    rw [hgroups]
    by_cases hg : g' = g
    · rw [if_pos hg, if_pos ((hmem g').mpr (Or.inr hg)), hg, hfetched]
    · rw [if_neg hg, h.entries]
      simp [hg]
  · intro g' u hg'
    rw [hmem, not_or] at hg'
    unfold Cache.localDoc
    rw [hgroups, if_neg hg'.2]
    exact h.docs g' u hg'.1

theorem Put.turn (h : Put db nodeId old done node.cache) (isLocal : Bool) (d : VnicMap) (g : Text) :
    Put db nodeId old (done ++ [g]) (Proc.final (putInGroup db nodeId v d isLocal g) node).cache := by
  unfold putInGroup
  rw [final_bind_getCache]
  cases hc : node.cache.isLocalGroup g with
  | true => exact h.add hc isLocal d
  | false => exact h.fetch hc

theorem Stands.turn (h : Stands v r.vnic done node.cache) (hr : db.vnics.lookup v = some r)
    (hl : r.live nodeId = true) (hg : r.inGroup g = true) (hgroup : (db.groups.lookup g).isSome = true) :
    Stands v r.vnic (done ++ [g]) (Proc.final (putInGroup db nodeId v r.vnic true g) node).cache := by
  have hmine := putInGroup_mine hr hl hg hgroup h.only
  constructor
  · intro g' hg'
    rw [hmine]
    split
    · rfl
    · rename_i hne
      rw [List.mem_append, List.mem_singleton] at hg'
      exact h.here g' (hg'.resolve_right hne)
  · intro g' e he
    rw [hmine] at he
    split at he
    · exact (Option.some.inj he).symm
    · exact h.only g' e he

/-! ## A vnic is created -/

theorem exec_addVnic (hr : db.vnics.lookup v = some r) (hl : r.live nodeId = true)
    (hgroups : ∀ g ∈ r.vnic.securityGroups, (db.groups.lookup g).isSome = true)
    (honly : ∀ g e, node.cache.localDoc g v = some e → e = r.vnic)
    (h : Proc.exec (addVnic db nodeId v) node = (.ok (), node')) :
    Put db nodeId node.cache r.vnic.securityGroups node'.cache ∧
      Stands v r.vnic r.vnic.securityGroups node'.cache ∧
      (r.vnic.securityGroups = [] → node'.cache.getEmptyVnic v = some r.vnic) := by
  unfold addVnic at h
  obtain ⟨result, n₁, h₁, h⟩ := Proc.exec_bind_ok h
  rw [runs_lift (vnicWithNodeId_live hr hl) node] at h₁
  cases h₁
  obtain ⟨_, n₂, h₂, h⟩ := Proc.exec_bind_ok h
  dsimp only at h₂ h
  rw [beq_self_eq_true] at h₂
  have hsame : SameVnics n₂.cache node'.cache := by
    rw [← exec_final h]
    exact (keeps_addNetwork_same db n₂.cache _).at_final n₂ ⟨rfl, rfl⟩
  have hput : ∀ done, Put db nodeId node.cache done n₂.cache → Put db nodeId node.cache done node'.cache := by
    intro done hp
    constructor
    · intro g
      rw [hsame.groups]
      exact hp.entries g
    · intro g u hg
      rw [hsame.localDoc]
      exact hp.docs g u hg
  have hstands : ∀ done, Stands v r.vnic done n₂.cache → Stands v r.vnic done node'.cache := by
    intro done hs
    constructor
    · intro g hg
      rw [hsame.localDoc]
      exact hs.here g hg
    · intro g e he
      rw [hsame.localDoc] at he
      exact hs.only g e he
  unfold addVnicToGroups at h₂
  cases hd : r.vnic.securityGroups with
  | nil =>
    rw [hd] at h₂
    cases h₂
    refine ⟨hput [] ⟨fun _ => rfl, fun _ _ _ => rfl⟩, hstands [] ⟨?_, honly⟩, fun _ => ?_⟩
    · intro g hg
      cases hg
    · unfold Cache.getEmptyVnic
      rw [hsame.empties]
      show AList.lookup v (AList.insert v r.vnic node.cache.emptyVnics) = _
      rw [Hash.lookup_insert, if_pos rfl]
  | cons g₁ gs =>
    rw [← hd]
    rw [if_neg (by rw [hd]; exact Bool.false_ne_true)] at h₂
    have hall : Put db nodeId node.cache r.vnic.securityGroups n₂.cache ∧
        Stands v r.vnic r.vnic.securityGroups n₂.cache := by
      apply Proc.forM_invariant (fun (done : List Text) (n : Node) => Put db nodeId node.cache done n.cache ∧
        Stands v r.vnic done n.cache) (f := putInGroup db nodeId v r.vnic true) _ _ h₂
      · intro done g rest s t hsplit ⟨hp, hs⟩ ht
        have hg : g ∈ r.vnic.securityGroups := by
          rw [hsplit]
          exact List.mem_append_right _ List.mem_cons_self
        rw [← exec_final ht]
        exact ⟨hp.turn true r.vnic g, hs.turn hr hl (List.contains_iff_mem.mpr hg) (hgroups g hg)⟩
      · exact ⟨put_nothing, ⟨fun g hg => absurd hg List.not_mem_nil, honly⟩⟩
    refine ⟨hput _ hall.1, hstands _ hall.2, fun he => ?_⟩
    rw [hd] at he
    cases he

theorem localGroups_takeOut {u : Text} (h : c.otherLocalVnicsLeftInGroup u g = true) :
    (c.takeOut u g).localGroups = c.localGroups := by
  funext g'
  unfold Cache.takeOut
  rw [localGroups_dropEmptyGroups, localGroups_mapGroups asLocal_leaveGroup, localGroups_modify]
  split
  · rename_i hg
    rw [hg]
    unfold Cache.localGroups
    unfold Cache.otherLocalVnicsLeftInGroup at h
    cases hl : c.securityGroups.lookup g with
    | none => rfl
    | some group =>
      rw [hl] at h
      simp only [Bool.not_eq_true'] at h
      rw [Option.bind_some, Option.bind_some]
      unfold asLocal
      rw [h]
      cases he : Hash.isEmpty group.localVnics with
      | true =>
        rw [isEmpty_erase_of_empty he] at h
        cases h
      | false => rfl
  · rfl

theorem otherLocalVnicsLeft_of_doc {u : Text} (hu : v ≠ u) (h : (c.localDoc g v).isSome = true) :
    c.otherLocalVnicsLeftInGroup u g = true := by
  obtain ⟨e, he⟩ := Option.isSome_iff_exists.mp h
  obtain ⟨group, hg, hv⟩ := Option.bind_eq_some_iff.mp he
  unfold Cache.otherLocalVnicsLeftInGroup
  rw [hg]
  show (!Hash.isEmpty (AList.erase u group.localVnics : Hash Text VnicMap)) = true
  rw [Bool.not_eq_true', ← Bool.not_eq_true, Hash.isEmpty_iff]
  intro hall
  have hnone := hall v
  rw [Hash.lookup_erase, if_neg hu, hv] at hnone
  cases hnone

/-- The siblings go only from groups in which the vnic stands itself. -/
theorem keeps_forgetSiblings_groups {groups : LocalGroups} {gs : List Text} (huuid : d.uuid = v)
    (hgs : ∀ g ∈ gs, g ∈ done) :
    Proc.Keeps (fun n : Node => n.cache.localGroups = groups ∧ Stands v d done n.cache) (forgetSiblings d gs) := by
  apply Proc.keeps_forM
  intro g hg
  apply Proc.Keeps.bind (keeps_getCache (I := fun c => c.localGroups = groups ∧ Stands v d done c))
  intro c
  apply Proc.keeps_forM
  intro other _
  split
  · rename_i hsib
    have hne : v ≠ other.uuid := by
      rw [← huuid]
      exact hsib.2
    apply Proc.Keeps.bind (keeps_getCache (I := fun c => c.localGroups = groups ∧ Stands v d done c))
    intro _
    split
    · refine keeps_modifyCache (I := fun c => c.localGroups = groups ∧ Stands v d done c) ?_
      intro c h
      have hdoc : ∀ g', (c.takeOut other.uuid g).localDoc g' v = c.localDoc g' v := by
        intro g'
        rw [localDoc_takeOut, if_neg hne]
      refine ⟨?_, ?_, ?_⟩
      · refine Eq.trans (localGroups_takeOut (otherLocalVnicsLeft_of_doc hne ?_)) h.1
        rw [h.2.here g (hgs g hg)]
        rfl
      · intro g' hg'
        exact (hdoc g').trans (h.2.here g' hg')
      · intro g' e he
        exact h.2.only g' e ((hdoc g').symm.trans he)
    · exact Proc.keeps_throw _
  · exact Proc.keeps_pure _

theorem cache_of_keeps {α : Type} {x : NodeM α} {a : Except NetfilterError α}
    (hx : ∀ I : Cache → Prop, Proc.Keeps (fun n : Node => I n.cache) x)
    (h : Proc.exec x node = (a, node')) : node'.cache = node.cache := by
  have hfinal := (hx fun c => c = node.cache).at_final node rfl
  rw [exec_final h] at hfinal
  exact hfinal

theorem exec_createVnicTasks {vnic : VnicMap} (hr : db.vnics.lookup v = some r) (hl : r.live nodeId = true)
    (huuid : r.vnic.uuid = v) (hgroups : ∀ g ∈ r.vnic.securityGroups, (db.groups.lookup g).isSome = true)
    (honly : ∀ g e, node.cache.localDoc g v = some e → e = r.vnic)
    (h : Proc.exec (createVnicTasks db nodeId v) node = (.ok vnic, node')) :
    vnic = r.vnic ∧ (∀ g ∈ r.vnic.securityGroups, node'.cache.localVnicsLeftInGroup g = true) ∧
      ∀ g, node'.cache.localGroups g = if g ∈ r.vnic.securityGroups
        then (node.cache.groupOf db nodeId g).map entry else node.cache.localGroups g := by
  unfold createVnicTasks at h
  obtain ⟨old, n₁, h₁, h⟩ := Proc.exec_bind_ok h
  cases h₁
  obtain ⟨_, n₂, h₂, h⟩ := Proc.exec_bind_ok h
  obtain ⟨hput, hstands, hempty⟩ := exec_addVnic hr hl hgroups honly h₂
  obtain ⟨c, n₃, h₃, h⟩ := Proc.exec_bind_ok h
  cases h₃
  have hleft : ∀ c : Cache, Stands v r.vnic r.vnic.securityGroups c →
      ∀ g ∈ r.vnic.securityGroups, c.localVnicsLeftInGroup g = true := by
    intro c hc g hg
    apply localVnicsLeft_of_doc (u := v)
    rw [hc.here g hg]
    rfl
  have hlocal := hput.localGroups (hleft n₂.cache hstands)
  split at h
  · rename_i vnic' hvnic'
    obtain ⟨g₀, hg₀⟩ : ∃ g, n₂.cache.localDoc g v ≠ none := by
      by_contra hno
      rw [getLocalVnic_none fun g => not_not.mp fun hg => hno ⟨g, hg⟩] at hvnic'
      cases hvnic'
    obtain ⟨e, he⟩ := Option.ne_none_iff_exists'.mp hg₀
    rw [hstands.only g₀ e he] at he
    have hget : n₂.cache.getLocalVnic v = some r.vnic := getLocalVnic_eq he hstands.only
    rw [hget] at hvnic'
    cases hvnic'
    have hkeeps : Proc.Keeps (fun n : Node => n.cache.localGroups = n₂.cache.localGroups ∧
        Stands v r.vnic r.vnic.securityGroups n.cache)
        (forgetSiblings r.vnic (r.vnic.securityGroups.filter fun g => !node.cache.isLocalGroup g)) :=
      keeps_forgetSiblings_groups huuid fun g hg => List.mem_of_mem_filter hg
    obtain ⟨_, n₄, h₄, h⟩ := Proc.exec_bind_ok h
    have hforgot := hkeeps.at_final n₂ ⟨rfl, hstands⟩
    rw [exec_final h₄] at hforgot
    obtain ⟨c, n₅, h₅, h⟩ := Proc.exec_bind_ok h
    cases h₅
    obtain ⟨friends, n₆, h₆, h⟩ := Proc.exec_bind_ok h
    obtain ⟨_, n₇, h₇, h⟩ := Proc.exec_bind_ok h
    cases h
    rw [cache_of_keeps (fun _ => keeps_initializeVnic ..) h₇, cache_of_keeps (fun _ => keeps_lift _) h₆]
    refine ⟨rfl, hleft n₄.cache hforgot.2, fun g => ?_⟩
    rw [hforgot.1]
    exact hlocal g
  · rename_i hnone
    have hgs : r.vnic.securityGroups = [] := by
      apply List.eq_nil_iff_forall_not_mem.mpr
      intro g hg
      rw [getLocalVnic_eq (hstands.here g hg) hstands.only] at hnone
      cases hnone
    rw [hempty hgs] at h
    obtain ⟨_, n₄, h₄, h⟩ := Proc.exec_bind_ok h
    cases h
    rw [cache_of_keeps (fun _ => keeps_initializeVnic ..) h₄]
    exact ⟨rfl, hleft n₂.cache hstands, hlocal⟩

end

/-! ## The handlers -/

/-- Of the groups that are not needed yet, the entries of the groups list those
their rules name. -/
def Cache.ListsNamed (c : Cache) (db : Db) (nodeId : Text) (gs : List Text) : Prop :=
  ∀ g ∈ gs, ∃ group, c.groupOf db nodeId g = some group ∧ ∀ r, r ∉ gs → ¬ c.localGroups.Needs r →
    ((group.referencees.lookup r).isSome = true ↔ r ∈ ruleGroups group.rules)

/-- The tasks of the vnic can be built, its groups exist, and it does not stand in
the cache with other data. -/
structure VnicCreatedFits (db : Db) (nodeId v : Text) (node : Node) (r : VnicRecord) : Prop where
  tasks : (Proc.exec (createVnicTasks db nodeId v) node).1.isOk = true
  live : r.live nodeId = true
  exist : ∀ g ∈ r.vnic.securityGroups, (db.groups.lookup g).isSome = true
  only : ∀ g e, node.cache.localDoc g v = some e → e = r.vnic
  lists : node.cache.ListsNamed db nodeId r.vnic.securityGroups

structure JoinedGroupFits (db : Db) (nodeId v g : Text) (node : Node) : Prop where
  tasks : (Proc.exec (Netfilter.joinedGroup db nodeId v g) node).1.isOk = true
  lists : node.cache.ListsNamed db nodeId [g]

section
variable {db : Db} {nodeId g v : Text} {gs : List Text} {r : VnicRecord} {node node' : Node}
  {events : List Topic} {c c' : Cache}

theorem Cache.ListsNamed.grown (h : c.ListsNamed db nodeId gs)
    (hgroups : ∀ g, c'.localGroups g = if g ∈ gs then (c.groupOf db nodeId g).map entry else c.localGroups g) :
    Grown c.localGroups c'.localGroups gs := by
  have hgroup : ∀ g ∈ gs, ∃ group, c.groupOf db nodeId g = some group ∧ c'.localGroups g = some (entry group) ∧
      ∀ r, r ∉ gs → ¬ c.localGroups.Needs r →
        ((entry group).lists r = true ↔ r ∈ (entry group).names) := by
    intro g hg
    obtain ⟨group, hgroup, hlists⟩ := h g hg
    refine ⟨group, hgroup, ?_, hlists⟩
    rw [hgroups, if_pos hg, hgroup]
    rfl
  refine ⟨fun g hg => (hgroups g).trans (if_neg hg), ?_, ?_, ?_⟩
  · intro g hg
    obtain ⟨group, _, hs, _⟩ := hgroup g hg
    rw [hs]
    rfl
  · intro g hg x hx
    obtain ⟨group, hl, hx'⟩ := localGroups_eq_some.mp hx
    rw [hgroups, if_pos hg]
    unfold Cache.groupOf
    rw [hl, Option.some_or, Option.map_some, ← (asLocal_eq_some.mp hx').2]
    rfl
  · intro r hr hn
    constructor
    · intro hx
      obtain ⟨g, hg, x, hx, hlists⟩ := hx
      obtain ⟨group, _, hs, hagree⟩ := hgroup g hg
      rw [hs] at hx
      cases hx
      exact ⟨g, hg, entry group, hs, (hagree r hr hn).mp hlists⟩
    · intro hx
      obtain ⟨g, hg, x, hx, hnames⟩ := hx
      obtain ⟨group, _, hs, hagree⟩ := hgroup g hg
      rw [hs] at hx
      cases hx
      exact ⟨g, hg, entry group, hs, (hagree r hr hn).mpr hnames⟩

theorem exact_vnicCreated (h : Exact node.cache.localGroups events) (hr : db.vnics.lookup v = some r)
    (huuid : r.vnic.uuid = v) (hf : VnicCreatedFits db nodeId v node r)
    {s : Service} (hs : s = Proc.final (Service.vnicCreated db nodeId v) ⟨node, events⟩) :
    Exact s.node.cache.localGroups s.subscribedEvents := by
  rw [hs]
  apply final_onNode_bind (G := fun s => Exact s.node.cache.localGroups s.subscribedEvents)
  · intro e node' he
    have hok := hf.tasks
    rw [he] at hok
    cases hok
  · intro vnic node' he
    obtain ⟨hvnic, hleft, hgroups⟩ := exec_createVnicTasks hr hf.live huuid hf.exist hf.only he
    rw [hvnic]
    have hgrown := hf.lists.grown hgroups
    have hadds : Adds node' (r.vnic.securityGroups.forM subscribeToGroupAndReferencees) fun t =>
        ∃ g ∈ r.vnic.securityGroups, subscribesFor node'.cache.localGroups g t :=
      adds_forM fun g hg => adds_group (by rw [isSome_localGroups]; exact hleft g hg)
    have hall := hadds.bind (adds_subscribeToLocalVnic r.vnic.uuid)
    obtain ⟨hnode, hexact⟩ := h.subscribe hgrown (hall.congr fun t _ => iff_of_eq (or_false _))
    rw [hnode]
    exact hexact

theorem isSome_localDoc : (c.localDoc g v).isSome = c.isLocalVnicInGroup v g := by
  unfold Cache.localDoc Cache.isLocalVnicInGroup
  cases c.securityGroups.lookup g with
  | none => rfl
  | some group => rfl

theorem keeps_applyToFriends (I : Cache → Prop) (c : Cache) : Proc.Keeps (fun n : Node => I n.cache)
    (match c.getLocalVnic v with
    | none => pure ()
    | some vnic => do
      secgroupTasksFor vnic.uuid (c.securityGroups.lookup g)
      let localFriends ← lift (c.getLocalFriendsInGroup v g)
      localFriends.forM fun friend => applyIsolation friend.uuid [vnic]
      let friends ← lift (c.getFriendsInGroup v g)
      applyIsolation vnic.uuid friends) := by
  split
  · exact Proc.keeps_pure _
  · apply Proc.Keeps.bind (keeps_secgroupTasksFor ..)
    intro _
    apply Proc.Keeps.bind (keeps_lift _)
    intro localFriends
    apply Proc.Keeps.bind (Proc.keeps_forM fun _ _ => keeps_applyIsolation ..)
    intro _
    apply Proc.Keeps.bind (keeps_lift _)
    intro friends
    exact keeps_applyIsolation ..

theorem exec_joinedGroup (h : Proc.exec (Netfilter.joinedGroup db nodeId v g) node = (.ok (), node')) :
    Put db nodeId node.cache [g] node'.cache ∧ node'.cache.localVnicsLeftInGroup g = true := by
  unfold Netfilter.joinedGroup addVnicToSecurityGroup at h
  obtain ⟨_, n₁, h₁, h⟩ := Proc.exec_bind_ok h
  obtain ⟨c, n₂, h₂, h₁⟩ := Proc.exec_bind_ok h₁
  cases h₂
  obtain ⟨_, n₃, h₃, h₁⟩ := Proc.exec_bind_ok h₁
  obtain ⟨result, n₄, h₄, h₁⟩ := Proc.exec_bind_ok h₁
  obtain ⟨c, n₅, h₅, h₁⟩ := Proc.exec_bind_ok h₁
  cases h₅
  have hfetched : ∃ done, (∀ g', g' ∈ done ++ [g] ↔ g' ∈ [g]) ∧ Put db nodeId node.cache done n₃.cache := by
    cases hc : node.cache.isLocalGroup g with
    | true =>
      rw [hc] at h₃
      cases h₃
      exact ⟨[], fun g' => by simp, put_nothing⟩
    | false =>
      rw [hc] at h₃
      refine ⟨[g], fun g' => by simp, ?_⟩
      rw [← exec_final h₃]
      exact put_nothing.fetch hc
  obtain ⟨done, hmem, hput⟩ := hfetched
  rw [← cache_of_keeps (fun _ => keeps_lift _) h₄] at hput
  cases hc : n₄.cache.isLocalGroup g with
  | false =>
    rw [hc, if_neg Bool.false_ne_true] at h₁
    cases h₁
  | true =>
    rw [hc, if_pos rfl] at h₁
    cases h₁
    obtain ⟨c, n₆, h₆, h⟩ := Proc.exec_bind_ok h
    cases h₆
    split at h
    · rename_i hin
      have hcache := cache_of_keeps (fun _ => keeps_applyToFriends ..) h
      rw [hcache]
      refine ⟨(hput.add hc _ _).of_mem hmem, localVnicsLeft_of_doc (u := v) ?_⟩
      rw [isSome_localDoc]
      exact hin
    · cases h

theorem exact_joinedGroup (h : Exact node.cache.localGroups events) (hf : JoinedGroupFits db nodeId v g node)
    {s : Service} (hs : s = Proc.final (Service.joinedGroup db nodeId v g) ⟨node, events⟩) :
    Exact s.node.cache.localGroups s.subscribedEvents := by
  rw [hs]
  apply final_onNode_bind (G := fun s => Exact s.node.cache.localGroups s.subscribedEvents)
  · intro e node' he
    have hok := hf.tasks
    rw [he] at hok
    cases hok
  · intro _ node' he
    obtain ⟨hput, hleft⟩ := exec_joinedGroup he
    have hgroups := hput.localGroups fun g' hg' => by rw [List.mem_singleton.mp hg']; exact hleft
    have hadds : Adds node' (subscribeToGroupAndReferencees g) (subscribesFor node'.cache.localGroups g) :=
      adds_group (by rw [isSome_localGroups]; exact hleft)
    obtain ⟨hnode, hexact⟩ := h.subscribe (hf.lists.grown hgroups) (hadds.congr fun t _ => by simp)
    rw [hnode]
    exact hexact

end

end Netfilter

end WakameVdc
