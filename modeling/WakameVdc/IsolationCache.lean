import WakameVdc.IsolationSound

/-!
# The vnics a cache stores

A node of local vnics stores each vnic it knows in the groups it is in. The
methods of the cache are described by the documents they leave there.
-/

namespace WakameVdc

open Lib

namespace Netfilter

namespace Cache

def localDoc (c : Cache) (g v : Text) : Option VnicMap :=
  (c.securityGroups.lookup g).bind fun group => group.localVnics.lookup v

def foreignDoc (c : Cache) (g v : Text) : Option VnicMap :=
  (c.securityGroups.lookup g).bind fun group => group.foreignVnics.lookup v

end Cache

/-- Every vnic of the database is a local one with an address of its own, in a
network and in groups that exist. -/
structure Db.Local (db : Db) (nodeId : Text) : Prop where
  here : ∀ v r, db.vnics.lookup v = some r →
    r.onNode nodeId InstanceRecord.runningOrInitializing = true ∧
      r.onNode nodeId InstanceRecord.alive = true
  uuid : ∀ v r, db.vnics.lookup v = some r → r.vnic.uuid = v
  address : ∀ v r, db.vnics.lookup v = some r → r.vnic.address.isSome = true
  distinct : ∀ v u r s, db.vnics.lookup v = some r → db.vnics.lookup u = some s →
    r.vnic.address = s.vnic.address → v = u
  network : ∀ v r, db.vnics.lookup v = some r →
    (r.vnic.networkId.bind db.networks.lookup).isSome = true
  groups : ∀ v r, db.vnics.lookup v = some r → ∀ g ∈ r.vnic.securityGroups,
    (db.groups.lookup g).isSome = true

/-- The cache stores the vnics the node knows, in exactly their groups. -/
structure CacheIso (db : Db) (known : Known) (c : Cache) : Prop where
  locals : ∀ g v d, c.localDoc g v = some d ↔ known v = some d ∧ g ∈ d.securityGroups
  foreigns : ∀ g v, c.foreignDoc g v = none
  empties : ∀ v e, c.emptyVnics.lookup v = some e →
    ∃ d, known v = some d ∧ e = { d with securityGroups := [] }
  networks : ∀ n m, c.networks.lookup n = some m → db.networks.lookup n = some m
  listed : ∀ v d, known v = some d →
    d.securityGroups ≠ [] ∨ (c.emptyVnics.lookup v).isSome = true →
    (d.networkId.bind c.networks.lookup).isSome = true

/-! ## Values of a hash -/

theorem nodup_map_values {κ ν : Type} [DecidableEq κ] {h : Hash κ ν} {f : ν → κ}
    (hf : ∀ k x, h.lookup k = some x → f x = k) : ((Hash.values h).map f).Nodup := by
  have he : (Hash.values h).map f = h.keys := by
    unfold Hash.values AList.keys List.keys
    rw [List.map_map]
    apply List.map_congr_left
    intro e he
    exact hf e.1 e.2 (AList.mem_lookup_iff.mpr he)
  rw [he]
  exact AList.keys_nodup h

/-! ## Getters -/

section
variable {c : Cache}

theorem mem_getLocalVnicsInGroup {g : Text} {e : VnicMap} :
    e ∈ c.getLocalVnicsInGroup g ↔ ∃ u, c.localDoc g u = some e := by
  unfold Cache.getLocalVnicsInGroup Cache.localDoc
  cases c.securityGroups.lookup g with
  | none => simp
  | some group => exact Hash.mem_values

theorem getLocalVnic_eq {v : Text} {d : VnicMap} {g : Text} (hg : c.localDoc g v = some d)
    (hall : ∀ g e, c.localDoc g v = some e → e = d) : c.getLocalVnic v = some d := by
  unfold Cache.getLocalVnic
  obtain ⟨group, hgroup, hv⟩ := Option.bind_eq_some_iff.mp hg
  cases hf : (Hash.values c.securityGroups).findSome? fun group => group.localVnics.lookup v with
  | none =>
    have := List.findSome?_eq_none_iff.mp hf group (Hash.mem_values.mpr ⟨g, hgroup⟩)
    rw [hv] at this
    cases this
  | some e =>
    obtain ⟨group', hm, he⟩ := List.exists_of_findSome?_eq_some hf
    obtain ⟨g', hg'⟩ := Hash.mem_values.mp hm
    rw [hall g' e (Option.bind_eq_some_iff.mpr ⟨group', hg', he⟩)]

theorem getLocalVnic_none {v : Text} (hall : ∀ g, c.localDoc g v = none) :
    c.getLocalVnic v = none := by
  unfold Cache.getLocalVnic
  apply List.findSome?_eq_none_iff.mpr
  intro group hm
  obtain ⟨g, hg⟩ := Hash.mem_values.mp hm
  have := hall g
  unfold Cache.localDoc at this
  rw [hg] at this
  exact this

/-- The friends kept so far are a part of the list without repetition. -/
theorem foldl_uniq (l acc : List VnicMap) (hacc : (acc.map VnicMap.uuid).Nodup) :
    ((l.foldl (fun acc f => if acc.any fun g => g.uuid == f.uuid then acc else acc ++ [f])
      acc).map VnicMap.uuid).Nodup ∧
    ∀ e, e ∈ l.foldl (fun acc f => if acc.any fun g => g.uuid == f.uuid then acc else acc ++ [f])
      acc → e ∈ acc ∨ e ∈ l := by
  induction l generalizing acc with
  | nil => exact ⟨hacc, fun e he => Or.inl he⟩
  | cons f l ih =>
    rw [List.foldl_cons]
    by_cases hf : (acc.any fun g => g.uuid == f.uuid) = true
    · rw [if_pos hf]
      refine ⟨(ih acc hacc).1, ?_⟩
      intro e he
      rcases (ih acc hacc).2 e he with hx | hx
      · exact Or.inl hx
      · exact Or.inr (List.mem_cons_of_mem _ hx)
    · rw [if_neg hf]
      have hnew : ((acc ++ [f]).map VnicMap.uuid).Nodup := by
        rw [List.map_append, List.nodup_append]
        refine ⟨hacc, List.nodup_singleton _, ?_⟩
        intro a ha b hb hab
        obtain ⟨g, hg, hga⟩ := List.mem_map.mp ha
        rw [List.map_singleton, List.mem_singleton] at hb
        apply hf
        rw [List.any_eq_true]
        exact ⟨g, hg, by rw [hga, hab, hb]; exact beq_self_eq_true _⟩
      refine ⟨(ih _ hnew).1, ?_⟩
      intro e he
      rcases (ih _ hnew).2 e he with hx | hx
      · rcases List.mem_append.mp hx with hx | hx
        · exact Or.inl hx
        · rw [List.mem_singleton.mp hx]
          exact Or.inr List.mem_cons_self
      · exact Or.inr (List.mem_cons_of_mem _ hx)

theorem foldl_uniq_uuid (l : List VnicMap) : ∀ (acc : List VnicMap) (e : VnicMap),
    e ∈ acc ∨ e ∈ l →
    ∃ e' ∈ l.foldl (fun acc f => if acc.any fun g => g.uuid == f.uuid then acc else acc ++ [f])
      acc, e'.uuid = e.uuid := by
  induction l with
  | nil =>
    intro acc e he
    rcases he with he | he
    · exact ⟨e, he, rfl⟩
    · cases he
  | cons f l ih =>
    intro acc e he
    rw [List.foldl_cons]
    have hkeep : e ∈ acc → e ∈ (if acc.any fun g => g.uuid == f.uuid then acc else acc ++ [f]) := by
      intro he
      split
      · exact he
      · exact List.mem_append_left _ he
    rcases he with he | he
    · exact ih _ e (Or.inl (hkeep he))
    · rcases List.mem_cons.mp he with he | he
      · by_cases hf : (acc.any fun g => g.uuid == f.uuid) = true
        · obtain ⟨g, hg, hgf⟩ := List.any_eq_true.mp hf
          rw [if_pos hf]
          obtain ⟨e', he', hu⟩ := ih acc g (Or.inl hg)
          exact ⟨e', he', by rw [hu, he, beq_iff_eq.mp hgf]⟩
        · rw [if_neg hf, he]
          exact ih _ f (Or.inl (List.mem_append_right _ List.mem_cons_self))
      · exact ih _ e (Or.inr he)

/-- Friends with one document each are kept once, but for the vnic itself. -/
theorem withoutSelf_friends {known : Known} {v : Text} {p : VnicMap → Bool} {l : List VnicMap}
    (hl : ∀ e ∈ l, known e.uuid = some e ∧ (e.uuid ≠ v → p e = true))
    (hall : ∀ e, known e.uuid = some e → e.uuid ≠ v → p e = true → e ∈ l) :
    Friends known v p (Cache.withoutSelf v l) := by
  unfold Cache.withoutSelf
  obtain ⟨hnd, hsub⟩ := foldl_uniq l [] List.nodup_nil
  have hmem : ∀ e, e ∈ (l.foldl (fun acc f => if acc.any fun g => g.uuid == f.uuid then acc
      else acc ++ [f]) []) → e ∈ l := by
    intro e he
    rcases hsub e he with hx | hx
    · cases hx
    · exact hx
  constructor
  · exact hnd.sublist (List.filter_sublist.map _)
  · intro e
    rw [List.mem_filter, bne_iff_ne]
    constructor
    · intro ⟨he, hv⟩
      obtain ⟨hk, hp⟩ := hl e (hmem e he)
      exact ⟨hk, hv, hp hv⟩
    · intro ⟨hk, hv, hp⟩
      refine ⟨?_, hv⟩
      obtain ⟨e', he', hu⟩ := foldl_uniq_uuid l [] e (Or.inr (hall e hk hv hp))
      have hk' := (hl e' (hmem e' he')).1
      rw [hu, hk] at hk'
      cases hk'
      exact he'

end

section
variable {db : Db} {known : Known} {c : Cache}

theorem CacheIso.mem_localVnics (h : CacheIso db known c) (hk : KnownOk known) {g : Text}
    {e : VnicMap} : e ∈ c.getLocalVnicsInGroup g ↔
      known e.uuid = some e ∧ g ∈ e.securityGroups := by
  rw [mem_getLocalVnicsInGroup]
  constructor
  · intro ⟨u, hu⟩
    obtain ⟨hku, hg⟩ := (h.locals g u e).mp hu
    rw [hk.uuid u e hku]
    exact ⟨hku, hg⟩
  · intro hx
    exact ⟨e.uuid, (h.locals g e.uuid e).mpr hx⟩

theorem CacheIso.isLocalGroup (h : CacheIso db known c) {v g : Text} {d : VnicMap}
    (hv : known v = some d) (hg : g ∈ d.securityGroups) :
    ∃ group, c.securityGroups.lookup g = some group ∧ group.localVnics.lookup v = some d :=
  Option.bind_eq_some_iff.mp ((h.locals g v d).mpr ⟨hv, hg⟩)

theorem CacheIso.getLocalVnic (h : CacheIso db known c) {v : Text} {d : VnicMap}
    (hv : known v = some d) :
    c.getLocalVnic v = if d.securityGroups = [] then none else some d := by
  have hall : ∀ g e, c.localDoc g v = some e → e = d := by
    intro g e he
    have := ((h.locals g v e).mp he).1
    rw [hv] at this
    exact (Option.some.inj this).symm
  cases hd : d.securityGroups with
  | nil =>
    rw [if_pos rfl]
    apply getLocalVnic_none
    intro g
    apply Option.eq_none_iff_forall_ne_some.mpr
    intro e he
    have hx := (h.locals g v e).mp he
    rw [hall g e he, hd] at hx
    cases hx.2
  | cons g gs =>
    rw [if_neg (List.cons_ne_nil g gs)]
    have hg : g ∈ d.securityGroups := by
      rw [hd]
      exact List.mem_cons_self
    exact getLocalVnic_eq ((h.locals g v d).mpr ⟨hv, hg⟩) hall

/-- The document `get_vnic` answers: without groups where the vnic stands in
`:empty_vnics`. -/
def Cache.storedDoc (c : Cache) (v : Text) (d : VnicMap) : VnicMap :=
  if (c.emptyVnics.lookup v).isSome then { d with securityGroups := [] } else d

theorem CacheIso.getVnic (h : CacheIso db known c) {v : Text} {d : VnicMap}
    (hv : known v = some d)
    (hl : d.securityGroups ≠ [] ∨ (c.emptyVnics.lookup v).isSome = true) :
    c.getVnic v = .ok (some (c.storedDoc v d)) := by
  unfold Cache.getVnic Cache.getEmptyVnic Cache.storedDoc
  cases he : c.emptyVnics.lookup v with
  | some e =>
    obtain ⟨d', hd', hx⟩ := h.empties v e he
    rw [hv] at hd'
    cases hd'
    rw [hx]
    rfl
  | none =>
    rw [he] at hl
    have hd : d.securityGroups ≠ [] := by
      rcases hl with hl | hl
      · exact hl
      · cases hl
    rw [h.getLocalVnic hv, if_neg hd]
    rfl

theorem storedDoc_address (v : Text) (d : VnicMap) : (c.storedDoc v d).address = d.address := by
  unfold Cache.storedDoc
  split
  · rfl
  · rfl

theorem storedDoc_networkId (v : Text) (d : VnicMap) :
    (c.storedDoc v d).networkId = d.networkId := by
  unfold Cache.storedDoc
  split
  · rfl
  · rfl

theorem CacheIso.networkMode (h : CacheIso db known c) {v : Text} {d : VnicMap}
    (hv : known v = some d)
    (hl : d.securityGroups ≠ [] ∨ (c.emptyVnics.lookup v).isSome = true) :
    ∃ mode, db.modeOf d = some mode ∧ c.getVnicNetworkMode v = .ok mode := by
  obtain ⟨network, hn⟩ := Option.isSome_iff_exists.mp (h.listed v d hv hl)
  refine ⟨network.networkMode, ?_, ?_⟩
  · obtain ⟨n, hid, hnet⟩ := Option.bind_eq_some_iff.mp hn
    unfold Db.modeOf
    rw [hid, Option.bind_some, h.networks n network hnet]
    rfl
  · unfold Cache.getVnicNetworkMode
    rw [h.getVnic hv hl]
    dsimp only [bind, Except.bind]
    rw [storedDoc_networkId, hn]
    rfl

/-! ### Friends -/

def inGroup (g : Text) (e : VnicMap) : Bool := e.securityGroups.contains g

theorem listed_of_inGroup {g : Text} {e : VnicMap} (h : inGroup g e = true) :
    e.securityGroups ≠ [] := List.ne_nil_of_mem (List.contains_iff_mem.mp h)

theorem listed_of_shares {d e : VnicMap} (h : d.shares e = true) : e.securityGroups ≠ [] := by
  obtain ⟨g, _, hg⟩ := shares_iff.mp h
  exact List.ne_nil_of_mem hg

/-- The values of a hash of documents, but for one, are friends. -/
theorem friends_values {v : Text} {p : VnicMap → Bool} {vnics : Hash Text VnicMap}
    (hk : KnownOk known) (hvnics : ∀ u e, vnics.lookup u = some e ↔
      known u = some e ∧ u ≠ v ∧ p e = true) :
    Friends known v p (Hash.values vnics) := by
  constructor
  · apply nodup_map_values
    intro u e he
    exact hk.uuid u e ((hvnics u e).mp he).1
  · intro e
    rw [Hash.mem_values]
    constructor
    · intro ⟨u, hu⟩
      have hx := (hvnics u e).mp hu
      rw [hk.uuid u e hx.1]
      exact hx
    · intro hx
      exact ⟨e.uuid, (hvnics e.uuid e).mpr hx⟩

theorem CacheIso.localFriendsInGroup (h : CacheIso db known c) (hk : KnownOk known) (v : Text)
    {g : Text} (hg : c.isLocalGroup g = true) :
    ∃ friends, c.getLocalFriendsInGroup v g = .ok friends ∧
      Friends known v (inGroup g) friends := by
  obtain ⟨group, hgroup⟩ := Option.isSome_iff_exists.mp hg
  unfold Cache.getLocalFriendsInGroup
  rw [hgroup]
  refine ⟨_, rfl, friends_values hk ?_⟩
  intro u e
  have hloc := h.locals g u e
  unfold Cache.localDoc at hloc
  rw [hgroup, Option.bind_some] at hloc
  rw [Hash.lookup_erase, inGroup, List.contains_iff_mem]
  by_cases hu : u = v
  · simp [hu]
  · rw [if_neg hu, hloc]
    simp [hu]

theorem CacheIso.foreign_none (h : CacheIso db known c) {g : Text} {group : GroupMap}
    (hg : c.securityGroups.lookup g = some group) (u : Text) :
    group.foreignVnics.lookup u = none := by
  have := h.foreigns g u
  unfold Cache.foreignDoc at this
  rw [hg] at this
  exact this

theorem CacheIso.friendsInGroup (h : CacheIso db known c) (hk : KnownOk known) (v : Text)
    {g : Text} (hg : c.isLocalGroup g = true) :
    ∃ friends, c.getFriendsInGroup v g = .ok friends ∧ Friends known v (inGroup g) friends := by
  obtain ⟨group, hgroup⟩ := Option.isSome_iff_exists.mp hg
  unfold Cache.getFriendsInGroup
  rw [hgroup]
  refine ⟨_, rfl, friends_values hk ?_⟩
  intro u e
  have hloc := h.locals g u e
  unfold Cache.localDoc at hloc
  rw [hgroup, Option.bind_some] at hloc
  have hunion : AList.lookup u (group.foreignVnics ∪ group.localVnics) =
      group.localVnics.lookup u :=
    AList.lookup_union_right (AList.lookup_eq_none.mp (h.foreign_none hgroup u))
  rw [Hash.lookup_erase, hunion, inGroup, List.contains_iff_mem]
  by_cases hu : u = v
  · simp [hu]
  · rw [if_neg hu, hloc]
    simp [hu]

theorem CacheIso.allLocalFriends (h : CacheIso db known c) (hk : KnownOk known) {v : Text}
    {d : VnicMap} (hv : known v = some d)
    (hl : d.securityGroups ≠ [] ∨ (c.emptyVnics.lookup v).isSome = true) :
    ∃ friends, c.getAllLocalFriends v = .ok friends ∧
      Friends known v (VnicMap.shares (c.storedDoc v d)) friends := by
  unfold Cache.getAllLocalFriends
  rw [h.getVnic hv hl]
  refine ⟨_, rfl, withoutSelf_friends ?_ ?_⟩
  · intro e he
    obtain ⟨g, hg, hge⟩ := List.mem_flatMap.mp he
    obtain ⟨hke, heg⟩ := (h.mem_localVnics hk).mp hge
    exact ⟨hke, fun _ => shares_iff.mpr ⟨g, hg, heg⟩⟩
  · intro e hke _ hs
    obtain ⟨g, hg, heg⟩ := shares_iff.mp hs
    exact List.mem_flatMap.mpr ⟨g, hg, (h.mem_localVnics hk).mpr ⟨hke, heg⟩⟩

theorem mapM_ok {α β ε : Type} {f : α → Except ε β} {g : α → β} {l : List α}
    (h : ∀ a ∈ l, f a = .ok (g a)) : l.mapM f = .ok (l.map g) := by
  induction l with
  | nil => rfl
  | cons a l ih =>
    rw [List.mapM_cons, h a List.mem_cons_self, ih fun b hb => h b (List.mem_cons_of_mem _ hb)]
    rfl

theorem CacheIso.allFriends (h : CacheIso db known c) (hk : KnownOk known) {v : Text}
    {d : VnicMap} (hv : known v = some d)
    (hl : d.securityGroups ≠ [] ∨ (c.emptyVnics.lookup v).isSome = true) :
    ∃ friends, c.getAllFriends v = .ok friends ∧
      Friends known v (VnicMap.shares (c.storedDoc v d)) friends := by
  have hsub : ∀ g ∈ (c.storedDoc v d).securityGroups, g ∈ d.securityGroups := by
    intro g hg
    unfold Cache.storedDoc at hg
    split at hg
    · cases hg
    · exact hg
  have hgroups : ∀ g ∈ (c.storedDoc v d).securityGroups, ∃ group,
      c.securityGroups.lookup g = some group ∧
        Hash.values group.localVnics ++ Hash.values group.foreignVnics =
          c.getLocalVnicsInGroup g := by
    intro g hg
    obtain ⟨group, hgroup, _⟩ := h.isLocalGroup hv (hsub g hg)
    have hfor : Hash.values group.foreignVnics = [] := by
      apply List.eq_nil_iff_forall_not_mem.mpr
      intro e he
      obtain ⟨u, hu⟩ := Hash.mem_values.mp he
      rw [h.foreign_none hgroup u] at hu
      cases hu
    refine ⟨group, hgroup, ?_⟩
    unfold Cache.getLocalVnicsInGroup
    rw [hgroup, hfor, List.append_nil]
  unfold Cache.getAllFriends
  rw [h.getVnic hv hl]
  simp only [bind, Except.bind]
  rw [mapM_ok (g := c.getLocalVnicsInGroup)]
  · refine ⟨_, rfl, withoutSelf_friends ?_ ?_⟩
    · intro e he
      rw [← List.flatMap_def] at he
      obtain ⟨g, hg, hge⟩ := List.mem_flatMap.mp he
      obtain ⟨hke, heg⟩ := (h.mem_localVnics hk).mp hge
      exact ⟨hke, fun _ => shares_iff.mpr ⟨g, hg, heg⟩⟩
    · intro e hke _ hs
      obtain ⟨g, hg, heg⟩ := shares_iff.mp hs
      rw [← List.flatMap_def]
      exact List.mem_flatMap.mpr ⟨g, hg, (h.mem_localVnics hk).mpr ⟨hke, heg⟩⟩
  · intro g hg
    obtain ⟨group, hgroup, heq⟩ := hgroups g hg
    rw [hgroup, ← heq]
    rfl

end

end Netfilter

end WakameVdc
