import WakameVdc.IsolationCache

/-!
# What the methods of the cache store

A vnic is put in its groups one by one; a group that is new to the cache is
fetched with all its vnics, those that are not created yet included, and these
are forgotten again.
-/

namespace WakameVdc

open Lib

namespace Netfilter

/-! ## Documents after one change -/

section
variable {c : Cache} {g v : Text}

theorem isLocalGroup_of_localDoc {u : Text} {e : VnicMap} (h : c.localDoc g u = some e) :
    c.isLocalGroup g = true := by
  obtain ⟨group, hg, _⟩ := Option.bind_eq_some_iff.mp h
  unfold Cache.isLocalGroup
  rw [hg]
  rfl

theorem localDoc_addToGroup {vnic : VnicMap} (hg : c.isLocalGroup g = true) (g' u : Text) :
    (addToGroup true v g vnic c).localDoc g' u =
      if u = v then (if g' = g then some vnic else (c.localDoc g' v).map fun _ => vnic)
      else c.localDoc g' u := by
  obtain ⟨group, hgroup⟩ := Option.isSome_iff_exists.mp hg
  simp only [addToGroup, Cache.localDoc, Cache.mapGroups, Hash.lookup_mapVals, Hash.lookup_modify]
  by_cases hg' : g' = g
  · rw [if_pos hg', if_pos hg', hg', hgroup]
    simp only [Option.map_some, Option.bind_some, putVnic, replaceVnic, Hash.lookup_modify,
      addMember, if_true, Hash.lookup_insert]
    by_cases hu : u = v
    · simp [hu]
    · simp [hu]
  · rw [if_neg hg', if_neg hg']
    cases c.securityGroups.lookup g' with
    | none => simp
    | some other =>
      simp only [Option.map_some, Option.bind_some, putVnic, replaceVnic, Hash.lookup_modify]
      by_cases hu : u = v
      · rw [hu]
      · simp [hu]

theorem foreignDoc_addToGroup {vnic : VnicMap} (h : ∀ g u, c.foreignDoc g u = none) (g' u : Text) :
    (addToGroup true v g vnic c).foreignDoc g' u = none := by
  have hf := h g' u
  simp only [addToGroup, Cache.foreignDoc, Cache.mapGroups, Hash.lookup_mapVals,
    Hash.lookup_modify] at hf ⊢
  cases hl : c.securityGroups.lookup g' with
  | none => simp
  | some other =>
    rw [hl, Option.bind_some] at hf
    split
    · simp [putVnic, replaceVnic, Hash.lookup_modify, addMember, hf]
    · simp [putVnic, replaceVnic, Hash.lookup_modify, hf]

def Cache.takeOut (c : Cache) (v g : Text) : Cache :=
  Cache.dropEmptyGroups (Cache.mapGroups (leaveGroup g v) { c with
    securityGroups := Hash.modify g
      (fun group => { group with localVnics := AList.erase v group.localVnics })
      c.securityGroups })

theorem bind_filter_nonempty {α : Type} (o : Option GroupMap) (f : GroupMap → Option α)
    (h : ∀ group, Hash.isEmpty group.localVnics = true → f group = none) :
    (o.filter fun group => !Hash.isEmpty group.localVnics).bind f = o.bind f := by
  cases o with
  | none => rfl
  | some group =>
    cases he : Hash.isEmpty group.localVnics with
    | true => simp [he, h group he]
    | false =>
      rw [Option.filter_some, he]
      rfl

theorem localDoc_dropEmptyGroups (g' u : Text) :
    c.dropEmptyGroups.localDoc g' u = c.localDoc g' u := by
  simp only [Cache.dropEmptyGroups, Cache.localDoc, Hash.lookup_filterVals]
  apply bind_filter_nonempty
  intro group he
  exact Hash.isEmpty_iff.mp he u

theorem foreignDoc_dropEmptyGroups (h : ∀ g u, c.foreignDoc g u = none) (g' u : Text) :
    c.dropEmptyGroups.foreignDoc g' u = none := by
  have hf := h g' u
  simp only [Cache.dropEmptyGroups, Cache.foreignDoc, Hash.lookup_filterVals] at hf ⊢
  cases hl : c.securityGroups.lookup g' with
  | none => rfl
  | some group =>
    rw [hl, Option.bind_some] at hf
    rw [Option.filter_some]
    split
    · exact hf
    · rfl

theorem localDoc_takeOut (g' u : Text) :
    (c.takeOut v g).localDoc g' u =
      if u = v then (if g' = g then none else (c.localDoc g' v).map (removeGroupOf g))
      else c.localDoc g' u := by
  unfold Cache.takeOut
  rw [localDoc_dropEmptyGroups]
  simp only [Cache.localDoc, Cache.mapGroups, Hash.lookup_mapVals, Hash.lookup_modify]
  cases hl : c.securityGroups.lookup g' with
  | none => simp
  | some group =>
    by_cases hg' : g' = g
    · rw [if_pos hg', if_pos hg']
      simp only [Option.map_some, Option.bind_some, leaveGroup, Hash.lookup_modify,
        Hash.lookup_erase]
      by_cases hu : u = v
      · simp [hu]
      · simp [hu]
    · rw [if_neg hg', if_neg hg']
      simp only [Option.map_some, Option.bind_some, leaveGroup, Hash.lookup_modify]
      by_cases hu : u = v
      · rw [hu]
      · simp [hu]

theorem foreignDoc_takeOut (h : ∀ g u, c.foreignDoc g u = none) (g' u : Text) :
    (c.takeOut v g).foreignDoc g' u = none := by
  apply foreignDoc_dropEmptyGroups
  intro g' u
  have hf := h g' u
  simp only [Cache.foreignDoc, Cache.mapGroups, Hash.lookup_mapVals, Hash.lookup_modify] at hf ⊢
  cases hl : c.securityGroups.lookup g' with
  | none => simp
  | some group =>
    rw [hl, Option.bind_some] at hf
    split
    · simp [leaveGroup, Hash.lookup_modify, hf]
    · simp [leaveGroup, Hash.lookup_modify, hf]

theorem localDoc_removeVnic (g' u : Text) :
    (c.removeVnic v).localDoc g' u = if u = v then none else c.localDoc g' u := by
  unfold Cache.removeVnic
  rw [localDoc_dropEmptyGroups]
  simp only [Cache.localDoc, Hash.lookup_mapVals]
  cases hl : c.securityGroups.lookup g' with
  | none => simp
  | some group =>
    simp only [Option.map_some, Option.bind_some, Hash.lookup_erase]

theorem foreignDoc_removeVnic (h : ∀ g u, c.foreignDoc g u = none) (g' u : Text) :
    (c.removeVnic v).foreignDoc g' u = none := by
  apply foreignDoc_dropEmptyGroups
  intro g' u
  have hf := h g' u
  simp only [Cache.foreignDoc, Hash.lookup_mapVals] at hf ⊢
  cases hl : c.securityGroups.lookup g' with
  | none => simp
  | some group =>
    rw [hl, Option.bind_some] at hf
    simp [Hash.lookup_erase, hf]

theorem localDoc_removeSecurityGroup (g' u : Text) :
    (c.removeSecurityGroup g).localDoc g' u = if g' = g then none else c.localDoc g' u := by
  simp only [Cache.removeSecurityGroup, Cache.localDoc, Hash.lookup_erase]
  split
  · rfl
  · rfl

theorem foreignDoc_removeSecurityGroup (h : ∀ g u, c.foreignDoc g u = none) (g' u : Text) :
    (c.removeSecurityGroup g).foreignDoc g' u = none := by
  have hf := h g' u
  simp only [Cache.removeSecurityGroup, Cache.foreignDoc, Hash.lookup_erase] at hf ⊢
  split
  · rfl
  · exact hf

end

/-! ## Answers of the collector -/

section
variable {db : Db} {nodeId : Text}

theorem lookup_documentVnics (hdb : db.Local nodeId) (g : Text) (rules : List ParsedRule)
    (u : Text) (e : VnicMap) :
    (db.toNetfilterDocument g rules nodeId).localVnics.lookup u = some e ↔
      ∃ r, db.vnics.lookup u = some r ∧ r.vnic = e ∧ g ∈ e.securityGroups := by
  unfold Db.toNetfilterDocument
  rw [Hash.lookup_mapVals, Hash.lookup_filterVals, Option.map_eq_some_iff]
  simp only [Option.filter_eq_some_iff]
  constructor
  · intro ⟨r, ⟨hr, hin⟩, he⟩
    rw [Bool.and_eq_true] at hin
    exact ⟨r, hr, he, he ▸ List.contains_iff_mem.mp hin.1⟩
  · intro ⟨r, hr, he, hg⟩
    refine ⟨r, ⟨hr, ?_⟩, he⟩
    rw [Bool.and_eq_true]
    exact ⟨List.contains_iff_mem.mpr (he ▸ hg), (hdb.here u r hr).1⟩

theorem lookup_documentForeign (hdb : db.Local nodeId) (g : Text) (rules : List ParsedRule)
    (u : Text) : (db.toNetfilterDocument g rules nodeId).foreignVnics.lookup u = none := by
  unfold Db.toNetfilterDocument
  rw [Hash.lookup_mapVals, Hash.lookup_filterVals]
  cases hr : db.vnics.lookup u with
  | none => rfl
  | some r =>
    rw [Option.filter_some, (hdb.here u r hr).2]
    simp

theorem vnicWithNodeId_local (hdb : db.Local nodeId) {v : Text} {r : VnicRecord}
    (hr : db.vnics.lookup v = some r) : vnicWithNodeId db v = .ok (r.vnic, nodeId) := by
  have hon := (hdb.here v r hr).1
  unfold VnicRecord.onNode at hon
  unfold vnicWithNodeId
  rw [hr]
  cases hi : r.instance? with
  | none =>
    rw [hi] at hon
    cases hon
  | some i =>
    rw [hi] at hon
    simp only [Bool.and_eq_true, beq_iff_eq] at hon
    simp only [hi]
    rw [hon.1]

end

/-! ## Networks -/

section
variable {db : Db} {ch : Hash Text (List Ipv4)}

structure NetworksGrow (db : Db) (c c' : Cache) : Prop where
  groups : c'.securityGroups = c.securityGroups
  empties : c'.emptyVnics = c.emptyVnics
  keeps : ∀ n m, c.networks.lookup n = some m → c'.networks.lookup n = some m
  added : ∀ n m, c'.networks.lookup n = some m →
    c.networks.lookup n = some m ∨ db.networks.lookup n = some m

theorem NetworksGrow.refl (c : Cache) : NetworksGrow db c c :=
  ⟨rfl, rfl, fun _ _ h => h, fun _ _ h => Or.inl h⟩

theorem NetworksGrow.trans {c c' c'' : Cache} (h : NetworksGrow db c c')
    (h' : NetworksGrow db c' c'') : NetworksGrow db c c'' := by
  refine ⟨h'.groups.trans h.groups, h'.empties.trans h.empties, ?_, ?_⟩
  · intro n m hn
    exact h'.keeps n m (h.keeps n m hn)
  · intro n m hn
    rcases h'.added n m hn with hx | hx
    · exact h.added n m hx
    · exact Or.inr hx

theorem NetworksGrow.present {c c' : Cache} (h : NetworksGrow db c c') {networkId : Option Text}
    (hn : (networkId.bind c.networks.lookup).isSome = true) :
    (networkId.bind c'.networks.lookup).isSome = true := by
  obtain ⟨m, hm⟩ := Option.isSome_iff_exists.mp hn
  obtain ⟨n, hid, hl⟩ := Option.bind_eq_some_iff.mp hm
  rw [hid, Option.bind_some, h.keeps n m hl]
  rfl

theorem runs_getCache (node : Node) : Proc.Runs getCache node node.cache node := rfl

theorem runs_modifyCache (f : Cache → Cache) (node : Node) :
    Proc.Runs (modifyCache f) node () { node with cache := f node.cache } := rfl

theorem runs_lift {α : Type} {x : Except NetfilterError α} {a : α} (h : x = .ok a) (node : Node) :
    Proc.Runs (lift x) node a node := by
  rw [h]
  rfl

theorem runs_addNetwork {c : Cache} {networkId : Option Text}
    (hn : (networkId.bind c.networks.lookup).isSome = true ∨
      (networkId.bind db.networks.lookup).isSome = true) :
    ∃ c', Proc.Runs (addNetwork db networkId) ⟨c, ch⟩ () ⟨c', ch⟩ ∧ NetworksGrow db c c' ∧
      (networkId.bind c'.networks.lookup).isSome = true := by
  unfold addNetwork
  by_cases hc : (networkId.bind c.networks.lookup).isSome = true
  · refine ⟨c, (runs_getCache _).bind ?_, NetworksGrow.refl c, hc⟩
    show Proc.Runs (if (networkId.bind c.networks.lookup).isSome then _ else _) _ _ _
    rw [if_pos hc]
    rfl
  · obtain ⟨m, hm⟩ := Option.isSome_iff_exists.mp (hn.resolve_left hc)
    obtain ⟨n, hid, hdb⟩ := Option.bind_eq_some_iff.mp hm
    refine ⟨{ c with networks := AList.insert n m c.networks }, (runs_getCache _).bind ?_, ?_, ?_⟩
    · show Proc.Runs (if (networkId.bind c.networks.lookup).isSome then _ else _) _ _ _
      rw [if_neg hc, hid, Option.bind_some, hdb]
      rfl
    · rw [hid, Option.bind_some] at hc
      refine ⟨rfl, rfl, ?_, ?_⟩
      · intro n' m' hn'
        show AList.lookup n' (AList.insert n m c.networks) = some m'
        rw [Hash.lookup_insert, if_neg]
        · exact hn'
        · intro he
          rw [he] at hn'
          rw [hn'] at hc
          exact hc rfl
      · intro n' m' hn'
        replace hn' : AList.lookup n' (AList.insert n m c.networks) = some m' := hn'
        rw [Hash.lookup_insert] at hn'
        split at hn'
        · rename_i he
          rw [he]
          cases hn'
          exact Or.inr hdb
        · exact Or.inl hn'
    · rw [hid, Option.bind_some]
      show (AList.lookup n (AList.insert n m c.networks)).isSome = true
      rw [Hash.lookup_insert, if_pos rfl]
      rfl

theorem runs_addNetworks {vnics : List VnicMap} {c : Cache}
    (hn : ∀ vnic ∈ vnics, (vnic.networkId.bind c.networks.lookup).isSome = true ∨
      (vnic.networkId.bind db.networks.lookup).isSome = true) :
    ∃ c', Proc.Runs (vnics.forM fun vnic => addNetwork db vnic.networkId) ⟨c, ch⟩ () ⟨c', ch⟩ ∧
      NetworksGrow db c c' ∧
      ∀ vnic ∈ vnics, (vnic.networkId.bind c'.networks.lookup).isSome = true := by
  have hloop : ∃ node, Proc.Runs (vnics.forM fun vnic => addNetwork db vnic.networkId) ⟨c, ch⟩ ()
      node ∧ ∃ c', node = ⟨c', ch⟩ ∧ NetworksGrow db c c' ∧
        ∀ vnic ∈ vnics, (vnic.networkId.bind c'.networks.lookup).isSome = true := by
    apply Proc.runs_forM fun (done : List VnicMap) (node : Node) => ∃ c', node = ⟨c', ch⟩ ∧ NetworksGrow db c c' ∧
      ∀ vnic ∈ done, (vnic.networkId.bind c'.networks.lookup).isSome = true
    · intro done vnic rest node hsplit ⟨c', hnode, hgrow, hall⟩
      have hmem : vnic ∈ vnics := by
        rw [hsplit]
        exact List.mem_append_right _ List.mem_cons_self
      obtain ⟨c'', hruns, hgrow', hpresent⟩ :=
        @runs_addNetwork db ch c' _ ((hn vnic hmem).imp_left hgrow.present)
      refine ⟨⟨c'', ch⟩, hnode ▸ hruns, c'', rfl, hgrow.trans hgrow', ?_⟩
      intro x hx
      rcases List.mem_append.mp hx with hx | hx
      · exact hgrow'.present (hall x hx)
      · rw [List.mem_singleton.mp hx]
        exact hpresent
    · exact ⟨c, rfl, NetworksGrow.refl c, fun _ hx => absurd hx List.not_mem_nil⟩
  obtain ⟨node, hruns, c', hnode, hgrow, hall⟩ := hloop
  rw [hnode] at hruns
  exact ⟨c', hruns, hgrow, hall⟩

/-! ## A group is fetched -/

structure Fetched (db : Db) (g : Text) (c c' : Cache) : Prop where
  same : ∀ g' u, g' ≠ g → c'.localDoc g' u = c.localDoc g' u
  members : ∀ u e, c'.localDoc g u = some e ↔
    ∃ r, db.vnics.lookup u = some r ∧ r.vnic = e ∧ g ∈ e.securityGroups
  foreigns : (∀ g u, c.foreignDoc g u = none) → ∀ g u, c'.foreignDoc g u = none
  empties : c'.emptyVnics = c.emptyVnics
  isLocal : ∀ g', c'.isLocalGroup g' = (c.isLocalGroup g' || g' == g)
  keeps : ∀ n m, c.networks.lookup n = some m → c'.networks.lookup n = some m
  added : ∀ n m, c'.networks.lookup n = some m →
    c.networks.lookup n = some m ∨ db.networks.lookup n = some m
  present : ∀ u r, db.vnics.lookup u = some r → g ∈ r.vnic.securityGroups →
    (r.vnic.networkId.bind c'.networks.lookup).isSome = true

theorem runs_addSecurityGroup {nodeId : Text} (hdb : db.Local nodeId) {g : Text}
    (hg : (db.groups.lookup g).isSome = true) (c : Cache) :
    ∃ c', Proc.Runs (addSecurityGroup db nodeId g) ⟨c, ch⟩ () ⟨c', ch⟩ ∧ Fetched db g c c' := by
  obtain ⟨rules, hrules⟩ := Option.isSome_iff_exists.mp hg
  have hdoc := lookup_documentVnics hdb g rules
  have hvalues : ∀ vnic ∈ Hash.values (db.toNetfilterDocument g rules nodeId).localVnics,
      (vnic.networkId.bind c.networks.lookup).isSome = true ∨
        (vnic.networkId.bind db.networks.lookup).isSome = true := by
    intro vnic hv
    obtain ⟨u, hu⟩ := Hash.mem_values.mp hv
    obtain ⟨r, hr, he, _⟩ := (hdoc u vnic).mp hu
    rw [← he]
    exact Or.inr (hdb.network u r hr)
  obtain ⟨c', hruns, hgrow, hpresent⟩ := @runs_addNetworks db ch _ { c with
    securityGroups := AList.insert g (db.toNetfilterDocument g rules nodeId) c.securityGroups }
    hvalues
  have hgroups : ∀ g', c'.securityGroups.lookup g' =
      if g' = g then some (db.toNetfilterDocument g rules nodeId)
      else c.securityGroups.lookup g' := by
    intro g'
    rw [hgrow.groups, Hash.lookup_insert]
  refine ⟨c', ?_, ?_, ?_, ?_, hgrow.empties, ?_, hgrow.keeps, hgrow.added, ?_⟩
  · unfold addSecurityGroup Db.getNetfilterSecurityGroup
    rw [hrules]
    exact (runs_modifyCache _ _).bind hruns
  · intro g' u hne
    unfold Cache.localDoc
    rw [hgroups, if_neg hne]
  · intro u e
    unfold Cache.localDoc
    rw [hgroups, if_pos rfl]
    exact hdoc u e
  · intro hfor g' u
    have hold := hfor g' u
    unfold Cache.foreignDoc at hold ⊢
    rw [hgroups]
    split
    · exact lookup_documentForeign hdb g rules u
    · exact hold
  · intro g'
    unfold Cache.isLocalGroup
    rw [hgroups]
    by_cases hg' : g' = g
    · simp [hg']
    · simp [hg']
  · intro u r hr hmem
    apply hpresent
    exact Hash.mem_values.mpr ⟨u, (hdoc u r.vnic).mpr ⟨r, hr, rfl, hmem⟩⟩

/-! ## A vnic is put in its groups -/

/-- While a vnic is put in its groups: the cache it came from is `old`, and the
vnics that are not created yet stand only in groups with `rest`. -/
structure Stored (db : Db) (known : Known) (old : Cache) (v : Text) (d : VnicMap)
    (done : List Text) (rest : Text → Prop) (c : Cache) : Prop where
  mine : ∀ g e, c.localDoc g v = some e ↔ e = d ∧ g ∈ done
  kept : ∀ g u x e, u ≠ v → known u = some x →
    (c.localDoc g u = some e ↔ e = x ∧ g ∈ x.securityGroups)
  others : ∀ g u e, u ≠ v → known u = none → c.localDoc g u = some e →
    e.uuid = u ∧ e.instanceUuid = d.instanceUuid ∧ rest g
  foreigns : ∀ g u, c.foreignDoc g u = none
  empties : c.emptyVnics = old.emptyVnics
  networks : ∀ n m, c.networks.lookup n = some m → db.networks.lookup n = some m
  keeps : ∀ n m, old.networks.lookup n = some m → c.networks.lookup n = some m

/-- The vnics of the database next to one that is created: those the node knows,
and the other vnics of the instance. -/
structure Siblings (db : Db) (known : Known) (v : Text) (d : VnicMap) : Prop where
  stored : ∃ r, db.vnics.lookup v = some r ∧ r.vnic = d
  unknown : known v = none
  others : ∀ u r, db.vnics.lookup u = some r → u ≠ v →
    known u = some r.vnic ∨ (known u = none ∧ r.vnic.instanceUuid = d.instanceUuid)
  known_stored : ∀ u e, known u = some e → ∃ r, db.vnics.lookup u = some r ∧ r.vnic = e

variable {nodeId : Text} {known : Known} {old : Cache} {v : Text} {d : VnicMap}

theorem CacheIso.stored (h : CacheIso db known old) (hv : known v = none) (rest : Text → Prop) :
    Stored db known old v d [] rest old := by
  refine ⟨?_, ?_, ?_, h.foreigns, rfl, h.networks, fun _ _ hn => hn⟩
  · intro g e
    rw [h.locals, hv]
    simp
  · intro g u x e _ hx
    rw [h.locals, hx]
    constructor
    · intro ⟨he, hg⟩
      cases he
      exact ⟨rfl, hg⟩
    · intro ⟨he, hg⟩
      rw [he]
      exact ⟨rfl, hg⟩
  · intro g u e _ hu he
    rw [((h.locals g u e).mp he).1] at hu
    cases hu

theorem Stored.addToGroup {done : List Text} {rest : Text → Prop} {c : Cache} {g : Text}
    (h : Stored db known old v d done rest c) (hg : c.isLocalGroup g = true) :
    Stored db known old v d (done ++ [g]) rest (addToGroup true v g d c) := by
  have hdoc := @localDoc_addToGroup c g v d hg
  refine ⟨?_, ?_, ?_, foreignDoc_addToGroup h.foreigns, h.empties, h.networks, h.keeps⟩
  · intro g' e
    rw [hdoc, if_pos rfl, List.mem_append, List.mem_singleton]
    by_cases hg' : g' = g
    · simp [hg', eq_comm]
    · rw [if_neg hg', Option.map_eq_some_iff]
      constructor
      · intro ⟨x, hx, he⟩
        exact ⟨he.symm, Or.inl ((h.mine g' x).mp hx).2⟩
      · intro ⟨he, hd⟩
        rcases hd with hd | hd
        · exact ⟨d, (h.mine g' d).mpr ⟨rfl, hd⟩, he.symm⟩
        · exact absurd hd hg'
  · intro g' u x e hu hx
    rw [hdoc, if_neg hu]
    exact h.kept g' u x e hu hx
  · intro g' u e hu hno he
    rw [hdoc, if_neg hu] at he
    exact h.others g' u e hu hno he

theorem Stored.fetched {done : List Text} {rest : Text → Prop} {c c' : Cache} {g : Text}
    (h : Stored db known old v d done rest c) (hf : Fetched db g c c') (hdb : db.Local nodeId)
    (hs : Siblings db known v d) (hg : g ∈ d.securityGroups) (hnew : c.isLocalGroup g = false)
    (hrest : rest g) : Stored db known old v d (done ++ [g]) rest c' := by
  have hnone : ∀ u, c.localDoc g u = none := by
    intro u
    apply Option.eq_none_iff_forall_ne_some.mpr
    intro e he
    rw [isLocalGroup_of_localDoc he] at hnew
    cases hnew
  refine ⟨?_, ?_, ?_, hf.foreigns h.foreigns, hf.empties.trans h.empties, ?_, ?_⟩
  · intro g' e
    rw [List.mem_append, List.mem_singleton]
    by_cases hg' : g' = g
    · rw [hg', hf.members]
      obtain ⟨r, hr, hd⟩ := hs.stored
      constructor
      · intro ⟨r', hr', he, _⟩
        rw [hr] at hr'
        cases hr'
        exact ⟨by rw [← he, hd], Or.inr rfl⟩
      · intro ⟨he, _⟩
        exact ⟨r, hr, by rw [he, hd], by rw [he]; exact hg⟩
    · rw [hf.same g' v hg', h.mine]
      simp [hg']
  · intro g' u x e hu hx
    by_cases hg' : g' = g
    · rw [hg', hf.members]
      obtain ⟨r, hr, hrx⟩ := hs.known_stored u x hx
      constructor
      · intro ⟨r', hr', he, hge⟩
        rw [hr] at hr'
        cases hr'
        rw [← he, hrx] at hge
        exact ⟨by rw [← he, hrx], hge⟩
      · intro ⟨he, hgx⟩
        exact ⟨r, hr, by rw [he, hrx], by rw [he]; exact hgx⟩
    · rw [hf.same g' u hg']
      exact h.kept g' u x e hu hx
  · intro g' u e hu hno he
    by_cases hg' : g' = g
    · rw [hg'] at he ⊢
      obtain ⟨r, hr, hre, _⟩ := (hf.members u e).mp he
      rcases hs.others u r hr hu with hx | ⟨_, hinst⟩
      · rw [hno] at hx
        cases hx
      · rw [← hre]
        exact ⟨hdb.uuid u r hr, hinst, hrest⟩
    · rw [hf.same g' u hg'] at he
      exact h.others g' u e hu hno he
  · intro n m hn
    rcases hf.added n m hn with hx | hx
    · exact h.networks n m hx
    · exact hx
  · intro n m hn
    exact hf.keeps n m (h.keeps n m hn)

def newGroups (old : Cache) (d : VnicMap) (g : Text) : Prop :=
  g ∈ d.securityGroups.filter fun g => !old.isLocalGroup g

theorem runs_addVnicToGroups (hdb : db.Local nodeId) (hs : Siblings db known v d)
    (h : CacheIso db known old) (hne : d.securityGroups ≠ []) :
    ∃ c', Proc.Runs (addVnicToGroups db nodeId v d true) ⟨old, ch⟩ () ⟨c', ch⟩ ∧
      Stored db known old v d d.securityGroups (newGroups old d) c' := by
  unfold addVnicToGroups
  rw [if_neg (fun he => hne (List.isEmpty_iff.mp he))]
  have hloop : ∃ node, Proc.Runs (d.securityGroups.forM fun g => do
        let c ← getCache
        if c.isLocalGroup g then modifyCache (addToGroup true v g d)
        else addSecurityGroup db nodeId g) ⟨old, ch⟩ () node ∧
      ∃ c', node = ⟨c', ch⟩ ∧ Stored db known old v d d.securityGroups (newGroups old d) c' ∧
        ∀ g, old.isLocalGroup g = true → c'.isLocalGroup g = true := by
    apply Proc.runs_forM fun (done : List Text) (node : Node) => ∃ c', node = ⟨c', ch⟩ ∧
      Stored db known old v d done (newGroups old d) c' ∧
      ∀ g, old.isLocalGroup g = true → c'.isLocalGroup g = true
    · intro done g rest node hsplit ⟨c', hnode, hst, hloc⟩
      have hg : g ∈ d.securityGroups := by
        rw [hsplit]
        exact List.mem_append_right _ List.mem_cons_self
      rw [hnode]
      cases hc : c'.isLocalGroup g with
      | true =>
        refine ⟨⟨addToGroup true v g d c', ch⟩, (runs_getCache _).bind ?_, _, rfl,
          hst.addToGroup hc, ?_⟩
        · show Proc.Runs (if c'.isLocalGroup g then _ else _) _ _ _
          rw [if_pos hc]
          exact runs_modifyCache _ _
        · intro g' hg'
          rw [isLocalGroup_addToGroup]
          exact hloc g' hg'
      | false =>
        obtain ⟨r, hr, hrd⟩ := hs.stored
        have hstored := hdb.groups v r hr g (by rw [hrd]; exact hg)
        obtain ⟨c'', hruns, hf⟩ := @runs_addSecurityGroup db ch nodeId hdb g hstored c'
        have hnew : newGroups old d g := by
          apply List.mem_filter.mpr
          refine ⟨hg, ?_⟩
          cases ho : old.isLocalGroup g with
          | false => rfl
          | true =>
            rw [hloc g ho] at hc
            cases hc
        refine ⟨⟨c'', ch⟩, (runs_getCache _).bind ?_, c'', rfl, hst.fetched hf hdb hs hg hc hnew, ?_⟩
        · show Proc.Runs (if c'.isLocalGroup g then _ else _) _ _ _
          rw [hc]
          exact hruns
        · intro g' hg'
          rw [hf.isLocal, hloc g' hg', Bool.true_or]
    · exact ⟨old, rfl, h.stored hs.unknown _, fun _ hg => hg⟩
  obtain ⟨node, hruns, c', hnode, hst, _⟩ := hloop
  rw [hnode] at hruns
  exact ⟨c', hruns, hst⟩

theorem runs_vnicWithNodeId (hdb : db.Local nodeId) (hs : Siblings db known v d) (node : Node) :
    Proc.Runs (lift (vnicWithNodeId db v)) node (d, nodeId) node := by
  obtain ⟨r, hr, hrd⟩ := hs.stored
  apply runs_lift
  rw [vnicWithNodeId_local hdb hr, hrd]

theorem Siblings.network (hdb : db.Local nodeId) (hs : Siblings db known v d) :
    (d.networkId.bind db.networks.lookup).isSome = true := by
  obtain ⟨r, hr, hrd⟩ := hs.stored
  rw [← hrd]
  exact hdb.network v r hr

theorem Stored.grow {done : List Text} {rest : Text → Prop} {c c' : Cache}
    (h : Stored db known old v d done rest c) (hgrow : NetworksGrow db c c') :
    Stored db known old v d done rest c' := by
  have hdoc : ∀ g u, c'.localDoc g u = c.localDoc g u := by
    intro g u
    unfold Cache.localDoc
    rw [hgrow.groups]
  have hfor : ∀ g u, c'.foreignDoc g u = c.foreignDoc g u := by
    intro g u
    unfold Cache.foreignDoc
    rw [hgrow.groups]
  refine ⟨?_, ?_, ?_, ?_, hgrow.empties.trans h.empties, ?_, ?_⟩
  · intro g e
    rw [hdoc]
    exact h.mine g e
  · intro g u x e hu hx
    rw [hdoc]
    exact h.kept g u x e hu hx
  · intro g u e hu hno he
    rw [hdoc] at he
    exact h.others g u e hu hno he
  · intro g u
    rw [hfor]
    exact h.foreigns g u
  · intro n m hn
    rcases hgrow.added n m hn with hx | hx
    · exact h.networks n m hx
    · exact hx
  · intro n m hn
    exact hgrow.keeps n m (h.keeps n m hn)

theorem runs_addVnic (hdb : db.Local nodeId) (hs : Siblings db known v d)
    (h : CacheIso db known old) (hne : d.securityGroups ≠ []) :
    ∃ c', Proc.Runs (addVnic db nodeId v) ⟨old, ch⟩ () ⟨c', ch⟩ ∧
      Stored db known old v d d.securityGroups (newGroups old d) c' ∧
      (d.networkId.bind c'.networks.lookup).isSome = true := by
  obtain ⟨c, hruns, hst⟩ := @runs_addVnicToGroups db ch nodeId known old v d hdb hs h hne
  obtain ⟨c', hruns', hgrow, hpresent⟩ := @runs_addNetwork db ch c _ (Or.inr (hs.network hdb))
  refine ⟨c', (runs_vnicWithNodeId hdb hs _).bind ?_, hst.grow hgrow, hpresent⟩
  show Proc.Runs (addVnicToGroups db nodeId v d (nodeId == nodeId) >>= _) _ _ _
  rw [beq_self_eq_true]
  exact hruns.bind hruns'

/-- A vnic without groups. -/
theorem runs_addVnic_empty (hdb : db.Local nodeId) (hs : Siblings db known v d)
    (h : CacheIso db known old) (hne : d.securityGroups = []) :
    ∃ c', Proc.Runs (addVnic db nodeId v) ⟨old, ch⟩ () ⟨c', ch⟩ ∧
      CacheIso db (known.set v (some d)) c' ∧ c'.emptyVnics.lookup v = some d := by
  obtain ⟨c', hruns, hgrow, hpresent⟩ := @runs_addNetwork db ch
    { old with emptyVnics := AList.insert v d old.emptyVnics } _ (Or.inr (hs.network hdb))
  have hempty : ∀ u, c'.emptyVnics.lookup u = if u = v then some d else old.emptyVnics.lookup u := by
    intro u
    rw [hgrow.empties, Hash.lookup_insert]
  refine ⟨c', (runs_vnicWithNodeId hdb hs _).bind ?_, ⟨?_, ?_, ?_, ?_, ?_⟩, ?_⟩
  · show Proc.Runs (addVnicToGroups db nodeId v d (nodeId == nodeId) >>= _) _ _ _
    unfold addVnicToGroups
    rw [if_pos (List.isEmpty_iff.mpr hne)]
    exact (runs_modifyCache _ _).bind hruns
  · intro g u e
    have hdoc : c'.localDoc g u = old.localDoc g u := by
      unfold Cache.localDoc
      rw [hgrow.groups]
    rw [hdoc, h.locals]
    by_cases hu : u = v
    · rw [hu, hs.unknown, known.set_self]
      constructor
      · intro hx
        cases hx.1
      · intro ⟨hd, hg⟩
        cases hd
        rw [hne] at hg
        cases hg
    · rw [known.set_ne _ hu]
  · intro g u
    have := h.foreigns g u
    unfold Cache.foreignDoc at this ⊢
    rw [hgrow.groups]
    exact this
  · intro u e he
    rw [hempty] at he
    by_cases hu : u = v
    · rw [if_pos hu] at he
      cases he
      refine ⟨d, by rw [hu, known.set_self], ?_⟩
      rw [← hne]
    · rw [if_neg hu] at he
      rw [known.set_ne _ hu]
      exact h.empties u e he
  · intro n m hn
    rcases hgrow.added n m hn with hx | hx
    · exact h.networks n m hx
    · exact hx
  · intro u x hu hl
    by_cases huv : u = v
    · rw [huv, known.set_self] at hu
      cases hu
      exact hpresent
    · rw [known.set_ne _ huv] at hu
      rw [hempty, if_neg huv] at hl
      exact hgrow.present (h.listed u x hu hl)
  · rw [hempty, if_pos rfl]

/-! ## Siblings are forgotten -/

theorem Stored.takeOut {done : List Text} {rest : Text → Prop} {c : Cache} {g u : Text}
    (h : Stored db known old v d done rest c) (hu : u ≠ v) (hno : known u = none) :
    Stored db known old v d done rest (c.takeOut u g) := by
  have hdoc := fun g' w => @localDoc_takeOut c g u g' w
  refine ⟨?_, ?_, ?_, foreignDoc_takeOut h.foreigns, h.empties, h.networks, h.keeps⟩
  · intro g' e
    rw [hdoc, if_neg (Ne.symm hu)]
    exact h.mine g' e
  · intro g' w x e hw hx
    have hwu : w ≠ u := by
      intro he
      rw [he, hno] at hx
      cases hx
    rw [hdoc, if_neg hwu]
    exact h.kept g' w x e hw hx
  · intro g' w e hw hnw he
    rw [hdoc] at he
    split at he
    · rename_i hwu
      split at he
      · cases he
      · obtain ⟨x, hx, hxe⟩ := Option.map_eq_some_iff.mp he
        rw [← hwu] at hx
        obtain ⟨h1, h2, h3⟩ := h.others g' w x hw hnw hx
        rw [← hxe]
        exact ⟨h1, h2, h3⟩
    · exact h.others g' w e hw hnw he

theorem runs_removeLocalVnicFromGroup {c : Cache} {g : Text} (hg : c.isLocalGroup g = true)
    (u : Text) : Proc.Runs (removeLocalVnicFromGroup u g) ⟨c, ch⟩ () ⟨c.takeOut u g, ch⟩ := by
  unfold removeLocalVnicFromGroup
  apply (runs_getCache _).bind
  show Proc.Runs (if c.isLocalGroup g then _ else _) _ _ _
  rw [if_pos hg]
  rfl

theorem runs_forgetInGroup {c : Cache} {g : Text} {rest : Text → Prop}
    (huuid : d.uuid = v) (h : Stored db known old v d d.securityGroups rest c)
    (hg : g ∈ d.securityGroups) (hnew : ∀ u x, known u = some x → g ∉ x.securityGroups) :
    ∃ c', Proc.Runs ((c.getLocalVnicsInGroup g).forM fun other =>
        if d.instanceUuid = other.instanceUuid ∧ d.uuid ≠ other.uuid then
          removeLocalVnicFromGroup other.uuid g else pure ()) ⟨c, ch⟩ () ⟨c', ch⟩ ∧
      Stored db known old v d d.securityGroups (fun g' => rest g' ∧ g' ≠ g) c' ∧
      c'.networks = c.networks := by
  -- what stands in the group: the vnic itself, and vnics that are not created
  have hmember : ∀ e ∈ c.getLocalVnicsInGroup g,
      e = d ∨ (e.uuid ≠ v ∧ known e.uuid = none ∧ e.instanceUuid = d.instanceUuid) := by
    intro e he
    obtain ⟨u, hu⟩ := mem_getLocalVnicsInGroup.mp he
    by_cases huv : u = v
    · rw [huv] at hu
      exact Or.inl ((h.mine g e).mp hu).1
    · cases hku : known u with
      | some x =>
        have := ((h.kept g u x e huv hku).mp hu).2
        exact absurd this (hnew u x hku)
      | none =>
        obtain ⟨h1, h2, _⟩ := h.others g u e huv hku hu
        rw [h1]
        exact Or.inr ⟨huv, hku, h2⟩
  have hloop : ∃ node, Proc.Runs ((c.getLocalVnicsInGroup g).forM fun other =>
        if d.instanceUuid = other.instanceUuid ∧ d.uuid ≠ other.uuid then
          removeLocalVnicFromGroup other.uuid g else pure ()) ⟨c, ch⟩ () node ∧
      ∃ c', node = ⟨c', ch⟩ ∧ Stored db known old v d d.securityGroups rest c' ∧
        c'.networks = c.networks ∧
        ∀ u, u ≠ v → known u = none → (c'.localDoc g u).isSome = true →
          u ∈ (c.getLocalVnicsInGroup g).map VnicMap.uuid ∧
            u ∉ (c.getLocalVnicsInGroup g).map VnicMap.uuid := by
    apply Proc.runs_forM fun (done : List VnicMap) (node : Node) => ∃ c', node = ⟨c', ch⟩ ∧
      Stored db known old v d d.securityGroups rest c' ∧ c'.networks = c.networks ∧
      ∀ u, u ≠ v → known u = none → (c'.localDoc g u).isSome = true →
        u ∈ (c.getLocalVnicsInGroup g).map VnicMap.uuid ∧ u ∉ done.map VnicMap.uuid
    · intro done other tail node hsplit ⟨c', hnode, hst, hnet, hleft⟩
      rw [hnode]
      have hmem : other ∈ c.getLocalVnicsInGroup g := by
        rw [hsplit]
        exact List.mem_append_right _ List.mem_cons_self
      rcases hmember other hmem with he | ⟨hov, hon, hoi⟩
      · rw [if_neg (fun hx => hx.2 (by rw [he]))]
        refine ⟨⟨c', ch⟩, rfl, c', rfl, hst, hnet, ?_⟩
        intro u huv hku hs
        obtain ⟨hin, hout⟩ := hleft u huv hku hs
        refine ⟨hin, ?_⟩
        rw [List.map_append, List.mem_append, not_or]
        refine ⟨hout, ?_⟩
        rw [List.map_singleton, List.mem_singleton, he, huuid]
        exact huv
      · rw [if_pos ⟨hoi.symm, by rw [huuid]; exact Ne.symm hov⟩]
        have hloc : c'.isLocalGroup g = true := isLocalGroup_of_localDoc ((hst.mine g d).mpr ⟨rfl, hg⟩)
        refine ⟨_, runs_removeLocalVnicFromGroup hloc _, _, rfl, hst.takeOut hov hon, hnet, ?_⟩
        intro u huv hku hs
        rw [localDoc_takeOut] at hs
        have hne : u ≠ other.uuid := by
          intro heq
          rw [if_pos heq, if_pos rfl] at hs
          cases hs
        rw [if_neg hne] at hs
        obtain ⟨hin, hout⟩ := hleft u huv hku hs
        refine ⟨hin, ?_⟩
        rw [List.map_append, List.mem_append, not_or, List.map_singleton, List.mem_singleton]
        exact ⟨hout, hne⟩
    · refine ⟨c, rfl, h, rfl, ?_⟩
      intro u huv hku hs
      obtain ⟨e, he⟩ := Option.isSome_iff_exists.mp hs
      refine ⟨?_, List.not_mem_nil⟩
      rw [← (h.others g u e huv hku he).1]
      exact List.mem_map_of_mem (mem_getLocalVnicsInGroup.mpr ⟨u, he⟩)
  obtain ⟨node, hruns, c', hnode, hst, hnet, hleft⟩ := hloop
  rw [hnode] at hruns
  refine ⟨c', hruns, ⟨hst.mine, hst.kept, ?_, hst.foreigns, hst.empties, hst.networks, hst.keeps⟩,
    hnet⟩
  intro g' u e hu hno he
  obtain ⟨h1, h2, h3⟩ := hst.others g' u e hu hno he
  refine ⟨h1, h2, h3, ?_⟩
  intro hgg
  rw [hgg] at he
  obtain ⟨hin, hout⟩ := hleft u hu hno (by rw [he]; rfl)
  exact hout hin

theorem runs_forgetSiblings {c : Cache} (huuid : d.uuid = v)
    (hold : CacheIso db known old)
    (h : Stored db known old v d d.securityGroups (newGroups old d) c) :
    ∃ c', Proc.Runs (forgetSiblings d (d.securityGroups.filter fun g => !old.isLocalGroup g))
        ⟨c, ch⟩ () ⟨c', ch⟩ ∧
      Stored db known old v d d.securityGroups (fun _ => False) c' ∧ c'.networks = c.networks := by
  unfold forgetSiblings
  have hloop : ∃ node, Proc.Runs ((d.securityGroups.filter fun g => !old.isLocalGroup g).forM
        fun g => do
          let c ← getCache
          (c.getLocalVnicsInGroup g).forM fun other =>
            if d.instanceUuid = other.instanceUuid ∧ d.uuid ≠ other.uuid then
              removeLocalVnicFromGroup other.uuid g else pure ()) ⟨c, ch⟩ () node ∧
      ∃ c', node = ⟨c', ch⟩ ∧
        Stored db known old v d d.securityGroups (fun g => newGroups old d g ∧
          g ∉ d.securityGroups.filter fun g => !old.isLocalGroup g) c' ∧
        c'.networks = c.networks := by
    apply Proc.runs_forM fun (done : List Text) (node : Node) => ∃ c', node = ⟨c', ch⟩ ∧
      Stored db known old v d d.securityGroups (fun g => newGroups old d g ∧ g ∉ done) c' ∧
      c'.networks = c.networks
    · intro done g rest node hsplit ⟨c', hnode, hst, hnet⟩
      have hg : g ∈ d.securityGroups.filter fun g => !old.isLocalGroup g := by
        rw [hsplit]
        exact List.mem_append_right _ List.mem_cons_self
      obtain ⟨hgd, hnew⟩ := List.mem_filter.mp hg
      have hnone : ∀ u x, known u = some x → g ∉ x.securityGroups := by
        intro u x hx hgx
        rw [isLocalGroup_of_localDoc ((hold.locals g u x).mpr ⟨hx, hgx⟩)] at hnew
        cases hnew
      obtain ⟨c'', hruns, hst', hnet'⟩ :=
        @runs_forgetInGroup db ch known old v d c' g _ huuid hst hgd hnone
      rw [hnode]
      refine ⟨⟨c'', ch⟩, (runs_getCache _).bind hruns, c'', rfl, ?_, hnet'.trans hnet⟩
      refine ⟨hst'.mine, hst'.kept, ?_, hst'.foreigns, hst'.empties, hst'.networks, hst'.keeps⟩
      intro g' u e hu hno he
      obtain ⟨h1, h2, ⟨h3, h4⟩, h5⟩ := hst'.others g' u e hu hno he
      refine ⟨h1, h2, h3, ?_⟩
      rw [List.mem_append, not_or, List.mem_singleton]
      exact ⟨h4, h5⟩
    · refine ⟨c, rfl, ⟨h.mine, h.kept, ?_, h.foreigns, h.empties, h.networks, h.keeps⟩, rfl⟩
      intro g' u e hu hno he
      obtain ⟨h1, h2, h3⟩ := h.others g' u e hu hno he
      exact ⟨h1, h2, h3, List.not_mem_nil⟩
  obtain ⟨node, hruns, c', hnode, hst, hnet⟩ := hloop
  rw [hnode] at hruns
  refine ⟨c', hruns, ⟨hst.mine, hst.kept, ?_, hst.foreigns, hst.empties, hst.networks, hst.keeps⟩,
    hnet⟩
  intro g' u e hu hno he
  obtain ⟨_, _, h3, h4⟩ := hst.others g' u e hu hno he
  exact absurd h3 h4

/-- The vnic is known once it stands in its groups alone. -/
theorem Stored.cacheIso {c : Cache} (hold : CacheIso db known old) (hv : known v = none)
    (h : Stored db known old v d d.securityGroups (fun _ => False) c)
    (hpresent : (d.networkId.bind c.networks.lookup).isSome = true) :
    CacheIso db (known.set v (some d)) c := by
  have hset := fun {u : Text} (hu : u ≠ v) => known.set_ne (some d) hu
  refine ⟨?_, h.foreigns, ?_, h.networks, ?_⟩
  · intro g u e
    by_cases hu : u = v
    · rw [hu, h.mine, known.set_self]
      constructor
      · intro ⟨he, hg⟩
        rw [he]
        exact ⟨rfl, hg⟩
      · intro ⟨he, hg⟩
        cases he
        exact ⟨rfl, hg⟩
    · rw [hset hu]
      cases hku : known u with
      | some x =>
        rw [h.kept g u x e hu hku]
        constructor
        · intro ⟨he, hg⟩
          rw [he]
          exact ⟨rfl, hg⟩
        · intro ⟨he, hg⟩
          cases he
          exact ⟨rfl, hg⟩
      | none =>
        constructor
        · intro he
          exact (h.others g u e hu hku he).2.2.elim
        · intro hx
          cases hx.1
  · intro u e he
    rw [h.empties] at he
    obtain ⟨x, hx, hxe⟩ := hold.empties u e he
    have hu : u ≠ v := by
      intro hu
      rw [hu, hv] at hx
      cases hx
    exact ⟨x, by rw [hset hu, hx], hxe⟩
  · intro u x hu hl
    by_cases huv : u = v
    · rw [huv, known.set_self] at hu
      cases hu
      exact hpresent
    · rw [hset huv] at hu
      rw [h.empties] at hl
      obtain ⟨m, hm⟩ := Option.isSome_iff_exists.mp (hold.listed u x hu hl)
      obtain ⟨n, hid, hn⟩ := Option.bind_eq_some_iff.mp hm
      rw [hid, Option.bind_some, h.keeps n m hn]
      rfl

end

end Netfilter

end WakameVdc
