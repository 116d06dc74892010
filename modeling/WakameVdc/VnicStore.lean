import WakameVdc.IsolationStep
import WakameVdc.ReferenceeRun

/-!
# Where the cache stores a local vnic

A local vnic stands in `:empty_vnics` or in the `:local_vnics` of its groups.
`add_vnic` puts it in one of the two places; the methods that change its groups
touch the second place only, so the partition lasts as long as no vnic moves
between "no group" and "some group".
-/

namespace WakameVdc

open Lib

namespace Netfilter

/-! ## The calls -/

/-- What the `left_group` handler calls on the cache. -/
def leftGroupCalls (vnicId groupId : Text) : NodeM Unit := do
  let c ← getCache
  match c.getLocalVnic vnicId with
  | none => pure ()
  | some _ => do
    removeLocalVnicFromGroup vnicId groupId
    modifyCache (Cache.removeVnicFromReferencees groupId vnicId)
  modifyCache fun c =>
    if c.localVnicsLeftInGroup groupId then c else c.removeSecurityGroup groupId

/-- A change of a vnic, and the call on the cache that follows. A vnic is in the
database before its event is handled, with its instance's other vnics. -/
inductive CacheCall
  | startVnic (vnicId : Text) (record : VnicRecord)
  | addVnic (vnicId : Text)
  | addVnicToSecurityGroup (vnicId groupId : Text)
  | leftGroup (vnicId groupId : Text)
  | removeVnic (vnicId : Text)

/-- The node's cache, the database, and the vnics `add_vnic` was called for. -/
structure CacheWorld where
  db : Db
  cache : Cache
  created : List Text

/-- The cache after a call, whether it raises or not. -/
def Cache.after (c : Cache) (x : NodeM Unit) : Cache := (Proc.final x ⟨c, ∅⟩).cache

def CacheWorld.step (nodeId : Text) (w : CacheWorld) : CacheCall → CacheWorld
  | .startVnic v r =>
    if w.db.accepts v r then { w with db := { w.db with vnics := AList.insert v r w.db.vnics } }
    else w
  | .addVnic v =>
    if (w.db.vnics.lookup v).isSome then
      { w with
        cache := w.cache.after (addVnic w.db nodeId v)
        created := v :: w.created }
    else w
  | .addVnicToSecurityGroup v g =>
    match w.db.vnics.lookup v with
    | none => w
    | some r =>
      if v ∈ w.created ∧ r.inGroup g = false ∧ (w.db.groups.lookup g).isSome then
        let db := w.db.setGroups v fun gs => gs ++ [g]
        { w with
          db := db
          cache := w.cache.after (addVnicToSecurityGroup db nodeId v g) }
      else w
  | .leftGroup v g =>
    match w.db.vnics.lookup v with
    | none => w
    | some r =>
      if v ∈ w.created ∧ r.inGroup g = true then
        { w with
          db := w.db.setGroups v fun gs => gs.filter fun x => x != g
          cache := w.cache.after (leftGroupCalls v g) }
      else w
  | .removeVnic v =>
    { db := { w.db with vnics := AList.erase v w.db.vnics }
      cache := w.cache.removeVnic v
      created := w.created.filter fun u => u != v }

/-! ## The partition -/

def VnicRecord.live (r : VnicRecord) (nodeId : Text) : Bool :=
  r.onNode nodeId InstanceRecord.runningOrInitializing

/-- The vnic stands in `:empty_vnics` if it is in no group, and in exactly its
groups otherwise. -/
structure StoredAs (c : Cache) (v : Text) (d : VnicMap) : Prop where
  empty : c.emptyVnics.lookup v = if d.securityGroups = [] then some d else none
  groups : ∀ g, c.localDoc g v = if g ∈ d.securityGroups then some d else none

/-- The getters find the vnic's data, and so does `vnic_destroyed`. -/
structure Found (c : Cache) (v : Text) (d : VnicMap) : Prop where
  getVnic : c.getVnic v = .ok (some d)
  destroyed : (c.getLocalVnic v).or (c.getEmptyVnic v) = some d

def Partitioned (nodeId : Text) (w : CacheWorld) : Prop :=
  ∀ v ∈ w.created, ∀ r, w.db.vnics.lookup v = some r → r.live nodeId = true →
    StoredAs w.cache v r.vnic ∧ Found w.cache v r.vnic

theorem StoredAs.found {c : Cache} {v : Text} {d : VnicMap} (h : StoredAs c v d) : Found c v d := by
  have hlocal : c.getLocalVnic v = if d.securityGroups = [] then none else some d := by
    have hall : ∀ g e, c.localDoc g v = some e → e = d := by
      intro g e he
      rw [h.groups] at he
      split at he
      · exact (Option.some.inj he).symm
      · cases he
    cases hd : d.securityGroups with
    | nil =>
      rw [if_pos rfl]
      apply getLocalVnic_none
      intro g
      rw [h.groups, hd, if_neg List.not_mem_nil]
    | cons g gs =>
      rw [if_neg (List.cons_ne_nil g gs)]
      apply getLocalVnic_eq (g := g) _ hall
      rw [h.groups, hd, if_pos List.mem_cons_self]
  have hempty : c.getEmptyVnic v = if d.securityGroups = [] then some d else none := h.empty
  constructor
  · unfold Cache.getVnic
    rw [hempty, hlocal]
    split
    · rename_i vnic he
      split at he
      · cases he
        rfl
      · cases he
    · rename_i he
      split at he
      · cases he
      · rename_i hd
        rw [if_neg hd]
  · rw [hempty, hlocal]
    split
    · rfl
    · rfl

/-! ## The condition -/

/-- A group that is new to the cache is fetched with its local vnics, and for
each of these the network is known or can be asked for. -/
def Fetches (nodeId : Text) (db : Db) (c : Cache) (g : Text) : Prop :=
  c.isLocalGroup g = true ∨ ∀ u r, db.vnics.lookup u = some r → r.inGroup g = true →
    r.live nodeId = true → (r.vnic.networkId.bind c.networks.lookup).isSome = true ∨
      (r.vnic.networkId.bind db.networks.lookup).isSome = true

/-- No live local vnic joins its first group or leaves its last one, and no group
but the last one of a call is fetched without the networks of its vnics. -/
def CacheCall.Fits (nodeId : Text) (w : CacheWorld) : CacheCall → Prop
  | addVnic v => ∀ r, w.db.vnics.lookup v = some r → r.live nodeId = true →
    ∀ g ∈ r.vnic.securityGroups.dropLast, Fetches nodeId w.db w.cache g
  | addVnicToSecurityGroup v g => ∀ r, w.db.vnics.lookup v = some r → v ∈ w.created →
    r.live nodeId = true → r.inGroup g = false → r.vnic.securityGroups ≠ [] ∧
      Fetches nodeId (w.db.setGroups v fun gs => gs ++ [g]) w.cache g
  | leftGroup v g => ∀ r, w.db.vnics.lookup v = some r → v ∈ w.created →
    r.live nodeId = true → r.inGroup g = true →
      (r.vnic.securityGroups.filter fun x => x != g) ≠ []
  | _ => True

/-! ## The vnics a call is not about -/

/-- A vnic that is not created yet stands at most in groups of its own, where
they were fetched for another vnic. -/
structure Pending (db : Db) (c : Cache) (u : Text) : Prop where
  empty : c.emptyVnics.lookup u = none
  groups : ∀ g e, c.localDoc g u = some e →
    ∃ r, db.vnics.lookup u = some r ∧ e = r.vnic ∧ g ∈ e.securityGroups

/-- All vnics but `v` are stored as they should be. -/
structure Others (nodeId : Text) (db : Db) (created : List Text) (v : Text) (c : Cache) : Prop where
  stored : ∀ u ∈ created, u ≠ v → ∀ r, db.vnics.lookup u = some r → r.live nodeId = true →
    StoredAs c u r.vnic
  pending : ∀ u, u ∉ created → u ≠ v → Pending db c u

section
variable {nodeId : Text} {db : Db} {created : List Text} {v : Text} {c c' : Cache}

theorem Others.congr (h : Others nodeId db created v c)
    (he : ∀ u, u ≠ v → c'.emptyVnics.lookup u = c.emptyVnics.lookup u)
    (hd : ∀ g u, u ≠ v → c'.localDoc g u = c.localDoc g u) : Others nodeId db created v c' := by
  constructor
  · intro u hu hne r hr hl
    have hs := h.stored u hu hne r hr hl
    exact ⟨(he u hne).trans hs.empty, fun g => (hd g u hne).trans (hs.groups g)⟩
  · intro u hu hne
    have hp := h.pending u hu hne
    refine ⟨(he u hne).trans hp.empty, ?_⟩
    intro g e hg
    rw [hd g u hne] at hg
    exact hp.groups g e hg

theorem localDoc_addToGroup_ne (isLocal : Bool) (g : Text) (vnic : VnicMap) (g' : Text) {u : Text}
    (hu : u ≠ v) : (addToGroup isLocal v g vnic c).localDoc g' u = c.localDoc g' u := by
  simp only [addToGroup, Cache.localDoc, Cache.mapGroups, Hash.lookup_mapVals, Hash.lookup_modify]
  cases c.securityGroups.lookup g' with
  | none => simp
  | some group =>
    by_cases hg : g' = g
    · cases isLocal with
      | true => simp [hg, putVnic, replaceVnic, Hash.lookup_modify, addMember, hu]
      | false => simp [hg, putVnic, replaceVnic, Hash.lookup_modify, addMember, hu]
    · simp [hg, putVnic, replaceVnic, Hash.lookup_modify, hu]

theorem Others.addToGroup (h : Others nodeId db created v c) (isLocal : Bool) (g : Text)
    (vnic : VnicMap) : Others nodeId db created v (addToGroup isLocal v g vnic c) :=
  h.congr (fun _ _ => rfl) fun g' _ hu => localDoc_addToGroup_ne isLocal g vnic g' hu

/-! ## Groups that are fetched -/

structure SameVnics (c c' : Cache) : Prop where
  groups : c'.securityGroups = c.securityGroups
  empties : c'.emptyVnics = c.emptyVnics

theorem SameVnics.localDoc (h : SameVnics c c') (g u : Text) : c'.localDoc g u = c.localDoc g u := by
  unfold Cache.localDoc
  rw [h.groups]

theorem SameVnics.others (h : SameVnics c c') (ho : Others nodeId db created v c) :
    Others nodeId db created v c' :=
  ho.congr (fun u _ => by rw [h.empties]) fun g u _ => h.localDoc g u

theorem SameVnics.storedAs (h : SameVnics c c') {d : VnicMap} (hs : StoredAs c v d) :
    StoredAs c' v d :=
  ⟨by rw [h.empties]; exact hs.empty, fun g => (h.localDoc g v).trans (hs.groups g)⟩

theorem keeps_addNetwork_same (db : Db) (c : Cache) (networkId : Option Text) :
    Proc.Keeps (fun node : Node => SameVnics c node.cache) (addNetwork db networkId) := by
  apply Proc.Keeps.bind keeps_getCache
  intro _
  split
  · exact Proc.keeps_pure _
  · split
    · exact keeps_modifyCache fun _ h => ⟨h.groups, h.empties⟩
    · exact Proc.keeps_throw _

theorem keeps_addNetworks_same (db : Db) (c : Cache) (vnics : List VnicMap) :
    Proc.Keeps (fun node : Node => SameVnics c node.cache)
      (vnics.forM fun vnic => addNetwork db vnic.networkId) :=
  Proc.keeps_forM fun _ _ => keeps_addNetwork_same ..

def Cache.withGroup (c : Cache) (db : Db) (nodeId g : Text) (rules : List ParsedRule) : Cache :=
  { c with securityGroups := AList.insert g (db.toNetfilterDocument g rules nodeId) c.securityGroups }

theorem lookup_liveVnics (db : Db) (g : Text) (rules : List ParsedRule) (u : Text) (e : VnicMap) :
    (db.toNetfilterDocument g rules nodeId).localVnics.lookup u = some e ↔
      ∃ r, db.vnics.lookup u = some r ∧ r.vnic = e ∧ r.inGroup g = true ∧ r.live nodeId = true := by
  unfold Db.toNetfilterDocument
  rw [Hash.lookup_mapVals, Hash.lookup_filterVals, Option.map_eq_some_iff]
  simp only [Option.filter_eq_some_iff, Bool.and_eq_true]
  constructor
  · intro h
    obtain ⟨r, ⟨hr, hin, hl⟩, he⟩ := h
    exact ⟨r, hr, he, hin, hl⟩
  · intro h
    obtain ⟨r, hr, he, hin, hl⟩ := h
    exact ⟨r, ⟨hr, hin, hl⟩, he⟩

theorem localDoc_withGroup (c : Cache) (db : Db) (g : Text) (rules : List ParsedRule)
    (g' u : Text) : (c.withGroup db nodeId g rules).localDoc g' u =
      if g' = g then (db.toNetfilterDocument g rules nodeId).localVnics.lookup u
      else c.localDoc g' u := by
  unfold Cache.withGroup Cache.localDoc
  rw [Hash.lookup_insert]
  split
  · rfl
  · rfl

/-- A created vnic of a group that is new to the cache would be stored there. -/
theorem Others.withGroup (h : Others nodeId db created v c) {g : Text}
    (hg : c.isLocalGroup g = false) (rules : List ParsedRule) :
    Others nodeId db created v (c.withGroup db nodeId g rules) := by
  have hnone : ∀ u, c.localDoc g u = none := by
    intro u
    apply Option.eq_none_iff_forall_ne_some.mpr
    intro e he
    rw [isLocalGroup_of_localDoc he] at hg
    cases hg
  constructor
  · intro u hu hne r hr hl
    have hs := h.stored u hu hne r hr hl
    refine ⟨hs.empty, ?_⟩
    intro g'
    rw [localDoc_withGroup]
    split
    case isFalse => exact hs.groups g'
    case isTrue hg' =>
      have hout : g ∉ r.vnic.securityGroups := by
        intro hin
        have := hs.groups g
        rw [if_pos hin, hnone] at this
        cases this
      rw [hg', if_neg hout]
      apply Option.eq_none_iff_forall_ne_some.mpr
      intro e he
      obtain ⟨r', hr', _, hin, _⟩ := (lookup_liveVnics db g rules u e).mp he
      rw [hr] at hr'
      cases hr'
      exact hout (List.contains_iff_mem.mp hin)
  · intro u hu hne
    have hp := h.pending u hu hne
    refine ⟨hp.empty, ?_⟩
    intro g' e he
    rw [localDoc_withGroup] at he
    split at he
    case isFalse => exact hp.groups g' e he
    case isTrue hg' =>
      obtain ⟨r, hr, hre, hin, _⟩ := (lookup_liveVnics db g rules u e).mp he
      refine ⟨r, hr, hre.symm, ?_⟩
      rw [hg', ← hre]
      exact List.contains_iff_mem.mp hin

theorem after_addSecurityGroup {g : Text} {rules : List ParsedRule}
    (hg : db.groups.lookup g = some rules) (c : Cache) (ch : Hash Text (List Ipv4)) :
    SameVnics (c.withGroup db nodeId g rules)
      (Proc.final (addSecurityGroup db nodeId g) ⟨c, ch⟩).cache := by
  unfold addSecurityGroup Db.getNetfilterSecurityGroup
  rw [hg]
  show SameVnics _ (Proc.final (modifyCache _ >>= _) _).cache
  unfold modifyCache
  rw [Proc.final_bind_modify]
  exact (keeps_addNetworks_same db _ _).at_final _ ⟨rfl, rfl⟩

theorem keeps_addSecurityGroup_others {g : Text} {node : Node}
    (h : Others nodeId db created v node.cache) (hg : node.cache.isLocalGroup g = false) :
    Others nodeId db created v (Proc.final (addSecurityGroup db nodeId g) node).cache := by
  cases hrules : db.groups.lookup g with
  | none =>
    unfold addSecurityGroup Db.getNetfilterSecurityGroup
    rw [hrules]
    exact h
  | some rules => exact (after_addSecurityGroup hrules node.cache node.chains).others (h.withGroup hg rules)

/-! ## Calls that add a vnic -/

/-- One turn of the loop of `add_vnic`. -/
def putInGroup (db : Db) (nodeId v : Text) (d : VnicMap) (isLocal : Bool) (g : Text) : NodeM Unit := do
  let c ← getCache
  if c.isLocalGroup g then modifyCache (addToGroup isLocal v g d)
  else addSecurityGroup db nodeId g

theorem keeps_putInGroup (d : VnicMap) (isLocal : Bool) (g : Text) :
    Proc.Keeps (fun node : Node => Others nodeId db created v node.cache)
      (putInGroup db nodeId v d isLocal g) := by
  constructor
  intro node h
  unfold putInGroup
  rw [final_bind_getCache]
  split
  · exact h.addToGroup isLocal g d
  case isFalse hg => exact keeps_addSecurityGroup_others h (by simpa using hg)

theorem keeps_addNetwork_others (networkId : Option Text) :
    Proc.Keeps (fun node : Node => Others nodeId db created v node.cache)
      (addNetwork db networkId) :=
  ⟨fun node h => ((keeps_addNetwork_same db node.cache networkId).at_final node ⟨rfl, rfl⟩).others h⟩

theorem keeps_addVnic_others :
    Proc.Keeps (fun node : Node => Others nodeId db created v node.cache) (addVnic db nodeId v) := by
  apply keeps_lift_bind
  intro result _
  apply Proc.Keeps.bind
  · unfold addVnicToGroups
    split
    · apply keeps_modifyCache
      intro c h
      refine h.congr (fun u hu => ?_) fun _ _ _ => rfl
      show AList.lookup u (AList.insert v result.1 c.emptyVnics) = _
      rw [Hash.lookup_insert, if_neg hu]
    · exact Proc.keeps_forM fun g _ => keeps_putInGroup result.1 _ g
  · intro _
    exact keeps_addNetwork_others _

theorem keeps_addVnicToSecurityGroup_others (g : Text) :
    Proc.Keeps (fun node : Node => Others nodeId db created v node.cache)
      (addVnicToSecurityGroup db nodeId v g) := by
  constructor
  intro node h
  unfold addVnicToSecurityGroup
  rw [final_bind_getCache]
  refine Proc.final_bind (I := fun node : Node => Others nodeId db created v node.cache) ?_ ?_
  · cases hg : node.cache.isLocalGroup g with
    | true => exact h
    | false => exact keeps_addSecurityGroup_others h hg
  · intro _
    apply Proc.Keeps.bind (keeps_lift _)
    intro result
    apply Proc.Keeps.bind keeps_getCache
    intro c
    split
    · exact keeps_modifyCache fun c h => h.addToGroup _ g _
    · exact Proc.keeps_throw _

/-! ## The vnic a call adds -/

structure Grows (c c' : Cache) : Prop where
  same : SameVnics c c'
  networks : ∀ n, (c.networks.lookup n).isSome = true → (c'.networks.lookup n).isSome = true

theorem Grows.refl (c : Cache) : Grows c c := ⟨⟨rfl, rfl⟩, fun _ h => h⟩

theorem isSome_bind_mono {α β : Type} {o : Option α} {f g : α → Option β}
    (h : ∀ a, (f a).isSome = true → (g a).isSome = true) (ho : (o.bind f).isSome = true) :
    (o.bind g).isSome = true := by
  cases o with
  | none => exact ho
  | some a => exact h a ho

theorem succeeds_addNetwork {networkId : Option Text}
    (hn : (networkId.bind c.networks.lookup).isSome = true ∨
      (networkId.bind db.networks.lookup).isSome = true) :
    Proc.Succeeds (fun node : Node => Grows c node.cache) (addNetwork db networkId)
      fun _ => True := by
  constructor
  intro node hgrows
  by_cases hc : (networkId.bind node.cache.networks.lookup).isSome = true
  · refine ⟨(), node, (runs_getCache _).bind ?_, hgrows, trivial⟩
    rw [if_pos hc]
    rfl
  · rcases hn with hn | hn
    · exact absurd (isSome_bind_mono hgrows.networks hn) hc
    · obtain ⟨m, hm⟩ := Option.isSome_iff_exists.mp hn
      obtain ⟨n, hid, hdb⟩ := Option.bind_eq_some_iff.mp hm
      refine ⟨(), { node with cache := { node.cache with
        networks := AList.insert n m node.cache.networks } }, (runs_getCache _).bind ?_,
        ⟨⟨hgrows.same.groups, hgrows.same.empties⟩, ?_⟩, trivial⟩
      · rw [if_neg hc, hid, Option.bind_some, hdb]
        rfl
      · intro k hk
        exact (Hash.isSome_lookup_insert ..).mpr (Or.inl (hgrows.networks k hk))

/-- The network of each vnic of a group that is fetched is known or can be asked for. -/
theorem Fetches.networks {g : Text} {rules : List ParsedRule} {vnic : VnicMap}
    (hf : Fetches nodeId db c g) (hlocal : c.isLocalGroup g = false)
    (hv : vnic ∈ Hash.values (db.toNetfilterDocument g rules nodeId).localVnics) :
    (vnic.networkId.bind c.networks.lookup).isSome = true ∨
      (vnic.networkId.bind db.networks.lookup).isSome = true := by
  obtain ⟨u, hu⟩ := Hash.mem_values.mp hv
  obtain ⟨r, hr, he, hin, hl⟩ := (lookup_liveVnics db g rules u vnic).mp hu
  rw [← he]
  rcases hf with hf | hf
  · rw [hlocal] at hf
    cases hf
  · exact hf u r hr hin hl

theorem runs_fetch {g : Text} {rules : List ParsedRule} (hg : db.groups.lookup g = some rules)
    (hlocal : c.isLocalGroup g = false) (hf : Fetches nodeId db c g)
    (ch : Hash Text (List Ipv4)) :
    ∃ node', Proc.Runs (addSecurityGroup db nodeId g) ⟨c, ch⟩ () node' ∧
      Grows (c.withGroup db nodeId g rules) node'.cache := by
  have hnetworks : Proc.Succeeds (fun node : Node => Grows (c.withGroup db nodeId g rules) node.cache)
      ((Hash.values (db.toNetfilterDocument g rules nodeId).localVnics).forM fun vnic =>
        addNetwork db vnic.networkId) fun _ => True := by
    apply Proc.succeeds_forM
    intro vnic hv
    exact succeeds_addNetwork (hf.networks hlocal hv)
  obtain ⟨_, node', hruns, hgrows, _⟩ := hnetworks.runs ⟨c.withGroup db nodeId g rules, ch⟩
    (Grows.refl _)
  refine ⟨node', ?_, hgrows⟩
  unfold addSecurityGroup Db.getNetfilterSecurityGroup
  rw [hg]
  exact (runs_modifyCache _ _).bind hruns

structure Wider (c c' : Cache) : Prop where
  groups : ∀ g, c.isLocalGroup g = true → c'.isLocalGroup g = true
  networks : ∀ n, (c.networks.lookup n).isSome = true → (c'.networks.lookup n).isSome = true

theorem Wider.refl (c : Cache) : Wider c c := ⟨fun _ h => h, fun _ h => h⟩

theorem Wider.trans {c'' : Cache} (h : Wider c c') (h' : Wider c' c'') : Wider c c'' :=
  ⟨fun g hg => h'.groups g (h.groups g hg), fun n hn => h'.networks n (h.networks n hn)⟩

theorem Wider.fetches (h : Wider c c') {g : Text} (hf : Fetches nodeId db c g) :
    Fetches nodeId db c' g := by
  rcases hf with hf | hf
  · exact Or.inl (h.groups g hf)
  · right
    intro u r hr hin hl
    rcases hf u r hr hin hl with hn | hn
    · exact Or.inl (isSome_bind_mono h.networks hn)
    · exact Or.inr hn

theorem Grows.wider {g : Text} {rules : List ParsedRule}
    (h : Grows (c.withGroup db nodeId g rules) c') : Wider c c' := by
  constructor
  · intro g' hg'
    unfold Cache.isLocalGroup at hg' ⊢
    rw [h.same.groups]
    exact (Hash.isSome_lookup_insert ..).mpr (Or.inl hg')
  · exact h.networks

variable {r : VnicRecord}

theorem vnicWithNodeId_live (hr : db.vnics.lookup v = some r) (hl : r.live nodeId = true) :
    vnicWithNodeId db v = .ok (r.vnic, nodeId) := by
  unfold VnicRecord.live VnicRecord.onNode at hl
  unfold vnicWithNodeId
  rw [hr]
  cases hi : r.instance? with
  | none =>
    rw [hi] at hl
    cases hl
  | some i =>
    rw [hi] at hl
    simp only [Bool.and_eq_true, beq_iff_eq] at hl
    simp only [hi]
    rw [hl.1]

theorem putInGroup_mine (hr : db.vnics.lookup v = some r) (hl : r.live nodeId = true) {g : Text}
    (hg : r.inGroup g = true) (hgroup : (db.groups.lookup g).isSome = true) {node : Node}
    (hwithin : ∀ g' e, node.cache.localDoc g' v = some e → e = r.vnic) (g' : Text) :
    (Proc.final (putInGroup db nodeId v r.vnic true g) node).cache.localDoc g' v =
      if g' = g then some r.vnic else node.cache.localDoc g' v := by
  unfold putInGroup
  rw [final_bind_getCache]
  cases hlocal : node.cache.isLocalGroup g with
  | true =>
    rw [if_pos rfl]
    show (addToGroup true v g r.vnic node.cache).localDoc g' v = _
    rw [localDoc_addToGroup hlocal, if_pos rfl]
    split
    · rfl
    · cases hd : node.cache.localDoc g' v with
      | none => rfl
      | some e => rw [hwithin g' e hd, Option.map_some]
  | false =>
    rw [if_neg Bool.false_ne_true]
    obtain ⟨rules, hrules⟩ := Option.isSome_iff_exists.mp hgroup
    rw [(after_addSecurityGroup hrules node.cache node.chains).localDoc, localDoc_withGroup]
    split
    · exact (lookup_liveVnics db g rules v r.vnic).mpr ⟨r, hr, rfl, hg, hl⟩
    · rfl

theorem putInGroup_empties (d : VnicMap) (isLocal : Bool) (g : Text) (node : Node) :
    (Proc.final (putInGroup db nodeId v d isLocal g) node).cache.emptyVnics =
      node.cache.emptyVnics := by
  unfold putInGroup
  rw [final_bind_getCache]
  split
  · rfl
  · cases hrules : db.groups.lookup g with
    | none =>
      unfold addSecurityGroup Db.getNetfilterSecurityGroup
      rw [hrules]
      rfl
    | some rules => exact (after_addSecurityGroup hrules node.cache node.chains).empties

theorem runs_putInGroup {g : Text} (hgroup : (db.groups.lookup g).isSome = true) {node : Node}
    (hf : Fetches nodeId db node.cache g) (d : VnicMap) :
    ∃ node', Proc.Runs (putInGroup db nodeId v d true g) node () node' ∧
      Wider node.cache node'.cache := by
  unfold putInGroup
  cases hlocal : node.cache.isLocalGroup g with
  | true =>
    refine ⟨{ node with cache := addToGroup true v g d node.cache }, (runs_getCache _).bind ?_,
      ?_, fun _ h => h⟩
    · rw [if_pos hlocal]
      rfl
    · intro g' hg'
      rw [isLocalGroup_addToGroup]
      exact hg'
  | false =>
    obtain ⟨rules, hrules⟩ := Option.isSome_iff_exists.mp hgroup
    obtain ⟨node', hruns, hgrows⟩ := runs_fetch hrules hlocal hf node.chains
    refine ⟨node', (runs_getCache _).bind ?_, hgrows.wider⟩
    rw [if_neg (by rw [hlocal]; exact Bool.false_ne_true)]
    exact hruns

/-- The loop goes through all groups if none but the last one can raise. -/
theorem putInGroups_mine (hr : db.vnics.lookup v = some r) (hl : r.live nodeId = true)
    {gs : List Text} (hgs : ∀ g ∈ gs, r.inGroup g = true)
    (hgroups : ∀ g ∈ gs, (db.groups.lookup g).isSome = true) {node : Node}
    (hf : ∀ g ∈ gs.dropLast, Fetches nodeId db node.cache g)
    (hwithin : ∀ g' e, node.cache.localDoc g' v = some e → e = r.vnic) (g' : Text) :
    (Proc.final (gs.forM (putInGroup db nodeId v r.vnic true)) node).cache.localDoc g' v =
      if g' ∈ gs then some r.vnic else node.cache.localDoc g' v := by
  induction gs generalizing node with
  | nil => simp [Proc.final, List.forM, Proc.exec_pure]
  | cons g gs ih =>
    have hone := putInGroup_mine hr hl (hgs g List.mem_cons_self) (hgroups g List.mem_cons_self)
      hwithin
    show (Proc.final (putInGroup db nodeId v r.vnic true g >>= fun _ =>
      gs.forM (putInGroup db nodeId v r.vnic true)) node).cache.localDoc g' v = _
    cases gs with
    | nil =>
      show (Proc.final (putInGroup db nodeId v r.vnic true g >>= fun _ => pure ()) node).cache.localDoc
        g' v = _
      rw [Proc.final_bind_pure, hone]
      simp
    | cons g₂ gs =>
      obtain ⟨node', hruns, hwider⟩ := runs_putInGroup (v := v) (hgroups g List.mem_cons_self)
        (hf g (by simp)) r.vnic
      rw [hruns.final] at hone
      rw [hruns.final_bind]
      have hrest := @ih (fun x hx => hgs x (List.mem_cons_of_mem _ hx))
        (fun x hx => hgroups x (List.mem_cons_of_mem _ hx)) node'
        (fun x hx => hwider.fetches (hf x (by
          rw [List.dropLast_cons_of_ne_nil (List.cons_ne_nil g₂ gs)]
          exact List.mem_cons_of_mem _ hx)))
        (by
          intro x e hx
          rw [hone] at hx
          split at hx
          · cases hx
            rfl
          · exact hwithin x e hx)
      rw [hrest, hone]
      simp only [List.mem_cons]
      split
      case isTrue hin => rw [if_pos (Or.inr hin)]
      case isFalse hout =>
        split
        case isTrue he => rw [if_pos (Or.inl he)]
        case isFalse hne => rw [if_neg (fun h => h.elim hne hout)]

theorem addVnic_stored (hr : db.vnics.lookup v = some r) (hl : r.live nodeId = true)
    (hgroups : ∀ g ∈ r.vnic.securityGroups, (db.groups.lookup g).isSome = true)
    (hf : ∀ g ∈ r.vnic.securityGroups.dropLast, Fetches nodeId db c g)
    (hempty : r.vnic.securityGroups ≠ [] → c.emptyVnics.lookup v = none)
    (hwithin : ∀ g e, c.localDoc g v = some e → e = r.vnic ∧ g ∈ r.vnic.securityGroups) :
    StoredAs (c.after (addVnic db nodeId v)) v r.vnic := by
  have hgroupsOnly : StoredAs (Proc.final (addVnicToGroups db nodeId v r.vnic true) ⟨c, ∅⟩).cache v
      r.vnic := by
    unfold addVnicToGroups
    cases hd : r.vnic.securityGroups with
    | nil =>
      refine ⟨?_, ?_⟩
      · show AList.lookup v (AList.insert v r.vnic c.emptyVnics) = _
        rw [Hash.lookup_insert, if_pos rfl, hd, if_pos rfl]
      · intro g
        rw [hd, if_neg List.not_mem_nil]
        apply Option.eq_none_iff_forall_ne_some.mpr
        intro e he
        have := (hwithin g e he).2
        rw [hd] at this
        cases this
    | cons g₁ gs =>
      have hne : r.vnic.securityGroups ≠ [] := by
        rw [hd]
        exact List.cons_ne_nil _ _
      rw [← hd, if_neg (by rw [hd]; exact Bool.false_ne_true)]
      refine ⟨?_, ?_⟩
      · rw [if_neg hne]
        have hkeeps : Proc.Keeps (fun node : Node => node.cache.emptyVnics = c.emptyVnics)
            (r.vnic.securityGroups.forM (putInGroup db nodeId v r.vnic true)) := by
          apply Proc.keeps_forM
          intro g _
          constructor
          intro node hn
          rw [putInGroup_empties, hn]
        exact (congrArg (AList.lookup v) (hkeeps.at_final ⟨c, ∅⟩ rfl)).trans (hempty hne)
      · intro g
        refine (putInGroups_mine hr hl (fun g hg => List.contains_iff_mem.mpr hg) hgroups hf
          (fun g e he => (hwithin g e he).1) g).trans ?_
        split
        · rfl
        case isFalse hout =>
          apply Option.eq_none_iff_forall_ne_some.mpr
          intro e he
          exact hout (hwithin g e he).2
  unfold Cache.after addVnic
  rw [(runs_lift (vnicWithNodeId_live hr hl) ⟨c, ∅⟩).final_bind]
  dsimp only
  rw [beq_self_eq_true]
  refine Proc.final_bind (I := fun node : Node => StoredAs node.cache v r.vnic) hgroupsOnly ?_
  intro _
  constructor
  intro node hs
  exact ((keeps_addNetwork_same db node.cache _).at_final node ⟨rfl, rfl⟩).storedAs hs

theorem joined_stored (hr : db.vnics.lookup v = some r) (hl : r.live nodeId = true) {g : Text}
    {d : VnicMap} (hd : d.securityGroups ≠ []) (hg : r.vnic.securityGroups = d.securityGroups ++ [g])
    (hgroup : (db.groups.lookup g).isSome = true) (hf : Fetches nodeId db c g)
    (hs : StoredAs c v d) : StoredAs (c.after (addVnicToSecurityGroup db nodeId v g)) v r.vnic := by
  obtain ⟨rules, hrules⟩ := Option.isSome_iff_exists.mp hgroup
  have hin : r.inGroup g = true := by
    apply List.contains_iff_mem.mpr
    rw [hg]
    simp
  have hfetch : ∃ node', Proc.Runs (Proc.when (!c.isLocalGroup g) (addSecurityGroup db nodeId g))
      ⟨c, ∅⟩ () node' ∧ node'.cache.isLocalGroup g = true ∧
      node'.cache.emptyVnics = c.emptyVnics ∧
      ∀ g', g' ≠ g → node'.cache.localDoc g' v = c.localDoc g' v := by
    cases hlocal : c.isLocalGroup g with
    | true => exact ⟨⟨c, ∅⟩, Proc.runs_pure _ _, hlocal, rfl, fun _ _ => rfl⟩
    | false =>
      obtain ⟨node', hruns, hgrows⟩ := runs_fetch hrules hlocal hf ∅
      refine ⟨node', hruns, ?_, hgrows.same.empties, ?_⟩
      · unfold Cache.isLocalGroup
        rw [hgrows.same.groups]
        exact (Hash.isSome_lookup_insert ..).mpr (Or.inr rfl)
      · intro g' hne
        rw [hgrows.same.localDoc, localDoc_withGroup, if_neg hne]
  obtain ⟨node', hruns, hlocal, hempties, hdocs⟩ := hfetch
  have hcall : Proc.Runs (addVnicToSecurityGroup db nodeId v g) ⟨c, ∅⟩ ()
      { node' with cache := addToGroup true v g r.vnic node'.cache } := by
    unfold addVnicToSecurityGroup
    apply (runs_getCache _).bind
    apply hruns.bind
    apply (runs_lift (vnicWithNodeId_live hr hl) _).bind
    apply (runs_getCache _).bind
    rw [if_pos hlocal]
    dsimp only
    rw [beq_self_eq_true]
    rfl
  unfold Cache.after
  rw [hcall.final]
  have hne : r.vnic.securityGroups ≠ [] := by
    rw [hg]
    simp
  refine ⟨?_, ?_⟩
  · show node'.cache.emptyVnics.lookup v = _
    rw [hempties, hs.empty, if_neg hd, if_neg hne]
  · intro g'
    rw [localDoc_addToGroup hlocal, if_pos rfl]
    by_cases hg' : g' = g
    · rw [if_pos hg', hg', if_pos (List.contains_iff_mem.mp hin)]
    · rw [if_neg hg', hdocs g' hg', hs.groups, hg]
      simp only [List.mem_append, List.mem_singleton, hg', or_false]
      split
      · rfl
      · rfl

/-! ## The vnic that leaves -/

theorem localDoc_of_noneLeft {g : Text} (h : c.localVnicsLeftInGroup g = false) (u : Text) :
    c.localDoc g u = none := by
  unfold Cache.localVnicsLeftInGroup at h
  unfold Cache.localDoc
  cases hg : c.securityGroups.lookup g with
  | none => rfl
  | some group =>
    rw [hg] at h
    exact Hash.isEmpty_iff.mp (by simpa using h) u

theorem localDoc_removeIfEmpty (g g' u : Text) :
    (if c.localVnicsLeftInGroup g then c else c.removeSecurityGroup g).localDoc g' u =
      c.localDoc g' u := by
  split
  · rfl
  case isFalse hno =>
    rw [localDoc_removeSecurityGroup]
    split
    case isTrue hg =>
      rw [hg]
      exact (localDoc_of_noneLeft (by simpa using hno) u).symm
    · rfl

theorem emptyVnics_removeIfEmpty (g : Text) :
    (if c.localVnicsLeftInGroup g then c else c.removeSecurityGroup g).emptyVnics =
      c.emptyVnics := by
  split
  · rfl
  · rfl

theorem keeps_leftGroupCalls_others (g : Text) :
    Proc.Keeps (fun node : Node => Others nodeId db created v node.cache) (leftGroupCalls v g) := by
  apply Proc.Keeps.bind keeps_getCache
  intro c₀
  have hlast : Proc.Keeps (fun node : Node => Others nodeId db created v node.cache)
      (modifyCache fun c => if c.localVnicsLeftInGroup g then c else c.removeSecurityGroup g) := by
    apply keeps_modifyCache
    intro c h
    exact h.congr (fun u _ => by rw [emptyVnics_removeIfEmpty]) fun g' u _ =>
      localDoc_removeIfEmpty g g' u
  cases c₀.getLocalVnic v with
  | none => exact hlast
  | some _ =>
    apply Proc.Keeps.bind
    · apply Proc.Keeps.bind keeps_getCache
      intro c₁
      split
      · apply keeps_modifyCache
        intro c h
        refine h.congr (fun u _ => rfl) fun g' u hu => ?_
        refine (localDoc_takeOut (c := c) (g := g) g' u).trans ?_
        rw [if_neg hu]
      · exact Proc.keeps_throw _
    · intro _
      apply Proc.Keeps.bind
      · apply keeps_modifyCache
        intro c h
        exact h.congr (fun _ _ => rfl) fun g' u _ => localDoc_removeVnicFromReferencees g v g' u
      · intro _
        exact hlast

theorem left_stored {d : VnicMap} (hs : StoredAs c v d) {g : Text} (hg : g ∈ d.securityGroups)
    (hne : (d.securityGroups.filter fun x => x != g) ≠ []) :
    StoredAs (c.after (leftGroupCalls v g)) v (removeGroupOf g d) := by
  have hd : d.securityGroups ≠ [] := List.ne_nil_of_mem hg
  have hdoc : c.localDoc g v = some d := by rw [hs.groups, if_pos hg]
  have hlocal : c.getLocalVnic v = some d := by
    apply getLocalVnic_eq hdoc
    intro g' e he
    rw [hs.groups] at he
    split at he
    · exact (Option.some.inj he).symm
    · cases he
  have hcall : (c.after (leftGroupCalls v g)) =
      (fun c : Cache => if c.localVnicsLeftInGroup g then c else c.removeSecurityGroup g)
        ((c.takeOut v g).removeVnicFromReferencees g v) := by
    have hruns : Proc.Runs (leftGroupCalls v g) ⟨c, ∅⟩ ()
        ⟨(fun c : Cache => if c.localVnicsLeftInGroup g then c else c.removeSecurityGroup g)
          ((c.takeOut v g).removeVnicFromReferencees g v), ∅⟩ := by
      unfold leftGroupCalls
      apply (runs_getCache _).bind
      rw [hlocal]
      apply (runs_removeLocalVnicFromGroup (isLocalGroup_of_localDoc hdoc) v).bind
      apply (runs_modifyCache _ _).bind
      exact runs_modifyCache _ _
    unfold Cache.after
    rw [hruns.final]
  rw [hcall]
  refine ⟨?_, ?_⟩
  · rw [emptyVnics_removeIfEmpty]
    show c.emptyVnics.lookup v = _
    rw [hs.empty, if_neg hd]
    exact (if_neg hne).symm
  · intro g'
    dsimp only
    rw [localDoc_removeIfEmpty, localDoc_removeVnicFromReferencees, localDoc_takeOut, if_pos rfl,
      hs.groups]
    simp only [removeGroupOf, List.mem_filter, bne_iff_ne]
    by_cases hg' : g' = g
    · simp [hg']
    · simp only [hg', ne_eq, not_false_eq_true, and_true, if_false]
      split
      · rfl
      · rfl

end

/-! ## Runs -/

/-- Every vnic is where it should be, and its groups exist. -/
structure CacheWorld.Ok (nodeId : Text) (w : CacheWorld) : Prop where
  stored : ∀ v ∈ w.created, ∀ r, w.db.vnics.lookup v = some r → r.live nodeId = true →
    StoredAs w.cache v r.vnic
  pending : ∀ v, v ∉ w.created → Pending w.db w.cache v
  created : ∀ v ∈ w.created, (w.db.vnics.lookup v).isSome = true
  groups : ∀ v r, w.db.vnics.lookup v = some r → ∀ g ∈ r.vnic.securityGroups,
    (w.db.groups.lookup g).isSome = true

section
variable {nodeId : Text} {w : CacheWorld}

theorem CacheWorld.Ok.partitioned (h : w.Ok nodeId) : Partitioned nodeId w := by
  intro v hv r hr hl
  have hs := h.stored v hv r hr hl
  exact ⟨hs, hs.found⟩

theorem ok_of_others {db : Db} {c : Cache} {created : List Text} {v : Text}
    (ho : Others nodeId db created v c)
    (hv : v ∈ created → (db.vnics.lookup v).isSome = true ∧
      ∀ r, db.vnics.lookup v = some r → r.live nodeId = true → StoredAs c v r.vnic)
    (hp : v ∉ created → Pending db c v)
    (hcreated : ∀ u ∈ created, u ≠ v → (db.vnics.lookup u).isSome = true)
    (hgroups : ∀ u r, db.vnics.lookup u = some r → ∀ g ∈ r.vnic.securityGroups,
      (db.groups.lookup g).isSome = true) : CacheWorld.Ok nodeId ⟨db, c, created⟩ := by
  refine ⟨?_, ?_, ?_, hgroups⟩
  · intro u hu r hr hl
    by_cases huv : u = v
    · rw [huv] at hu hr ⊢
      exact (hv hu).2 r hr hl
    · exact ho.stored u hu huv r hr hl
  · intro u hu
    by_cases huv : u = v
    · rw [huv] at hu ⊢
      exact hp hu
    · exact ho.pending u hu huv
  · intro u hu
    by_cases huv : u = v
    · rw [huv] at hu ⊢
      exact (hv hu).1
    · exact hcreated u hu huv

/-- The invariant of the other vnics only reads what the database says of them. -/
theorem CacheWorld.Ok.others (h : w.Ok nodeId) {db : Db} {v : Text} {created : List Text}
    (hdb : ∀ u, u ≠ v → db.vnics.lookup u = w.db.vnics.lookup u)
    (hcreated : ∀ u, u ≠ v → (u ∈ created ↔ u ∈ w.created)) :
    Others nodeId db created v w.cache := by
  constructor
  · intro u hu hne r hr hl
    rw [hdb u hne] at hr
    exact h.stored u ((hcreated u hne).mp hu) r hr hl
  · intro u hu hne
    have hp := h.pending u (fun hx => hu ((hcreated u hne).mpr hx))
    refine ⟨hp.empty, ?_⟩
    intro g e he
    rw [hdb u hne]
    exact hp.groups g e he

theorem ok_startVnic (h : w.Ok nodeId) (v : Text) (r : VnicRecord) :
    (w.step nodeId (.startVnic v r)).Ok nodeId := by
  unfold CacheWorld.step
  dsimp only
  split
  case isFalse => exact h
  case isTrue haccepts =>
    unfold Db.accepts at haccepts
    simp only [Bool.and_eq_true, beq_iff_eq, List.all_eq_true] at haccepts
    obtain ⟨⟨hnew, _⟩, hexist⟩ := haccepts
    have hnone : w.db.vnics.lookup v = none := Option.isNone_iff_eq_none.mp hnew
    have hv : v ∉ w.created := by
      intro hv
      have := h.created v hv
      rw [hnone] at this
      cases this
    have hother : ∀ u, u ≠ v → AList.lookup u (AList.insert v r w.db.vnics) =
        w.db.vnics.lookup u := by
      intro u hu
      rw [Hash.lookup_insert, if_neg hu]
    refine ok_of_others (v := v) (h.others hother fun _ _ => Iff.rfl) (fun hx => absurd hx hv) ?_ ?_ ?_
    · intro _
      have hp := h.pending v hv
      refine ⟨hp.empty, ?_⟩
      intro g e he
      obtain ⟨r', hr', _⟩ := hp.groups g e he
      rw [hnone] at hr'
      cases hr'
    · intro u hu hne
      show (AList.lookup u (AList.insert v r w.db.vnics)).isSome = true
      rw [hother u hne]
      exact h.created u hu
    · intro u r' hr' g hg
      replace hr' : AList.lookup u (AList.insert v r w.db.vnics) = some r' := hr'
      rw [Hash.lookup_insert] at hr'
      split at hr'
      · cases hr'
        exact hexist g hg
      · exact h.groups u r' hr' g hg

theorem ok_addVnic (h : w.Ok nodeId) {v : Text} (hf : (CacheCall.addVnic v).Fits nodeId w) :
    (w.step nodeId (.addVnic v)).Ok nodeId := by
  unfold CacheWorld.step
  dsimp only
  split
  case isFalse => exact h
  case isTrue hin =>
    have hothers : Others nodeId w.db (v :: w.created) v w.cache := by
      apply h.others fun _ _ => rfl
      intro u hu
      simp [hu]
    refine ok_of_others (v := v) (keeps_addVnic_others.at_final ⟨w.cache, ∅⟩ hothers) ?_
      (fun hx => absurd List.mem_cons_self hx) ?_ h.groups
    · intro _
      refine ⟨hin, ?_⟩
      intro r hr hl
      have hgroups := h.groups v r hr
      by_cases hv : v ∈ w.created
      · have hs := h.stored v hv r hr hl
        apply addVnic_stored hr hl hgroups (hf r hr hl)
        · intro hne
          rw [hs.empty, if_neg hne]
        · intro g e he
          rw [hs.groups] at he
          split at he
          · cases he
            exact ⟨rfl, ‹_›⟩
          · cases he
      · have hp := h.pending v hv
        apply addVnic_stored hr hl hgroups (hf r hr hl) fun _ => hp.empty
        intro g e he
        obtain ⟨r', hr', hre, hg⟩ := hp.groups g e he
        rw [hr] at hr'
        cases hr'
        rw [← hre]
        exact ⟨rfl, hg⟩
    · intro u hu hne
      exact h.created u ((List.mem_cons.mp hu).resolve_left hne)

theorem lookup_setGroups_self {db : Db} {v : Text} {r : VnicRecord} (hr : db.vnics.lookup v = some r)
    (f : List Text → List Text) : (db.setGroups v f).vnics.lookup v =
      some { r with vnic := { r.vnic with securityGroups := f r.vnic.securityGroups } } := by
  rw [db.lookup_setGroups, if_pos rfl, hr, Option.map_some]

/-- A change of the groups of a created vnic, with what the cache makes of it. -/
theorem ok_setGroups (h : w.Ok nodeId) {v : Text} {r : VnicRecord}
    (hr : w.db.vnics.lookup v = some r) (hv : v ∈ w.created) {f : List Text → List Text} {c : Cache}
    (hothers : Others nodeId (w.db.setGroups v f) w.created v w.cache →
      Others nodeId (w.db.setGroups v f) w.created v c)
    (hstored : r.live nodeId = true →
      StoredAs c v { r.vnic with securityGroups := f r.vnic.securityGroups })
    (hgroups : ∀ g ∈ f r.vnic.securityGroups, (w.db.groups.lookup g).isSome = true) :
    CacheWorld.Ok nodeId ⟨w.db.setGroups v f, c, w.created⟩ := by
  have hsame : ∀ u, u ≠ v → (w.db.setGroups v f).vnics.lookup u = w.db.vnics.lookup u := by
    intro u hu
    rw [w.db.lookup_setGroups, if_neg hu]
  have hmine := lookup_setGroups_self hr f
  refine ok_of_others (v := v) (hothers (h.others hsame fun _ _ => Iff.rfl)) ?_
    (fun hx => absurd hv hx) ?_ ?_
  · intro _
    refine ⟨by rw [hmine]; rfl, ?_⟩
    intro r' hr' hl
    rw [hmine] at hr'
    cases hr'
    exact hstored hl
  · intro u hu hne
    rw [hsame u hne]
    exact h.created u hu
  · intro u r' hr' g hg
    by_cases hu : u = v
    · rw [hu, hmine] at hr'
      cases hr'
      exact hgroups g hg
    · rw [hsame u hu] at hr'
      exact h.groups u r' hr' g hg

theorem ok_joined (h : w.Ok nodeId) {v g : Text}
    (hf : (CacheCall.addVnicToSecurityGroup v g).Fits nodeId w) :
    (w.step nodeId (.addVnicToSecurityGroup v g)).Ok nodeId := by
  unfold CacheWorld.step
  dsimp only
  split
  · exact h
  case h_2 r hr =>
    split
    case isFalse => exact h
    case isTrue hcond =>
      obtain ⟨hv, hout, hgroup⟩ := hcond
      refine ok_setGroups h hr hv
        ((keeps_addVnicToSecurityGroup_others g).at_final ⟨w.cache, ∅⟩) (fun hl => ?_) fun x hx => ?_
      · obtain ⟨hne, hfetch⟩ := hf r hr hv hl hout
        exact joined_stored (lookup_setGroups_self hr _) hl hne rfl hgroup hfetch
          (h.stored v hv r hr hl)
      · rcases List.mem_append.mp hx with hx | hx
        · exact h.groups v r hr x hx
        · rw [List.mem_singleton.mp hx]
          exact hgroup

theorem ok_left (h : w.Ok nodeId) {v g : Text} (hf : (CacheCall.leftGroup v g).Fits nodeId w) :
    (w.step nodeId (.leftGroup v g)).Ok nodeId := by
  unfold CacheWorld.step
  dsimp only
  split
  · exact h
  case h_2 r hr =>
    split
    case isFalse => exact h
    case isTrue hcond =>
      obtain ⟨hv, hin⟩ := hcond
      refine ok_setGroups h hr hv
        ((keeps_leftGroupCalls_others g).at_final ⟨w.cache, ∅⟩) (fun hl => ?_) fun x hx => ?_
      · exact left_stored (h.stored v hv r hr hl) (List.contains_iff_mem.mp hin) (hf r hr hv hl hin)
      · exact h.groups v r hr x (List.mem_of_mem_filter hx)

theorem ok_removeVnic (h : w.Ok nodeId) (v : Text) :
    (w.step nodeId (.removeVnic v)).Ok nodeId := by
  have hsame : ∀ u, u ≠ v → AList.lookup u (AList.erase v w.db.vnics) = w.db.vnics.lookup u := by
    intro u hu
    rw [Hash.lookup_erase, if_neg hu]
  have hout : v ∉ w.created.filter fun u => u != v := by simp
  have hothers : Others nodeId { w.db with vnics := AList.erase v w.db.vnics }
      (w.created.filter fun u => u != v) v w.cache := by
    apply h.others hsame
    intro u hu
    simp [hu]
  refine ok_of_others (v := v) (hothers.congr ?_ ?_) (fun hx => absurd hx hout) ?_ ?_ ?_
  · intro u hu
    show AList.lookup u (AList.erase v w.cache.emptyVnics) = _
    rw [Hash.lookup_erase, if_neg hu]
  · intro g u hu
    rw [localDoc_removeVnic, if_neg hu]
  · intro _
    refine ⟨?_, ?_⟩
    · show AList.lookup v (AList.erase v w.cache.emptyVnics) = none
      rw [Hash.lookup_erase, if_pos rfl]
    · intro g e he
      rw [localDoc_removeVnic, if_pos rfl] at he
      cases he
  · intro u hu hne
    show (AList.lookup u (AList.erase v w.db.vnics)).isSome = true
    rw [hsame u hne]
    exact h.created u (List.mem_of_mem_filter hu)
  · intro u r hr g hg
    replace hr : AList.lookup u (AList.erase v w.db.vnics) = some r := hr
    by_cases hu : u = v
    · rw [hu, Hash.lookup_erase, if_pos rfl] at hr
      cases hr
    · rw [hsame u hu] at hr
      exact h.groups u r hr g hg

theorem ok_cacheCall (h : w.Ok nodeId) {call : CacheCall} (hf : call.Fits nodeId w) :
    (w.step nodeId call).Ok nodeId := by
  cases call with
  | startVnic v r => exact ok_startVnic h v r
  | addVnic v => exact ok_addVnic h hf
  | addVnicToSecurityGroup v g => exact ok_joined h hf
  | leftGroup v g => exact ok_left h hf
  | removeVnic v => exact ok_removeVnic h v

end

/-- The cache as `update` fills it, with the vnics it asks for. -/
def CacheWorld.start (nodeId : Text) (db : Db) : CacheWorld where
  db := db
  cache := db.getNetfilterData nodeId
  created := db.vnics.keys.filter fun v => (db.vnics.lookup v).any fun r => Db.startsWith r nodeId

def Db.GroupsExist (db : Db) : Prop :=
  ∀ v r, db.vnics.lookup v = some r → ∀ g ∈ r.vnic.securityGroups,
    (db.groups.lookup g).isSome = true

theorem mem_created_start {nodeId : Text} {db : Db} {v : Text} {r : VnicRecord}
    (hr : db.vnics.lookup v = some r) :
    v ∈ (CacheWorld.start nodeId db).created ↔ Db.startsWith r nodeId = true := by
  unfold CacheWorld.start
  rw [List.mem_filter, hr]
  simp only [Option.any_some, and_iff_right_iff_imp]
  intro _
  apply AList.lookup_isSome.mp
  rw [hr]
  rfl

theorem localDoc_start {nodeId : Text} {db : Db} {g v : Text} {e : VnicMap} :
    (db.getNetfilterData nodeId).localDoc g v = some e ↔ (db.groups.lookup g).isSome = true ∧
      ((Hash.values db.vnics).any fun r => Db.startsWith r nodeId && r.inGroup g) = true ∧
      ∃ r, db.vnics.lookup v = some r ∧ r.vnic = e ∧ r.inGroup g = true ∧ r.live nodeId = true := by
  unfold Cache.localDoc Db.getNetfilterData
  rw [Hash.lookup_mapVals, Hash.lookup_filterVals]
  cases db.groups.lookup g with
  | none => simp
  | some rules =>
    rw [Option.filter_some]
    split
    case isTrue hany =>
      rw [Option.map_some, Option.bind_some, lookup_liveVnics]
      simp [hany]
    case isFalse hany => simp [hany]

theorem ok_start {nodeId : Text} {db : Db} (hdb : db.GroupsExist) :
    (CacheWorld.start nodeId db).Ok nodeId := by
  have hempty : ∀ v r, db.vnics.lookup v = some r →
      (db.getNetfilterData nodeId).emptyVnics.lookup v =
        if Db.startsWith r nodeId = true ∧ r.vnic.securityGroups = [] then some r.vnic else none := by
    intro v r hr
    unfold Db.getNetfilterData
    rw [Hash.lookup_mapVals, Hash.lookup_filterVals, hr, Option.filter_some]
    simp only [Bool.and_eq_true, List.isEmpty_iff]
    split
    · rfl
    · rfl
  refine ⟨?_, ?_, ?_, hdb⟩
  · intro v hv r hr hl
    replace hr : db.vnics.lookup v = some r := hr
    have hstarts := (mem_created_start hr).mp hv
    refine ⟨?_, ?_⟩
    · refine (hempty v r hr).trans ?_
      simp only [hstarts, true_and]
    · intro g
      by_cases hg : g ∈ r.vnic.securityGroups
      · rw [if_pos hg]
        have hin : r.inGroup g = true := List.contains_iff_mem.mpr hg
        refine localDoc_start.mpr ⟨hdb v r hr g hg, ?_, r, hr, rfl, hin, hl⟩
        rw [List.any_eq_true]
        exact ⟨r, Hash.mem_values.mpr ⟨v, hr⟩, by rw [hstarts, hin]; rfl⟩
      · rw [if_neg hg]
        apply Option.eq_none_iff_forall_ne_some.mpr
        intro e he
        obtain ⟨_, _, r', hr', _, hin, _⟩ := localDoc_start.mp he
        rw [hr] at hr'
        cases hr'
        exact hg (List.contains_iff_mem.mp hin)
  · intro v hv
    refine ⟨?_, ?_⟩
    · cases hr : db.vnics.lookup v with
      | none =>
        show (Hash.mapVals _ (Hash.filterVals _ db.vnics)).lookup v = none
        rw [Hash.lookup_mapVals, Hash.lookup_filterVals, hr]
        rfl
      | some r =>
        refine (hempty v r hr).trans ?_
        rw [if_neg]
        exact fun h => hv ((mem_created_start hr).mpr h.1)
    · intro g e he
      obtain ⟨_, _, r, hr, hre, hin, _⟩ := localDoc_start.mp he
      exact ⟨r, hr, hre.symm, hre ▸ List.contains_iff_mem.mp hin⟩
  · intro v hv
    exact AList.lookup_isSome.mpr (List.mem_of_mem_filter hv)

/-- From the start of the node on, as long as no vnic moves between "no group"
and "some group", every live local vnic is stored in exactly one of the two
places, with its current data, and found there. -/
theorem vnics_partitioned {nodeId : Text} {db : Db} {calls : List CacheCall}
    (hdb : db.GroupsExist)
    (h : Each (CacheWorld.step nodeId) (fun w call => call.Fits nodeId w)
      (CacheWorld.start nodeId db) calls) :
    Partitioned nodeId (calls.foldl (CacheWorld.step nodeId) (CacheWorld.start nodeId db)) :=
  (h.invariant (CacheWorld.Ok nodeId) (fun _ _ hw hf => ok_cacheCall hw hf)
    (ok_start hdb)).partitioned

/-! ### Runs of one vnic -/

theorem fetches_of_networks {nodeId : Text} {db : Db} (c : Cache) (g : Text)
    (h : ∀ r ∈ Hash.values db.vnics, (r.vnic.networkId.bind db.networks.lookup).isSome = true) :
    Fetches nodeId db c g :=
  Or.inr fun u _ hr _ _ => Or.inr (h _ (Hash.mem_values.mpr ⟨u, hr⟩))

/-- Two groups without rules and a network, and no vnic yet. -/
def twoEmptyGroups : Db where
  vnics := ∅
  groups := AList.insert "sg-1".toList [] (AList.insert "sg-2".toList [] ∅)
  networks := AList.insert "nw-demo".toList ⟨.securityGroup⟩ ∅
  references := []

theorem twoEmptyGroups_exist : twoEmptyGroups.GroupsExist := by
  intro v r hr
  cases hr

def createVnic (groups : List Text) : List CacheCall :=
  [.startVnic "vif-a".toList (runningVnic "vif-a".toList "hva.1".toList 1 groups),
    .addVnic "vif-a".toList]

def twoEmptyGroupsAfter (calls : List CacheCall) : CacheWorld :=
  calls.foldl (CacheWorld.step "hva.1".toList) (CacheWorld.start "hva.1".toList twoEmptyGroups)

/-- A vnic that joins a second group before it leaves the first one. -/
theorem vnics_partitioned_second_group :
    Partitioned "hva.1".toList (twoEmptyGroupsAfter (createVnic ["sg-1".toList] ++
      [.addVnicToSecurityGroup "vif-a".toList "sg-2".toList,
        .leftGroup "vif-a".toList "sg-1".toList, .removeVnic "vif-a".toList])) := by
  refine vnics_partitioned twoEmptyGroups_exist ⟨trivial, ?_, ?_, ?_, trivial, trivial⟩
  · intro r hr _ g hg
    cases hr
    cases hg
  · intro r hr _ _ _
    cases hr
    exact ⟨by decide, fetches_of_networks _ _ (by decide +kernel)⟩
  · intro r hr _ _ _
    cases hr
    decide

/-- A vnic that joins its first group stands in both places, and one that leaves
its last group in neither. -/
theorem moved_vnic_misplaced :
    ¬ Partitioned "hva.1".toList (twoEmptyGroupsAfter (createVnic [] ++
      [.addVnicToSecurityGroup "vif-a".toList "sg-1".toList])) ∧
    ¬ Partitioned "hva.1".toList (twoEmptyGroupsAfter (createVnic ["sg-1".toList] ++
      [.leftGroup "vif-a".toList "sg-1".toList])) := by
  refine ⟨?_, ?_⟩
  · intro h
    have hs := h "vif-a".toList (by decide +kernel) _ rfl (by decide +kernel)
    exact absurd hs.1.empty (by decide +kernel)
  · intro h
    have hs := h "vif-a".toList (by decide +kernel) _ rfl (by decide +kernel)
    exact absurd hs.1.empty (by decide +kernel)

end Netfilter

end WakameVdc
