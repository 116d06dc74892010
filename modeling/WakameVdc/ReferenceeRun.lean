import WakameVdc.ReferenceeJoin

/-!
# Referencees along a run

A run changes the database, and delivers the events of a change one by one
before the next change. In every state of a run whose vnics join and leave
cleanly, the referencees of the cache are the members of the database.
-/

namespace WakameVdc

open Lib

namespace Netfilter

/-! ## The database and the node -/

structure World where
  db : Db
  node : Node
  pending : List Event

inductive Step
  | change (cause : Cause)
  | deliver

/-- The database is changed only after the events of the last change are handled,
so that the collector answers from the state that caused them. -/
def World.step (nodeId : Text) (w : World) : Step → World
  | .change cause =>
    match w.pending with
    | [] => { db := (cause.run nodeId w.db).1, node := w.node, pending := (cause.run nodeId w.db).2 }
    | _ :: _ => w
  | .deliver =>
    match w.pending with
    | [] => w
    | e :: es => { w with node := Proc.final (e.handler w.db nodeId) w.node, pending := es }

/-- The node after `NetfilterCache#update`. -/
def World.start (nodeId : Text) (db : Db) (chains : Hash Text (List Ipv4)) : World where
  db := db
  node := ⟨db.getNetfilterData nodeId, chains⟩
  pending := []

/-! ## What a change publishes -/

def Event.HoldsIn (db : Db) : Event → Prop
  | vnicJoined r v => db.isMember r v
  | joinedGroup v g => db.isMember g v
  | vnicLeft r v => ¬ db.isMember r v
  | leftGroup v g => ¬ db.isMember g v
  | vnicDestroyed v => ∀ g, ¬ db.isMember g v
  | vnicCreated _ | referencerAdded _ _ | referencerRemoved _ _ | rulesUpdated _ => True

/-- A change publishes what it does to memberships and rules. -/
structure Published (db : Db) (p : Db × List Event) : Prop where
  wf : p.1.Wf
  stored : ∀ g, (db.groups.lookup g).isSome = true → (p.1.groups.lookup g).isSome = true
  rules : ∀ g, Event.rulesUpdated g ∉ p.2 → p.1.groups.lookup g = db.groups.lookup g
  members : ∀ r v, ¬ Awaited p.2 r v → (p.1.isMember r v ↔ db.isMember r v)
  holds : ∀ e ∈ p.2, e.HoldsIn p.1
  updates : ∀ g, Event.rulesUpdated g ∉ p.2.tail

section
variable {db : Db}

theorem published_nothing (hwf : db.Wf) : Published db (db, []) where
  wf := hwf
  stored := fun _ h => h
  rules := fun _ _ => rfl
  members := fun _ _ _ => Iff.rfl
  holds := fun _ he => absurd he List.not_mem_nil
  updates := fun _ => List.not_mem_nil

theorem isMember_insert {v : Text} {record : VnicRecord} {r u : Text} :
    Db.isMember { db with vnics := AList.insert v record db.vnics } r u ↔
      (u = v ∧ record.inGroup r = true) ∨ (u ≠ v ∧ db.isMember r u) := by
  unfold Db.isMember
  simp only [Hash.lookup_insert]
  by_cases hu : u = v
  · simp [hu]
  · simp [hu]

theorem isMember_erase {v r u : Text} :
    Db.isMember { db with vnics := AList.erase v db.vnics } r u ↔ u ≠ v ∧ db.isMember r u := by
  unfold Db.isMember
  simp only [Hash.lookup_erase]
  by_cases hu : u = v
  · simp [hu]
  · simp [hu]

theorem isMember_setGroups {v r u : Text} {f : List Text → List Text} {record : VnicRecord}
    (hv : db.vnics.lookup v = some record) : (db.setGroups v f).isMember r u ↔
      (u = v ∧ r ∈ f record.vnic.securityGroups) ∨ (u ≠ v ∧ db.isMember r u) := by
  unfold Db.isMember Db.setGroups
  simp only [Hash.lookup_modify]
  by_cases hu : u = v
  · rw [hu]
    simp [hv, VnicRecord.inGroup]
  · simp [hu]

/-- An event for the vnic itself, where it is here, and one for each of some groups. -/
theorem forall_mem_told {P : Event → Prop} {here : Bool} {e : Event} {refs : List Text}
    {told : Text → Event} (he : P e) (hrefs : ∀ ref, P (told ref)) :
    ∀ e' ∈ (if here then [e] else []) ++ refs.map told, P e' := by
  intro e' he'
  rcases List.mem_append.mp he' with he' | he'
  · split at he'
    · rw [List.mem_singleton.mp he']
      exact he
    · cases he'
  · obtain ⟨ref, _, rfl⟩ := List.mem_map.mp he'
    exact hrefs ref

/-! ### Instances -/

/-- An instance that starts publishes the memberships of its vnics. -/
structure Started (db : Db) (p : Db × List Event) : Prop where
  wf : p.1.Wf
  groups : p.1.groups = db.groups
  members : ∀ r v, p.1.isMember r v ↔ db.isMember r v ∨ Event.vnicJoined r v ∈ p.2
  events : ∀ e ∈ p.2, (∃ v, e = Event.vnicCreated v) ∨ ∃ r v, e = Event.vnicJoined r v

theorem mem_startEvents {here : Bool} {v r u : Text} {groups : List Text} :
    Event.vnicJoined r u ∈ (if here then [Event.vnicCreated v] else []) ++
      groups.map (fun g => Event.vnicJoined g v) ↔ u = v ∧ r ∈ groups := by
  cases here with
  | true => simp [eq_comm, and_comm]
  | false => simp [eq_comm, and_comm]

theorem Started.startVnic {p : Db × List Event} (h : Started db p) (nodeId v : Text)
    (record : VnicRecord) : Started db ((Db.startVnic nodeId p.1 v record).1,
      p.2 ++ (Db.startVnic nodeId p.1 v record).2) := by
  unfold Db.startVnic
  split
  · rename_i hacc
    simp only [Db.accepts, Bool.and_eq_true, Option.isNone_iff_eq_none] at hacc
    obtain ⟨⟨hnew, _⟩, hgroups⟩ := hacc
    have hno : ∀ r, ¬ p.1.isMember r v := by
      intro r ⟨old, ho, _⟩
      rw [hnew] at ho
      cases ho
    refine ⟨⟨?_, h.wf.recorded⟩, h.groups, ?_, ?_⟩
    · intro g u hm
      rcases isMember_insert.mp hm with ⟨_, hg⟩ | ⟨_, hold⟩
      · exact List.all_eq_true.mp hgroups g (List.contains_iff_mem.mp hg)
      · exact h.wf.exist g u hold
    · intro r u
      rw [isMember_insert, List.mem_append, mem_startEvents]
      by_cases hu : u = v
      · have hold := hno r
        rw [h.members] at hold
        rw [hu]
        simp only [VnicRecord.inGroup, List.contains_iff_mem, true_and, ne_eq, not_true_eq_false,
          false_and, or_false]
        constructor
        · intro hr
          exact Or.inr (Or.inr hr)
        · intro hx
          rcases hx with hx | hx | hx
          · exact absurd (Or.inl hx) hold
          · exact absurd (Or.inr hx) hold
          · exact hx
      · simp only [hu, false_and, false_or, or_false, ne_eq, not_false_eq_true, true_and]
        exact h.members r u
    · refine List.forall_mem_append.mpr ⟨h.events, ?_⟩
      exact forall_mem_told (Or.inl ⟨v, rfl⟩) fun g => Or.inr ⟨g, v, rfl⟩
  · rw [List.append_nil]
    exact h

theorem Started.published {p : Db × List Event} (h : Started db p) : Published db p := by
  have hno : ∀ g, Event.rulesUpdated g ∉ p.2 := by
    intro g hg
    rcases h.events _ hg with ⟨v, hv⟩ | ⟨r, v, hv⟩
    · cases hv
    · cases hv
  refine ⟨h.wf, ?_, ?_, ?_, ?_, ?_⟩
  · intro g hg
    rw [h.groups]
    exact hg
  · intro g _
    rw [h.groups]
  · intro r v hw
    rw [h.members]
    constructor
    · intro hx
      rcases hx with hx | hx
      · exact hx
      · exact absurd (Or.inl hx) hw
    · exact Or.inl
  · intro e he
    rcases h.events e he with ⟨v, hv⟩ | ⟨r, v, hv⟩
    · rw [hv]
      trivial
    · rw [hv] at he ⊢
      exact (h.members r v).mpr (Or.inr he)
  · intro g hg
    exact hno g (List.mem_of_mem_tail hg)

/-- An instance that terminates publishes that its vnics left their groups. -/
structure Terminated (db : Db) (p : Db × List Event) : Prop where
  groups : p.1.groups = db.groups
  references : p.1.references = db.references
  members : ∀ r v, p.1.isMember r v ↔ db.isMember r v ∧ Event.vnicLeft r v ∉ p.2
  events : ∀ e ∈ p.2, (∃ v, e = Event.vnicDestroyed v ∧ p.1.vnics.lookup v = none) ∨
    ∃ r v, e = Event.vnicLeft r v

theorem mem_terminateEvents {here : Bool} {v r u : Text} {groups : List Text} :
    Event.vnicLeft r u ∈ (if here then [Event.vnicDestroyed v] else []) ++
      groups.map (fun g => Event.vnicLeft g v) ↔ u = v ∧ r ∈ groups := by
  cases here with
  | true => simp [eq_comm, and_comm]
  | false => simp [eq_comm, and_comm]

theorem Terminated.terminateVnic {p : Db × List Event} (h : Terminated db p) (nodeId v : Text) :
    Terminated db ((Db.terminateVnic nodeId p.1 v).1, p.2 ++ (Db.terminateVnic nodeId p.1 v).2) := by
  unfold Db.terminateVnic
  split
  · rw [List.append_nil]
    exact h
  · rename_i record hv
    refine ⟨h.groups, h.references, ?_, ?_⟩
    · intro r u
      rw [isMember_erase, List.mem_append, mem_terminateEvents, h.members]
      by_cases hu : u = v
      · rw [hu]
        constructor
        · intro hx
          exact absurd rfl hx.1
        · intro ⟨hm, hx⟩
          obtain ⟨old, ho, hg⟩ := (h.members r v).mpr ⟨hm, fun hl => hx (Or.inl hl)⟩
          rw [hv] at ho
          cases ho
          exact absurd (Or.inr ⟨rfl, List.contains_iff_mem.mp hg⟩) hx
      · simp only [hu, false_and, or_false, ne_eq, not_false_eq_true, true_and]
    · refine List.forall_mem_append.mpr ⟨fun e he => ?_, ?_⟩
      · rcases h.events e he with ⟨u, hu, hl⟩ | hx
        · refine Or.inl ⟨u, hu, ?_⟩
          rw [Hash.lookup_erase, hl, ite_self]
        · exact Or.inr hx
      · refine forall_mem_told (Or.inl ⟨v, rfl, ?_⟩) fun g => Or.inr ⟨g, v, rfl⟩
        rw [Hash.lookup_erase, if_pos rfl]

theorem Terminated.published (hwf : db.Wf) {p : Db × List Event} (h : Terminated db p) :
    Published db p := by
  have hno : ∀ g, Event.rulesUpdated g ∉ p.2 := by
    intro g hg
    rcases h.events _ hg with ⟨v, hv, _⟩ | ⟨r, v, hv⟩
    · cases hv
    · cases hv
  refine ⟨⟨?_, ?_⟩, ?_, ?_, ?_, ?_, ?_⟩
  · intro g v hm
    rw [h.groups]
    exact hwf.exist g v ((h.members g v).mp hm).1
  · unfold Db.Recorded
    rw [h.groups, h.references]
    exact hwf.recorded
  · intro g hg
    rw [h.groups]
    exact hg
  · intro g _
    rw [h.groups]
  · intro r v hw
    rw [h.members]
    constructor
    · intro hx
      exact hx.1
    · intro hx
      exact ⟨hx, fun hl => hw (Or.inr hl)⟩
  · intro e he
    rcases h.events e he with ⟨v, hv, hl⟩ | ⟨r, v, hv⟩
    · rw [hv]
      intro g ⟨old, ho, _⟩
      rw [hl] at ho
      cases ho
    · rw [hv] at he ⊢
      intro hm
      exact ((h.members r v).mp hm).2 he
  · intro g hg
    exact hno g (List.mem_of_mem_tail hg)

/-! ### Groups -/

/-- A vnic keeps its memberships of the groups that a change of its groups is not about. -/
theorem isMember_setGroups_iff {v r u : Text} {f : List Text → List Text} {record : VnicRecord}
    (hv : db.vnics.lookup v = some record)
    (hf : u = v → (r ∈ f record.vnic.securityGroups ↔ r ∈ record.vnic.securityGroups)) :
    (db.setGroups v f).isMember r u ↔ db.isMember r u := by
  rw [isMember_setGroups hv]
  by_cases hu : u = v
  · have hmine : db.isMember r v ↔ r ∈ record.vnic.securityGroups := by
      constructor
      · intro ⟨old, ho, hm⟩
        rw [hv] at ho
        cases ho
        exact List.contains_iff_mem.mp hm
      · intro hm
        exact ⟨record, hv, List.contains_iff_mem.mpr hm⟩
    rw [hu, hmine, ← hf hu]
    simp
  · simp only [hu, false_and, false_or, ne_eq, not_false_eq_true, true_and]

theorem published_addSecurityGroup (hwf : db.Wf) (nodeId v g : Text) :
    Published db ((Cause.addSecurityGroup v g).run nodeId db) := by
  simp only [Cause.run]
  split
  · rename_i record rules hv hg
    split
    · exact published_nothing hwf
    · have hmem : (db.setGroups v fun gs => gs ++ [g]).isMember g v :=
        (isMember_setGroups hv).mpr (Or.inl ⟨rfl, List.mem_append_right _ List.mem_cons_self⟩)
      refine ⟨⟨?_, hwf.recorded⟩, fun _ h => h, fun _ _ => rfl, ?_, ?_, ?_⟩
      · intro g' u hm
        rcases (isMember_setGroups hv).mp hm with ⟨hu, hm⟩ | ⟨_, hm⟩
        · rcases List.mem_append.mp hm with hm | hm
          · exact hwf.exist g' v ⟨record, hv, List.contains_iff_mem.mpr hm⟩
          · show (db.groups.lookup g').isSome = true
            rw [List.mem_singleton.mp hm, hg]
            rfl
        · exact hwf.exist g' u hm
      · intro r u hw
        refine isMember_setGroups_iff hv fun hu => ?_
        have hr : r ≠ g := by
          intro hr
          rw [hr, hu] at hw
          exact hw (Or.inl List.mem_cons_self)
        simp [hr]
      · exact List.forall_mem_cons.mpr ⟨hmem, forall_mem_told hmem fun _ => trivial⟩
      · intro g' he
        refine forall_mem_told (P := (· ≠ Event.rulesUpdated g')) ?_ (fun _ => ?_) _ he rfl
        · exact nofun
        · exact nofun
  · exact published_nothing hwf

theorem published_removeSecurityGroup (hwf : db.Wf) (nodeId v g : Text) :
    Published db ((Cause.removeSecurityGroup v g).run nodeId db) := by
  simp only [Cause.run]
  split
  · rename_i record rules hv hg
    split
    · have hno : ¬ (db.setGroups v fun gs => gs.filter fun x => x != g).isMember g v := by
        rw [isMember_setGroups hv]
        simp
      refine ⟨⟨?_, hwf.recorded⟩, fun _ h => h, fun _ _ => rfl, ?_, ?_, ?_⟩
      · intro g' u hm
        rcases (isMember_setGroups hv).mp hm with ⟨hu, hm⟩ | ⟨_, hm⟩
        · exact hwf.exist g' v ⟨record, hv, List.contains_iff_mem.mpr (List.mem_filter.mp hm).1⟩
        · exact hwf.exist g' u hm
      · intro r u hw
        refine isMember_setGroups_iff hv fun hu => ?_
        have hr : r ≠ g := by
          intro hr
          rw [hr, hu] at hw
          exact hw (Or.inr List.mem_cons_self)
        simp [hr]
      · exact List.forall_mem_cons.mpr ⟨hno, forall_mem_told hno fun _ => trivial⟩
      · intro g' he
        refine forall_mem_told (P := (· ≠ Event.rulesUpdated g')) ?_ (fun _ => ?_) _ he rfl
        · exact nofun
        · exact nofun
    · exact published_nothing hwf
  · exact published_nothing hwf

theorem Db.Recorded.saveRules (h : db.Recorded) {g : Text} (hg : (db.groups.lookup g).isSome = true)
    (rules : List ParsedRule) (others : List Text) : (db.saveRules g rules others).Recorded := by
  intro g' rules' hg' r hr hx
  have hstored : (db.groups.lookup r).isSome = true := by
    rcases (Hash.isSome_lookup_insert g rules db.groups r).mp hx with hx | hx
    · exact hx
    · rw [hx]
      exact hg
  replace hg' : (AList.insert g rules db.groups : Hash Text (List ParsedRule)).lookup g' = _ := hg'
  rw [Hash.lookup_insert] at hg'
  show (g', r) ∈ db.references.filter _ ++ List.map _ _
  rw [List.mem_append]
  split at hg'
  · rename_i he
    cases hg'
    rw [he]
    right
    exact List.mem_map_of_mem (List.mem_filter.mpr ⟨List.mem_append_left _ hr, hstored⟩)
  · rename_i hne
    left
    exact List.mem_filter.mpr ⟨h g' rules' hg' r hr hstored, bne_iff_ne.mpr hne⟩

theorem published_updateRules (hwf : db.Wf) (nodeId g : Text) (rules : List ParsedRule)
    (others : List Text) : Published db ((Cause.updateRules g rules others).run nodeId db) := by
  have hstored : ∀ g', (db.groups.lookup g').isSome = true →
      ((AList.insert g rules db.groups : Hash Text (List ParsedRule)).lookup g').isSome = true :=
    fun g' hg' => (Hash.isSome_lookup_insert g rules db.groups g').mpr (Or.inl hg')
  simp only [Cause.run]
  split
  · rename_i hg
    refine ⟨⟨fun g' v hm => hstored g' (hwf.exist g' v hm), hwf.recorded.saveRules hg rules others⟩,
      hstored, ?_, fun _ _ _ => Iff.rfl, ?_, ?_⟩
    · intro g' hno
      show (AList.insert g rules db.groups : Hash Text (List ParsedRule)).lookup g' = _
      rw [Hash.lookup_insert, if_neg]
      intro he
      rw [he] at hno
      exact hno List.mem_cons_self
    · intro e he
      rcases List.mem_append.mp he with he | he
      · rcases List.mem_cons.mp he with he | he
        · rw [he]
          trivial
        · obtain ⟨ref, _, hr⟩ := List.mem_map.mp he
          rw [← hr]
          trivial
      · obtain ⟨ref, _, hr⟩ := List.mem_map.mp he
        rw [← hr]
        trivial
    · intro g' he
      rcases List.mem_append.mp he with he | he
      · obtain ⟨ref, _, hr⟩ := List.mem_map.mp he
        cases hr
      · obtain ⟨ref, _, hr⟩ := List.mem_map.mp he
        cases hr
  · exact published_nothing hwf

theorem published_run (hwf : db.Wf) (nodeId : Text) (cause : Cause) :
    Published db (cause.run nodeId db) := by
  cases cause with
  | startInstance vnics =>
    apply Started.published
    apply invariant (Started db) (fun p v h => h.startVnic nodeId v.1 v.2) vnics
    exact ⟨hwf, rfl, fun r v => by simp, fun e he => absurd he List.not_mem_nil⟩
  | terminateInstance vnicIds =>
    apply Terminated.published hwf
    apply invariant (Terminated db) (fun p v h => h.terminateVnic nodeId v) vnicIds
    exact ⟨rfl, rfl, fun r v => by simp, fun e he => absurd he List.not_mem_nil⟩
  | addSecurityGroup v g => exact published_addSecurityGroup hwf nodeId v g
  | removeSecurityGroup v g => exact published_removeSecurityGroup hwf nodeId v g
  | updateRules g rules others => exact published_updateRules hwf nodeId g rules others

/-! ## Invariants of a run -/

def Event.Fits (db : Db) (c : Cache) : Event → Prop
  | vnicJoined r v => JoinFits db c r v
  | vnicLeft r v => LeaveFits c r v
  | _ => True

def Fits (w : World) : Step → Prop
  | .change _ => True
  | .deliver => ∀ e ∈ w.pending.head?, e.Fits w.db w.node.cache

instance (db : Db) (c : Cache) : (e : Event) → Decidable (e.Fits db c)
  | .vnicJoined r v => inferInstanceAs (Decidable (JoinFits db c r v))
  | .vnicLeft r v => inferInstanceAs (Decidable (LeaveFits c r v))
  | .vnicCreated _ | .vnicDestroyed _ | .joinedGroup _ _ | .leftGroup _ _
  | .referencerAdded _ _ | .referencerRemoved _ _ | .rulesUpdated _ => .isTrue trivial

instance (w : World) : (s : Step) → Decidable (Fits w s)
  | .change _ => .isTrue trivial
  | .deliver => inferInstanceAs (Decidable (∀ e ∈ w.pending.head?, e.Fits w.db w.node.cache))

/-- Where no event is awaited, a local group lists the members of every group
its rules name. -/
def Synced (w : World) : Prop :=
  ∀ g group rules, w.node.cache.securityGroups.lookup g = some group →
    w.db.groups.lookup g = some rules → Event.rulesUpdated g ∉ w.pending →
    ∀ r ∈ ruleGroups rules, ∀ v, ¬ Awaited w.pending r v →
      (GroupMap.refers group r v ↔ w.db.isMember r v)

structure WorldOk (w : World) : Prop where
  wf : w.db.Wf
  node : NodeOk w.db w.pending w.node
  holds : ∀ e ∈ w.pending, e.HoldsIn w.db
  updates : ∀ g, Event.rulesUpdated g ∉ w.pending.tail

theorem WorldOk.synced {w : World} (h : WorldOk w) : Synced w := by
  intro g group rules hg hr hno r hmem v hw
  have hok := h.node g group hg
  rcases hok.rules with hx | hx
  · exact absurd hx hno
  · rw [hr] at hx
    cases hx
    exact hok.referencees r hmem v hw

theorem worldOk_start (hwf : db.Wf) (nodeId : Text) (chains : Hash Text (List Ipv4)) :
    WorldOk (World.start nodeId db chains) where
  wf := hwf
  node := CacheOk.getNetfilterData hwf nodeId
  holds := fun _ he => absurd he List.not_mem_nil
  updates := fun _ => List.not_mem_nil

/-- The pairs a change leaves right are those it publishes nothing about. -/
theorem nodeOk_published {p : Db × List Event} {node : Node} (hp : Published db p)
    (h : NodeOk db [] node) : NodeOk p.1 p.2 node := by
  intro g group hg
  have hok := h g group hg
  refine ⟨hp.stored g hok.stored, ?_, ?_⟩
  · rcases hok.rules with hr | hr
    · cases hr
    · by_cases hu : Event.rulesUpdated g ∈ p.2
      · exact Or.inl hu
      · rw [hp.rules g hu]
        exact Or.inr hr
  · intro r hr v hw
    have hnone : ¬ Awaited [] r v := by
      intro hx
      rcases hx with hx | hx
      · cases hx
      · cases hx
    rw [hp.members r v hw]
    exact hok.referencees r hr v hnone

theorem worldOk_change {w : World} (h : WorldOk w) (nodeId : Text) (cause : Cause) :
    WorldOk (w.step nodeId (.change cause)) := by
  unfold World.step
  cases hpend : w.pending with
  | cons e es => exact h
  | nil =>
    have hp := published_run h.wf nodeId cause
    have hnode := h.node
    rw [hpend] at hnode
    exact ⟨hp.wf, nodeOk_published hp hnode, hp.holds, hp.updates⟩

theorem handler_ok {e : Event} {es : List Event} {node : Node} (hwf : db.Wf)
    (h : NodeOk db (e :: es) node) (hholds : e.HoldsIn db)
    (hupdates : ∀ g, Event.rulesUpdated g ∉ es) (hfit : e.Fits db node.cache) (nodeId : Text) :
    NodeOk db es (Proc.final (e.handler db nodeId) node) := by
  cases e with
  | vnicJoined r v => exact vnicJoined_ok hwf h hholds hfit
  | vnicLeft r v => exact vnicLeft_ok h hholds hfit
  | rulesUpdated g => exact rulesUpdated_ok hwf h
  | vnicCreated v =>
    apply (keeps_vnicCreated hwf nodeId v).at_final
    exact h.handled (by simp) (by simp) (by simp)
  | vnicDestroyed v =>
    apply (keeps_vnicDestroyed hholds).at_final
    exact h.handled (by simp) (by simp) (by simp)
  | joinedGroup v g =>
    apply (keeps_joinedGroup hwf nodeId hholds).at_final
    exact h.handled (by simp) (by simp) (by simp)
  | leftGroup v g =>
    apply (keeps_leftGroup hholds).at_final
    exact h.handled (by simp) (by simp) (by simp)
  | referencerAdded g r =>
    apply (keeps_referencerAdded hwf r (hupdates g)).at_final
    exact h.handled (by simp) (by simp) (by simp)
  | referencerRemoved g r =>
    apply (keeps_referencerRemoved hwf r (hupdates g)).at_final
    exact h.handled (by simp) (by simp) (by simp)

theorem worldOk_deliver {w : World} (h : WorldOk w) (nodeId : Text) (hfit : Fits w .deliver) :
    WorldOk (w.step nodeId .deliver) := by
  unfold World.step
  cases hpend : w.pending with
  | nil => exact h
  | cons e es =>
    have hnode := h.node
    have hupdates := h.updates
    have hfit' : e.Fits w.db w.node.cache := by
      apply hfit
      rw [hpend]
      rfl
    rw [hpend] at hnode hupdates
    refine ⟨h.wf, ?_, ?_, ?_⟩
    · apply handler_ok h.wf hnode _ hupdates hfit'
      apply h.holds
      rw [hpend]
      exact List.mem_cons_self
    · intro e' he
      apply h.holds
      rw [hpend]
      exact List.mem_cons_of_mem _ he
    · intro g he
      exact hupdates g (List.mem_of_mem_tail he)

theorem worldOk_step {w : World} (h : WorldOk w) (nodeId : Text) {s : Step} (hfit : Fits w s) :
    WorldOk (w.step nodeId s) := by
  cases s with
  | change cause => exact worldOk_change h nodeId cause
  | deliver => exact worldOk_deliver h nodeId hfit

end

/-! ## Runs -/

def runningVnic (vnicId nodeId : Text) (address : Ipv4) (groups : List Text) : VnicRecord where
  vnic := ⟨vnicId, some address, none, some "i-demo".toList, some "nw-demo".toList, groups⟩
  instance? := some ⟨nodeId, true, true, true⟩

/-- The rules of `sg-g` name `sg-r`; `vif-a` is in the one, `vif-b` on another node
in the other, and `vif-c` there in none. -/
def referenceDb : Db where
  vnics := AList.insert "vif-a".toList (runningVnic "vif-a".toList "hva.1".toList 1 ["sg-g".toList])
    (AList.insert "vif-b".toList (runningVnic "vif-b".toList "hva.2".toList 2 ["sg-r".toList])
      (AList.insert "vif-c".toList (runningVnic "vif-c".toList "hva.2".toList 3 []) ∅))
  groups := AList.insert "sg-g".toList
    [⟨"tcp".toList, some 22, some 22, none, none, some "tcp".toList, "sg-r".toList⟩]
    (AList.insert "sg-r".toList [] ∅)
  networks := AList.insert "nw-demo".toList ⟨.securityGroup⟩ ∅
  references := [("sg-g".toList, "sg-r".toList)]

theorem referenceDb_wf : referenceDb.Wf := by
  constructor
  · intro g v ⟨record, hv, hg⟩
    have hall : ∀ record ∈ Hash.values referenceDb.vnics, ∀ g ∈ record.vnic.securityGroups,
        (referenceDb.groups.lookup g).isSome = true := by decide +kernel
    exact hall record (Hash.mem_values.mpr ⟨v, hv⟩) g (List.contains_iff_mem.mp hg)
  · intro g rules hg r hr _
    have hall : ∀ x ∈ referenceDb.groups.entries, ∀ r ∈ ruleGroups x.2,
        (x.1, r) ∈ referenceDb.references := by decide +kernel
    exact hall ⟨g, rules⟩ (AList.mem_lookup_iff.mp hg) r hr

def emptyAndJoin : List Step :=
  [.change (.removeSecurityGroup "vif-b".toList "sg-r".toList), .deliver,
    .change (.addSecurityGroup "vif-c".toList "sg-r".toList), .deliver]

end Netfilter

end WakameVdc
