import WakameVdc.IsolationHandler
import WakameVdc.ReferenceeRun

/-!
# Friends along a run

The events about the vnics of a node are delivered one by one. In every state of
a run whose vnics leave and go cleanly, the chains of a vnic accept the vnics it
shares a group with, and no vnic that is gone.
-/

namespace WakameVdc

open Lib

namespace Netfilter

/-! ## The vnics of a node -/

def Event.ofLocalVnic : Event → Bool
  | vnicCreated _ | vnicDestroyed _ | joinedGroup _ _ | leftGroup _ _ => true
  | vnicJoined _ _ | vnicLeft _ _ | referencerAdded _ _ | referencerRemoved _ _
  | rulesUpdated _ => false

def Event.about (v : Text) : Event → Prop
  | vnicCreated u | vnicDestroyed u | joinedGroup u _ | leftGroup u _ => u = v
  | vnicJoined _ _ | vnicLeft _ _ | referencerAdded _ _ | referencerRemoved _ _
  | rulesUpdated _ => False

/-- A step with the events about the node's own vnics only. -/
def World.localStep (nodeId : Text) (w : World) : Step → World
  | .change cause =>
    match w.pending with
    | [] => { db := (cause.run nodeId w.db).1, node := w.node,
              pending := (cause.run nodeId w.db).2.filter Event.ofLocalVnic }
    | _ :: _ => w
  | .deliver => w.step nodeId .deliver

/-- A node without vnics. -/
def World.idle (groups : Hash Text (List ParsedRule)) (networks : Hash Text NetworkMap)
    (references : List (Text × Text)) : World where
  db := ⟨∅, groups, networks, references⟩
  node := ⟨⟨∅, ∅, ∅⟩, ∅⟩
  pending := []

/-- What is still to be handled, with what the node knows by now. -/
inductive Awaiting (db : Db) (known : Known) : List Event → Prop
  | creating (vs : List Text) (i : Option Text) (hn : vs.Nodup) (hunknown : ∀ v ∈ vs, known v = none)
      (hstored : ∀ v ∈ vs, ∃ r, db.vnics.lookup v = some r ∧ r.vnic.instanceUuid = i)
      (hothers : ∀ u, u ∉ vs → known u = (db.vnics.lookup u).map VnicRecord.vnic) :
      Awaiting db known (vs.map Event.vnicCreated)
  | destroying (vs : List Text) (hn : vs.Nodup)
      (hgone : ∀ v ∈ vs, db.vnics.lookup v = none ∧ (known v).isSome = true)
      (hothers : ∀ u, u ∉ vs → known u = (db.vnics.lookup u).map VnicRecord.vnic) :
      Awaiting db known (vs.map Event.vnicDestroyed)
  | joining (v g : Text) (d d' : VnicMap) (hj : JoinsIn db known v g d d')
      (hothers : ∀ u, u ≠ v → known u = (db.vnics.lookup u).map VnicRecord.vnic) :
      Awaiting db known [.joinedGroup v g]
  | leaving (v g : Text) (d : VnicMap) (r : VnicRecord) (hv : known v = some d)
      (hg : g ∈ d.securityGroups) (hr : db.vnics.lookup v = some r)
      (hd : r.vnic = removeGroupOf g d)
      (hothers : ∀ u, u ≠ v → known u = (db.vnics.lookup u).map VnicRecord.vnic) :
      Awaiting db known [.leftGroup v g]

/-- The cache and the chains are right about some vnics, and these are the vnics
of the database but for what is still to be handled. -/
structure IsolationOk (nodeId : Text) (known : Known) (w : World) : Prop where
  stored : w.db.Local nodeId
  awaiting : Awaiting w.db known w.pending
  uuids : KnownOk known
  cache : CacheIso w.db known w.node.cache
  chains : ChainsIso w.db known w.node.chains

section
variable {db : Db} {nodeId : Text} {known : Known}

theorem awaiting_nil (h : ∀ u, known u = (db.vnics.lookup u).map VnicRecord.vnic) :
    Awaiting db known [] :=
  Awaiting.creating [] none List.nodup_nil (fun _ hv => absurd hv List.not_mem_nil)
    (fun _ hv => absurd hv List.not_mem_nil) fun u _ => h u

theorem Awaiting.nil (h : Awaiting db known []) (u : Text) :
    known u = (db.vnics.lookup u).map VnicRecord.vnic := by
  generalize hp : ([] : List Event) = pending at h
  cases h with
  | creating vs i hn hunknown hstored hothers =>
    apply hothers
    rw [List.map_eq_nil_iff.mp hp.symm]
    exact List.not_mem_nil
  | destroying vs hn hgone hothers =>
    apply hothers
    rw [List.map_eq_nil_iff.mp hp.symm]
    exact List.not_mem_nil
  | joining => cases hp
  | leaving => cases hp

theorem Awaiting.settled {pending : List Event} (h : Awaiting db known pending) {v : Text}
    {r : VnicRecord} (hr : db.vnics.lookup v = some r) (hno : ∀ e ∈ pending, ¬ e.about v) :
    known v = some r.vnic := by
  have hlookup : (db.vnics.lookup v).map VnicRecord.vnic = some r.vnic := by
    rw [hr]
    rfl
  rw [← hlookup]
  cases h with
  | creating vs i hn hunknown hstored hothers =>
    apply hothers
    intro hv
    exact hno _ (List.mem_map_of_mem hv) rfl
  | destroying vs hn hgone hothers =>
    apply hothers
    intro hv
    exact hno _ (List.mem_map_of_mem hv) rfl
  | joining u g d d' hj hothers =>
    apply hothers
    intro hv
    exact hno _ List.mem_cons_self hv.symm
  | leaving u g d s hu hg hs hd hothers =>
    apply hothers
    intro hv
    exact hno _ List.mem_cons_self hv.symm

/-- A vnic the node knows is stored with its address, or is about to go. -/
theorem Awaiting.stored {pending : List Event} (h : Awaiting db known pending) {f : Text}
    {e : VnicMap} (he : known f = some e) :
    (∃ r, db.vnics.lookup f = some r ∧ r.vnic.address = e.address ∧
      Event.vnicCreated f ∉ pending) ∨ Event.vnicDestroyed f ∈ pending := by
  have hsame : known f = (db.vnics.lookup f).map VnicRecord.vnic → Event.vnicCreated f ∉ pending →
      ∃ r, db.vnics.lookup f = some r ∧ r.vnic.address = e.address ∧
        Event.vnicCreated f ∉ pending := by
    intro hx hno
    rw [he] at hx
    obtain ⟨r, hr, hre⟩ := Option.map_eq_some_iff.mp hx.symm
    exact ⟨r, hr, by rw [hre], hno⟩
  cases h with
  | creating vs i hn hunknown hstored hothers =>
    have hf : f ∉ vs := by
      intro hf
      rw [hunknown f hf] at he
      cases he
    refine Or.inl (hsame (hothers f hf) ?_)
    intro hx
    obtain ⟨u, hu, hux⟩ := List.mem_map.mp hx
    cases hux
    exact hf hu
  | destroying vs hn hgone hothers =>
    by_cases hf : f ∈ vs
    · exact Or.inr (List.mem_map_of_mem hf)
    · refine Or.inl (hsame (hothers f hf) ?_)
      intro hx
      obtain ⟨u, _, hux⟩ := List.mem_map.mp hx
      cases hux
  | joining v g d d' hj hothers =>
    have hno : Event.vnicCreated f ∉ [Event.joinedGroup v g] := by simp
    by_cases hf : f = v
    · obtain ⟨r, hr, hrd⟩ := hj.stored
      rw [hf, hj.knows] at he
      cases he
      refine Or.inl ⟨r, by rw [hf, hr], ?_, hno⟩
      rw [hrd, hj.doc]
    · exact Or.inl (hsame (hothers f hf) hno)
  | leaving v g d r hv hg hr hd hothers =>
    have hno : Event.vnicCreated f ∉ [Event.leftGroup v g] := by simp
    by_cases hf : f = v
    · rw [hf, hv] at he
      cases he
      refine Or.inl ⟨r, by rw [hf, hr], ?_, hno⟩
      rw [hd]
      rfl
    · exact Or.inl (hsame (hothers f hf) hno)

/-! ## What a change leaves to be handled -/

theorem CacheIso.of_networks {db' : Db} {c : Cache} (h : CacheIso db known c)
    (hn : db'.networks = db.networks) : CacheIso db' known c := by
  refine ⟨h.locals, h.foreigns, h.empties, ?_, h.listed⟩
  intro n m hm
  rw [hn]
  exact h.networks n m hm

theorem ChainsIso.of_networks {db' : Db} {chains : Hash Text (List Ipv4)}
    (h : ChainsIso db known chains) (hn : db'.networks = db.networks) :
    ChainsIso db' known chains := by
  refine ⟨h.exist, ?_, h.others⟩
  intro v d f e a hv hf hne ha
  have hiso : db'.isolates d = db.isolates d := by
    unfold Db.isolates Db.modeOf
    rw [hn]
  rw [hiso]
  exact h.friends v d f e a hv hf hne ha

structure StartsLocal (db : Db) (i : Option Text) (vs : List Text) (p : Db × List Event) :
    Prop where
  events : p.2.filter Event.ofLocalVnic = vs.map Event.vnicCreated
  nodup : vs.Nodup
  fresh : ∀ v ∈ vs, db.vnics.lookup v = none
  stored : ∀ v ∈ vs, ∃ r, p.1.vnics.lookup v = some r ∧ r.vnic.instanceUuid = i
  others : ∀ u, u ∉ vs → p.1.vnics.lookup u = db.vnics.lookup u
  networks : p.1.networks = db.networks

theorem filter_joined (v : Text) (groups : List Text) :
    (groups.map fun g => Event.vnicJoined g v).filter Event.ofLocalVnic = [] := by
  induction groups with
  | nil => rfl
  | cons g groups ih => exact ih

theorem filter_left (v : Text) (groups : List Text) :
    (groups.map fun g => Event.vnicLeft g v).filter Event.ofLocalVnic = [] := by
  induction groups with
  | nil => rfl
  | cons g groups ih => exact ih

theorem StartsLocal.startVnic {i : Option Text} {vs : List Text} {p : Db × List Event}
    (h : StartsLocal db i vs p) {v : Text} {record : VnicRecord}
    (hon : record.onNode nodeId (fun _ => true) = true) (hi : record.vnic.instanceUuid = i) :
    ∃ vs', StartsLocal db i vs' ((Db.startVnic nodeId p.1 v record).1,
      p.2 ++ (Db.startVnic nodeId p.1 v record).2) := by
  unfold Db.startVnic
  split
  · rename_i hacc
    simp only [Db.accepts, Bool.and_eq_true, Option.isNone_iff_eq_none] at hacc
    have hnew := hacc.1.1
    have hv : v ∉ vs := by
      intro hv
      obtain ⟨r, hr, _⟩ := h.stored v hv
      rw [hnew] at hr
      cases hr
    refine ⟨vs ++ [v], ?_, ?_, ?_, ?_, ?_, h.networks⟩
    · show (p.2 ++ ([Event.vnicCreated v] ++ _)).filter Event.ofLocalVnic = _
      rw [List.filter_append, h.events, List.filter_append, filter_joined, List.append_nil,
        List.map_append]
      rfl
    · rw [← List.concat_eq_append]
      exact h.nodup.concat hv
    · intro u hu
      rcases List.mem_append.mp hu with hu | hu
      · exact h.fresh u hu
      · rw [List.mem_singleton.mp hu, ← h.others v hv]
        exact hnew
    · intro u hu
      show ∃ r, AList.lookup u (AList.insert v record p.1.vnics) = some r ∧ _
      rw [Hash.lookup_insert]
      rcases List.mem_append.mp hu with hu | hu
      · rw [if_neg (fun he : u = v => hv (he ▸ hu))]
        exact h.stored u hu
      · rw [if_pos (List.mem_singleton.mp hu)]
        exact ⟨record, rfl, hi⟩
    · intro u hu
      rw [List.mem_append, not_or, List.mem_singleton] at hu
      show AList.lookup u (AList.insert v record p.1.vnics) = _
      rw [Hash.lookup_insert, if_neg hu.2]
      exact h.others u hu.1
  · refine ⟨vs, ?_, h.nodup, h.fresh, h.stored, h.others, h.networks⟩
    rw [List.append_nil]
    exact h.events

theorem startsLocal_run {i : Option Text} (vnics : List (Text × VnicRecord))
    (hvnics : ∀ v ∈ vnics, v.2.onNode nodeId (fun _ => true) = true ∧ v.2.vnic.instanceUuid = i) :
    ∃ vs, StartsLocal db i vs ((Cause.startInstance vnics).run nodeId db) := by
  have hfold : ∀ (vnics : List (Text × VnicRecord)) (p : Db × List Event) (vs : List Text),
      (∀ v ∈ vnics, v.2.onNode nodeId (fun _ => true) = true ∧ v.2.vnic.instanceUuid = i) →
      StartsLocal db i vs p → ∃ vs', StartsLocal db i vs' (vnics.foldl (fun acc v =>
        let next := Db.startVnic nodeId acc.1 v.1 v.2
        (next.1, acc.2 ++ next.2)) p) := by
    intro vnics
    induction vnics with
    | nil =>
      intro p vs _ h
      exact ⟨vs, h⟩
    | cons v vnics ih =>
      intro p vs hall h
      obtain ⟨hon, hi⟩ := hall v List.mem_cons_self
      obtain ⟨vs', h'⟩ := @StartsLocal.startVnic db nodeId i vs p h v.1 v.2 hon hi
      exact ih _ vs' (fun u hu => hall u (List.mem_cons_of_mem _ hu)) h'
  apply hfold vnics (db, []) [] hvnics
  exact ⟨rfl, List.nodup_nil, fun _ hv => absurd hv List.not_mem_nil,
    fun _ hv => absurd hv List.not_mem_nil, fun _ _ => rfl, rfl⟩

structure TerminatesLocal (db : Db) (vs : List Text) (p : Db × List Event) : Prop where
  events : p.2.filter Event.ofLocalVnic = vs.map Event.vnicDestroyed
  nodup : vs.Nodup
  gone : ∀ v ∈ vs, p.1.vnics.lookup v = none ∧ (db.vnics.lookup v).isSome = true
  others : ∀ u, u ∉ vs → p.1.vnics.lookup u = db.vnics.lookup u
  networks : p.1.networks = db.networks

theorem onNode_true {r : VnicRecord} {p : InstanceRecord → Bool} (h : r.onNode nodeId p = true) :
    r.onNode nodeId (fun _ => true) = true := by
  unfold VnicRecord.onNode at h ⊢
  cases hi : r.instance? with
  | none =>
    rw [hi] at h
    cases h
  | some i =>
    rw [hi] at h
    simp only [Bool.and_eq_true] at h
    simp only [Bool.and_true]
    exact h.1

theorem TerminatesLocal.terminateVnic {vs : List Text} {p : Db × List Event}
    (hdb : db.Local nodeId) (h : TerminatesLocal db vs p) (v : Text) :
    ∃ vs', TerminatesLocal db vs' ((Db.terminateVnic nodeId p.1 v).1,
      p.2 ++ (Db.terminateVnic nodeId p.1 v).2) := by
  unfold Db.terminateVnic
  split
  · refine ⟨vs, ?_, h.nodup, h.gone, h.others, h.networks⟩
    rw [List.append_nil]
    exact h.events
  · rename_i record hrec
    have hv : v ∉ vs := by
      intro hv
      rw [(h.gone v hv).1] at hrec
      cases hrec
    have hold : db.vnics.lookup v = some record := by
      rw [← h.others v hv]
      exact hrec
    have hon := onNode_true (hdb.here v record hold).1
    refine ⟨vs ++ [v], ?_, ?_, ?_, ?_, h.networks⟩
    · show (p.2 ++ ((if record.onNode nodeId fun _ => true then [Event.vnicDestroyed v] else []) ++
        _)).filter Event.ofLocalVnic = _
      rw [if_pos hon, List.filter_append, h.events, List.filter_append, filter_left,
        List.append_nil, List.map_append]
      rfl
    · rw [← List.concat_eq_append]
      exact h.nodup.concat hv
    · intro u hu
      show AList.lookup u (AList.erase v p.1.vnics) = none ∧ _
      rw [Hash.lookup_erase]
      rcases List.mem_append.mp hu with hu | hu
      · rw [(h.gone u hu).1, ite_self]
        exact ⟨rfl, (h.gone u hu).2⟩
      · rw [if_pos (List.mem_singleton.mp hu), List.mem_singleton.mp hu, hold]
        exact ⟨rfl, rfl⟩
    · intro u hu
      rw [List.mem_append, not_or, List.mem_singleton] at hu
      show AList.lookup u (AList.erase v p.1.vnics) = _
      rw [Hash.lookup_erase, if_neg hu.2]
      exact h.others u hu.1

theorem terminatesLocal_run (hdb : db.Local nodeId) (vnicIds : List Text) :
    ∃ vs, TerminatesLocal db vs ((Cause.terminateInstance vnicIds).run nodeId db) := by
  have hfold : ∀ (vnicIds : List Text) (p : Db × List Event) (vs : List Text),
      TerminatesLocal db vs p → ∃ vs', TerminatesLocal db vs' (vnicIds.foldl (fun acc v =>
        let next := Db.terminateVnic nodeId acc.1 v
        (next.1, acc.2 ++ next.2)) p) := by
    intro vnicIds
    induction vnicIds with
    | nil =>
      intro p vs h
      exact ⟨vs, h⟩
    | cons v vnicIds ih =>
      intro p vs h
      obtain ⟨vs', h'⟩ := h.terminateVnic hdb v
      exact ih _ vs' h'
  apply hfold vnicIds (db, []) []
  exact ⟨rfl, List.nodup_nil, fun _ hv => absurd hv List.not_mem_nil, fun _ _ => rfl, rfl⟩

theorem filter_referencers {f : Text → Event} (hf : ∀ ref, (f ref).ofLocalVnic = false)
    (refs : List Text) : (refs.map f).filter Event.ofLocalVnic = [] := by
  apply List.filter_eq_nil_iff.mpr
  intro e he
  obtain ⟨ref, _, hr⟩ := List.mem_map.mp he
  rw [← hr, hf]
  exact Bool.false_ne_true

theorem isHere_local (hdb : db.Local nodeId) {v : Text} {r : VnicRecord}
    (hr : db.vnics.lookup v = some r) : db.isHere nodeId v = true := by
  unfold Db.isHere
  rw [hr]
  exact onNode_true (hdb.here v r hr).1

def Cause.IsLocal (nodeId : Text) : Cause → Prop
  | startInstance vnics => ∀ v ∈ vnics, v.2.onNode nodeId (fun _ => true) = true ∧
      ∀ u ∈ vnics, v.2.vnic.instanceUuid = u.2.vnic.instanceUuid
  | terminateInstance _ | addSecurityGroup _ _ | removeSecurityGroup _ _ | updateRules _ _ _ => True

theorem awaiting_run (hdb : db.Local nodeId)
    (hknown : ∀ u, known u = (db.vnics.lookup u).map VnicRecord.vnic) {cause : Cause}
    (hfit : cause.IsLocal nodeId) :
    Awaiting (cause.run nodeId db).1 known ((cause.run nodeId db).2.filter Event.ofLocalVnic) ∧
      (cause.run nodeId db).1.networks = db.networks := by
  cases cause with
  | startInstance vnics =>
    have hone : ∃ i, ∀ v ∈ vnics, v.2.onNode nodeId (fun _ => true) = true ∧
        v.2.vnic.instanceUuid = i := by
      cases vnics with
      | nil => exact ⟨none, fun _ hv => absurd hv List.not_mem_nil⟩
      | cons u vnics =>
        refine ⟨u.2.vnic.instanceUuid, ?_⟩
        intro v hv
        exact ⟨(hfit v hv).1, (hfit v hv).2 u List.mem_cons_self⟩
    obtain ⟨i, hi⟩ := hone
    obtain ⟨vs, hs⟩ := @startsLocal_run db nodeId i vnics hi
    rw [hs.events]
    refine ⟨.creating vs i hs.nodup ?_ hs.stored ?_, hs.networks⟩
    · intro v hv
      rw [hknown, hs.fresh v hv]
      rfl
    · intro u hu
      rw [hknown, hs.others u hu]
  | terminateInstance vnicIds =>
    obtain ⟨vs, ht⟩ := terminatesLocal_run hdb vnicIds
    rw [ht.events]
    refine ⟨.destroying vs ht.nodup ?_ ?_, ht.networks⟩
    · intro v hv
      refine ⟨(ht.gone v hv).1, ?_⟩
      rw [hknown, Option.isSome_map]
      exact (ht.gone v hv).2
    · intro u hu
      rw [hknown, ht.others u hu]
  | addSecurityGroup v g =>
    simp only [Cause.run]
    split
    · rename_i r rules hr hg
      split
      · exact ⟨awaiting_nil hknown, rfl⟩
      · have hev : ((Event.vnicJoined g v :: (if db.isHere nodeId v then [.joinedGroup v g] else []) ++
            (db.referenceeIds g).map fun ref => Event.referencerAdded ref g).filter
            Event.ofLocalVnic) = [.joinedGroup v g] := by
          rw [isHere_local hdb hr, if_pos rfl, List.filter_append,
            filter_referencers (fun _ => rfl), List.append_nil]
          rfl
        have hother : ∀ u, u ≠ v → known u =
            ((db.setGroups v fun gs => gs ++ [g]).vnics.lookup u).map VnicRecord.vnic := by
          intro u hu
          rw [hknown, Db.lookup_setGroups, if_neg hu]
        refine ⟨?_, rfl⟩
        show Awaiting (db.setGroups v fun gs => gs ++ [g]) known (List.filter _ _)
        rw [hev]
        refine .joining v g r.vnic { r.vnic with
          securityGroups := r.vnic.securityGroups ++ [g] } ⟨?_, ?_, rfl, ?_⟩ hother
        · rw [hknown, hr]
          rfl
        · refine ⟨{ r with vnic := { r.vnic with
            securityGroups := r.vnic.securityGroups ++ [g] } }, ?_, rfl⟩
          rw [Db.lookup_setGroups, if_pos rfl, hr]
          rfl
        · intro u s hs hu
          rw [hother u hu, hs]
          rfl
    · exact ⟨awaiting_nil hknown, rfl⟩
  | removeSecurityGroup v g =>
    simp only [Cause.run]
    split
    · rename_i r rules hr hg
      split
      · rename_i hin
        have hev : ((Event.vnicLeft g v :: (if db.isHere nodeId v then [.leftGroup v g] else []) ++
            (db.referenceeIds g).map fun ref => Event.referencerRemoved ref g).filter
            Event.ofLocalVnic) = [.leftGroup v g] := by
          rw [isHere_local hdb hr, if_pos rfl, List.filter_append,
            filter_referencers (fun _ => rfl), List.append_nil]
          rfl
        have hother : ∀ u, u ≠ v → known u = ((db.setGroups v fun gs =>
            gs.filter fun x => x != g).vnics.lookup u).map VnicRecord.vnic := by
          intro u hu
          rw [hknown, Db.lookup_setGroups, if_neg hu]
        refine ⟨?_, rfl⟩
        show Awaiting (db.setGroups v fun gs => gs.filter fun x => x != g) known (List.filter _ _)
        rw [hev]
        refine .leaving v g r.vnic { r with vnic := removeGroupOf g r.vnic } ?_
          (List.contains_iff_mem.mp hin) ?_ rfl hother
        · rw [hknown, hr]
          rfl
        · rw [Db.lookup_setGroups, if_pos rfl, hr]
          rfl
      · exact ⟨awaiting_nil hknown, rfl⟩
    · exact ⟨awaiting_nil hknown, rfl⟩
  | updateRules g rules others =>
    simp only [Cause.run]
    split
    · refine ⟨?_, rfl⟩
      rw [List.filter_append, filter_referencers (fun _ => rfl), List.append_nil,
        List.filter_cons_of_neg Bool.false_ne_true, filter_referencers (fun _ => rfl)]
      exact awaiting_nil hknown
    · exact ⟨awaiting_nil hknown, rfl⟩

/-! ## Invariants of a run -/

def Event.IsolationFits (db : Db) (node : Node) : Event → Prop
  | vnicCreated v => ∀ r ∈ db.vnics.lookup v, db.modeOf r.vnic = some .l2Overlay →
      r.vnic.securityGroups = []
  | joinedGroup v g => ∀ r ∈ db.vnics.lookup v, db.modeOf r.vnic = some .securityGroup ∧
      (node.cache.isLocalGroup g = true →
        (r.vnic.networkId.bind node.cache.networks.lookup).isSome = true)
  | leftGroup v g => ∀ d ∈ node.cache.getLocalVnic v, LeaveGroupFits db node v g d
  | vnicDestroyed v => DestroyFits node v
  | vnicJoined _ _ | vnicLeft _ _ | referencerAdded _ _ | referencerRemoved _ _
  | rulesUpdated _ => True

def IsolationFits (nodeId : Text) (w : World) : Step → Prop
  | .change cause => w.pending = [] →
      cause.IsLocal nodeId ∧ (cause.run nodeId w.db).1.Local nodeId
  | .deliver => ∀ e ∈ w.pending.head?, e.IsolationFits w.db w.node

theorem isolationOk_change {w : World} (h : IsolationOk nodeId known w) {cause : Cause}
    (hfit : IsolationFits nodeId w (.change cause)) :
    IsolationOk nodeId known (w.localStep nodeId (.change cause)) := by
  unfold World.localStep
  cases hpend : w.pending with
  | cons e es => exact h
  | nil =>
    obtain ⟨hlocal, hdb⟩ := hfit hpend
    have hawait := h.awaiting
    rw [hpend] at hawait
    obtain ⟨hnext, hnet⟩ := awaiting_run h.stored hawait.nil hlocal
    exact ⟨hdb, hnext, h.uuids, h.cache.of_networks hnet, h.chains.of_networks hnet⟩

theorem knownOk_of_stored (hdb : db.Local nodeId)
    (hknown : ∀ u x, known u = some x → ∃ r, db.vnics.lookup u = some r ∧ r.vnic = x) :
    KnownOk known := by
  refine ⟨?_, ?_, ?_⟩
  · intro v d hv
    obtain ⟨r, hr, hd⟩ := hknown v d hv
    rw [← hd]
    exact hdb.uuid v r hr
  · intro v d hv
    obtain ⟨r, hr, hd⟩ := hknown v d hv
    rw [← hd]
    exact hdb.address v r hr
  · intro v f d e hv hf ha
    obtain ⟨r, hr, hd⟩ := hknown v d hv
    obtain ⟨s, hs, he⟩ := hknown f e hf
    exact hdb.distinct v f r s hr hs (by rw [hd, he, ha])

theorem KnownOk.set_none (h : KnownOk known) (v : Text) : KnownOk (known.set v none) := by
  have hsub : ∀ u x, known.set v none u = some x → known u = some x := by
    intro u x hu
    by_cases huv : u = v
    · rw [huv, known.set_self] at hu
      cases hu
    · rw [known.set_ne _ huv] at hu
      exact hu
  refine ⟨?_, ?_, ?_⟩
  · intro u d hu
    exact h.uuid u d (hsub u d hu)
  · intro u d hu
    exact h.address u d (hsub u d hu)
  · intro u f d e hu hf ha
    exact h.distinct u f d e (hsub u d hu) (hsub f e hf) ha

theorem KnownOk.set_some (h : KnownOk known) {v : Text} {d d' : VnicMap} (hv : known v = some d)
    (hu : d'.uuid = d.uuid) (ha : d'.address = d.address) : KnownOk (known.set v (some d')) := by
  have hsub : ∀ u x, known.set v (some d') u = some x →
      ∃ y, known u = some y ∧ x.uuid = y.uuid ∧ x.address = y.address := by
    intro u x hx
    by_cases huv : u = v
    · rw [huv, known.set_self] at hx
      cases hx
      exact ⟨d, by rw [huv, hv], hu, ha⟩
    · rw [known.set_ne _ huv] at hx
      exact ⟨x, hx, rfl, rfl⟩
  refine ⟨?_, ?_, ?_⟩
  · intro u x hx
    obtain ⟨y, hy, hyu, _⟩ := hsub u x hx
    rw [hyu]
    exact h.uuid u y hy
  · intro u x hx
    obtain ⟨y, hy, _, hya⟩ := hsub u x hx
    rw [hya]
    exact h.address u y hy
  · intro u f x e hx he hxe
    obtain ⟨y, hy, _, hya⟩ := hsub u x hx
    obtain ⟨z, hz, _, hza⟩ := hsub f e he
    exact h.distinct u f y z hy hz (by rw [← hya, ← hza, hxe])

theorem isolationOk_created {w : World} {vs : List Text} {v : Text} {i : Option Text}
    (h : IsolationOk nodeId known w) (hfit : (Event.vnicCreated v).IsolationFits w.db w.node)
    (hn : (v :: vs).Nodup) (hunknown : ∀ u ∈ v :: vs, known u = none)
    (hstored : ∀ u ∈ v :: vs, ∃ r, w.db.vnics.lookup u = some r ∧ r.vnic.instanceUuid = i)
    (hothers : ∀ u, u ∉ v :: vs → known u = (w.db.vnics.lookup u).map VnicRecord.vnic) :
    ∃ known', IsolationOk nodeId known' { w with
      node := Proc.final (vnicCreated w.db nodeId v) w.node, pending := vs.map .vnicCreated } := by
  obtain ⟨r, hr, hi⟩ := hstored v List.mem_cons_self
  rw [List.nodup_cons] at hn
  have hks : ∀ u x, known u = some x → ∃ s, w.db.vnics.lookup u = some s ∧ s.vnic = x := by
    intro u x hx
    have hu : u ∉ v :: vs := by
      intro hu
      rw [hunknown u hu] at hx
      cases hx
    rw [hothers u hu] at hx
    exact Option.map_eq_some_iff.mp hx
  have hs : Siblings w.db known v r.vnic := by
    refine ⟨⟨r, hr, rfl⟩, hunknown v List.mem_cons_self, ?_, hks⟩
    intro u s hsu hu
    by_cases huvs : u ∈ vs
    · obtain ⟨s', hs', hi'⟩ := hstored u (List.mem_cons_of_mem _ huvs)
      rw [hsu] at hs'
      cases hs'
      exact Or.inr ⟨hunknown u (List.mem_cons_of_mem _ huvs), by rw [hi', hi]⟩
    · have hnot : u ∉ v :: vs := by
        rw [List.mem_cons, not_or]
        exact ⟨hu, huvs⟩
      rw [hothers u hnot, hsu]
      exact Or.inl rfl
  have hk' : KnownOk (known.set v (some r.vnic)) := by
    apply knownOk_of_stored h.stored
    intro u x hx
    by_cases huv : u = v
    · rw [huv, known.set_self] at hx
      cases hx
      exact ⟨r, by rw [huv, hr], rfl⟩
    · rw [known.set_ne _ huv] at hx
      exact hks u x hx
  obtain ⟨c', ch', hfinal, hiso, hchains⟩ :=
    vnicCreated_iso h.stored h.uuids hk' h.cache h.chains hs (hfit r hr)
  refine ⟨known.set v (some r.vnic), h.stored, ?_, hk', ?_, ?_⟩
  · refine .creating vs i hn.2 ?_ ?_ ?_
    · intro u hu
      rw [known.set_ne _ (fun he : u = v => hn.1 (he ▸ hu))]
      exact hunknown u (List.mem_cons_of_mem _ hu)
    · intro u hu
      exact hstored u (List.mem_cons_of_mem _ hu)
    · intro u hu
      by_cases huv : u = v
      · rw [huv, known.set_self, hr]
        rfl
      · rw [known.set_ne _ huv]
        apply hothers
        rw [List.mem_cons, not_or]
        exact ⟨huv, hu⟩
  · show CacheIso w.db _ (Proc.final (vnicCreated w.db nodeId v) w.node).cache
    rw [hfinal]
    exact hiso
  · show ChainsIso w.db _ (Proc.final (vnicCreated w.db nodeId v) w.node).chains
    rw [hfinal]
    exact hchains

theorem isolationOk_destroyed {w : World} {vs : List Text} {v : Text}
    (h : IsolationOk nodeId known w) (hfit : DestroyFits w.node v) (hn : (v :: vs).Nodup)
    (hgone : ∀ u ∈ v :: vs, w.db.vnics.lookup u = none ∧ (known u).isSome = true)
    (hothers : ∀ u, u ∉ v :: vs → known u = (w.db.vnics.lookup u).map VnicRecord.vnic) :
    ∃ known', IsolationOk nodeId known' { w with
      node := Proc.final (vnicDestroyed v) w.node, pending := vs.map .vnicDestroyed } := by
  obtain ⟨hnone, hsome⟩ := hgone v List.mem_cons_self
  obtain ⟨d, hv⟩ := Option.isSome_iff_exists.mp hsome
  rw [List.nodup_cons] at hn
  obtain ⟨c', ch', hfinal, hiso, hchains⟩ :=
    vnicDestroyed_iso h.uuids h.cache h.chains hv hfit
  refine ⟨known.set v none, h.stored, ?_, h.uuids.set_none v, ?_, ?_⟩
  · refine .destroying vs hn.2 ?_ ?_
    · intro u hu
      rw [known.set_ne _ (fun he : u = v => hn.1 (he ▸ hu))]
      exact hgone u (List.mem_cons_of_mem _ hu)
    · intro u hu
      by_cases huv : u = v
      · rw [huv, known.set_self, hnone]
        rfl
      · rw [known.set_ne _ huv]
        apply hothers
        rw [List.mem_cons, not_or]
        exact ⟨huv, hu⟩
  · show CacheIso w.db _ (Proc.final (vnicDestroyed v) w.node).cache
    rw [hfinal]
    exact hiso
  · show ChainsIso w.db _ (Proc.final (vnicDestroyed v) w.node).chains
    rw [hfinal]
    exact hchains

theorem isolationOk_joined {w : World} {v g : Text} {d d' : VnicMap}
    (h : IsolationOk nodeId known w) (hfit : (Event.joinedGroup v g).IsolationFits w.db w.node)
    (hj : JoinsIn w.db known v g d d')
    (hothers : ∀ u, u ≠ v → known u = (w.db.vnics.lookup u).map VnicRecord.vnic) :
    ∃ known', IsolationOk nodeId known' { w with
      node := Proc.final (joinedGroup w.db nodeId v g) w.node, pending := [] } := by
  obtain ⟨r, hr, hrd⟩ := hj.stored
  obtain ⟨hmode, hnet⟩ := hfit r hr
  rw [hrd, hj.doc] at hmode hnet
  have hk' : KnownOk (known.set v (some d')) :=
    h.uuids.set_some hj.knows (by rw [hj.doc]) (by rw [hj.doc])
  obtain ⟨c', ch', hfinal, hiso, hchains⟩ :=
    joinedGroup_iso h.stored h.uuids hk' h.cache h.chains hj hmode hnet
  refine ⟨known.set v (some d'), h.stored, awaiting_nil ?_, hk', ?_, ?_⟩
  · intro u
    by_cases huv : u = v
    · rw [huv, known.set_self, hr, ← hrd]
      rfl
    · rw [known.set_ne _ huv]
      exact hothers u huv
  · show CacheIso w.db _ (Proc.final (joinedGroup w.db nodeId v g) w.node).cache
    rw [hfinal]
    exact hiso
  · show ChainsIso w.db _ (Proc.final (joinedGroup w.db nodeId v g) w.node).chains
    rw [hfinal]
    exact hchains

theorem isolationOk_left {w : World} {v g : Text} {d : VnicMap} {r : VnicRecord}
    (h : IsolationOk nodeId known w) (hfit : (Event.leftGroup v g).IsolationFits w.db w.node)
    (hv : known v = some d) (hg : g ∈ d.securityGroups) (hr : w.db.vnics.lookup v = some r)
    (hd : r.vnic = removeGroupOf g d)
    (hothers : ∀ u, u ≠ v → known u = (w.db.vnics.lookup u).map VnicRecord.vnic) :
    ∃ known', IsolationOk nodeId known' { w with
      node := Proc.final (leftGroup v g) w.node, pending := [] } := by
  have hlocal : w.node.cache.getLocalVnic v = some d := by
    rw [h.cache.getLocalVnic hv, if_neg (List.ne_nil_of_mem hg)]
  obtain ⟨c', ch', hfinal, hiso, hchains⟩ :=
    leftGroup_iso h.uuids h.cache h.chains hv hg (hfit d hlocal)
  refine ⟨known.set v (some (removeGroupOf g d)), h.stored, awaiting_nil ?_,
    h.uuids.set_some hv rfl rfl, ?_, ?_⟩
  · intro u
    by_cases huv : u = v
    · rw [huv, known.set_self, hr, ← hd]
      rfl
    · rw [known.set_ne _ huv]
      exact hothers u huv
  · show CacheIso w.db _ (Proc.final (leftGroup v g) w.node).cache
    rw [hfinal]
    exact hiso
  · show ChainsIso w.db _ (Proc.final (leftGroup v g) w.node).chains
    rw [hfinal]
    exact hchains

theorem isolationOk_deliver {w : World} (h : IsolationOk nodeId known w)
    (hfit : IsolationFits nodeId w .deliver) :
    ∃ known', IsolationOk nodeId known' (w.localStep nodeId .deliver) := by
  show ∃ known', IsolationOk nodeId known' (w.step nodeId .deliver)
  unfold World.step
  cases hpend : w.pending with
  | nil => exact ⟨known, h⟩
  | cons e es =>
    have hfit' : e.IsolationFits w.db w.node := by
      apply hfit
      rw [hpend]
      rfl
    have hawait := h.awaiting
    rw [hpend] at hawait
    generalize hp : e :: es = pending at hawait
    cases hawait with
    | creating vs i hn hunknown hstored hothers =>
      cases vs with
      | nil => cases hp
      | cons v vs =>
        cases hp
        exact isolationOk_created h hfit' hn hunknown hstored hothers
    | destroying vs hn hgone hothers =>
      cases vs with
      | nil => cases hp
      | cons v vs =>
        cases hp
        exact isolationOk_destroyed h hfit' hn hgone hothers
    | joining v g d d' hj hothers =>
      cases hp
      exact isolationOk_joined h hfit' hj hothers
    | leaving v g d r hv hg hr hd hothers =>
      cases hp
      exact isolationOk_left h hfit' hv hg hr hd hothers

theorem isolationOk_step {w : World} (h : ∃ known, IsolationOk nodeId known w) {s : Step}
    (hfit : IsolationFits nodeId w s) : ∃ known, IsolationOk nodeId known (w.localStep nodeId s) := by
  obtain ⟨known, h⟩ := h
  cases s with
  | change cause => exact ⟨known, isolationOk_change h hfit⟩
  | deliver => exact isolationOk_deliver h hfit

theorem isolationOk_idle (groups : Hash Text (List ParsedRule)) (networks : Hash Text NetworkMap)
    (references : List (Text × Text)) :
    IsolationOk nodeId (fun _ => none) (World.idle groups networks references) := by
  have hno : ∀ {α : Type} (v : Text) (r : α), (∅ : Hash Text α).lookup v = some r → False := by
    intro α v r hr
    rw [AList.lookup_empty] at hr
    cases hr
  refine ⟨⟨?_, ?_, ?_, ?_, ?_, ?_⟩, awaiting_nil fun _ => rfl, ⟨?_, ?_, ?_⟩, ⟨?_, ?_, ?_, ?_, ?_⟩,
    ⟨?_, ?_, ?_⟩⟩
  · intro v r hr
    exact (hno v r hr).elim
  · intro v r hr
    exact (hno v r hr).elim
  · intro v r hr
    exact (hno v r hr).elim
  · intro v u r s hr _ _
    exact (hno v r hr).elim
  · intro v r hr
    exact (hno v r hr).elim
  · intro v r hr
    exact (hno v r hr).elim
  · intro v d hv
    cases hv
  · intro v d hv
    cases hv
  · intro v f d e hv _ _
    cases hv
  · intro g v d
    constructor
    · intro hx
      obtain ⟨group, hg, _⟩ := Option.bind_eq_some_iff.mp hx
      exact (hno g group hg).elim
    · intro hx
      cases hx.1
  · intro g v
    rfl
  · intro v e he
    exact (hno v e he).elim
  · intro n m hn
    exact (hno n m hn).elim
  · intro v d hv
    cases hv
  · intro v d hv
    cases hv
  · intro v d f e a hv
    cases hv
  · intro v a hpos
    unfold accepted at hpos
    rw [show (World.idle groups networks references).node.chains.lookup v = none from AList.lookup_empty v] at hpos
    cases hpos

/-! ## Runs -/

/-- The chains of live vnics accept the vnics they share a group with, and no
chain accepts a vnic that is gone. -/
structure Isolated (w : World) : Prop where
  friends : ∀ v f r s a, w.db.vnics.lookup v = some r → w.db.vnics.lookup f = some s → v ≠ f →
    (∀ e ∈ w.pending, ¬ e.about v ∧ ¬ e.about f) → w.db.isolates r.vnic = true →
    s.vnic.address = some a → (0 < accepted w.node.chains v a ↔ r.vnic.shares s.vnic = true)
  destroyed : ∀ v a, 0 < accepted w.node.chains v a →
    (∃ f s, w.db.vnics.lookup f = some s ∧ s.vnic.address = some a ∧
      Event.vnicCreated f ∉ w.pending) ∨
    ∃ f d, Event.vnicDestroyed f ∈ w.pending ∧ w.node.cache.getLocalVnic f = some d ∧
      d.address = some a

theorem IsolationOk.isolated {w : World} (h : IsolationOk nodeId known w) : Isolated w := by
  constructor
  · intro v f r s a hr hs hne hpend hi ha
    have hv := h.awaiting.settled hr fun e he => (hpend e he).1
    have hf := h.awaiting.settled hs fun e he => (hpend e he).2
    rw [h.chains.friends v _ f _ a hv hf (Ne.symm hne) ha]
    simp [hi]
  · intro v a hpos
    obtain ⟨d, f, e, hv, hf, hne, ha⟩ := h.chains.others v a hpos
    rcases h.awaiting.stored hf with ⟨r, hr, hra, hno⟩ | hgone
    · exact Or.inl ⟨f, r, hr, by rw [hra, ha], hno⟩
    · refine Or.inr ⟨f, e, hgone, ?_, ha⟩
      have hs := ((h.chains.friends v d f e a hv hf hne ha).mp hpos).2
      rw [h.cache.getLocalVnic hf, if_neg (listed_of_shares hs)]

/-- After every step of a run whose vnics leave and go cleanly, the vnics are
isolated. -/
theorem chains_isolated (nodeId : Text) (groups : Hash Text (List ParsedRule))
    (networks : Hash Text NetworkMap) (references : List (Text × Text)) (steps : List Step)
    (h : Each (World.localStep nodeId) (IsolationFits nodeId)
      (World.idle groups networks references) steps) :
    Each (World.localStep nodeId) (fun w s => Isolated (w.localStep nodeId s))
      (World.idle groups networks references) steps := by
  apply h.of_invariant (fun w => ∃ known, IsolationOk nodeId known w) _
    ⟨_, isolationOk_idle groups networks references⟩
  intro w s hw hs
  obtain ⟨known, hnext⟩ := isolationOk_step hw hs
  exact ⟨⟨known, hnext⟩, hnext.isolated⟩

end

/-! ### Friends of two groups -/

theorem local_iff {db : Db} {nodeId : Text} : db.Local nodeId ↔
    ∀ p ∈ db.vnics.entries, (((p.2.onNode nodeId InstanceRecord.runningOrInitializing = true ∧
      p.2.onNode nodeId InstanceRecord.alive = true) ∧ p.2.vnic.uuid = p.1) ∧
      (p.2.vnic.address.isSome = true ∧
        (p.2.vnic.networkId.bind db.networks.lookup).isSome = true) ∧
      ∀ g ∈ p.2.vnic.securityGroups, (db.groups.lookup g).isSome = true) ∧
      ∀ q ∈ db.vnics.entries, p.2.vnic.address = q.2.vnic.address → p.1 = q.1 := by
  constructor
  · intro h p hp
    have hl := AList.mem_lookup_iff.mpr hp
    refine ⟨⟨⟨h.here _ _ hl, h.uuid _ _ hl⟩, ⟨h.address _ _ hl, h.network _ _ hl⟩,
      h.groups _ _ hl⟩, ?_⟩
    intro q hq ha
    exact h.distinct _ _ _ _ hl (AList.mem_lookup_iff.mpr hq) ha
  · intro h
    have hall : ∀ {v r}, db.vnics.lookup v = some r → _ :=
      fun {v r} hr => h ⟨v, r⟩ (AList.mem_lookup_iff.mp hr)
    refine ⟨?_, ?_, ?_, ?_, ?_, ?_⟩
    · intro v r hr
      exact (hall hr).1.1.1
    · intro v r hr
      exact (hall hr).1.1.2
    · intro v r hr
      exact (hall hr).1.2.1.1
    · intro v u r s hr hs ha
      exact (hall hr).2 ⟨u, s⟩ (AList.mem_lookup_iff.mp hs) ha
    · intro v r hr
      exact (hall hr).1.2.1.2
    · intro v r hr
      exact (hall hr).1.2.2

-- else the search decides a quantifier over an address by trying every one
instance (priority := high) {p : Ipv4 → Prop} [DecidablePred p] (o : Option Ipv4) :
    Decidable (∀ a ∈ o, p a) :=
  Option.decidableForallMem o

instance (db : Db) (nodeId : Text) : Decidable (db.Local nodeId) :=
  decidable_of_iff _ local_iff.symm

instance (nodeId : Text) : (cause : Cause) → Decidable (cause.IsLocal nodeId)
  | .startInstance vnics => inferInstanceAs (Decidable (∀ v ∈ vnics, _ ∧ ∀ u ∈ vnics, _ = _))
  | .terminateInstance _ | .addSecurityGroup _ _ | .removeSecurityGroup _ _
  | .updateRules _ _ _ => .isTrue trivial

instance (db : Db) (node : Node) (v g : Text) (d : VnicMap) :
    Decidable (LeaveGroupFits db node v g d) :=
  decidable_of_iff (_ ∧ _ ∧ _)
    ⟨fun h => ⟨h.1, h.2.1, h.2.2⟩, fun h => ⟨h.mode, h.own, h.friends⟩⟩

instance (node : Node) (v : Text) : Decidable (DestroyFits node v) :=
  inferInstanceAs (Decidable (∀ vif ∈ _, ∀ a ∈ _, ∀ u ∈ _, _ → _ ≤ _))

instance (db : Db) (node : Node) : (e : Event) → Decidable (e.IsolationFits db node)
  | .vnicCreated v => inferInstanceAs (Decidable (∀ r ∈ db.vnics.lookup v, _ → _ = _))
  | .joinedGroup v _ => inferInstanceAs (Decidable (∀ r ∈ db.vnics.lookup v, _ ∧ (_ → _)))
  | .leftGroup v g =>
    inferInstanceAs (Decidable (∀ d ∈ node.cache.getLocalVnic v, LeaveGroupFits db node v g d))
  | .vnicDestroyed v => inferInstanceAs (Decidable (DestroyFits node v))
  | .vnicJoined _ _ | .vnicLeft _ _ | .referencerAdded _ _ | .referencerRemoved _ _
  | .rulesUpdated _ => .isTrue trivial

instance (nodeId : Text) (w : World) : (s : Step) → Decidable (IsolationFits nodeId w s)
  | .change cause => inferInstanceAs (Decidable (w.pending = [] →
      cause.IsLocal nodeId ∧ (cause.run nodeId w.db).1.Local nodeId))
  | .deliver => inferInstanceAs (Decidable (∀ e ∈ w.pending.head?, e.IsolationFits w.db w.node))

/-- Two groups without rules, and an isolated network. -/
def twoGroups : World :=
  World.idle (AList.insert "sg-1".toList [] (AList.insert "sg-2".toList [] ∅))
    (AList.insert "nw-demo".toList ⟨.securityGroup⟩ ∅) []

def startFriends (groups : List Text) : Step :=
  .change (.startInstance
    [("vif-a".toList, runningVnic "vif-a".toList "hva.1".toList 1 groups),
      ("vif-b".toList, runningVnic "vif-b".toList "hva.1".toList 2 groups)])

/-- Two friends of one group part. -/
theorem chains_isolated_parted :
    Each (World.localStep "hva.1".toList) (fun w s => Isolated (w.localStep "hva.1".toList s))
      twoGroups [startFriends ["sg-1".toList], .deliver, .deliver,
        .change (.removeSecurityGroup "vif-a".toList "sg-1".toList), .deliver,
        .change (.terminateInstance ["vif-b".toList]), .deliver] :=
  chains_isolated "hva.1".toList _ _ _ _
    ⟨by decide +kernel, by decide +kernel, by decide +kernel, by decide +kernel,
      by decide +kernel, by decide +kernel, by decide +kernel, trivial⟩

def leaveOneOfTwo : World :=
  [startFriends ["sg-1".toList, "sg-2".toList], .deliver, .deliver,
    .change (.removeSecurityGroup "vif-a".toList "sg-2".toList), .deliver].foldl
      (World.localStep "hva.1".toList) twoGroups

/-- The two vnics still share the other group, and their chains do not accept each other. -/
theorem left_friend_refused : leaveOneOfTwo.pending = [] ∧ ¬ Isolated leaveOneOfTwo := by
  refine ⟨by decide +kernel, ?_⟩
  intro h
  have hpend : leaveOneOfTwo.pending = [] := by decide +kernel
  have hshared : ∃ r s, leaveOneOfTwo.db.vnics.lookup "vif-a".toList = some r ∧
      leaveOneOfTwo.db.vnics.lookup "vif-b".toList = some s ∧
      leaveOneOfTwo.db.isolates r.vnic = true ∧ s.vnic.address = some 2 ∧
      r.vnic.shares s.vnic = true :=
    ⟨_, _, rfl, rfl, by decide +kernel, by decide +kernel, by decide +kernel⟩
  obtain ⟨r, s, hr, hs, hi, ha, hsh⟩ := hshared
  have hpos := (h.friends _ _ r s 2 hr hs (by decide) (by
    rw [hpend]
    intro e he
    cases he) hi ha).mpr hsh
  have hzero : accepted leaveOneOfTwo.node.chains "vif-a".toList 2 = 0 := by decide +kernel
  omega

end Netfilter

end WakameVdc
