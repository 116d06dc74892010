import WakameVdc.IsolationMethods

/-!
# What one event does to the friends

Each handler of an event about a local vnic is run through: the cache then stores
the vnics as the event says, and the chains accept the friends they share a group
with.
-/

namespace WakameVdc

open Lib

namespace Netfilter

/-! ## A vnic joins a group -/

section
variable {db : Db} {nodeId : Text} {known : Known} {c : Cache} {ch : Hash Text (List Ipv4)}
  {v g : Text} {d : VnicMap}

/-- The database has the group of a vnic the node knows. -/
structure JoinsIn (db : Db) (known : Known) (v g : Text) (d d' : VnicMap) : Prop where
  knows : known v = some d
  stored : ∃ r, db.vnics.lookup v = some r ∧ r.vnic = d'
  doc : d' = { d with securityGroups := d.securityGroups ++ [g] }
  others : ∀ u r, db.vnics.lookup u = some r → u ≠ v → known u = some r.vnic

theorem cacheIso_added {d' : VnicMap} (h : CacheIso db known c) (hj : JoinsIn db known v g d d')
    {c' : Cache} (hfirst : ∀ g' u, g' ≠ g → c'.localDoc g' u = c.localDoc g' u)
    (hothers : ∀ u e, u ≠ v → (c'.localDoc g u = some e ↔ c.localDoc g u = some e))
    (hloc : c'.isLocalGroup g = true) (hfor : ∀ g u, c'.foreignDoc g u = none)
    (hemp : c'.emptyVnics = c.emptyVnics)
    (hnet : ∀ n m, c'.networks.lookup n = some m → db.networks.lookup n = some m)
    (hkeep : ∀ n m, c.networks.lookup n = some m → c'.networks.lookup n = some m)
    (hpresent : (d.networkId.bind c'.networks.lookup).isSome = true) :
    CacheIso db (known.set v (some d')) (addToGroup true v g d' c') := by
  have hset := fun {u : Text} (hu : u ≠ v) => known.set_ne (some d') hu
  have hdoc := fun g' u => @localDoc_addToGroup c' g v d' hloc g' u
  have hgroups : d'.securityGroups = d.securityGroups ++ [g] := by rw [hj.doc]
  refine ⟨?_, foreignDoc_addToGroup hfor, ?_, hnet, ?_⟩
  · intro g' u e
    rw [hdoc]
    by_cases hu : u = v
    · rw [if_pos hu, hu, known.set_self]
      by_cases hg' : g' = g
      · rw [if_pos hg', hg']
        constructor
        · intro he
          cases he
          refine ⟨rfl, ?_⟩
          rw [hgroups]
          exact List.mem_append_right _ List.mem_cons_self
        · intro hx
          exact hx.1
      · rw [if_neg hg', hfirst g' v hg', Option.map_eq_some_iff]
        constructor
        · intro ⟨x, hx, he⟩
          obtain ⟨hk, hgx⟩ := (h.locals g' v x).mp hx
          rw [hj.knows] at hk
          cases hk
          rw [← he]
          refine ⟨rfl, ?_⟩
          rw [hgroups]
          exact List.mem_append_left _ hgx
        · intro ⟨he, hge⟩
          cases he
          rw [hgroups] at hge
          rcases List.mem_append.mp hge with hge | hge
          · exact ⟨d, (h.locals g' v d).mpr ⟨hj.knows, hge⟩, rfl⟩
          · exact absurd (List.mem_singleton.mp hge) hg'
    · rw [if_neg hu, hset hu, ← h.locals]
      by_cases hg' : g' = g
      · rw [hg']
        exact hothers u e hu
      · rw [hfirst g' u hg']
  · intro u e he
    replace he : c'.emptyVnics.lookup u = some e := he
    rw [hemp] at he
    obtain ⟨x, hx, hxe⟩ := h.empties u e he
    by_cases hu : u = v
    · rw [hu, hj.knows] at hx
      cases hx
      refine ⟨d', by rw [hu, known.set_self], ?_⟩
      rw [hxe, hj.doc]
    · exact ⟨x, by rw [hset hu, hx], hxe⟩
  · intro u x hu hl
    replace hl : x.securityGroups ≠ [] ∨ (c'.emptyVnics.lookup u).isSome = true := hl
    by_cases huv : u = v
    · rw [huv, known.set_self] at hu
      cases hu
      show (d'.networkId.bind c'.networks.lookup).isSome = true
      rw [hj.doc]
      exact hpresent
    · rw [hset huv] at hu
      rw [hemp] at hl
      obtain ⟨m, hm⟩ := Option.isSome_iff_exists.mp (h.listed u x hu hl)
      obtain ⟨n, hid, hn⟩ := Option.bind_eq_some_iff.mp hm
      show (x.networkId.bind c'.networks.lookup).isSome = true
      rw [hid, Option.bind_some, hkeep n m hn]
      rfl

theorem runs_addVnicToSecurityGroup {d' : VnicMap} (hdb : db.Local nodeId)
    (h : CacheIso db known c) (hj : JoinsIn db known v g d d')
    (hnet : c.isLocalGroup g = true → (d.networkId.bind c.networks.lookup).isSome = true) :
    ∃ c', Proc.Runs (addVnicToSecurityGroup db nodeId v g) ⟨c, ch⟩ () ⟨c', ch⟩ ∧
      CacheIso db (known.set v (some d')) c' := by
  obtain ⟨r, hr, hrd⟩ := hj.stored
  have hmem : g ∈ d'.securityGroups := by
    rw [hj.doc]
    exact List.mem_append_right _ List.mem_cons_self
  have hanswer : vnicWithNodeId db v = .ok (d', nodeId) := by
    rw [vnicWithNodeId_local hdb hr, hrd]
  have hlast : ∀ c', c'.isLocalGroup g = true → Proc.Runs (do
      let result ← lift (vnicWithNodeId db v)
      let c ← getCache
      if c.isLocalGroup g then
        modifyCache (addToGroup (result.2 == nodeId) v g result.1)
      else throw .noMethodError) ⟨c', ch⟩ () ⟨addToGroup true v g d' c', ch⟩ := by
    intro c' hloc
    apply (runs_lift hanswer _).bind
    apply (runs_getCache _).bind
    show Proc.Runs (if c'.isLocalGroup g then _ else _) _ _ _
    rw [if_pos hloc, beq_self_eq_true]
    exact runs_modifyCache _ _
  unfold addVnicToSecurityGroup
  cases hc : c.isLocalGroup g with
  | true =>
    refine ⟨addToGroup true v g d' c, ?_, ?_⟩
    · apply (runs_getCache _).bind
      apply Proc.Runs.bind (t := (⟨c, ch⟩ : Node)) (a := ())
      · apply Proc.runs_when
        · intro hno
          rw [hc] at hno
          cases hno
        · intro _
          rfl
      · exact hlast c hc
    · exact cacheIso_added h hj (fun _ _ _ => rfl) (fun _ _ _ => Iff.rfl) hc h.foreigns rfl
        h.networks (fun _ _ hn => hn) (hnet hc)
  | false =>
    obtain ⟨c', hruns, hf⟩ :=
      @runs_addSecurityGroup db ch nodeId hdb g (hdb.groups v r hr g (by rw [hrd]; exact hmem)) c
    have hloc : c'.isLocalGroup g = true := by
      rw [hf.isLocal]
      simp
    have hnone : ∀ u, c.localDoc g u = none := by
      intro u
      apply Option.eq_none_iff_forall_ne_some.mpr
      intro e he
      rw [isLocalGroup_of_localDoc he] at hc
      cases hc
    refine ⟨addToGroup true v g d' c', ?_, ?_⟩
    · apply (runs_getCache _).bind
      apply Proc.Runs.bind (t := (⟨c', ch⟩ : Node)) (a := ())
      · apply Proc.runs_when
        · intro _
          exact hruns
        · intro hno
          rw [hc] at hno
          cases hno
      · exact hlast c' hloc
    · apply cacheIso_added h hj hf.same _ hloc (hf.foreigns h.foreigns) hf.empties
      · intro n m hn
        rcases hf.added n m hn with hx | hx
        · exact h.networks n m hx
        · exact hx
      · exact hf.keeps
      · have := hf.present v r hr (by rw [hrd]; exact hmem)
        rw [hrd, hj.doc] at this
        exact this
      · intro u e hu
        rw [hnone u, hf.members]
        constructor
        · intro ⟨s, hs, hse, hge⟩
          have hx := (h.locals g u e).mpr ⟨by rw [← hse]; exact hj.others u s hs hu, hge⟩
          rw [hnone u] at hx
          cases hx
        · intro hx
          cases hx

/-! ## A vnic leaves a group -/

theorem localDoc_removeVnicFromReferencees (g v g' u : Text) :
    (c.removeVnicFromReferencees g v).localDoc g' u = c.localDoc g' u := by
  simp only [Cache.removeVnicFromReferencees, Cache.mapGroups, Cache.localDoc,
    Hash.lookup_mapVals]
  cases c.securityGroups.lookup g' with
  | none => rfl
  | some group => rfl

theorem foreignDoc_removeVnicFromReferencees (g v g' u : Text) :
    (c.removeVnicFromReferencees g v).foreignDoc g' u = c.foreignDoc g' u := by
  simp only [Cache.removeVnicFromReferencees, Cache.mapGroups, Cache.foreignDoc,
    Hash.lookup_mapVals]
  cases c.securityGroups.lookup g' with
  | none => rfl
  | some group => rfl

theorem CacheIso.removeSecurityGroup (h : CacheIso db known c) (hnone : ∀ u, c.localDoc g u = none) :
    CacheIso db known (c.removeSecurityGroup g) := by
  refine ⟨?_, foreignDoc_removeSecurityGroup h.foreigns, h.empties, h.networks, h.listed⟩
  intro g' u e
  rw [localDoc_removeSecurityGroup, ← h.locals]
  split
  · rename_i hg'
    rw [hg', hnone]
  · rfl

theorem cacheIso_left (h : CacheIso db known c) (hv : known v = some d) :
    CacheIso db (known.set v (some (removeGroupOf g d)))
      ((c.takeOut v g).removeVnicFromReferencees g v) := by
  have hset := fun {u : Text} (hu : u ≠ v) => known.set_ne (some (removeGroupOf g d)) hu
  refine ⟨?_, ?_, ?_, h.networks, ?_⟩
  · intro g' u e
    rw [localDoc_removeVnicFromReferencees, localDoc_takeOut]
    by_cases hu : u = v
    · rw [if_pos hu, hu, known.set_self]
      have hmem : ∀ x, x ∈ (removeGroupOf g d).securityGroups ↔ x ∈ d.securityGroups ∧ x ≠ g := by
        intro x
        show x ∈ d.securityGroups.filter (fun x => x != g) ↔ _
        rw [List.mem_filter, bne_iff_ne]
      by_cases hg' : g' = g
      · rw [if_pos hg']
        constructor
        · intro hx
          cases hx
        · intro ⟨he, hge⟩
          cases he
          exact absurd hg' ((hmem g').mp hge).2
      · rw [if_neg hg', Option.map_eq_some_iff]
        constructor
        · intro ⟨x, hx, he⟩
          obtain ⟨hk, hgx⟩ := (h.locals g' v x).mp hx
          rw [hv] at hk
          cases hk
          rw [← he]
          exact ⟨rfl, (hmem g').mpr ⟨hgx, hg'⟩⟩
        · intro ⟨he, hge⟩
          cases he
          exact ⟨d, (h.locals g' v d).mpr ⟨hv, ((hmem g').mp hge).1⟩, rfl⟩
    · rw [if_neg hu, hset hu]
      exact h.locals g' u e
  · intro g' u
    rw [foreignDoc_removeVnicFromReferencees]
    exact foreignDoc_takeOut h.foreigns g' u
  · intro u e he
    obtain ⟨x, hx, hxe⟩ := h.empties u e he
    by_cases hu : u = v
    · rw [hu, hv] at hx
      cases hx
      exact ⟨removeGroupOf g d, by rw [hu, known.set_self], hxe⟩
    · exact ⟨x, by rw [hset hu, hx], hxe⟩
  · intro u x hu hl
    by_cases huv : u = v
    · rw [huv, known.set_self] at hu
      cases hu
      apply h.listed v d hv
      rcases hl with hl | hl
      · left
        intro hd
        apply hl
        show d.securityGroups.filter _ = []
        rw [hd]
        rfl
      · rw [huv] at hl
        exact Or.inr hl
    · rw [hset huv] at hu
      exact h.listed u x hu hl

/-! ## A vnic is destroyed -/

theorem CacheIso.forget (h : CacheIso db known c) (hno : ∀ g, c.localDoc g v = none)
    (hemp : c.emptyVnics.lookup v = none) : CacheIso db (known.set v none) c := by
  refine ⟨?_, h.foreigns, ?_, h.networks, ?_⟩
  · intro g u e
    by_cases hu : u = v
    · rw [hu, hno, known.set_self]
      simp
    · rw [known.set_ne _ hu]
      exact h.locals g u e
  · intro u e he
    have hu : u ≠ v := by
      intro hu
      rw [hu, hemp] at he
      cases he
    rw [known.set_ne _ hu]
    exact h.empties u e he
  · intro u x hu hl
    by_cases huv : u = v
    · rw [huv, known.set_self] at hu
      cases hu
    · rw [known.set_ne _ huv] at hu
      exact h.listed u x hu hl

theorem cacheIso_removeVnic (h : CacheIso db known c) :
    CacheIso db (known.set v none) (c.removeVnic v) := by
  have hempty : ∀ u, (c.removeVnic v).emptyVnics.lookup u =
      if u = v then none else c.emptyVnics.lookup u := by
    intro u
    show AList.lookup u (AList.erase v c.emptyVnics) = _
    rw [Hash.lookup_erase]
  refine ⟨?_, foreignDoc_removeVnic h.foreigns, ?_, h.networks, ?_⟩
  · intro g u e
    rw [localDoc_removeVnic]
    by_cases hu : u = v
    · rw [if_pos hu, hu, known.set_self]
      simp
    · rw [if_neg hu, known.set_ne _ hu]
      exact h.locals g u e
  · intro u e he
    rw [hempty] at he
    split at he
    · cases he
    · rename_i hu
      rw [known.set_ne _ hu]
      exact h.empties u e he
  · intro u x hu hl
    by_cases huv : u = v
    · rw [huv, known.set_self] at hu
      cases hu
    · rw [known.set_ne _ huv] at hu
      rw [hempty, if_neg huv] at hl
      exact h.listed u x hu hl

theorem cacheIso_removeNetwork (h : CacheIso db known c) (networkId : Option Text) :
    CacheIso db known (if c.localVnicsLeftInNetwork networkId || c.emptyVnicsLeftInNetwork networkId
      then c else c.removeNetwork networkId) := by
  split
  · exact h
  · rename_i hleft
    rw [Bool.or_eq_true, not_or] at hleft
    cases networkId with
    | none => exact h
    | some n =>
      refine ⟨h.locals, h.foreigns, h.empties, ?_, ?_⟩
      · intro n' m hn
        replace hn : AList.lookup n' (AList.erase n c.networks) = some m := hn
        rw [Hash.lookup_erase] at hn
        split at hn
        · cases hn
        · exact h.networks n' m hn
      · intro u x hu hl
        obtain ⟨m, hm⟩ := Option.isSome_iff_exists.mp (h.listed u x hu hl)
        obtain ⟨n', hid, hn⟩ := Option.bind_eq_some_iff.mp hm
        -- a vnic that stands somewhere keeps its network
        have hne : n' ≠ n := by
          intro he
          rw [he] at hid
          rcases hl with hl | hl
          · obtain ⟨g, gs, hg⟩ := List.exists_cons_of_ne_nil hl
            obtain ⟨group, hgroup, hdoc⟩ :=
              @CacheIso.isLocalGroup db known c h u g x hu (by rw [hg]; exact List.mem_cons_self)
            apply hleft.1
            apply List.any_eq_true.mpr
            refine ⟨group, Hash.mem_values.mpr ⟨g, hgroup⟩, List.any_eq_true.mpr ?_⟩
            exact ⟨x, Hash.mem_values.mpr ⟨u, hdoc⟩, by rw [hid]; exact beq_self_eq_true _⟩
          · obtain ⟨e, he'⟩ := Option.isSome_iff_exists.mp hl
            obtain ⟨x', hx', hxe⟩ := h.empties u e he'
            rw [hu] at hx'
            cases hx'
            apply hleft.2
            apply List.any_eq_true.mpr
            refine ⟨e, Hash.mem_values.mpr ⟨u, he'⟩, ?_⟩
            rw [hxe]
            show (x.networkId == some n) = true
            rw [hid]
            exact beq_self_eq_true _
        show (x.networkId.bind (AList.erase n c.networks).lookup).isSome = true
        rw [hid, Option.bind_some, Hash.lookup_erase, if_neg hne, hn]
        rfl

theorem runs_removeGroups (h : CacheIso db known c) (hv : known v = none) (groups : List Text) :
    ∃ c', Proc.Runs (groups.forM fun groupId => do
        let c ← getCache
        Proc.when (!c.otherLocalVnicsLeftInGroup v groupId)
          (modifyCache (Cache.removeSecurityGroup groupId))) ⟨c, ch⟩ () ⟨c', ch⟩ ∧
      CacheIso db known c' := by
  have hloop : ∃ node, Proc.Runs (groups.forM fun groupId => do
        let c ← getCache
        Proc.when (!c.otherLocalVnicsLeftInGroup v groupId)
          (modifyCache (Cache.removeSecurityGroup groupId))) ⟨c, ch⟩ () node ∧
      ∃ c', node = ⟨c', ch⟩ ∧ CacheIso db known c' := by
    apply Proc.runs_forM fun (_ : List Text) (node : Node) => ∃ c', node = ⟨c', ch⟩ ∧
      CacheIso db known c'
    · intro _ g _ node _ ⟨c', hnode, hiso⟩
      rw [hnode]
      cases hleft : c'.otherLocalVnicsLeftInGroup v g with
      | true =>
        refine ⟨⟨c', ch⟩, (runs_getCache _).bind ?_, c', rfl, hiso⟩
        show Proc.Runs (Proc.when (!c'.otherLocalVnicsLeftInGroup v g) _) _ _ _
        rw [hleft]
        rfl
      | false =>
        refine ⟨⟨c'.removeSecurityGroup g, ch⟩, (runs_getCache _).bind ?_, _, rfl,
          hiso.removeSecurityGroup ?_⟩
        · show Proc.Runs (Proc.when (!c'.otherLocalVnicsLeftInGroup v g) _) _ _ _
          rw [hleft]
          exact runs_modifyCache _ _
        · intro u
          apply Option.eq_none_iff_forall_ne_some.mpr
          intro e he
          have hu : u ≠ v := by
            intro hu
            have hx := ((hiso.locals g u e).mp he).1
            rw [hu, hv] at hx
            cases hx
          obtain ⟨group, hgroup, hdoc⟩ := Option.bind_eq_some_iff.mp he
          unfold Cache.otherLocalVnicsLeftInGroup at hleft
          rw [hgroup] at hleft
          have hempty := Hash.isEmpty_iff.mp (by simpa using hleft) u
          rw [Hash.lookup_erase, if_neg hu, hdoc] at hempty
          cases hempty
    · exact ⟨c, rfl, h⟩
  obtain ⟨node, hruns, c', hnode, hiso⟩ := hloop
  rw [hnode] at hruns
  exact ⟨c', hruns, hiso⟩

end

end Netfilter

end WakameVdc
