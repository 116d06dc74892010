import WakameVdc.IsolationStep

/-!
# The handlers of events about local vnics

Each handler is run through from a node whose chains accept the right friends.
-/

namespace WakameVdc

open Lib

namespace Netfilter

section
variable {db : Db} {nodeId : Text} {known : Known} {c : Cache} {ch : Hash Text (List Ipv4)}
  {v g : Text} {d : VnicMap}

/-! ## Tasks -/

theorem runs_vnicNetworkMode {mode : NetworkMode} (h : c.getVnicNetworkMode v = .ok mode) :
    Proc.Runs (vnicNetworkMode v) ⟨c, ch⟩ mode ⟨c, ch⟩ :=
  (runs_getCache _).bind (runs_lift h _)

theorem isolationTasks_eq {mode : NetworkMode} (h : db.modeOf d = some mode)
    (friends : List VnicMap) : mode.isolationTasks friends =
      if db.isolates d = true then friends.filterMap VnicMap.address else [] := by
  unfold Db.isolates
  rw [h]
  cases mode with
  | securityGroup => rfl
  | l2Overlay => rfl
  | passThrough => rfl

theorem count_address (vnic : VnicMap) (a : Ipv4) :
    ([vnic].filterMap VnicMap.address).count a = if vnic.address = some a then 1 else 0 := by
  cases ha : vnic.address with
  | none =>
    rw [List.filterMap_cons_none ha]
    rfl
  | some b =>
    rw [List.filterMap_cons_some ha]
    simp [List.count_cons]

theorem count_friendTasks {mode : NetworkMode} {e : VnicMap} (h : db.modeOf e = some mode)
    (vnic : VnicMap) (a : Ipv4) : (mode.isolationTasks [vnic]).count a =
      if db.isolates e = true ∧ vnic.address = some a then 1 else 0 := by
  rw [isolationTasks_eq h]
  by_cases hi : db.isolates e = true
  · rw [if_pos hi, count_address]
    simp [hi]
  · rw [if_neg hi, if_neg (fun hx => hi hx.1)]
    rfl

theorem rulesOfFriends_append (vnic : VnicMap) (done : List VnicMap) (e : VnicMap) (u : Text)
    (a : Ipv4) : rulesOfFriends db vnic (done ++ [e]) u a = rulesOfFriends db vnic done u a +
      if e.uuid = u ∧ db.isolates e = true ∧ vnic.address = some a then 1 else 0 := by
  unfold rulesOfFriends
  rw [List.map_append, List.sum_append, List.map_singleton, List.sum_singleton]

theorem runs_applyIsolation {mode : NetworkMode} (h : c.getVnicNetworkMode v = .ok mode)
    (friends : List VnicMap) : Proc.Runs (applyIsolation v friends) ⟨c, ch⟩ ()
      ⟨c, Hash.modify v (fun chain => (mode.isolationTasks friends).foldl
        (fun chain ip => ip :: chain) chain) ch⟩ :=
  (runs_vnicNetworkMode h).bind (Proc.runs_modify _ _)

theorem runs_removeIsolation {mode : NetworkMode} (h : c.getVnicNetworkMode v = .ok mode)
    (friends : List VnicMap) : Proc.Runs (removeIsolation v friends) ⟨c, ch⟩ ()
      ⟨c, Hash.modify v (fun chain => (mode.isolationTasks friends).foldl List.erase chain) ch⟩ :=
  (runs_vnicNetworkMode h).bind (Proc.runs_modify _ _)

theorem runs_applyFriends {vnic : VnicMap} {friends : List VnicMap} (h : CacheIso db known c)
    (hf : ∀ e ∈ friends, known e.uuid = some e ∧ e.securityGroups ≠ [])
    (hexist : ∀ e ∈ friends, (ch.lookup e.uuid).isSome = true) :
    ∃ ch', Proc.Runs (friends.forM fun friend => applyIsolation friend.uuid [vnic]) ⟨c, ch⟩ ()
        ⟨c, ch'⟩ ∧
      (∀ u, (ch'.lookup u).isSome = (ch.lookup u).isSome) ∧
      ∀ u a, accepted ch' u a = accepted ch u a + rulesOfFriends db vnic friends u a := by
  have hloop : ∃ node, Proc.Runs (friends.forM fun friend => applyIsolation friend.uuid [vnic])
        ⟨c, ch⟩ () node ∧ ∃ ch', node = ⟨c, ch'⟩ ∧
      (∀ u, (ch'.lookup u).isSome = (ch.lookup u).isSome) ∧
      ∀ u a, accepted ch' u a = accepted ch u a + rulesOfFriends db vnic friends u a := by
    apply Proc.runs_forM fun (done : List VnicMap) (node : Node) => ∃ ch', node = ⟨c, ch'⟩ ∧
      (∀ u, (ch'.lookup u).isSome = (ch.lookup u).isSome) ∧
      ∀ u a, accepted ch' u a = accepted ch u a + rulesOfFriends db vnic done u a
    · intro done e rest node hsplit ⟨ch', hnode, hsome, hacc⟩
      have hmem : e ∈ friends := by
        rw [hsplit]
        exact List.mem_append_right _ List.mem_cons_self
      obtain ⟨hke, hne⟩ := hf e hmem
      obtain ⟨mode, hmode, hget⟩ := h.networkMode hke (Or.inl hne)
      rw [hnode]
      refine ⟨_, runs_applyIsolation hget _, _, rfl, ?_, ?_⟩
      · intro u
        rw [Hash.isSome_lookup_modify, hsome]
      · intro u a
        rw [accepted_accept (by rw [hsome]; exact hexist e hmem), hacc, rulesOfFriends_append,
          count_friendTasks hmode, Nat.add_assoc]
        congr 2
        by_cases hu : u = e.uuid
        · simp [hu]
        · rw [if_neg hu, if_neg (fun hx => hu hx.1.symm)]
    · exact ⟨ch, rfl, fun _ => rfl, fun _ _ => rfl⟩
  obtain ⟨node, hruns, ch', hnode, hsome, hacc⟩ := hloop
  rw [hnode] at hruns
  exact ⟨ch', hruns, hsome, hacc⟩

theorem runs_removeFriends {vnic : VnicMap} {friends : List VnicMap} {f : VnicMap → NodeM Unit}
    (hrun : ∀ e ∈ friends, ∀ ch, ∃ mode, db.modeOf e = some mode ∧
      Proc.Runs (f e) ⟨c, ch⟩ () ⟨c, Hash.modify e.uuid
        (fun chain => (mode.isolationTasks [vnic]).foldl List.erase chain) ch⟩) :
    ∃ ch', Proc.Runs (friends.forM f) ⟨c, ch⟩ () ⟨c, ch'⟩ ∧
      (∀ u, (ch'.lookup u).isSome = (ch.lookup u).isSome) ∧
      ∀ u a, accepted ch' u a = accepted ch u a - rulesOfFriends db vnic friends u a := by
  have hloop : ∃ node, Proc.Runs (friends.forM f) ⟨c, ch⟩ () node ∧ ∃ ch', node = ⟨c, ch'⟩ ∧
      (∀ u, (ch'.lookup u).isSome = (ch.lookup u).isSome) ∧
      ∀ u a, accepted ch' u a = accepted ch u a - rulesOfFriends db vnic friends u a := by
    apply Proc.runs_forM fun (done : List VnicMap) (node : Node) => ∃ ch', node = ⟨c, ch'⟩ ∧
      (∀ u, (ch'.lookup u).isSome = (ch.lookup u).isSome) ∧
      ∀ u a, accepted ch' u a = accepted ch u a - rulesOfFriends db vnic done u a
    · intro done e rest node hsplit ⟨ch', hnode, hsome, hacc⟩
      have hmem : e ∈ friends := by
        rw [hsplit]
        exact List.mem_append_right _ List.mem_cons_self
      obtain ⟨mode, hmode, hruns⟩ := hrun e hmem ch'
      rw [hnode]
      refine ⟨_, hruns, _, rfl, ?_, ?_⟩
      · intro u
        rw [Hash.isSome_lookup_modify, hsome]
      · intro u a
        rw [accepted_remove, hacc, rulesOfFriends_append, count_friendTasks hmode, Nat.sub_sub]
        congr 2
        by_cases hu : u = e.uuid
        · simp [hu]
        · rw [if_neg hu, if_neg (fun hx => hu hx.1.symm)]
    · exact ⟨ch, rfl, fun _ => rfl, fun _ _ => rfl⟩
  obtain ⟨node, hruns, ch', hnode, hsome, hacc⟩ := hloop
  rw [hnode] at hruns
  exact ⟨ch', hruns, hsome, hacc⟩

theorem Friends.known_listed {p : VnicMap → Bool} {friends : List VnicMap}
    (h : Friends known v p friends) (hp : ∀ e, p e = true → e.securityGroups ≠ []) :
    ∀ e ∈ friends, known e.uuid = some e ∧ e.securityGroups ≠ [] := by
  intro e he
  obtain ⟨hk, _, hpe⟩ := (h.mem e).mp he
  exact ⟨hk, hp e hpe⟩

/-- Friends among the other vnics do not change with the vnic itself. -/
theorem Friends.of_set {p : VnicMap → Bool} {friends : List VnicMap} {x : Option VnicMap}
    (h : Friends (known.set v x) v p friends) : Friends known v p friends := by
  refine ⟨h.nodup, ?_⟩
  intro e
  rw [h.mem]
  constructor
  · intro ⟨hk, hv, hp⟩
    rw [known.set_ne _ hv] at hk
    exact ⟨hk, hv, hp⟩
  · intro ⟨hk, hv, hp⟩
    exact ⟨by rw [known.set_ne _ hv]; exact hk, hv, hp⟩

theorem rulesOfVnic_eq {mode : NetworkMode} (h : db.modeOf d = some mode)
    (friends : List VnicMap) (a : Ipv4) :
    (mode.isolationTasks friends).count a = rulesOfVnic db d friends a := by
  rw [isolationTasks_eq h]
  unfold rulesOfVnic
  split
  · rfl
  · rfl

/-! ## A vnic joins a group -/

theorem runs_secgroupTasksFor (hget : c.getVnicNetworkMode v = .ok .securityGroup)
    {group : Option GroupMap} (hgroup : group.isSome = true) :
    Proc.Runs (secgroupTasksFor v group) ⟨c, ch⟩ () ⟨c, ch⟩ := by
  apply (runs_vnicNetworkMode hget).bind
  apply runs_lift
  show (if group.isSome then Except.ok () else _) = _
  rw [if_pos hgroup]

theorem shares_append (d e : VnicMap) (g : Text) :
    ({ d with securityGroups := d.securityGroups ++ [g] } : VnicMap).shares e = true ↔
      d.shares e = true ∨ inGroup g e = true := by
  unfold VnicMap.shares inGroup
  rw [List.any_append, Bool.or_eq_true, List.any_cons, List.any_nil, Bool.or_false]

theorem joinedGroup_iso {d' : VnicMap} (hdb : db.Local nodeId) (hk : KnownOk known)
    (hk' : KnownOk (known.set v (some d'))) (h : CacheIso db known c)
    (hc : ChainsIso db known ch) (hj : JoinsIn db known v g d d')
    (hmode : db.modeOf d = some .securityGroup)
    (hnet : c.isLocalGroup g = true → (d.networkId.bind c.networks.lookup).isSome = true) :
    ∃ c' ch', Proc.final (joinedGroup db nodeId v g) ⟨c, ch⟩ = ⟨c', ch'⟩ ∧
      CacheIso db (known.set v (some d')) c' ∧ ChainsIso db (known.set v (some d')) ch' := by
  obtain ⟨c', hadd, hiso⟩ := @runs_addVnicToSecurityGroup db nodeId known c ch v g d d' hdb h hj hnet
  have hkv : known.set v (some d') v = some d' := known.set_self v _
  have hne : d'.securityGroups ≠ [] := by
    rw [hj.doc]
    simp
  have hmem : g ∈ d'.securityGroups := by
    rw [hj.doc]
    exact List.mem_append_right _ List.mem_cons_self
  have huuid : d'.uuid = v := hk'.uuid v d' hkv
  obtain ⟨group, hgroup, hdoc⟩ := hiso.isLocalGroup hkv hmem
  have hloc : c'.isLocalGroup g = true := by
    unfold Cache.isLocalGroup
    rw [hgroup]
    rfl
  have hmode' : db.modeOf d' = some .securityGroup := by
    unfold Db.modeOf at hmode ⊢
    rw [hj.doc]
    exact hmode
  obtain ⟨mode, hm, hget⟩ := hiso.networkMode hkv (Or.inl hne)
  rw [hmode'] at hm
  cases hm
  obtain ⟨locals, hlocals, hL⟩ := hiso.localFriendsInGroup hk' v hloc
  obtain ⟨friends, hfriends, hF⟩ := hiso.friendsInGroup hk' v hloc
  have hexist : ∀ e ∈ locals, (ch.lookup e.uuid).isSome = true := by
    intro e he
    exact hc.exist _ e ((hL.of_set.mem e).mp he).1
  obtain ⟨ch', happly, hsome, hacc⟩ := @runs_applyFriends db (known.set v (some d')) c' ch d' locals
    hiso (hL.known_listed fun e => listed_of_inGroup) hexist
  have hin : c'.isLocalVnicInGroup v g = true := by
    unfold Cache.isLocalVnicInGroup
    rw [hgroup]
    show (group.localVnics.lookup v).isSome = true
    rw [hdoc]
    rfl
  have hruns : Proc.Runs (joinedGroup db nodeId v g) ⟨c, ch⟩ () ⟨c', Hash.modify v (fun chain =>
      (NetworkMode.securityGroup.isolationTasks friends).foldl (fun chain ip => ip :: chain) chain)
      ch'⟩ := by
    apply hadd.bind
    apply (runs_getCache _).bind
    show Proc.Runs (if c'.isLocalVnicInGroup v g then _ else _) _ _ _
    rw [if_pos hin, hiso.getLocalVnic hkv, if_neg hne]
    simp only [huuid]
    apply (runs_secgroupTasksFor hget (by rw [hgroup]; rfl)).bind
    apply (runs_lift hlocals _).bind
    apply happly.bind
    apply (runs_lift hfriends _).bind
    exact runs_applyIsolation hget friends
  refine ⟨c', _, hruns.final, hiso, hc.join hk hk' hF.of_set hL.of_set ?_ ?_ ?_ ?_ ?_⟩
  · intro x hx
    rw [hj.knows] at hx
    cases hx
    rw [hj.doc]
    exact ⟨rfl, rfl⟩
  · intro f e _ _
    rw [hj.doc, shares_append, hj.knows]
    simp
  · intro u hu
    rw [Hash.isSome_lookup_modify, hsome]
    rcases hu with hu | hu
    · exact hu
    · rw [hu]
      exact hc.exist v d hj.knows
  · intro a
    rw [accepted_accept (by rw [hsome]; exact hc.exist v d hj.knows), hacc,
      hL.rulesOfFriends_self, if_pos rfl, rulesOfVnic_eq hmode', Nat.add_zero]
  · intro u a hu
    rw [accepted_accept (by rw [hsome]; exact hc.exist v d hj.knows), hacc, if_neg hu, Nat.add_zero]

/-! ## A vnic is created -/

theorem forM_ok {α ε : Type} {f : α → Except ε PUnit} {l : List α} (h : ∀ a ∈ l, f a = .ok ()) :
    l.forM f = .ok () := by
  induction l with
  | nil => rfl
  | cons a l ih =>
    show (f a >>= fun _ => l.forM f) = _
    rw [h a List.mem_cons_self, ih fun b hb => h b (List.mem_cons_of_mem _ hb)]
    rfl

theorem allTasks_eq {mode : NetworkMode} (hm : db.modeOf d = some mode) {friends : List VnicMap}
    {groups : List (Option GroupMap)} (hgroups : ∀ x ∈ groups, x.isSome = true)
    (hl2 : mode = .l2Overlay → groups = []) : mode.allTasks friends groups =
      .ok (if db.isolates d = true then friends.filterMap VnicMap.address else []) := by
  rw [← isolationTasks_eq hm]
  cases mode with
  | passThrough => rfl
  | securityGroup =>
    show (groups.forM NetworkMode.securityGroup.secgroupTasks >>= fun _ => _) = _
    rw [forM_ok]
    · rfl
    · intro x hx
      show (if x.isSome then Except.ok () else _) = _
      rw [if_pos (hgroups x hx)]
  | l2Overlay =>
    rw [hl2 rfl]
    rfl

theorem accepted_applyVnicChains (u : Text) (a : Ipv4) :
    accepted (if (ch.lookup v).isSome then ch else AList.insert v [] ch) u a = accepted ch u a := by
  split
  · rfl
  · rename_i hno
    unfold accepted
    rw [Hash.lookup_insert]
    split
    · rename_i hu
      rw [hu, Option.not_isSome_iff_eq_none.mp hno]
      rfl
    · rfl

theorem isSome_applyVnicChains {u : Text} (h : (ch.lookup u).isSome = true ∨ u = v) :
    ((if (ch.lookup v).isSome then ch else AList.insert v [] ch :
      Hash Text (List Ipv4)).lookup u).isSome = true := by
  split
  · rename_i hsome
    rcases h with h | h
    · exact h
    · rw [h]
      exact hsome
  · exact (Hash.isSome_lookup_insert v [] ch u).mpr h

theorem initializeVnic_iso {friends : List VnicMap} {groups : List (Option GroupMap)}
    (hk : KnownOk known) (hk' : KnownOk (known.set v (some d)))
    (h : CacheIso db (known.set v (some d)) c) (hc : ChainsIso db known ch) (hv : known v = none)
    (hl : d.securityGroups ≠ [] ∨ (c.emptyVnics.lookup v).isSome = true)
    (hdoc : c.storedDoc v d = d)
    (hF : Friends (known.set v (some d)) v d.shares friends)
    (hgroups : ∀ x ∈ groups, x.isSome = true)
    (hl2 : db.modeOf d = some .l2Overlay → groups = []) :
    ∃ ch', Proc.Runs (initializeVnic d friends groups) ⟨c, ch⟩ () ⟨c, ch'⟩ ∧
      ChainsIso db (known.set v (some d)) ch' := by
  have hkv : known.set v (some d) v = some d := known.set_self v _
  have huuid : d.uuid = v := hk'.uuid v d hkv
  obtain ⟨mode, hm, hget⟩ := h.networkMode hkv hl
  obtain ⟨locals, hlocals, hL⟩ := h.allLocalFriends hk' hkv hl
  rw [hdoc] at hL
  have htasks := @allTasks_eq db d mode hm friends groups hgroups (fun hx => hl2 (hx ▸ hm))
  let ch1 : Hash Text (List Ipv4) := if (ch.lookup v).isSome then ch else AList.insert v [] ch
  let ch2 : Hash Text (List Ipv4) := Hash.modify v (fun chain =>
    (if db.isolates d = true then friends.filterMap VnicMap.address else []).foldl
      (fun chain ip => ip :: chain) chain) ch1
  have hv1 : (ch1.lookup v).isSome = true := isSome_applyVnicChains (Or.inr rfl)
  have hexist : ∀ e ∈ locals, (ch2.lookup e.uuid).isSome = true := by
    intro e he
    show ((Hash.modify v _ ch1).lookup e.uuid).isSome = true
    rw [Hash.isSome_lookup_modify]
    exact isSome_applyVnicChains (Or.inl (hc.exist _ e ((hL.of_set.mem e).mp he).1))
  obtain ⟨ch', happly, hsome, hacc⟩ := @runs_applyFriends db (known.set v (some d)) c ch2 d locals h
    (hL.known_listed fun e => listed_of_shares) hexist
  have hruns : Proc.Runs (initializeVnic d friends groups) ⟨c, ch⟩ () ⟨c, ch'⟩ := by
    unfold initializeVnic
    rw [huuid]
    apply Proc.Runs.bind (t := (⟨c, ch1⟩ : Node)) (a := ()) rfl
    apply (runs_vnicNetworkMode hget).bind
    apply (runs_lift htasks _).bind
    apply Proc.Runs.bind (t := (⟨c, ch2⟩ : Node)) (a := ()) rfl
    apply (runs_getCache _).bind
    apply (runs_lift hlocals _).bind
    exact happly
  have hacc2 : ∀ u a, accepted ch2 u a = accepted ch u a +
      if u = v then rulesOfVnic db d friends a else 0 := by
    intro u a
    show accepted (Hash.modify v _ ch1) u a = _
    rw [accepted_accept hv1, accepted_applyVnicChains]
    congr 1
    split
    · unfold rulesOfVnic
      split
      · rfl
      · rfl
    · rfl
  refine ⟨ch', hruns, hc.join hk hk' hF.of_set hL.of_set ?_ ?_ ?_ ?_ ?_⟩
  · intro x hx
    rw [hv] at hx
    cases hx
  · intro f e _ _
    rw [hv]
    simp
  · intro u hu
    rw [hsome]
    show ((Hash.modify v _ ch1).lookup u).isSome = true
    rw [Hash.isSome_lookup_modify]
    exact isSome_applyVnicChains hu
  · intro a
    rw [hacc, hacc2, if_pos rfl, hL.rulesOfFriends_self, Nat.add_zero]
  · intro u a hu
    rw [hacc, hacc2, if_neg hu, Nat.add_zero]

theorem vnicCreated_iso (hdb : db.Local nodeId) (hk : KnownOk known)
    (hk' : KnownOk (known.set v (some d))) (h : CacheIso db known c)
    (hc : ChainsIso db known ch) (hs : Siblings db known v d)
    (hl2 : db.modeOf d = some .l2Overlay → d.securityGroups = []) :
    ∃ c' ch', Proc.final (vnicCreated db nodeId v) ⟨c, ch⟩ = ⟨c', ch'⟩ ∧
      CacheIso db (known.set v (some d)) c' ∧ ChainsIso db (known.set v (some d)) ch' := by
  have hkv : known.set v (some d) v = some d := known.set_self v _
  have huuid : d.uuid = v := hk'.uuid v d hkv
  by_cases hne : d.securityGroups = []
  · obtain ⟨c', hadd, hiso, hemp⟩ := @runs_addVnic_empty db ch nodeId known c v d hdb hs h hne
    have hdoc : c'.storedDoc v d = d := by
      unfold Cache.storedDoc
      split
      · rw [← hne]
      · rfl
    have hF : Friends (known.set v (some d)) v d.shares [] := by
      refine ⟨List.nodup_nil, ?_⟩
      intro e
      constructor
      · intro he
        cases he
      · intro hx
        obtain ⟨_, _, hx⟩ := hx
        obtain ⟨g, hg, _⟩ := shares_iff.mp hx
        rw [hne] at hg
        cases hg
    obtain ⟨ch', hinit, hchains⟩ := @initializeVnic_iso db known c' ch v d [] [] hk hk' hiso hc
      hs.unknown (Or.inr (by rw [hemp]; rfl)) hdoc hF (fun _ hx => absurd hx List.not_mem_nil)
      (fun _ => rfl)
    have hruns : Proc.Runs (vnicCreated db nodeId v) ⟨c, ch⟩ () ⟨c', ch'⟩ := by
      apply (runs_getCache _).bind
      apply hadd.bind
      apply (runs_getCache _).bind
      dsimp only
      rw [hiso.getLocalVnic hkv, if_pos hne]
      unfold Cache.getEmptyVnic
      rw [hemp]
      exact hinit
    exact ⟨c', ch', hruns.final, hiso, hchains⟩
  · obtain ⟨c1, hadd, hst, hpresent⟩ := @runs_addVnic db ch nodeId known c v d hdb hs h hne
    obtain ⟨c', hforget, hst', hnet⟩ := @runs_forgetSiblings db ch known c v d c1 huuid h hst
    rw [← hnet] at hpresent
    have hiso := hst'.cacheIso h hs.unknown hpresent
    have hemp : c'.emptyVnics.lookup v = none := by
      rw [hst'.empties]
      apply Option.eq_none_iff_forall_ne_some.mpr
      intro e he
      obtain ⟨x, hx, _⟩ := h.empties v e he
      rw [hs.unknown] at hx
      cases hx
    have hdoc : c'.storedDoc v d = d := by
      unfold Cache.storedDoc
      rw [hemp]
      rfl
    obtain ⟨friends, hfriends, hF⟩ := hiso.allFriends hk' hkv (Or.inl hne)
    rw [hdoc] at hF
    have hlocal : c1.getLocalVnic v = some d := by
      obtain ⟨g, gs, hg⟩ := List.exists_cons_of_ne_nil hne
      apply getLocalVnic_eq (g := g)
      · exact (hst.mine g d).mpr ⟨rfl, by rw [hg]; exact List.mem_cons_self⟩
      · intro g e he
        exact ((hst.mine g e).mp he).1
    have hgroups : ∀ x ∈ d.securityGroups.map fun g => c'.securityGroups.lookup g,
        x.isSome = true := by
      intro x hx
      obtain ⟨g, hg, hxg⟩ := List.mem_map.mp hx
      obtain ⟨group, hgroup, _⟩ := hiso.isLocalGroup hkv hg
      rw [← hxg, hgroup]
      rfl
    obtain ⟨ch', hinit, hchains⟩ := initializeVnic_iso hk hk' hiso hc hs.unknown (Or.inl hne) hdoc
      hF hgroups (fun hx => absurd (hl2 hx) hne)
    have hruns : Proc.Runs (vnicCreated db nodeId v) ⟨c, ch⟩ () ⟨c', ch'⟩ := by
      apply (runs_getCache _).bind
      apply hadd.bind
      apply (runs_getCache _).bind
      dsimp only
      rw [hlocal]
      apply hforget.bind
      apply (runs_getCache _).bind
      apply (runs_lift hfriends _).bind
      exact hinit
    exact ⟨c', ch', hruns.final, hiso, hchains⟩

/-! ## A vnic leaves a group -/

/-- Of the rules between the vnic and a friend of the group, more than one is
there exactly where they share another group. -/
structure LeaveGroupFits (db : Db) (node : Node) (v g : Text) (d : VnicMap) : Prop where
  mode : db.modeOf d = some .securityGroup
  own : ∀ e ∈ node.cache.getLocalVnicsInGroup g, e.uuid ≠ v → ∀ a ∈ e.address,
    (2 ≤ accepted node.chains v a ↔ (removeGroupOf g d).shares e = true)
  friends : ∀ e ∈ node.cache.getLocalVnicsInGroup g, e.uuid ≠ v → db.isolates e = true →
    ∀ a ∈ d.address, (2 ≤ accepted node.chains e.uuid a ↔ (removeGroupOf g d).shares e = true)

theorem shares_removeGroupOf {e : VnicMap} (h : inGroup g e = false) :
    (removeGroupOf g d).shares e = d.shares e := by
  rw [Bool.eq_iff_iff, shares_iff, shares_iff]
  constructor
  · intro ⟨x, hx, he⟩
    exact ⟨x, (List.mem_filter.mp hx).1, he⟩
  · intro ⟨x, hx, he⟩
    refine ⟨x, List.mem_filter.mpr ⟨hx, ?_⟩, he⟩
    rw [bne_iff_ne]
    intro hxg
    rw [hxg] at he
    unfold inGroup at h
    rw [List.contains_iff_mem.mpr he] at h
    cases h

theorem leftGroup_iso (hk : KnownOk known) (h : CacheIso db known c) (hc : ChainsIso db known ch)
    (hv : known v = some d) (hg : g ∈ d.securityGroups)
    (hfit : LeaveGroupFits db ⟨c, ch⟩ v g d) :
    ∃ c' ch', Proc.final (leftGroup v g) ⟨c, ch⟩ = ⟨c', ch'⟩ ∧
      CacheIso db (known.set v (some (removeGroupOf g d))) c' ∧
      ChainsIso db (known.set v (some (removeGroupOf g d))) ch' := by
  have hne : d.securityGroups ≠ [] := List.ne_nil_of_mem hg
  have huuid : d.uuid = v := hk.uuid v d hv
  obtain ⟨group, hgroup, hdoc⟩ := h.isLocalGroup hv hg
  have hloc : c.isLocalGroup g = true := by
    unfold Cache.isLocalGroup
    rw [hgroup]
    rfl
  obtain ⟨mode, hm, hget⟩ := h.networkMode hv (Or.inl hne)
  rw [hfit.mode] at hm
  cases hm
  obtain ⟨locals, hlocals, hL⟩ := h.localFriendsInGroup hk v hloc
  obtain ⟨friends, hfriends, hF⟩ := h.friendsInGroup hk v hloc
  obtain ⟨ch1, hremove, hsome, hacc⟩ := @runs_removeFriends db c ch d locals
    (fun friend => removeIsolation friend.uuid [d]) (by
      intro e he ch
      obtain ⟨hke, hne⟩ := hL.known_listed (fun e => listed_of_inGroup) e he
      obtain ⟨mode, hmode, hget⟩ := h.networkMode hke (Or.inl hne)
      exact ⟨mode, hmode, runs_removeIsolation hget _⟩)
  let ch2 : Hash Text (List Ipv4) := Hash.modify v (fun chain =>
    (NetworkMode.securityGroup.isolationTasks friends).foldl List.erase chain) ch1
  let c1 : Cache := (c.takeOut v g).removeVnicFromReferencees g v
  let c' : Cache := if c1.localVnicsLeftInGroup g then c1 else c1.removeSecurityGroup g
  have hruns : Proc.Runs (leftGroup v g) ⟨c, ch⟩ () ⟨c', ch2⟩ := by
    unfold leftGroup leaveAsLocal
    apply Proc.Runs.bind (t := (⟨c1, ch2⟩ : Node)) (a := ())
    · apply (runs_getCache _).bind
      rw [h.getLocalVnic hv, if_neg hne]
      simp only [huuid]
      apply (runs_secgroupTasksFor hget (by rw [hgroup]; rfl)).bind
      apply (runs_lift hlocals _).bind
      apply hremove.bind
      apply (runs_lift hfriends _).bind
      apply (runs_removeIsolation hget friends).bind
      apply (runs_removeLocalVnicFromGroup hloc v).bind
      exact runs_modifyCache _ _
    · exact runs_modifyCache _ _
  have hiso1 : CacheIso db (known.set v (some (removeGroupOf g d))) c1 := cacheIso_left h hv
  have hiso : CacheIso db (known.set v (some (removeGroupOf g d))) c' := by
    show CacheIso db _ (if c1.localVnicsLeftInGroup g then c1 else c1.removeSecurityGroup g)
    split
    · exact hiso1
    · rename_i hleft
      apply hiso1.removeSecurityGroup
      intro u
      unfold Cache.localVnicsLeftInGroup at hleft
      unfold Cache.localDoc
      cases hl : c1.securityGroups.lookup g with
      | none => rfl
      | some group =>
        rw [hl] at hleft
        exact Hash.isEmpty_iff.mp (by simpa using hleft) u
  have hmembers : ∀ e, inGroup g e = true → known e.uuid = some e →
      e ∈ c.getLocalVnicsInGroup g := by
    intro e he hke
    exact (h.mem_localVnics hk).mpr ⟨hke, List.contains_iff_mem.mp he⟩
  refine ⟨c', ch2, hruns.final, hiso, hc.leave hk hv hF hL rfl rfl ?_ ?_ ?_ ?_ ?_ ?_ ?_⟩
  · intro e he
    exact shares_iff.mpr ⟨g, hg, List.contains_iff_mem.mp he⟩
  · intro e he
    exact (shares_removeGroupOf he).symm
  · intro e he a ha _
    obtain ⟨hke, hev, hin⟩ := (hF.mem e).mp he
    exact hfit.own e (hmembers e hin hke) hev a ha
  · intro e he a ha hi
    obtain ⟨hke, hev, hin⟩ := (hL.mem e).mp he
    exact hfit.friends e (hmembers e hin hke) hev hi a ha
  · intro u hu
    show ((Hash.modify v _ ch1).lookup u).isSome = true
    rw [Hash.isSome_lookup_modify, hsome]
    exact hu
  · intro a
    show accepted (Hash.modify v _ ch1) v a = _
    rw [accepted_remove, hacc, hL.rulesOfFriends_self, if_pos rfl, rulesOfVnic_eq hfit.mode,
      Nat.sub_zero]
  · intro u a hu
    show accepted (Hash.modify v _ ch1) u a = _
    rw [accepted_remove, hacc, if_neg hu, Nat.sub_zero]

/-! ## A vnic is destroyed -/

/-- Each chain has at most one rule for the vnic, and none where the vnic stands
in `:empty_vnics`. -/
def DestroyFits (node : Node) (v : Text) : Prop :=
  ∀ vif ∈ (node.cache.getLocalVnic v).or (node.cache.getEmptyVnic v), ∀ a ∈ vif.address,
    ∀ u ∈ node.chains.keys, u ≠ v → accepted node.chains u a ≤
      if (node.cache.emptyVnics.lookup v).isSome then 0 else 1

theorem runs_vnicHasIp (h : CacheIso db known c) (hk : KnownOk known) (hv : known v = some d)
    (hl : d.securityGroups ≠ [] ∨ (c.emptyVnics.lookup v).isSome = true) :
    Proc.Runs (vnicHasIp v) ⟨c, ch⟩ true ⟨c, ch⟩ := by
  unfold vnicHasIp
  apply (runs_getCache _).bind
  apply (runs_lift (h.getVnic hv hl) _).bind
  show Proc.Runs (pure ((c.storedDoc v d).address.isSome)) _ _ _
  rw [storedDoc_address, hk.address v d hv]
  rfl

/-- The chains of friends lose the vnic; of the rest only its own chain changes. -/
theorem runs_cleanUpIsolation {vif : VnicMap} {locals : List VnicMap} (hk : KnownOk known)
    (h : CacheIso db known c) (hv : known v = some d) (hvif : vif.uuid = v)
    (hl : d.securityGroups ≠ [] ∨ (c.emptyVnics.lookup v).isSome = true)
    (hlocals : c.getAllLocalFriends v = .ok locals)
    (hL : Friends known v (VnicMap.shares (c.storedDoc v d)) locals) :
    ∃ ch', Proc.Runs (cleanUpIsolation vif v) ⟨c, ch⟩ () ⟨c, ch'⟩ ∧
      (∀ u, (ch'.lookup u).isSome = (ch.lookup u).isSome) ∧
      ∀ u a, u ≠ v → accepted ch' u a = accepted ch u a - rulesOfFriends db vif locals u a := by
  obtain ⟨ch1, hremove, hsome, hacc⟩ := @runs_removeFriends db c ch vif locals (fun friend => do
      let hasIp ← vnicHasIp friend.uuid
      Proc.when hasIp (removeIsolation friend.uuid [vif])) (by
    intro e he ch
    obtain ⟨hke, hne⟩ := hL.known_listed (fun e => listed_of_shares) e he
    obtain ⟨mode, hmode, hget⟩ := h.networkMode hke (Or.inl hne)
    exact ⟨mode, hmode, (runs_vnicHasIp h hk hke (Or.inl hne)).bind (runs_removeIsolation hget _)⟩)
  obtain ⟨friends, hfriends, _⟩ := h.allFriends hk hv hl
  obtain ⟨mode, _, hget⟩ := h.networkMode hv hl
  have hnat : Proc.Runs (vnicIsNatted v) ⟨c, ch1⟩ (c.storedDoc v d).natIpLease.isSome ⟨c, ch1⟩ := by
    unfold vnicIsNatted
    apply (runs_getCache _).bind
    exact (runs_lift (h.getVnic hv hl) _).bind rfl
  -- the rules of a natted vnic go from its own chain
  have hown : ∃ ch2, Proc.Runs (Proc.when (c.storedDoc v d).natIpLease.isSome do
      let allFriends ← lift (c.getAllFriends v)
      removeIsolation vif.uuid allFriends) ⟨c, ch1⟩ () ⟨c, ch2⟩ ∧
      (∀ u, (ch2.lookup u).isSome = (ch1.lookup u).isSome) ∧
      ∀ u a, u ≠ v → accepted ch2 u a = accepted ch1 u a := by
    cases (c.storedDoc v d).natIpLease.isSome with
    | false => exact ⟨ch1, rfl, fun _ => rfl, fun _ _ _ => rfl⟩
    | true =>
      refine ⟨_, (runs_lift hfriends _).bind (runs_removeIsolation (hvif ▸ hget) _), ?_, ?_⟩
      · intro u
        rw [Hash.isSome_lookup_modify]
      · intro u a hu
        rw [accepted_remove, if_neg (hvif ▸ hu), Nat.sub_zero]
  obtain ⟨ch2, hnatted, hsome2, hacc2⟩ := hown
  refine ⟨ch2, ?_, ?_, ?_⟩
  · unfold cleanUpIsolation
    apply (runs_getCache _).bind
    apply (runs_lift hlocals _).bind
    apply hremove.bind
    apply hnat.bind
    apply hnatted.bind
    exact (runs_vnicNetworkMode (hvif ▸ hget)).bind rfl
  · intro u
    rw [hsome2, hsome]
  · intro u a hu
    rw [hacc2 u a hu, hacc]

theorem vnicDestroyed_iso (hk : KnownOk known) (h : CacheIso db known c)
    (hc : ChainsIso db known ch) (hv : known v = some d) (hfit : DestroyFits ⟨c, ch⟩ v) :
    ∃ c' ch', Proc.final (vnicDestroyed v) ⟨c, ch⟩ = ⟨c', ch'⟩ ∧
      CacheIso db (known.set v none) c' ∧ ChainsIso db (known.set v none) ch' := by
  by_cases hl : d.securityGroups ≠ [] ∨ (c.emptyVnics.lookup v).isSome = true
  · obtain ⟨locals, hlocals, hL⟩ := h.allLocalFriends hk hv hl
    -- the document the handler finds
    have hfound : ∃ vif, (c.getLocalVnic v).or (c.getEmptyVnic v) = some vif ∧
        vif.uuid = v ∧ vif.address = d.address := by
      have huuid := hk.uuid v d hv
      rw [h.getLocalVnic hv]
      by_cases hd : d.securityGroups = []
      · rw [if_pos hd]
        obtain ⟨e, he⟩ : ∃ e, c.emptyVnics.lookup v = some e := by
          rcases hl with hl | hl
          · exact absurd hd hl
          · exact Option.isSome_iff_exists.mp hl
        obtain ⟨x, hx, hxe⟩ := h.empties v e he
        rw [hv] at hx
        cases hx
        refine ⟨e, by rw [Option.none_or]; exact he, ?_, ?_⟩
        · rw [hxe]
          exact huuid
        · rw [hxe]
      · rw [if_neg hd]
        exact ⟨d, rfl, huuid, rfl⟩
    obtain ⟨vif, hvif, huuid, haddr⟩ := hfound
    obtain ⟨ch1, hclean, hsome, hacc⟩ := @runs_cleanUpIsolation db known c ch v d vif locals hk h hv
      huuid hl hlocals hL
    have hiso1 := cacheIso_removeVnic (v := v) h
    obtain ⟨c2, hgroups, hiso2⟩ := @runs_removeGroups db (known.set v none) (c.removeVnic v)
      (AList.erase v ch1) v hiso1 (known.set_self v _) vif.securityGroups
    have hruns : Proc.Runs (vnicDestroyed v) ⟨c, ch⟩ ()
        ⟨if c2.localVnicsLeftInNetwork vif.networkId || c2.emptyVnicsLeftInNetwork vif.networkId
          then c2 else c2.removeNetwork vif.networkId, AList.erase v ch1⟩ := by
      unfold vnicDestroyed
      apply (runs_getCache _).bind
      dsimp only
      rw [hvif]
      apply (runs_vnicHasIp h hk hv hl).bind
      apply Proc.Runs.bind (t := (⟨c, ch1⟩ : Node)) (a := ()) hclean
      apply Proc.Runs.bind (t := (⟨c, AList.erase v ch1⟩ : Node)) (a := ())
      · rw [huuid]
        rfl
      apply (runs_modifyCache _ _).bind
      apply hgroups.bind
      exact runs_modifyCache _ _
    refine ⟨_, _, hruns.final, cacheIso_removeNetwork hiso2 _,
      hc.destroy hk hv locals ?_ ?_ ?_ ?_⟩
    · intro u e hu huv hi hs a ha
      have hcount : accepted ch u a ≤ if (c.emptyVnics.lookup v).isSome then 0 else 1 := by
        by_cases hkey : u ∈ ch.keys
        · exact hfit vif hvif a (by rw [haddr]; exact ha) u hkey huv
        · have hnone : ch.lookup u = none := AList.lookup_eq_none.mpr hkey
          unfold accepted
          rw [hnone]
          exact Nat.zero_le _
      cases hemp : (c.emptyVnics.lookup v).isSome with
      | true =>
        rw [hemp, if_pos rfl] at hcount
        omega
      | false =>
        rw [hemp] at hcount
        have hdoc : c.storedDoc v d = d := by
          unfold Cache.storedDoc
          rw [hemp]
          rfl
        rw [hdoc] at hL
        rw [hL.rulesOfFriends_known hk hu huv ha, if_pos ⟨hi, hs⟩]
        exact hcount
    · intro u hu hex
      rw [Hash.lookup_erase, if_neg hu, hsome]
      exact hex
    · intro a
      unfold accepted
      rw [Hash.lookup_erase, if_pos rfl]
      rfl
    · intro u a hu
      have he : accepted (AList.erase v ch1) u a = accepted ch1 u a := by
        unfold accepted
        rw [Hash.lookup_erase, if_neg hu]
      have hrules : rulesOfFriends db vif locals u a = rulesOfFriends db d locals u a := by
        unfold rulesOfFriends
        rw [haddr]
      rw [he, hacc u a hu, hrules]
  · rw [not_or, not_not] at hl
    obtain ⟨hd, hemp⟩ := hl
    have hnone : ∀ e, d.shares e = true → False := by
      intro e he
      obtain ⟨x, hx, _⟩ := shares_iff.mp he
      rw [hd] at hx
      cases hx
    have hruns : Proc.Runs (vnicDestroyed v) ⟨c, ch⟩ () ⟨c, ch⟩ := by
      unfold vnicDestroyed
      apply (runs_getCache _).bind
      dsimp only
      rw [h.getLocalVnic hv, if_pos hd]
      unfold Cache.getEmptyVnic
      rw [Option.not_isSome_iff_eq_none.mp hemp]
      rfl
    refine ⟨c, ch, hruns.final, h.forget ?_ (Option.not_isSome_iff_eq_none.mp hemp),
      hc.destroy hk hv [] ?_ (fun u _ hu => hu) ?_ (fun _ _ _ => rfl)⟩
    · intro g
      apply Option.eq_none_iff_forall_ne_some.mpr
      intro e he
      obtain ⟨hx, hge⟩ := (h.locals g v e).mp he
      rw [hv] at hx
      cases hx
      rw [hd] at hge
      cases hge
    · intro u e _ _ _ hs
      exact (hnone e hs).elim
    · intro a
      by_contra hpos
      obtain ⟨x, f, e, hx, he, hne, ha⟩ := hc.others v a (Nat.pos_of_ne_zero hpos)
      rw [hv] at hx
      cases hx
      exact hnone e ((hc.friends v d f e a hv he hne ha).mp (Nat.pos_of_ne_zero hpos)).2

end

end Netfilter

end WakameVdc
