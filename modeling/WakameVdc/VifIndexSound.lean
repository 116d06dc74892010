import WakameVdc.VifIndex

/-!
# Device indexes stay apart

A clash is found when the vif, or a later one of its instance, is saved after it was
stored. That leaves the last entry of a request.
-/

namespace WakameVdc

open Lib

namespace VifIndex

/-! ## One save -/

section
variable {conf : Conf} {vifs vifs' : Vifs} {vif v v' : VifRow} {instanceId : Nat}

theorem deviceIndexes_create (mk : Nat → VifRow) (hmk : ∀ k, (mk k).id = k) (j : Nat) :
    deviceIndexes (vifs.create mk hmk) j = deviceIndexes vifs j ++
      if !(mk vifs.next).deleted && (mk vifs.next).instanceId == some j
        then [(mk vifs.next).deviceIndex] else [] := by
  unfold deviceIndexes Table.create
  rw [List.filter_append, List.map_append]
  congr 1
  by_cases h : (!(mk vifs.next).deleted && (mk vifs.next).instanceId == some j) = true
  · simp only [List.filter_cons, h, if_true, List.filter_nil, List.map_singleton]
  · simp only [List.filter_cons, h, Bool.false_eq_true, if_false, List.filter_nil, List.map_nil]

/-- A save that leaves the index, the instance and the mark of a vif alone. -/
theorem deviceIndexes_save (hv : v ∈ vifs.rows) (hid : v'.id = v.id)
    (hinstance : v'.instanceId = v.instanceId) (hindex : v'.deviceIndex = v.deviceIndex)
    (hdeleted : v'.deleted = v.deleted) (j : Nat) :
    deviceIndexes (vifs.save v') j = deviceIndexes vifs j := by
  obtain ⟨l₁, l₂, he, he'⟩ := vifs.save_split hv hid
  unfold deviceIndexes
  rw [he, he']
  simp only [List.filter_append, List.filter_cons, List.map_append, hinstance, hdeleted]
  split <;> simp [hindex]

theorem saveVif_ok (h : saveVif vifs vif = .ok vifs') :
    vifs' = vifs.save vif ∧ valid vifs vif = true := by
  unfold saveVif at h
  split at h
  · rename_i hvalid
    cases h
    exact ⟨rfl, hvalid⟩
  · cases h

theorem valid_iff (hdel : vif.deleted = false) (hinstance : vif.instanceId = some instanceId) :
    valid vifs vif = true ↔ (deviceIndexes vifs instanceId).Nodup := by
  unfold valid
  rw [hdel, hinstance, Bool.false_or, Option.all_some, decide_eq_true_iff]

/-- A vif that `add_nic` has just made. -/
structure Fresh (vifs : Vifs) (instanceId : Nat) (vif : VifRow) : Prop where
  mem : vif ∈ vifs.rows
  instanceId : vif.instanceId = some instanceId
  networkId : vif.networkId = none
  deleted : vif.deleted = false

theorem addNic_ok {index : Option Int} {answer : Attempt}
    (h : addNic vifs instanceId index answer = .ok (vifs', vif)) :
    answer.macAddr = true ∧ answer.securityGroups = true ∧ (deviceIndexes vifs instanceId).Nodup ∧
      Fresh vifs' instanceId vif ∧
      ∀ j, deviceIndexes vifs' j = deviceIndexes vifs j ++
        if j = instanceId then [stored (index.getD (nextIndex vifs instanceId))] else [] := by
  unfold addNic at h
  dsimp only at h
  split at h
  · cases h
  rename_i hmac
  split at h
  · cases h
  rename_i hvalid
  split at h
  · cases h
  rename_i hgroups
  cases h
  rw [Bool.not_eq_true', Bool.not_eq_false, valid_iff rfl rfl] at hvalid
  refine ⟨by simpa using hmac, by simpa using hgroups, hvalid, ⟨?_, rfl, rfl, rfl⟩, ?_⟩
  · exact (vifs.mem_create).mpr (.inr rfl)
  · intro j
    rw [deviceIndexes_create]
    congr 1
    by_cases hj : j = instanceId
    · simp [hj]
    · simp [hj, Ne.symm hj]

theorem addNic_succeeds {answer : Attempt} (index : Option Int) (hmac : answer.macAddr = true)
    (hgroups : answer.securityGroups = true) (hnodup : (deviceIndexes vifs instanceId).Nodup) :
    ∃ r, addNic vifs instanceId index answer = .ok r := by
  unfold addNic
  dsimp only
  rw [hmac, hgroups, (valid_iff rfl rfl).mpr hnodup]
  exact ⟨_, rfl⟩

/-- A second save of a new vif finds a clash with what is stored, itself included. -/
theorem saveVif_fresh (hf : Fresh vifs instanceId vif) (hid : v.id = vif.id)
    (hinstance : v.instanceId = vif.instanceId) (hindex : v.deviceIndex = vif.deviceIndex)
    (hdel : v.deleted = vif.deleted) :
    if (deviceIndexes vifs instanceId).Nodup then
      saveVif vifs v = .ok (vifs.save v) ∧
        ∀ j, deviceIndexes (vifs.save v) j = deviceIndexes vifs j
    else saveVif vifs v = .error .duplicateIndex := by
  have hvalid : valid vifs v = true ↔ (deviceIndexes vifs instanceId).Nodup :=
    valid_iff (hdel.trans hf.deleted) (hinstance.trans hf.instanceId)
  unfold saveVif
  split
  · rename_i hnodup
    rw [if_pos (hvalid.mpr hnodup)]
    exact ⟨rfl, deviceIndexes_save hf.mem hid hinstance hindex hdel⟩
  · rename_i hno
    rw [if_neg (fun h => hno (hvalid.mp h))]

end

/-! ## One request -/

/-- What a scheduler does with a new vif, as far as the indexes go. -/
structure Follows (conf : Conf) (s : Scheduler) (connect : Connect) : Prop where
  refuses : ∀ {e vifs instanceId vif}, Fresh vifs instanceId vif → s.refusesNetwork conf e = true →
    ∃ err, connect conf e vifs vif = .error err
  skips : ∀ {e vifs instanceId vif}, Fresh vifs instanceId vif → s.refusesNetwork conf e = false →
    s.savesAgain conf e = false → connect conf e vifs vif = .ok vifs
  saves : ∀ {e vifs instanceId vif}, Fresh vifs instanceId vif → s.refusesNetwork conf e = false →
    s.savesAgain conf e = true →
      if (deviceIndexes vifs instanceId).Nodup then
        ∃ vifs', connect conf e vifs vif = .ok vifs' ∧
          ∀ j, deviceIndexes vifs' j = deviceIndexes vifs j
      else ∃ err, connect conf e vifs vif = .error err

section
variable {conf : Conf} {vifs : Vifs} {vif : VifRow} {e : Entry} {instanceId : Nat}

theorem attachToNetwork_fresh (hf : Fresh vifs instanceId vif) (network : Nat) :
    attachToNetwork vifs vif network = saveVif vifs { vif with networkId := some network } := by
  unfold attachToNetwork
  rw [hf.networkId]
  rfl

/-- What a scheduler does in the end: it saves the vif, and leases an address
where it does that. -/
theorem saves_of (attach : Entry → Vifs → VifRow → Nat → Except VifError Vifs)
    (hattach : ∀ {vifs vif v instanceId network}, Fresh vifs instanceId vif → v.id = vif.id →
      v.instanceId = vif.instanceId → v.deviceIndex = vif.deviceIndex → v.deleted = vif.deleted →
      v.networkId = none →
      attach e vifs v network = saveVif vifs { v with networkId := some network })
    (hf : Fresh vifs instanceId vif) (v : VifRow) (hid : v.id = vif.id)
    (hinstance : v.instanceId = vif.instanceId) (hindex : v.deviceIndex = vif.deviceIndex)
    (hdel : v.deleted = vif.deleted) (hnetwork : v.networkId = none) (network : Nat) :
    if (deviceIndexes vifs instanceId).Nodup then
      ∃ vifs', attach e vifs v network = .ok vifs' ∧
        ∀ j, deviceIndexes vifs' j = deviceIndexes vifs j
    else ∃ err, attach e vifs v network = .error err := by
  have hsave : if (deviceIndexes vifs instanceId).Nodup then _ else _ :=
    @saveVif_fresh vifs vif { v with networkId := some network } instanceId hf hid hinstance hindex hdel
  rw [hattach hf hid hinstance hindex hdel hnetwork]
  split
  · rename_i hnodup
    rw [if_pos hnodup] at hsave
    exact ⟨_, hsave⟩
  · rename_i hno
    rw [if_neg hno] at hsave
    exact ⟨_, hsave⟩

theorem attachAndLease_fresh (hlease : (e.attempt 0).ipLease = .leased) {v : VifRow} {network : Nat}
    (hnetwork : v.networkId = none) :
    attachAndLease e vifs v network = saveVif vifs { v with networkId := some network } := by
  unfold attachAndLease attachToNetwork
  rw [hnetwork, hlease]
  dsimp only [Option.isSome_none, Bool.false_eq_true, if_false]
  rw [if_neg Bool.false_ne_true]
  dsimp only
  cases saveVif vifs { v with networkId := some network } <;> rfl

theorem attachAndLease_refused (hlease : (e.attempt 0).ipLease ≠ .leased) (v : VifRow)
    (network : Nat) : ∃ err, attachAndLease e vifs v network = .error err := by
  unfold attachAndLease
  cases attachToNetwork vifs v network with
  | error err => exact ⟨err, rfl⟩
  | ok vifs =>
    cases hl : (e.attempt 0).ipLease with
    | leased => exact absurd hl hlease
    | outOfIpRange => exact ⟨_, rfl⟩
    | refused => exact ⟨_, rfl⟩

theorem setNatNetwork_ok (hnat : (e.template.natNetwork.any fun t => conf.network t == .invalid) = false)
    (v : VifRow) : ∃ nat, setNatNetwork conf e v = .ok { v with natNetworkId := nat } := by
  unfold setNatNetwork
  cases hn : e.template.natNetwork with
  | none => exact ⟨v.natNetworkId, rfl⟩
  | some t =>
    rw [hn, Option.any_some, beq_eq_false_iff_ne] at hnat
    rw [Option.map_some]
    cases hl : conf.network t with
    | invalid => exact absurd hl hnat
    | unknown => exact ⟨none, rfl⟩
    | found id => exact ⟨some id, rfl⟩

theorem setNatNetwork_error
    (hnat : (e.template.natNetwork.any fun t => conf.network t == .invalid) = true) (v : VifRow) :
    setNatNetwork conf e v = .error .invalidUuid := by
  unfold setNatNetwork
  cases hn : e.template.natNetwork with
  | none =>
    rw [hn] at hnat
    cases hnat
  | some t =>
    rw [hn, Option.any_some, beq_iff_eq] at hnat
    rw [Option.map_some, hnat]

theorem connectNamed_eq {attach : Entry → Vifs → VifRow → Nat → Except VifError Vifs} {s : Scheduler}
    (hs : s = .vifsRequestParam ∨ s = .specifyNetwork) (hnone : s.refusesNetwork conf e = false)
    (v : VifRow) :
    (s.savesAgain conf e = false ∧ connectNamed attach conf e vifs v = .ok vifs) ∨
      (s.savesAgain conf e = true ∧ (s = .vifsRequestParam → (e.attempt 0).ipLease = .leased) ∧
        ∃ network nat, connectNamed attach conf e vifs v =
          attach e vifs { v with natNetworkId := nat } network) := by
  have hsaves : s.savesAgain conf e = e.template.network.any fun name => name ≠ [] := by
    rcases hs with rfl | rfl <;> rfl
  rw [hsaves]
  unfold Scheduler.refusesNetwork at hnone
  unfold connectNamed
  cases hn : e.template.network with
  | none => exact .inl ⟨rfl, rfl⟩
  | some name =>
    cases name with
    | nil => exact .inl ⟨rfl, rfl⟩
    | cons c name =>
      refine .inr ⟨rfl, ?_⟩
      rw [hn] at hnone
      dsimp only
      cases hl : conf.network (c :: name) with
      | invalid => simp [hl] at hnone
      | unknown => rcases hs with rfl | rfl <;> simp [hl] at hnone
      | found network =>
        have hboth : (e.template.natNetwork.any fun t => conf.network t == .invalid) = false ∧
            (s = .vifsRequestParam → (e.attempt 0).ipLease = .leased) := by
          rcases hs with rfl | rfl <;> simpa [hl] using hnone
        obtain ⟨nat, hnat⟩ := setNatNetwork_ok hboth.1 v
        refine ⟨hboth.2, network, nat, ?_⟩
        rw [hnat]

theorem connectNamed_refused {attach : Entry → Vifs → VifRow → Nat → Except VifError Vifs}
    {s : Scheduler} (hs : s = .vifsRequestParam ∨ s = .specifyNetwork)
    (hrefused : s.refusesNetwork conf e = true) (v : VifRow)
    (hattach : s = .vifsRequestParam → (e.attempt 0).ipLease ≠ .leased →
      ∀ v network, ∃ err, attach e vifs v network = .error err) :
    ∃ err, connectNamed attach conf e vifs v = .error err := by
  unfold Scheduler.refusesNetwork at hrefused
  unfold connectNamed
  cases hn : e.template.network with
  | none => simp [hn] at hrefused
  | some name =>
    cases name with
    | nil => simp [hn] at hrefused
    | cons c name =>
      dsimp only
      cases hl : conf.network (c :: name) with
      | invalid => exact ⟨_, rfl⟩
      | unknown => exact ⟨_, rfl⟩
      | found network =>
        dsimp only
        cases hnat : e.template.natNetwork.any fun t => conf.network t == .invalid with
        | true =>
          rw [setNatNetwork_error hnat]
          exact ⟨_, rfl⟩
        | false =>
          obtain ⟨nat, hset⟩ := setNatNetwork_ok hnat v
          rw [hset]
          rcases hs with rfl | rfl
          · exact hattach rfl (by simpa [hn, hl, hnat] using hrefused) _ network
          · simp [hn, hl, hnat] at hrefused

/-- `connectNamed` does what a scheduler does with a vif if `attach` saves it, but for
an address that is not leased. -/
theorem follows_connectNamed {attach : Entry → Vifs → VifRow → Nat → Except VifError Vifs}
    {s : Scheduler} (hs : s = .vifsRequestParam ∨ s = .specifyNetwork)
    (hrefused : s = .vifsRequestParam → ∀ e vifs v network, (e.attempt 0).ipLease ≠ .leased →
      ∃ err, attach e vifs v network = .error err)
    (hattach : ∀ e, (s = .vifsRequestParam → (e.attempt 0).ipLease = .leased) →
      ∀ {vifs vif v instanceId network}, Fresh vifs instanceId vif → v.id = vif.id →
        v.instanceId = vif.instanceId → v.deviceIndex = vif.deviceIndex →
        v.deleted = vif.deleted → v.networkId = none →
        attach e vifs v network = saveVif vifs { v with networkId := some network })
    (conf : Conf) : Follows conf s (connectNamed attach) where
  refuses := fun _ h => connectNamed_refused hs h _ fun h' hlease v network =>
    hrefused h' _ _ v network hlease
  skips := by
    intro e vifs instanceId vif hf hnone hskip
    rcases connectNamed_eq hs hnone vif with ⟨-, hok⟩ | ⟨hsaves, -⟩
    · exact hok
    · rw [hskip] at hsaves
      cases hsaves
  saves := by
    intro e vifs instanceId vif hf hnone hsaves
    rcases connectNamed_eq hs hnone vif with ⟨hskip, -⟩ | ⟨-, hlease, network, nat, hok⟩
    · rw [hsaves] at hskip
      cases hskip
    · rw [hok]
      exact saves_of _ (hattach e hlease) hf { vif with natNetworkId := nat } rfl rfl rfl rfl
        hf.networkId network

theorem follows_vifsRequestParam (conf : Conf) :
    Follows conf .vifsRequestParam VifsRequestParam.connect := by
  refine follows_connectNamed (.inl rfl) ?_ ?_ conf
  · intro _ e vifs v network hlease
    exact attachAndLease_refused hlease v network
  · intro e hlease vifs vif v instanceId network _ _ _ _ _ hnetwork
    exact attachAndLease_fresh (hlease rfl) hnetwork

theorem follows_specifyNetwork (conf : Conf) :
    Follows conf .specifyNetwork SpecifyNetwork.connect := by
  refine follows_connectNamed (.inr rfl) ?_ ?_ conf
  · intro h
    cases h
  · intros
    rfl

theorem follows_vifParamTemplate (conf : Conf) :
    Follows conf .vifParamTemplate VifParamTemplate.connect where
  refuses := by
    intro e vifs instanceId vif _ hrefused
    unfold Scheduler.refusesNetwork at hrefused
    unfold VifParamTemplate.connect
    cases hn : e.template.network with
    | none => simp [hn] at hrefused
    | some name =>
      cases name with
      | nil => simp [hn] at hrefused
      | cons c name =>
        dsimp only
        cases hl : conf.network (c :: name) with
        | invalid => exact ⟨_, rfl⟩
        | unknown => simp [hn, hl] at hrefused
        | found network =>
          exact attachAndLease_refused (by simpa [hn, hl] using hrefused) vif network
  skips := by
    intro e vifs instanceId vif _ hnone hskip
    unfold Scheduler.refusesNetwork at hnone
    unfold Scheduler.savesAgain at hskip
    unfold VifParamTemplate.connect
    cases hn : e.template.network with
    | none => rfl
    | some name =>
      cases name with
      | nil => rfl
      | cons c name =>
        dsimp only
        cases hl : conf.network (c :: name) with
        | invalid => simp [hn, hl] at hnone
        | unknown => rfl
        | found network => simp [hn, hl] at hskip
  saves := by
    intro e vifs instanceId vif hf hnone hsaves
    unfold Scheduler.refusesNetwork at hnone
    unfold Scheduler.savesAgain at hsaves
    unfold VifParamTemplate.connect
    cases hn : e.template.network with
    | none => simp [hn] at hsaves
    | some name =>
      cases name with
      | nil => simp [hn] at hsaves
      | cons c name =>
        dsimp only
        cases hl : conf.network (c :: name) with
        | invalid => simp [hn, hl] at hsaves
        | unknown => simp [hn, hl] at hsaves
        | found network =>
          have hlease : (e.attempt 0).ipLease = .leased := by simpa [hn, hl] using hnone
          exact saves_of _ (fun _ _ _ _ _ hnetwork => attachAndLease_fresh hlease hnetwork) hf vif
            rfl rfl rfl rfl hf.networkId network

end

/-! ## All entries of a request -/

def Passes (conf : Conf) (s : Scheduler) : List Int → Int → List Entry → Prop
  | _, _, [] => True
  | held, index, e :: entries =>
    let given := (e.template.index.toI index).toOption.getD index
    s.refuses conf e = false ∧ held.Nodup ∧
      (s.savesAgain conf e = true → (held ++ [stored given]).Nodup) ∧
      Passes conf s (held ++ [stored given]) (max index given + 1) entries

theorem toI_ok {index : Int} {i : Index} (h : i ≠ .other) :
    i.toI index = .ok ((i.toI index).toOption.getD index) := by
  cases i with
  | other => exact absurd rfl h
  | null => rfl
  | no => rfl
  | int n => rfl
  | text t => rfl

section
variable {conf : Conf} {s : Scheduler} {connect : Connect} {instanceId : Nat}

theorem createVifs_passes (hc : Follows conf s connect) {entries : List Entry} {index : Int}
    {vifs : Vifs} {held : List Int} (hstored : deviceIndexes vifs instanceId = held)
    (h : Passes conf s held index entries) :
    ∃ vifs', createVifs connect conf instanceId index entries vifs = .ok vifs' ∧
      deviceIndexes vifs' instanceId = held ++ assigned index entries ∧
      ∀ j, j ≠ instanceId → deviceIndexes vifs' j = deviceIndexes vifs j := by
  induction entries generalizing index vifs held with
  | nil => exact ⟨vifs, rfl, by simp [assigned, hstored], fun _ _ => rfl⟩
  | cons e entries ih =>
    obtain ⟨hrefuses, hnodup, hsaves, hrest⟩ := h
    unfold Scheduler.refuses at hrefuses
    simp only [Bool.or_eq_false_iff, beq_eq_false_iff_ne, Bool.not_eq_false'] at hrefuses
    obtain ⟨⟨⟨hother, hmac⟩, hgroups⟩, hnetwork⟩ := hrefuses
    have hindex := @toI_ok index _ hother
    unfold createVifs assigned
    dsimp only
    rw [hindex]
    dsimp only
    rw [show (Except.ok ((e.template.index.toI index).toOption.getD index) :
      Except VifError Int).toOption.getD index = (e.template.index.toI index).toOption.getD index
      from rfl]
    generalize (e.template.index.toI index).toOption.getD index = given at hsaves hrest ⊢
    obtain ⟨⟨vifs1, vif⟩, hadd⟩ := addNic_succeeds (some given) hmac hgroups (hstored ▸ hnodup)
    obtain ⟨-, -, -, hfresh, hindexes⟩ := addNic_ok hadd
    have hself : deviceIndexes vifs1 instanceId = held ++ [stored given] := by
      rw [hindexes, hstored, if_pos rfl]
      rfl
    have hothers : ∀ j, j ≠ instanceId → deviceIndexes vifs1 j = deviceIndexes vifs j := by
      intro j hj
      rw [hindexes, if_neg hj, List.append_nil]
    rw [hadd]
    have hconnect : ∃ vifs2, connect conf e vifs1 vif = .ok vifs2 ∧
        ∀ j, deviceIndexes vifs2 j = deviceIndexes vifs1 j := by
      cases hsave : s.savesAgain conf e with
      | false => exact ⟨vifs1, hc.skips hfresh hnetwork hsave, fun _ => rfl⟩
      | true =>
        have hs := hc.saves hfresh hnetwork hsave
        rwa [if_pos (hself ▸ hsaves hsave)] at hs
    obtain ⟨vifs2, hok, hkeep⟩ := hconnect
    obtain ⟨vifs', hrun, hgot, hsame⟩ := ih ((hkeep _).trans hself) hrest
    dsimp only
    rw [hok]
    refine ⟨vifs', hrun, ?_, ?_⟩
    · rw [hgot, List.append_assoc]
      rfl
    · intro j hj
      rw [hsame j hj, hkeep, hothers j hj]

theorem createVifs_fails (hc : Follows conf s connect) {entries : List Entry} {index : Int}
    {vifs : Vifs} {held : List Int} (hstored : deviceIndexes vifs instanceId = held)
    (h : ¬ Passes conf s held index entries) :
    ∃ err, createVifs connect conf instanceId index entries vifs = .error err := by
  induction entries generalizing index vifs held with
  | nil => exact absurd trivial h
  | cons e entries ih =>
    unfold createVifs
    by_cases hother : e.template.index = .other
    · rw [hother]
      exact ⟨_, rfl⟩
    have hindex := @toI_ok index _ hother
    unfold Passes at h
    dsimp only at h
    rw [hindex]
    dsimp only
    generalize (e.template.index.toI index).toOption.getD index = given at h ⊢
    cases hadd : addNic vifs instanceId (some given) (e.attempt 0) with
    | error err => exact ⟨err, rfl⟩
    | ok r =>
      obtain ⟨vifs1, vif⟩ := r
      obtain ⟨hmac, hgroups, hnodup, hfresh, hindexes⟩ := addNic_ok hadd
      have hself : deviceIndexes vifs1 instanceId = held ++ [stored given] := by
        rw [hindexes, hstored, if_pos rfl]
        rfl
      rw [hstored] at hnodup
      dsimp only
      cases hnetwork : s.refusesNetwork conf e with
      | true =>
        obtain ⟨err, herr⟩ := hc.refuses hfresh hnetwork
        rw [herr]
        exact ⟨err, rfl⟩
      | false =>
        have hrefuses : s.refuses conf e = false := by
          unfold Scheduler.refuses
          rw [hmac, hgroups, hnetwork, beq_eq_false_iff_ne.mpr hother]
          rfl
        cases hsave : s.savesAgain conf e with
        | false =>
          rw [hc.skips hfresh hnetwork hsave]
          refine ih hself fun hpass => h ⟨hrefuses, hnodup, ?_, hpass⟩
          intro hs
          rw [hsave] at hs
          cases hs
        | true =>
          have hs := hc.saves hfresh hnetwork hsave
          rw [hself] at hs
          split at hs
          · rename_i hnodup1
            obtain ⟨vifs2, hok, hkeep⟩ := hs
            rw [hok]
            exact ih ((hkeep _).trans hself) fun hpass =>
              h ⟨hrefuses, hnodup, fun _ => hnodup1, hpass⟩
          · obtain ⟨err, herr⟩ := hs
            rw [herr]
            exact ⟨err, rfl⟩

/-- Every clash is found but one of the last entry. -/
theorem passes_iff {held : List Int} {index : Int} {entries : List Entry} (hstored : held.Nodup) :
    Passes conf s held index entries ↔ (∀ e ∈ entries, s.refuses conf e = false) ∧
      (held ++ (assigned index entries).dropLast).Nodup ∧
      ∀ e, entries.getLast? = some e → s.savesAgain conf e = true →
        (held ++ assigned index entries).Nodup := by
  induction entries generalizing index held with
  | nil => simp [Passes, assigned, hstored]
  | cons e entries ih =>
    unfold Passes assigned
    dsimp only
    generalize (e.template.index.toI index).toOption.getD index = given
    cases entries with
    | nil => simp [Passes, assigned, hstored]
    | cons e2 entries =>
      have hcons : ∃ given2 rest,
          assigned (max index given + 1) (e2 :: entries) = given2 :: rest := ⟨_, _, rfl⟩
      have hall : ∀ l : List Int, held ++ stored given :: l = held ++ [stored given] ++ l := by simp
      have hlast : (stored given :: assigned (max index given + 1) (e2 :: entries)).dropLast =
          stored given :: (assigned (max index given + 1) (e2 :: entries)).dropLast := by
        obtain ⟨given2, rest, he⟩ := hcons
        rw [he]
        rfl
      rw [hlast, hall (assigned _ _), hall (assigned _ _).dropLast, List.getLast?_cons_cons,
        List.forall_mem_cons]
      constructor
      · rintro ⟨hrefuses, -, hsaves, hrest⟩
        have hnodup : (held ++ [stored given]).Nodup := by
          unfold Passes at hrest
          exact hrest.2.1
        obtain ⟨hall, hbefore, hagain⟩ := (ih hnodup).mp hrest
        exact ⟨⟨hrefuses, hall⟩, hbefore, hagain⟩
      · rintro ⟨⟨hrefuses, hall⟩, hbefore, hagain⟩
        have hnodup : (held ++ [stored given]).Nodup := (List.nodup_append.mp hbefore).1
        exact ⟨hrefuses, hstored, fun _ => hnodup, (ih hnodup).mpr ⟨hall, hbefore, hagain⟩⟩

theorem inStep_createVifs_iff (hc : Follows conf s connect) {vifs : Vifs} (hs : InStep vifs)
    (entries : List Entry) :
    (∀ vifs', createVifs connect conf instanceId 0 entries vifs = .ok vifs' → InStep vifs') ↔
      ¬ Clash conf s instanceId entries vifs := by
  by_cases hpass : Passes conf s (deviceIndexes vifs instanceId) 0 entries
  · obtain ⟨vifs', hok, hself, hothers⟩ := createVifs_passes hc rfl hpass
    obtain ⟨haccepted, hbefore, hagain⟩ := (passes_iff (hs instanceId)).mp hpass
    rw [hok]
    constructor
    · intro h hclash
      have hnodup := h vifs' rfl instanceId
      rw [hself] at hnodup
      exact hclash.repeated hnodup
    · intro hno got hgot
      cases hgot
      intro j
      by_cases hj : j = instanceId
      · rw [hj, hself]
        by_contra hrepeated
        refine hno ⟨haccepted, fun e he => ?_, hbefore, hrepeated⟩
        by_contra hsaves
        exact hrepeated (hagain e he (by simpa using hsaves))
      · rw [hothers j hj]
        exact hs j
  · obtain ⟨err, herr⟩ := createVifs_fails hc rfl hpass
    rw [herr]
    refine iff_of_true (fun vifs' h => by cases h) fun hclash => hpass ?_
    refine (passes_iff (hs instanceId)).mpr ⟨hclash.accepted, hclash.before, fun e he hsaves => ?_⟩
    rw [hclash.savedOnce e he] at hsaves
    cases hsaves

end

/-! `NetworkGroup` saves every vif it makes a second time. -/

section
variable {conf : Conf} {vifs vifs' : Vifs} {instanceId : Nat}

theorem tryNetworks_inStep {index : Option Int} {attempt : Nat → Attempt} {fuel tried : Nat}
    {candidates : List (Text × Nat)} (hs : InStep vifs)
    (h : NetworkGroup.tryNetworks conf instanceId index attempt fuel tried candidates vifs =
      .ok vifs') : InStep vifs' := by
  induction fuel generalizing tried candidates vifs with
  | zero => cases h
  | succ fuel ih =>
    unfold NetworkGroup.tryNetworks at h
    split at h
    · cases h
    split at h
    · cases h
    rename_i vifs1 vif hadd
    obtain ⟨-, -, -, hfresh, hindexes⟩ := addNic_ok hadd
    split at h
    · rename_i network _
      rw [attachToNetwork_fresh hfresh] at h
      have hsave := @saveVif_fresh vifs1 vif { vif with networkId := some network } instanceId hfresh
        rfl rfl rfl rfl
      split at h
      · cases h
      · rename_i vifs2 hok
        split at hsave
        · rename_i hnodup
          rw [hsave.1] at hok
          cases hok
          have hs2 : InStep (vifs1.save { vif with networkId := some network }) := by
            intro j
            rw [hsave.2]
            by_cases hj : j = instanceId
            · rw [hj]
              exact hnodup
            · rw [hindexes, if_neg hj, List.append_nil]
              exact hs j
          split at h
          · cases h
            exact hs2
          · cases h
          · exact ih hs2 h
        · rw [hsave] at hok
          cases hok
    · cases h

theorem networkGroup_inStep {entries : List Entry} (hs : InStep vifs)
    (h : NetworkGroup.createVifs conf instanceId entries vifs = .ok vifs') : InStep vifs' := by
  induction entries generalizing vifs with
  | nil =>
    cases h
    exact hs
  | cons e entries ih =>
    unfold NetworkGroup.createVifs at h
    split at h
    · cases h
    · rename_i vifs1 hcreate
      refine ih ?_ h
      unfold NetworkGroup.createVif at hcreate
      split at hcreate
      · cases hcreate
      split at hcreate
      · cases hcreate
      split at hcreate
      · cases hcreate
      · exact tryNetworks_inStep hs hcreate

end

/-! ## Any call -/

section
variable {conf : Conf} {vifs vifs' : Vifs} {v : VifRow}

theorem saveVif_inStep {v' : VifRow} (hs : InStep vifs) (hv : v ∈ vifs.rows)
    (h : saveVif vifs v' = .ok vifs') (hid : v'.id = v.id)
    (hinstance : v'.instanceId = v.instanceId) (hindex : v'.deviceIndex = v.deviceIndex)
    (hdeleted : v'.deleted = v.deleted) : InStep vifs' := by
  obtain ⟨rfl, -⟩ := saveVif_ok h
  intro j
  rw [deviceIndexes_save hv hid hinstance hindex hdeleted]
  exact hs j

theorem destroyVif_inStep (hs : InStep vifs) (hv : v ∈ vifs.rows)
    (h : destroyVif vifs v = .ok vifs') : InStep vifs' := by
  obtain ⟨rfl, -⟩ := saveVif_ok h
  intro j
  have hkept := hs j
  obtain ⟨l₁, l₂, he, he'⟩ := @Table.save_split _ _ vifs v { v with deleted := true } hv rfl
  unfold deviceIndexes at hkept ⊢
  rw [he] at hkept
  rw [he']
  refine hkept.sublist (List.Sublist.map _ ?_)
  rw [List.filter_append, List.filter_append]
  refine List.Sublist.append_left ?_ _
  rw [List.filter_cons_of_neg (by simp), List.filter_cons]
  split
  · exact List.sublist_cons_self _ _
  · exact List.Sublist.refl _

/-- A call keeps the indexes apart exactly if it makes no clash that nobody finds. -/
theorem inStep_step_iff (hs : InStep vifs) (op : VifOp) :
    InStep (op.step conf vifs) ↔ ¬ op.Clashes conf vifs := by
  have hstep : InStep (op.step conf vifs) ↔ ∀ vifs', op.run conf vifs = .ok vifs' → InStep vifs' := by
    unfold VifOp.step
    cases hrun : op.run conf vifs with
    | error e => exact iff_of_true hs fun _ h => by cases h
    | ok got =>
      constructor
      · rintro h _ ⟨⟩
        exact h
      · exact fun h => h got rfl
  rw [hstep]
  have onVif : ∀ {id f vifs'}, VifOp.onVif vifs id f = .ok vifs' →
      ∃ v ∈ vifs.rows, f v = .ok vifs' := by
    intro id f vifs' h
    unfold VifOp.onVif at h
    split at h
    · cases h
    · rename_i v hfind
      exact ⟨v, vifs.mem_of_find hfind, h⟩
  cases op with
  | schedule scheduler instanceId request =>
    have three : ∀ {connect}, Follows conf scheduler connect → scheduler ≠ .networkGroup →
        ∀ {entries}, request.vifs = some entries →
          scheduler.schedule conf instanceId request vifs =
            createVifs connect conf instanceId 0 entries vifs →
          ((∀ vifs', scheduler.schedule conf instanceId request vifs = .ok vifs' → InStep vifs') ↔
            ¬ (VifOp.schedule scheduler instanceId request).Clashes conf vifs) := by
      intro connect hc hne entries hreq hschedule
      rw [hschedule, inStep_createVifs_iff hc hs]
      refine not_congr ⟨fun h => ⟨hne, entries, hreq, h⟩, ?_⟩
      rintro ⟨-, entries', hreq', h⟩
      rw [hreq] at hreq'
      cases hreq'
      exact h
    have missing : request.vifs = none →
        ¬ (VifOp.schedule scheduler instanceId request).Clashes conf vifs := by
      rintro hreq ⟨-, entries, hreq', -⟩
      rw [hreq] at hreq'
      cases hreq'
    cases hreq : request.vifs with
    | none =>
      refine iff_of_true (fun vifs' h => ?_) (missing hreq)
      simp only [VifOp.run, Scheduler.schedule, hreq] at h
      cases scheduler with
      | vifsRequestParam => cases h
      | specifyNetwork => cases h
      | vifParamTemplate =>
        cases h
        exact hs
      | networkGroup => exact networkGroup_inStep hs h
    | some entries =>
      cases scheduler with
      | vifsRequestParam =>
        exact three (follows_vifsRequestParam conf) (by decide) hreq (by simp [Scheduler.schedule, hreq])
      | specifyNetwork =>
        exact three (follows_specifyNetwork conf) (by decide) hreq (by simp [Scheduler.schedule, hreq])
      | vifParamTemplate =>
        exact three (follows_vifParamTemplate conf) (by decide) hreq (by simp [Scheduler.schedule, hreq])
      | networkGroup =>
        exact iff_of_true (fun _ h => networkGroup_inStep hs h) fun h => h.1 rfl
  | attach vif network =>
    refine iff_of_true (fun vifs' h => ?_) id
    obtain ⟨v, hv, h⟩ := onVif h
    split at h
    · cases h
    · rename_i hnone
      unfold attachToNetwork at h
      rw [if_neg hnone] at h
      exact @saveVif_inStep _ _ v { v with networkId := some network } hs hv h rfl rfl rfl rfl
  | detach vif =>
    refine iff_of_true (fun vifs' h => ?_) id
    obtain ⟨v, hv, h⟩ := onVif h
    split at h
    · cases h
    · exact @saveVif_inStep _ _ v { v with networkId := none } hs hv h rfl rfl rfl rfl
  | destroy vif =>
    refine iff_of_true (fun vifs' h => ?_) id
    obtain ⟨v, hv, h⟩ := onVif h
    exact destroyVif_inStep hs hv h

/-- Along a run the vifs of every instance keep different indexes exactly if no
request ends with an entry whose clash nobody finds. -/
theorem deviceIndexes_run_iff (conf : Conf) (hs : InStep vifs) (ops : List VifOp) :
    Each (VifOp.step conf) (fun vifs op => InStep (op.step conf vifs)) vifs ops ↔
      Each (VifOp.step conf) (fun vifs op => ¬ op.Clashes conf vifs) vifs ops :=
  each_congr_of InStep (fun _ _ _ h => h) (fun _ op h => inStep_step_iff h op) hs

end

/-! ## Two vifs without a network -/

def oneNetwork : Conf where
  network := fun name => if name = "nw-a".toList then .found 1 else .invalid
  networkGroup := fun _ => false
  networkGroupId := none
  integer := fun t => (Text.nat? t).map Int.ofNat

def entry (index : Index) (network : Option Text) : Entry :=
  ⟨⟨index, network, none⟩, [], fun _ => ⟨true, true, .leased⟩⟩

def requesting (entries : List Entry) : Request := ⟨some entries, [], fun _ => ⟨true, true, .leased⟩⟩

theorem empty_inStep : InStep Table.empty := fun _ => List.nodup_nil

theorem deviceIndexes_run_counted :
    Each (VifOp.step oneNetwork) (fun vifs op => InStep (op.step oneNetwork vifs)) Table.empty
      [.schedule .vifsRequestParam 1
          (requesting [entry (.text "1".toList) none, entry .null (some "nw-a".toList)]),
        .destroy 1] :=
  (deviceIndexes_run_iff oneNetwork empty_inStep _).mpr (by
    refine ⟨?_, ?_, trivial⟩
    · rintro ⟨-, entries, hentries, h⟩
      cases hentries
      exact h.repeated (by decide +kernel)
    · exact id)

/-- The index of the second entry is compared with the stored vifs before its own
vif is stored, and never after. -/
theorem index_given_twice :
    InStep Table.empty ∧
      ¬ Each (VifOp.step oneNetwork) (fun vifs op => InStep (op.step oneNetwork vifs)) Table.empty
        [.schedule .vifsRequestParam 1
          (requesting [entry (.text "0".toList) none, entry (.text "0".toList) none])] := by
  refine ⟨empty_inStep, fun h => ?_⟩
  have hnodup := h.1 1
  revert hnodup
  decide +kernel

end VifIndex

end WakameVdc
