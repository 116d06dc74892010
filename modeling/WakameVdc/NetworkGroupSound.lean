import WakameVdc.NetworkGroup

/-!
# The vifs of a group's networks

A try on a full network leaves its vif behind. The runs that make one vif for each
template are those in which the network selected first has a free address every time.
-/

namespace WakameVdc

open Lib

namespace GroupScheduler

open VifIndex (VifRow VifError IpAnswer)

/-! ## The retries -/

section
variable {answer : Nat → IpAnswer} {created : Nat → Bool} {k : Nat} {candidates : List (Nat × Nat)}
  {selected : Nat × Nat}

theorem length_filter_selected (hsel : candidates.argmin Prod.snd = some selected) :
    (candidates.filter fun c => c.1 ≠ selected.1).length < candidates.length := by
  refine List.length_filter_lt_length_iff_exists.mpr ⟨selected, List.argmin_mem hsel, ?_⟩
  simp

theorem length_of_round_inr {env : Env} {instanceId : Nat} {t : VifTemplate} {a b : Try}
    (h : round env instanceId t a = .inr b) :
    b.networkCandidates.length < a.networkCandidates.length := by
  unfold round at h
  split at h
  · cases h
  rename_i selected hsel
  split at h
  · cases h
  split at h
  · cases h
  split at h
  · cases h
  split at h
  · cases h
  split at h
  · cases h
  · cases h
    exact length_filter_selected hsel
  · cases h

theorem Finds.leased (h : Finds answer created k candidates) :
    ∃ c ∈ candidates, answer c.1 = .leased := by
  induction h with
  | here hsel _ hanswer => exact ⟨_, List.argmin_mem hsel, hanswer⟩
  | next _ _ _ _ ih =>
    obtain ⟨c, hc, hanswer⟩ := ih
    exact ⟨c, List.mem_of_mem_filter hc, hanswer⟩

theorem finds_iff (hsel : candidates.argmin Prod.snd = some selected) :
    Finds answer created k candidates ↔ created k = true ∧ (answer selected.1 = .leased ∨
      answer selected.1 = .outOfIpRange ∧
        Finds answer created (k + 1) (candidates.filter fun c => c.1 ≠ selected.1)) := by
  constructor
  · intro h
    cases h with
    | here hsel' hcreated hanswer =>
      rw [hsel] at hsel'
      cases hsel'
      exact ⟨hcreated, .inl hanswer⟩
    | next hsel' hcreated hanswer hnext =>
      rw [hsel] at hsel'
      cases hsel'
      exact ⟨hcreated, .inr ⟨hanswer, hnext⟩⟩
  · rintro ⟨hcreated, hanswer | ⟨hanswer, hnext⟩⟩
    · exact .here hsel hcreated hanswer
    · exact .next hsel hcreated hanswer hnext

end

section
variable {env : Env} {instanceId : Nat} {t : VifTemplate} {a : Try} {selected : Nat × Nat}
  {index : Option Int}

theorem within_leased (hs : a.state.Ready env)
    (hsel : a.networkCandidates.argmin Prod.snd = some selected)
    (htype : t.index.typecast env.conf = .ok index) (hcreated : t.created a.tried = true)
    (hnodup : (VifIndex.deviceIndexes a.state.vifs instanceId ++
      [givenIndex a.state.vifs instanceId index]).Nodup)
    (hanswer : a.state.answer selected.1 = .leased) (fuel : Nat) :
    ∃ s', Loop.within (round env instanceId t) (fuel + 1) a = some (.ended s') ∧
      Attached env instanceId selected.1 a.state s' := by
  have hround := round_of_created hs hsel htype hcreated hnodup
  rw [hanswer] at hround
  obtain ⟨s', hround, hattached⟩ := hround
  exact ⟨s', Loop.within_inl hround fuel, hattached⟩

theorem within_outOfIpRange (hs : a.state.Ready env)
    (hsel : a.networkCandidates.argmin Prod.snd = some selected)
    (htype : t.index.typecast env.conf = .ok index) (hcreated : t.created a.tried = true)
    (hnodup : (VifIndex.deviceIndexes a.state.vifs instanceId ++
      [givenIndex a.state.vifs instanceId index]).Nodup)
    (hanswer : a.state.answer selected.1 = .outOfIpRange) (fuel : Nat) :
    ∃ s', Loop.within (round env instanceId t) (fuel + 1) a =
        Loop.within (round env instanceId t) fuel
          ⟨a.networkCandidates.filter fun c => c.1 ≠ selected.1, a.tried + 1, s'⟩ ∧
      Retried env instanceId index a.state s' := by
  have hround := round_of_created hs hsel htype hcreated hnodup
  rw [hanswer] at hround
  obtain ⟨s', hround, hretried⟩ := hround
  exact ⟨s', Loop.within_inr hround fuel, hretried⟩

theorem within_refused (hs : a.state.Ready env)
    (hsel : a.networkCandidates.argmin Prod.snd = some selected)
    (htype : t.index.typecast env.conf = .ok index)
    (h : a.state.answer selected.1 = .refused ∨ ¬ (t.created a.tried = true ∧
      (VifIndex.deviceIndexes a.state.vifs instanceId ++
        [givenIndex a.state.vifs instanceId index]).Nodup)) (fuel : Nat) :
    ∃ e, Loop.within (round env instanceId t) (fuel + 1) a = some (.raised e) := by
  have hraised : ∃ e, round env instanceId t a = .inl (.raised e) := by
    by_cases hvif : t.created a.tried = true ∧ (VifIndex.deviceIndexes a.state.vifs instanceId ++
        [givenIndex a.state.vifs instanceId index]).Nodup
    · have hround := round_of_created hs hsel htype hvif.1 hvif.2
      rw [h.resolve_right (not_not.mpr hvif)] at hround
      exact hround
    · exact round_clash hsel htype hvif
  obtain ⟨e, hraised⟩ := hraised
  exact ⟨e, Loop.within_inl hraised fuel⟩

/-- With the indexes left to the model, the candidates are tried until one has a free
address; each of the tries leaves a vif, with the index that comes next. -/
theorem within_null (hs : a.state.Ready env) (htype : t.index.typecast env.conf = .ok none)
    (hnodup : (VifIndex.deviceIndexes a.state.vifs instanceId).Nodup) {first : Int}
    (hnext : VifIndex.nextIndex a.state.vifs instanceId = first + a.tried) {fuel : Nat}
    (hfuel : a.networkCandidates.length ≤ fuel) :
    (Finds a.state.answer (t.createdAfter first) a.tried a.networkCandidates ∧
      ∃ s', Loop.within (round env instanceId t) (fuel + 1) a = some (.ended s') ∧
        s'.Ready env ∧ a.state.vifs.rows.length < s'.vifs.rows.length) ∨
    (¬ Finds a.state.answer (t.createdAfter first) a.tried a.networkCandidates ∧
      ∃ e, Loop.within (round env instanceId t) (fuel + 1) a = some (.raised e)) := by
  induction fuel generalizing a with
  | zero =>
    have hnone : a.networkCandidates = [] := List.length_eq_zero_iff.mp (by omega)
    refine .inr ⟨fun h => ?_, _, Loop.within_inl (round_none hnone) 0⟩
    obtain ⟨c, hc, -⟩ := h.leased
    rw [hnone] at hc
    cases hc
  | succ fuel ih =>
    cases hsel : a.networkCandidates.argmin Prod.snd with
    | none =>
      have hnone := List.argmin_eq_none.mp hsel
      refine .inr ⟨fun h => ?_, _, Loop.within_inl (round_none hnone) _⟩
      obtain ⟨c, hc, -⟩ := h.leased
      rw [hnone] at hc
      cases hc
    | some selected =>
      have hnodupIff := nodup_nextIndex_iff hs.indexes hnodup
      rw [finds_iff hsel]
      have hcreatedIff : t.createdAfter first a.tried = true ↔ t.created a.tried = true ∧
          VifIndex.nextIndex a.state.vifs instanceId ≤ VifIndex.maxIndex := by
        rw [VifTemplate.createdAfter, Bool.and_eq_true, decide_eq_true_iff, hnext]
      by_cases hcreated : t.createdAfter first a.tried = true
      · obtain ⟨hmade, hfits⟩ := hcreatedIff.mp hcreated
        have hindex := hnodupIff.mpr hfits
        cases hanswer : a.state.answer selected.1 with
        | leased =>
          obtain ⟨s', hwithin, hattached⟩ :=
            within_leased hs hsel htype hmade hindex hanswer (fuel + 1)
          obtain ⟨vif, hrows, -⟩ := hattached.vif
          refine .inl ⟨⟨hcreated, .inl rfl⟩, s', hwithin, hattached.ready, ?_⟩
          rw [hrows, List.length_append]
          exact Nat.lt_succ_self _
        | outOfIpRange =>
          obtain ⟨s', hwithin, hretried⟩ :=
            within_outOfIpRange hs hsel htype hmade hindex hanswer (fuel + 1)
          have hlength := (length_filter_selected hsel).trans_le hfuel
          have hafter := nextIndex_after hs.indexes hretried.indexes hfits
          rw [hwithin]
          rcases @ih ⟨a.networkCandidates.filter fun c => c.1 ≠ selected.1, a.tried + 1, s'⟩
            hretried.ready (hretried.indexes ▸ hindex)
            (by rw [hafter, hnext, Nat.cast_succ, Int.add_assoc]) (Nat.le_of_lt_succ hlength)
            with ⟨hfinds, s'', hended, hready, hrows⟩ | ⟨hfinds, hraised⟩
          · rw [hretried.answer] at hfinds
            refine .inl ⟨⟨hcreated, .inr ⟨rfl, hfinds⟩⟩, s'', hended, hready, ?_⟩
            have := hretried.rows
            dsimp only at hrows
            omega
          · rw [hretried.answer] at hfinds
            refine .inr ⟨?_, hraised⟩
            rintro ⟨-, hleased | ⟨-, hnext⟩⟩
            · cases hleased
            · exact hfinds hnext
        | refused =>
          refine .inr ⟨?_, within_refused hs hsel htype (.inl hanswer) (fuel + 1)⟩
          rintro ⟨-, hleased | ⟨hout, -⟩⟩
          · cases hleased
          · cases hout
      · refine .inr ⟨fun h => hcreated h.1, ?_⟩
        refine within_refused hs hsel htype (.inr ?_) (fuel + 1)
        rintro ⟨hmade, hindex⟩
        exact hcreated (hcreatedIff.mpr ⟨hmade, hnodupIff.mp hindex⟩)

theorem within_given {i : Int} (hs : a.state.Ready env)
    (hsel : a.networkCandidates.argmin Prod.snd = some selected)
    (htype : t.index.typecast env.conf = .ok (some i))
    (hanswer : a.state.answer selected.1 = .outOfIpRange) {fuel : Nat}
    (hfuel : a.networkCandidates.length ≤ fuel) :
    ∃ e, Loop.within (round env instanceId t) (fuel + 1) a = some (.raised e) := by
  by_cases hvif : t.created a.tried = true ∧ (VifIndex.deviceIndexes a.state.vifs instanceId ++
      [givenIndex a.state.vifs instanceId (some i)]).Nodup
  · obtain ⟨s', hwithin, hretried⟩ :=
      within_outOfIpRange hs hsel htype hvif.1 hvif.2 hanswer fuel
    rw [hwithin]
    have hlength := length_filter_selected hsel
    obtain ⟨fuel, rfl⟩ : ∃ k, fuel = k + 1 := ⟨fuel - 1, by omega⟩
    cases hnext : (a.networkCandidates.filter fun c => c.1 ≠ selected.1).argmin Prod.snd with
    | none => exact ⟨_, Loop.within_inl (round_none (List.argmin_eq_none.mp hnext)) fuel⟩
    | some next =>
      refine within_refused hretried.ready hnext htype (.inr ?_) fuel
      rintro ⟨-, hnodup⟩
      rw [hretried.indexes] at hnodup
      have hi := List.mem_singleton_self (VifIndex.stored i)
      exact (List.nodup_append.mp hnodup).2.2 _ (List.mem_append_right _ hi) _ hi rfl
  · exact within_refused hs hsel htype (.inr hvif) fuel

end

/-! ## A template -/

section
variable {env : Env} {instanceId : Nat} {s : State} {t : VifTemplate} {n : Nat}

theorem not_full (h : s.answer n = .leased) : ¬ s.Full n := by
  obtain ⟨network, order, hn, -, hu⟩ := answer_leased h
  exact fun hfull => hu (hfull network hn)

theorem mem_networkCandidates {networks : List Nat} {c : Nat × Nat}
    (h : c ∈ s.networkCandidates networks) : c.1 ∈ networks ∧ c.2 = s.allocatedIpNums c.1 := by
  obtain ⟨n, hn, rfl⟩ := List.mem_map.mp h
  exact ⟨hn, rfl⟩

theorem State.FullAt.not_fits (h : s.FullAt env t) : ¬ s.Fits env instanceId t := by
  obtain ⟨networks, hnetworks, hfull⟩ := h
  rintro ⟨networks', selected, _, hnetworks', hsel, -, -, -, hanswer⟩
  rw [hnetworks] at hnetworks'
  cases hnetworks'
  exact not_full hanswer (hfull _ (mem_networkCandidates (List.argmin_mem hsel)).1)

theorem State.FullAt.not_strays (h : s.FullAt env t) : ¬ s.Strays env instanceId t := by
  obtain ⟨networks, hnetworks, hfull⟩ := h
  rintro ⟨networks', _, hnetworks', -, -, -, -, hfinds⟩
  rw [hnetworks] at hnetworks'
  cases hnetworks'
  obtain ⟨c, hc, hanswer⟩ := hfinds.leased
  exact not_full hanswer (hfull _ (mem_networkCandidates hc).1)

theorem createVif_fits (hs : s.Ready env) (h : s.Fits env instanceId t) :
    ∃ s', createVif env instanceId s t = some (.ended s') ∧ s'.Ready env ∧
      s.NewVif env instanceId t s' := by
  obtain ⟨networks, selected, index, hnetworks, hsel, htype, hcreated, hnodup, hanswer⟩ := h
  let a : Try := ⟨s.networkCandidates networks, 0, s⟩
  obtain ⟨s', hwithin, hattached⟩ :=
    within_leased (a := a) hs hsel htype hcreated hnodup hanswer networks.length
  obtain ⟨vif, hvif⟩ := hattached.vif
  obtain ⟨hmem, hnums⟩ := mem_networkCandidates (List.argmin_mem hsel)
  refine ⟨s', ?_, hattached.ready, networks, selected.1, vif, hnetworks, hmem, not_full hanswer, ?_,
    hvif⟩
  · unfold createVif
    rw [hnetworks]
    exact hwithin
  · intro m hm _
    have hcandidate : (m, s.allocatedIpNums m) ∈ s.networkCandidates networks :=
      List.mem_map_of_mem hm
    have hle := List.le_of_mem_argmin hcandidate hsel
    rw [← hnums]
    exact hle

theorem createVif_strays (hs : s.Ready env) (h : s.Strays env instanceId t) :
    ∃ s', createVif env instanceId s t = some (.ended s') ∧ s'.Ready env ∧
      s.vifs.rows.length + 1 < s'.vifs.rows.length := by
  obtain ⟨networks, selected, hnetworks, hsel, htype, hnodup, hanswer, hfinds⟩ := h
  obtain ⟨hcreated, hleased | ⟨-, hnext⟩⟩ := (finds_iff hsel).mp hfinds
  · rw [hanswer] at hleased
    cases hleased
  · rw [VifTemplate.createdAfter, Bool.and_eq_true, decide_eq_true_iff] at hcreated
    obtain ⟨hmade, hfits⟩ := hcreated
    rw [Nat.cast_zero, Int.add_zero] at hfits
    have hindex := (nodup_nextIndex_iff hs.indexes hnodup).mpr hfits
    let a : Try := ⟨s.networkCandidates networks, 0, s⟩
    obtain ⟨s', hwithin, hretried⟩ :=
      within_outOfIpRange (a := a) hs hsel htype hmade hindex hanswer networks.length
    have hafter := nextIndex_after hs.indexes hretried.indexes hfits
    have hlength := length_filter_selected hsel
    have hnum : (s.networkCandidates networks).length = networks.length := List.length_map _
    obtain ⟨k, hk⟩ : ∃ k, networks.length = k + 1 := ⟨networks.length - 1, by omega⟩
    rw [hnum, hk] at hlength
    rcases @within_null env instanceId t
      ⟨(s.networkCandidates networks).filter fun c => c.1 ≠ selected.1, 1, s'⟩ hretried.ready htype
      (hretried.indexes ▸ hindex) _ hafter k (Nat.le_of_lt_succ hlength)
      with ⟨-, s'', hended, hready, hrows⟩ | ⟨hno, -⟩
    · refine ⟨s'', ?_, hready, ?_⟩
      · unfold createVif
        rw [hnetworks]
        dsimp only
        rw [hwithin, hk]
        exact hended
      · exact hretried.rows ▸ hrows
    · rw [hretried.answer] at hno
      exact absurd hnext hno

theorem createVif_raised (hs : s.Ready env) (hfits : ¬ s.Fits env instanceId t)
    (hstrays : ¬ s.Strays env instanceId t) :
    ∃ e, createVif env instanceId s t = some (.raised e) := by
  unfold createVif
  cases hnetworks : env.networks t with
  | none => exact ⟨_, rfl⟩
  | some networks =>
    dsimp only
    let a : Try := ⟨s.networkCandidates networks, 0, s⟩
    have hnum : a.networkCandidates.length ≤ networks.length := Nat.le_of_eq (List.length_map _)
    cases hsel : a.networkCandidates.argmin Prod.snd with
    | none => exact ⟨_, Loop.within_inl (round_none (List.argmin_eq_none.mp hsel)) _⟩
    | some selected =>
      cases htype : t.index.typecast env.conf with
      | error e => exact ⟨e, Loop.within_inl (round_typecast hsel htype) _⟩
      | ok index =>
        by_cases hvif : t.created 0 = true ∧ (VifIndex.deviceIndexes s.vifs instanceId ++
            [givenIndex s.vifs instanceId index]).Nodup
        · cases hanswer : s.answer selected.1 with
          | leased =>
            exact absurd
              ⟨networks, selected, index, hnetworks, hsel, htype, hvif.1, hvif.2, hanswer⟩ hfits
          | refused =>
            exact within_refused (a := a) hs hsel htype (.inl hanswer) networks.length
          | outOfIpRange =>
            cases index with
            | some i =>
              exact within_given (a := a) hs hsel htype hanswer hnum
            | none =>
              have hnodup := (List.nodup_append.mp hvif.2).1
              rcases within_null (a := a) hs htype hnodup (Int.add_zero _).symm hnum with ⟨hfinds, -⟩ | ⟨-, hraised⟩
              · exact absurd ⟨networks, selected, hnetworks, hsel, htype, hnodup, hanswer, hfinds⟩
                  hstrays
              · exact hraised
        · exact within_refused (a := a) hs hsel htype (.inr hvif) networks.length

end

/-! ## All templates -/

section
variable {env : Env} {instanceId : Nat} {s s' : State} {t : VifTemplate} {ts : List VifTemplate}

theorem createVifs_cons (h : createVif env instanceId s t = some (.ended s'))
    (ts : List VifTemplate) :
    createVifs env instanceId s (t :: ts) = createVifs env instanceId s' ts := by
  rw [createVifs, h]

theorem createVifs_raised {e : VifError} (h : createVif env instanceId s t = some (.raised e))
    (ts : List VifTemplate) : createVifs env instanceId s (t :: ts) = some (.raised e) := by
  rw [createVifs, h]

theorem createVif_ready (hs : s.Ready env)
    (h : s.Fits env instanceId t ∨ s.Strays env instanceId t)
    (hended : createVif env instanceId s t = some (.ended s')) : s'.Ready env := by
  obtain ⟨s₁, hended₁, hready⟩ :
      ∃ s₁, createVif env instanceId s t = some (.ended s₁) ∧ s₁.Ready env := by
    rcases h with hfits | hstrays
    · obtain ⟨s₁, hended₁, hready, -⟩ := createVif_fits hs hfits
      exact ⟨s₁, hended₁, hready⟩
    · obtain ⟨s₁, hended₁, hready, -⟩ := createVif_strays hs hstrays
      exact ⟨s₁, hended₁, hready⟩
  rw [hended] at hended₁
  cases hended₁
  exact hready

theorem OneEach.length (h : OneEach env instanceId s ts s') :
    s'.vifs.rows.length = s.vifs.rows.length + ts.length := by
  induction h with
  | nil => rfl
  | cons hvif _ ih =>
    obtain ⟨_, _, vif, -, -, -, -, hrows, -⟩ := hvif
    rw [ih, hrows, List.length_append, List.length_singleton, List.length_cons]
    omega

theorem AllFit.ended (h : AllFit env instanceId s ts) (hs : s.Ready env) :
    ∃ s', createVifs env instanceId s ts = some (.ended s') ∧ OneEach env instanceId s ts s' := by
  induction h with
  | nil s => exact ⟨s, rfl, .nil s⟩
  | cons hfits hended _ ih =>
    obtain ⟨s₁, hended₁, hready, hvif⟩ := createVif_fits hs hfits
    rw [hended] at hended₁
    cases hended₁
    obtain ⟨s₂, hrest, heach⟩ := ih hready
    exact ⟨s₂, (createVifs_cons hended _).trans hrest, .cons hvif heach⟩

theorem AllFit.not_raised {pre post : List VifTemplate} {e : VifError}
    (h : AllFit env instanceId s (pre ++ t :: post))
    (hpre : createVifs env instanceId s pre = some (.ended s')) :
    createVif env instanceId s' t ≠ some (.raised e) := by
  induction pre generalizing s with
  | nil =>
    cases hpre
    cases h with
    | cons _ hended _ =>
      rw [hended]
      nofun
  | cons t₀ pre ih =>
    cases h with
    | cons _ hended hrest => exact ih hrest ((createVifs_cons hended pre).symm.trans hpre)

theorem FullReached.raised (h : FullReached env instanceId s ts) (hs : s.Ready env) :
    ∃ e, createVifs env instanceId s ts = some (.raised e) := by
  induction h with
  | here hfull =>
    obtain ⟨e, hraised⟩ := createVif_raised hs hfull.not_fits hfull.not_strays
    exact ⟨e, createVifs_raised hraised _⟩
  | later hfits hended _ ih =>
    rw [createVifs_cons hended]
    exact ih (createVif_ready hs hfits hended)

theorem FullReached.fullAt {pre post : List VifTemplate} {e : VifError}
    (h : FullReached env instanceId s (pre ++ t :: post)) (hs : s.Ready env)
    (hpre : createVifs env instanceId s pre = some (.ended s'))
    (hraised : createVif env instanceId s' t = some (.raised e)) : s'.FullAt env t := by
  induction pre generalizing s with
  | nil =>
    cases hpre
    cases h with
    | here hfull => exact hfull
    | later _ hended _ =>
      rw [hraised] at hended
      cases hended
  | cons t₀ pre ih =>
    cases h with
    | here hfull =>
      obtain ⟨e', hraised'⟩ := createVif_raised hs hfull.not_fits hfull.not_strays
      rw [createVifs_raised hraised'] at hpre
      cases hpre
    | later hfits hended hrest =>
      rw [createVifs_cons hended] at hpre
      exact ih hrest (createVif_ready hs hfits hended) hpre

theorem createVif_isSome (env : Env) (instanceId : Nat) (s : State) (t : VifTemplate) :
    (createVif env instanceId s t).isSome := by
  unfold createVif
  split
  · rfl
  · refine Loop.within_isSome (fun a => a.networkCandidates.length)
      (fun a b h => length_of_round_inr h) ?_
    exact Nat.lt_succ_of_le (Nat.le_of_eq (List.length_map _))

theorem createVifs_isSome (env : Env) (instanceId : Nat) (s : State) (ts : List VifTemplate) :
    (createVifs env instanceId s ts).isSome := by
  induction ts generalizing s with
  | nil => rfl
  | cons t ts ih =>
    obtain ⟨outcome, hcreate⟩ := Option.isSome_iff_exists.mp (createVif_isSome env instanceId s t)
    rw [createVifs, hcreate]
    cases outcome with
    | raised e => rfl
    | ended s' => exact ih s'

/-- A template whose group is not full raises, or there are too many vifs in the end. -/
inductive Breaks (env : Env) (instanceId : Nat) (s : State) (ts : List VifTemplate) : Prop
  | raises {pre post : List VifTemplate} {t : VifTemplate} {s' : State} {e : VifError} :
    ts = pre ++ t :: post → createVifs env instanceId s pre = some (.ended s') →
    createVif env instanceId s' t = some (.raised e) → ¬ s'.FullAt env t →
    Breaks env instanceId s ts
  | tooMany {s' : State} : createVifs env instanceId s ts = some (.ended s') →
    s.vifs.rows.length + ts.length < s'.vifs.rows.length → Breaks env instanceId s ts

theorem Breaks.cons (h : Breaks env instanceId s' ts)
    (hended : createVif env instanceId s t = some (.ended s'))
    (hrows : s.vifs.rows.length < s'.vifs.rows.length) : Breaks env instanceId s (t :: ts) := by
  cases h with
  | @raises pre _ _ _ _ hts hpre hraised hno =>
    subst hts
    exact .raises rfl ((createVifs_cons hended pre).trans hpre) hraised hno
  | tooMany hrest hmany =>
    refine .tooMany ((createVifs_cons hended ts).trans hrest) ?_
    rw [List.length_cons]
    omega

theorem Breaks.not_promised (h : Breaks env instanceId s ts) : ¬ Promised env instanceId s ts := by
  intro hp
  cases h with
  | raises hts hpre hraised hno => exact hno (hp.raises _ _ _ _ _ hts hpre hraised)
  | tooMany hended hmany =>
    have hlength := (hp.ends _ hended).length
    omega

theorem createVifs_cases (hs : s.Ready env) :
    AllFit env instanceId s ts ∨ FullReached env instanceId s ts ∨ Breaks env instanceId s ts := by
  induction ts generalizing s with
  | nil => exact .inl (.nil s)
  | cons t ts ih =>
    by_cases hfits : s.Fits env instanceId t
    · obtain ⟨s', hended, hready, _, _, vif, -, -, -, -, hrows, -⟩ := createVif_fits hs hfits
      have hlt : s.vifs.rows.length < s'.vifs.rows.length := by
        rw [hrows, List.length_append]
        exact Nat.lt_succ_self _
      rcases ih hready with hall | hfull | hbreaks
      · exact .inl (.cons hfits hended hall)
      · exact .inr (.inl (.later (.inl hfits) hended hfull))
      · exact .inr (.inr (hbreaks.cons hended hlt))
    · by_cases hstrays : s.Strays env instanceId t
      · obtain ⟨s', hended, hready, hrows⟩ := createVif_strays hs hstrays
        rcases ih hready with hall | hfull | hbreaks
        · obtain ⟨s'', hrest, heach⟩ := hall.ended hready
          refine .inr (.inr (.tooMany ((createVifs_cons hended ts).trans hrest) ?_))
          rw [heach.length, List.length_cons]
          omega
        · exact .inr (.inl (.later (.inr hstrays) hended hfull))
        · exact .inr (.inr (hbreaks.cons hended (Nat.lt_of_succ_lt hrows)))
      · obtain ⟨e, hraised⟩ := createVif_raised hs hfits hstrays
        by_cases hfull : s.FullAt env t
        · exact .inr (.inl (.here hfull))
        · exact .inr (.inr (@Breaks.raises _ _ _ _ [] _ _ _ _ rfl rfl hraised hfull))

end

/-- `10.0.0.0/24` with one dynamic address, which is leased, and `10.0.1.0/24` with five,
one of them leased. -/
def oneFull : State where
  vifs := (Table.empty.create (fun id => ⟨id, some 2, 0, some 1, none, false⟩) fun _ => rfl).create
    (fun id => ⟨id, some 3, 0, some 2, none, false⟩) fun _ => rfl
  leases :=
    let db : Lease.Db := { Lease.threeVifs with
      networks := Lease.threeVifs.networks.create
        (fun id => ⟨id, 0x0a000100, 24, none, none, none, none, .asc, 1⟩) fun _ => rfl
      dhcpRanges := (Table.empty.create (fun id => ⟨id, 1, 0x0a000005, 0x0a000005⟩)
        fun _ => rfl).create (fun id => ⟨id, 2, 0x0a000105, 0x0a000109⟩) fun _ => rfl
      vifs := Table.empty }
    (db.insertLease 1 0x0a000005 (some 1) .auto none).insertLease 2 0x0a000105 (some 2) .auto none

def twoNetworks : Env where
  conf := ⟨fun _ => .unknown, fun _ => true, some [], fun _ => some 0⟩
  mappedResources tag := if tag = [] then some [1, 2] else some [2]
  ip := Lease.ascendingEnv

/-- The entry of a request without the `vifs` parameter. -/
def eth0 : VifTemplate := ⟨.text ['0'], none, fun _ => true, fun _ => true⟩

theorem oneFull_ready : oneFull.Ready twoNetworks where
  ascending := Lease.ascendingEnv_ascending
  unique := by decide
  ranges n network hn := by
    have hall : ∀ network ∈ oneFull.leases.networks.rows, oneFull.leases.RangesValid network := by
      decide
    exact hall network (List.mem_of_find?_eq_some hn)
  vifs := by decide
  indexes := by decide

theorem oneFull_usable : oneFull.leases.usable
    ⟨2, 0x0a000100, 24, none, none, none, none, .asc, 1⟩ ≠ ∅ := by
  refine Set.nonempty_iff_ne_empty.mp ⟨0x0a000106, ?_, ?_, ?_⟩
  · decide
  · decide
  · decide

theorem oneFull_fits : oneFull.Fits twoNetworks 1 { eth0 with network := some ['b'] } := by
  refine ⟨[2], (2, 1), some 0, rfl, by decide, rfl, rfl, by decide, ?_⟩
  exact leased_of_usable rfl rfl oneFull_usable

end GroupScheduler

end WakameVdc
