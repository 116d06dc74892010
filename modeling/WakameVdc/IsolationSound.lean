import Mathlib
import WakameVdc.ServiceNetfilter

/-!
# Which friends a chain accepts

A chain is a multiset of rules: a vnic that is created or joins a group adds a
rule for each friend to its own chain and one to the chain of each friend, and a
vnic that leaves or is destroyed takes one away. What a chain accepts is compared
with the groups of the vnics the node knows.
-/

namespace WakameVdc

open Lib

def VnicMap.shares (d e : VnicMap) : Bool :=
  d.securityGroups.any fun g => e.securityGroups.contains g

namespace Netfilter

abbrev Known := Text → Option VnicMap

def Db.modeOf (db : Db) (vnic : VnicMap) : Option NetworkMode :=
  (vnic.networkId.bind db.networks.lookup).map NetworkMap.networkMode

def Db.isolates (db : Db) (vnic : VnicMap) : Bool :=
  (db.modeOf vnic).any fun mode => mode != .passThrough

def accepted (chains : Hash Text (List Ipv4)) (v : Text) (a : Ipv4) : Nat :=
  ((chains.lookup v).getD []).count a

def Known.set (known : Known) (v : Text) (x : Option VnicMap) : Known :=
  fun u => if u = v then x else known u

theorem Known.set_self (known : Known) (v : Text) (x : Option VnicMap) : known.set v x v = x :=
  if_pos rfl

theorem Known.set_ne (known : Known) {v u : Text} (x : Option VnicMap) (h : u ≠ v) :
    known.set v x u = known u := if_neg h

/-- The documents are those of the vnics, and each vnic has an address of its own. -/
structure KnownOk (known : Known) : Prop where
  uuid : ∀ v d, known v = some d → d.uuid = v
  address : ∀ v d, known v = some d → d.address.isSome = true
  distinct : ∀ v f d e, known v = some d → known f = some e → d.address = e.address → v = f

/-- The chains of a vnic accept the addresses of the vnics it shares a group with,
and no others. -/
structure ChainsIso (db : Db) (known : Known) (chains : Hash Text (List Ipv4)) : Prop where
  exist : ∀ v d, known v = some d → (chains.lookup v).isSome = true
  friends : ∀ v d f e a, known v = some d → known f = some e → f ≠ v → e.address = some a →
    (0 < accepted chains v a ↔ db.isolates d = true ∧ d.shares e = true)
  others : ∀ v a, 0 < accepted chains v a →
    ∃ d f e, known v = some d ∧ known f = some e ∧ f ≠ v ∧ e.address = some a

/-- Friends of a vnic, each once. -/
structure Friends (known : Known) (v : Text) (p : VnicMap → Bool) (friends : List VnicMap) :
    Prop where
  nodup : (friends.map VnicMap.uuid).Nodup
  mem : ∀ e, e ∈ friends ↔ known e.uuid = some e ∧ e.uuid ≠ v ∧ p e = true

theorem shares_iff {d e : VnicMap} :
    d.shares e = true ↔ ∃ g, g ∈ d.securityGroups ∧ g ∈ e.securityGroups := by
  unfold VnicMap.shares
  rw [List.any_eq_true]
  constructor
  · intro ⟨g, hg, he⟩
    exact ⟨g, hg, List.contains_iff_mem.mp he⟩
  · intro ⟨g, hg, he⟩
    exact ⟨g, hg, List.contains_iff_mem.mpr he⟩

theorem shares_comm (d e : VnicMap) : d.shares e = e.shares d := by
  rw [Bool.eq_iff_iff, shares_iff, shares_iff]
  constructor
  · intro ⟨g, hd, he⟩
    exact ⟨g, he, hd⟩
  · intro ⟨g, he, hd⟩
    exact ⟨g, hd, he⟩

/-! ## Rules of a chain -/

theorem count_foldl_cons (ips chain : List Ipv4) (a : Ipv4) :
    (ips.foldl (fun chain ip => ip :: chain) chain).count a = chain.count a + ips.count a := by
  induction ips generalizing chain with
  | nil => rfl
  | cons ip ips ih =>
    rw [List.foldl_cons, ih, List.count_cons, List.count_cons]
    omega

theorem count_foldl_erase (ips chain : List Ipv4) (a : Ipv4) :
    (ips.foldl List.erase chain).count a = chain.count a - ips.count a := by
  induction ips generalizing chain with
  | nil => rfl
  | cons ip ips ih =>
    rw [List.foldl_cons, ih, List.count_erase, List.count_cons]
    omega

theorem accepted_accept {chains : Hash Text (List Ipv4)} {u : Text}
    (hu : (chains.lookup u).isSome = true) (ips : List Ipv4) (v : Text) (a : Ipv4) :
    accepted (Hash.modify u (fun chain => ips.foldl (fun chain ip => ip :: chain) chain) chains) v a
      = accepted chains v a + if v = u then ips.count a else 0 := by
  unfold accepted
  rw [Hash.lookup_modify]
  by_cases hv : v = u
  · obtain ⟨chain, hc⟩ := Option.isSome_iff_exists.mp hu
    rw [if_pos hv, if_pos hv, hv, hc]
    exact count_foldl_cons ips chain a
  · rw [if_neg hv, if_neg hv, Nat.add_zero]

theorem accepted_remove (chains : Hash Text (List Ipv4)) (u : Text) (ips : List Ipv4) (v : Text)
    (a : Ipv4) : accepted (Hash.modify u (fun chain => ips.foldl List.erase chain) chains) v a
      = accepted chains v a - if v = u then ips.count a else 0 := by
  unfold accepted
  rw [Hash.lookup_modify]
  by_cases hv : v = u
  · rw [if_pos hv, if_pos hv]
    cases chains.lookup v with
    | none => simp
    | some chain => exact count_foldl_erase ips chain a
  · rw [if_neg hv, if_neg hv, Nat.sub_zero]

/-! ## The rules between a vnic and its friends -/

def rulesOfFriends (db : Db) (vnic : VnicMap) (friends : List VnicMap) (u : Text) (a : Ipv4) :
    Nat :=
  (friends.map fun e => if e.uuid = u ∧ db.isolates e = true ∧ vnic.address = some a then 1
    else 0).sum

def rulesOfVnic (db : Db) (vnic : VnicMap) (friends : List VnicMap) (a : Ipv4) : Nat :=
  if db.isolates vnic = true then (friends.filterMap VnicMap.address).count a else 0

section
variable {db : Db} {known : Known} {vnic : VnicMap} {v : Text} {p : VnicMap → Bool}
  {friends : List VnicMap}

theorem rulesOfFriends_absent {u : Text} (h : ∀ e ∈ friends, e.uuid ≠ u) (a : Ipv4) :
    rulesOfFriends db vnic friends u a = 0 := by
  unfold rulesOfFriends
  induction friends with
  | nil => rfl
  | cons e friends ih =>
    have he := h e List.mem_cons_self
    rw [List.map_cons, List.sum_cons, if_neg (fun hx => he hx.1), Nat.zero_add]
    exact ih fun e' he' => h e' (List.mem_cons_of_mem _ he')

theorem rulesOfFriends_of_ne {u : Text} {a : Ipv4} (h : vnic.address ≠ some a) :
    rulesOfFriends db vnic friends u a = 0 := by
  unfold rulesOfFriends
  induction friends with
  | nil => rfl
  | cons e friends ih =>
    rw [List.map_cons, List.sum_cons, if_neg (fun hx => h hx.2.2), Nat.zero_add]
    exact ih

theorem rulesOfFriends_mem {e : VnicMap} (hn : (friends.map VnicMap.uuid).Nodup) (he : e ∈ friends)
    {a : Ipv4} (ha : vnic.address = some a) :
    rulesOfFriends db vnic friends e.uuid a = if db.isolates e = true then 1 else 0 := by
  induction friends with
  | nil => cases he
  | cons f friends ih =>
    rw [List.map_cons, List.nodup_cons] at hn
    unfold rulesOfFriends
    rw [List.map_cons, List.sum_cons]
    show _ + rulesOfFriends db vnic friends e.uuid a = _
    rcases List.mem_cons.mp he with he | he
    · rw [rulesOfFriends_absent, he, Nat.add_zero]
      · simp [ha]
      · intro e' he' hu
        rw [he] at hu
        exact hn.1 (hu ▸ List.mem_map_of_mem he')
    · have hne : f.uuid ≠ e.uuid := by
        intro hu
        exact hn.1 (hu ▸ List.mem_map_of_mem he)
      rw [if_neg (fun hx => hne hx.1), Nat.zero_add]
      exact ih hn.2 he

theorem rulesOfFriends_pos {u : Text} {a : Ipv4}
    (h : 0 < rulesOfFriends db vnic friends u a) :
    ∃ e ∈ friends, e.uuid = u ∧ db.isolates e = true ∧ vnic.address = some a := by
  induction friends with
  | nil => cases h
  | cons e friends ih =>
    by_cases hc : e.uuid = u ∧ db.isolates e = true ∧ vnic.address = some a
    · exact ⟨e, List.mem_cons_self, hc⟩
    · unfold rulesOfFriends at h
      rw [List.map_cons, List.sum_cons, if_neg hc, Nat.zero_add] at h
      obtain ⟨f, hf, hx⟩ := ih h
      exact ⟨f, List.mem_cons_of_mem _ hf, hx⟩

theorem Friends.rulesOfFriends_known (h : Friends known v p friends) {u : Text} {e : VnicMap}
    (hk : KnownOk known) (he : known u = some e) (hne : u ≠ v) {a : Ipv4}
    (ha : vnic.address = some a) : rulesOfFriends db vnic friends u a =
      if db.isolates e = true ∧ p e = true then 1 else 0 := by
  have hu := hk.uuid u e he
  by_cases hp : p e = true
  · have hmem : e ∈ friends := (h.mem e).mpr ⟨by rw [hu]; exact he, by rw [hu]; exact hne, hp⟩
    rw [← hu, rulesOfFriends_mem h.nodup hmem ha]
    simp [hp]
  · rw [rulesOfFriends_absent]
    · simp [hp]
    · intro f hf hfu
      have hf' := (h.mem f).mp hf
      rw [hfu, he] at hf'
      cases hf'.1
      exact hp hf'.2.2

theorem Friends.rulesOfFriends_self (h : Friends known v p friends) (a : Ipv4) :
    rulesOfFriends db vnic friends v a = 0 :=
  rulesOfFriends_absent (fun e he => ((h.mem e).mp he).2.1) a

theorem Friends.nodup_address (h : Friends known v p friends) (hk : KnownOk known) :
    (friends.filterMap VnicMap.address).Nodup := by
  have hn := h.nodup
  have hall : ∀ e ∈ friends, known e.uuid = some e := fun e he => ((h.mem e).mp he).1
  clear h
  induction friends with
  | nil => exact List.nodup_nil
  | cons e friends ih =>
    rw [List.map_cons, List.nodup_cons] at hn
    have hrest := ih hn.2 fun f hf => hall f (List.mem_cons_of_mem _ hf)
    have he := hall e List.mem_cons_self
    cases ha : e.address with
    | none =>
      rw [List.filterMap_cons_none ha]
      exact hrest
    | some a =>
      rw [List.filterMap_cons_some ha, List.nodup_cons]
      refine ⟨?_, hrest⟩
      intro hmem
      obtain ⟨f, hf, hfa⟩ := List.mem_filterMap.mp hmem
      have hfu := hk.distinct _ _ e f he (hall f (List.mem_cons_of_mem _ hf)) (by rw [ha, hfa])
      exact hn.1 (hfu ▸ List.mem_map_of_mem hf)

theorem Friends.rulesOfVnic_known (h : Friends known v p friends) (hk : KnownOk known) {f : Text}
    {e : VnicMap} (he : known f = some e) (hne : f ≠ v) {a : Ipv4} (ha : e.address = some a) :
    rulesOfVnic db vnic friends a = if db.isolates vnic = true ∧ p e = true then 1 else 0 := by
  unfold rulesOfVnic
  have hu := hk.uuid f e he
  have hmem : a ∈ friends.filterMap VnicMap.address ↔ p e = true := by
    rw [List.mem_filterMap]
    constructor
    · intro ⟨e', he', ha'⟩
      have hk' := (h.mem e').mp he'
      have hsame := hk.distinct _ _ e' e hk'.1 he (by rw [ha, ha'])
      rw [hsame, he] at hk'
      cases hk'.1
      exact hk'.2.2
    · intro hp
      exact ⟨e, (h.mem e).mpr ⟨by rw [hu]; exact he, by rw [hu]; exact hne, hp⟩, ha⟩
  by_cases hi : db.isolates vnic = true
  · rw [if_pos hi, (h.nodup_address hk).count]
    simp [hmem, hi]
  · rw [if_neg hi, if_neg (fun hx => hi hx.1)]

theorem rulesOfVnic_pos {a : Ipv4} (h : 0 < rulesOfVnic db vnic friends a) :
    db.isolates vnic = true ∧ ∃ e ∈ friends, e.address = some a := by
  unfold rulesOfVnic at h
  split at h
  · rename_i hi
    exact ⟨hi, List.mem_filterMap.mp (List.count_pos_iff.mp h)⟩
  · omega

end

/-! ## A vnic gets friends -/

section
variable {db : Db} {known : Known} {chains chains' : Hash Text (List Ipv4)} {v : Text}
  {d' : VnicMap} {p : VnicMap → Bool} {friends locals : List VnicMap}

theorem ChainsIso.accepted_old (h : ChainsIso db known chains)
    (hk' : KnownOk (known.set v (some d')))
    (hold : ∀ d, known v = some d → d.address = d'.address ∧ d.networkId = d'.networkId)
    {f : Text} {e : VnicMap} (he : known f = some e) (hne : f ≠ v) :
    (∀ a, e.address = some a → (0 < accepted chains v a ↔
      db.isolates d' = true ∧ ∃ d, known v = some d ∧ d.shares e = true)) ∧
    ∀ a, d'.address = some a → (0 < accepted chains f a ↔
      db.isolates e = true ∧ ∃ d, known v = some d ∧ d.shares e = true) := by
  cases hv : known v with
  | some d =>
    obtain ⟨ha', hn⟩ := hold d hv
    have hiso : db.isolates d = db.isolates d' := by
      unfold Db.isolates Db.modeOf
      rw [hn]
    constructor
    · intro a ha
      rw [h.friends v d f e a hv he hne ha, hiso]
      simp
    · intro a ha
      rw [h.friends f e v d a he hv (Ne.symm hne) (by rw [ha', ha]), shares_comm]
      simp
  | none =>
    constructor
    · intro a _
      simp only [reduceCtorEq, false_and, exists_false, and_false, iff_false]
      intro hpos
      obtain ⟨d, _, _, hd, _⟩ := h.others v a hpos
      rw [hv] at hd
      cases hd
    · intro a ha
      simp only [reduceCtorEq, false_and, exists_false, and_false, iff_false]
      intro hpos
      obtain ⟨_, f', e', _, he', _, ha'⟩ := h.others f a hpos
      by_cases hf' : f' = v
      · rw [hf', hv] at he'
        cases he'
      · have := hk'.distinct f' v e' d' (by rw [known.set_ne _ hf']; exact he')
          (known.set_self v _) (by rw [ha, ha'])
        exact hf' this

/-- A vnic is created, or joins a group: the vnics it did not share a group with
before are its new friends. -/
theorem ChainsIso.join (h : ChainsIso db known chains) (hk : KnownOk known)
    (hk' : KnownOk (known.set v (some d'))) (hF : Friends known v p friends)
    (hL : Friends known v p locals)
    (hold : ∀ d, known v = some d → d.address = d'.address ∧ d.networkId = d'.networkId)
    (hp : ∀ f e, known f = some e → f ≠ v →
      (d'.shares e = true ↔ (∃ d, known v = some d ∧ d.shares e = true) ∨ p e = true))
    (hexist : ∀ u, (chains.lookup u).isSome = true ∨ u = v → (chains'.lookup u).isSome = true)
    (hself : ∀ a, accepted chains' v a = accepted chains v a + rulesOfVnic db d' friends a)
    (hothers : ∀ u a, u ≠ v →
      accepted chains' u a = accepted chains u a + rulesOfFriends db d' locals u a) :
    ChainsIso db (known.set v (some d')) chains' := by
  have hset := fun {u : Text} (hu : u ≠ v) => known.set_ne (some d') hu
  refine ⟨?_, ?_, ?_⟩
  · intro u d hu
    by_cases huv : u = v
    · exact hexist u (Or.inr huv)
    · rw [hset huv] at hu
      exact hexist u (Or.inl (h.exist u d hu))
  · intro u d f e a hu hf hne ha
    by_cases huv : u = v
    · have hfv : f ≠ v := huv ▸ hne
      rw [huv, known.set_self] at hu
      cases hu
      rw [hset hfv] at hf
      have ho := (h.accepted_old hk' hold hf hfv).1 a ha
      rw [huv, hself, hF.rulesOfVnic_known hk hf hfv ha, hp f e hf hfv]
      by_cases hc : db.isolates d' = true ∧ p e = true
      · rw [if_pos hc]
        simp [hc]
      · rw [if_neg hc, Nat.add_zero, ho, and_or_left, or_iff_left hc]
    · rw [hset huv] at hu
      rw [hothers u a huv]
      by_cases hfv : f = v
      · rw [hfv, known.set_self] at hf
        cases hf
        have ho := (h.accepted_old hk' hold hu huv).2 a ha
        rw [hL.rulesOfFriends_known hk hu huv ha, shares_comm, hp u d hu huv]
        by_cases hc : db.isolates d = true ∧ p d = true
        · rw [if_pos hc]
          simp [hc]
        · rw [if_neg hc, Nat.add_zero, ho, and_or_left, or_iff_left hc]
      · have hf' := hf
        rw [hset hfv] at hf
        have hne' : d'.address ≠ some a := by
          intro hx
          exact hfv (hk'.distinct f v e d' hf' (known.set_self v _) (by rw [ha, hx]))
        rw [rulesOfFriends_of_ne hne', Nat.add_zero]
        exact h.friends u d f e a hu hf hne ha
  · have hlift : ∀ u d f e a, known u = some d → known f = some e → f ≠ u → e.address = some a →
        ∃ d f e, known.set v (some d') u = some d ∧ known.set v (some d') f = some e ∧ f ≠ u ∧
          e.address = some a := by
      intro u d f e a hu hf hne ha
      have hd : ∃ d, known.set v (some d') u = some d := by
        by_cases huv : u = v
        · exact ⟨d', by rw [huv, known.set_self]⟩
        · exact ⟨d, by rw [hset huv, hu]⟩
      obtain ⟨d, hd⟩ := hd
      by_cases hfv : f = v
      · rw [hfv] at hf
        refine ⟨d, v, d', hd, known.set_self v _, hfv ▸ hne, ?_⟩
        rw [← (hold e hf).1, ha]
      · exact ⟨d, f, e, hd, by rw [hset hfv, hf], hne, ha⟩
    intro u a hpos
    by_cases huv : u = v
    · rw [huv, hself] at hpos
      rcases Nat.eq_zero_or_pos (accepted chains v a) with hz | hz
      · rw [hz, Nat.zero_add] at hpos
        obtain ⟨_, e, he, ha⟩ := rulesOfVnic_pos hpos
        obtain ⟨hke, hev, _⟩ := (hF.mem e).mp he
        refine ⟨d', e.uuid, e, by rw [huv, known.set_self], by rw [hset hev, hke], ?_, ha⟩
        rw [huv]
        exact hev
      · obtain ⟨d, f, e, hd, he, hne, ha⟩ := h.others v a hz
        rw [huv]
        exact hlift v d f e a hd he hne ha
    · rw [hothers u a huv] at hpos
      rcases Nat.eq_zero_or_pos (accepted chains u a) with hz | hz
      · rw [hz, Nat.zero_add] at hpos
        obtain ⟨e, he, heu, _, ha⟩ := rulesOfFriends_pos hpos
        have hke := ((hL.mem e).mp he).1
        rw [heu] at hke
        exact ⟨e, v, d', by rw [hset huv, hke], known.set_self v _, Ne.symm huv, ha⟩
      · obtain ⟨d, f, e, hd, he, hne, ha⟩ := h.others u a hz
        exact hlift u d f e a hd he hne ha

/-! ## A vnic loses friends -/

theorem pos_sub_ite {n : Nat} {c : Prop} [Decidable c] :
    0 < n - (if c then 1 else 0) ↔ (c ∧ 2 ≤ n) ∨ (¬ c ∧ 0 < n) := by
  by_cases hc : c
  · simp [hc]
    omega
  · simp [hc]

/-- A vnic leaves a group: a friend of the group stays a friend exactly where its
rule is there more than once. -/
theorem ChainsIso.leave {d : VnicMap} (h : ChainsIso db known chains) (hk : KnownOk known)
    (hv : known v = some d) (hF : Friends known v p friends) (hL : Friends known v p locals)
    (ha' : d.address = d'.address) (hn' : d.networkId = d'.networkId)
    (hp : ∀ e, p e = true → d.shares e = true) (hnp : ∀ e, p e = false → d.shares e = d'.shares e)
    (hown : ∀ e ∈ friends, ∀ a, e.address = some a → db.isolates d = true →
      (2 ≤ accepted chains v a ↔ d'.shares e = true))
    (hfriend : ∀ e ∈ locals, ∀ a, d.address = some a → db.isolates e = true →
      (2 ≤ accepted chains e.uuid a ↔ d'.shares e = true))
    (hexist : ∀ u, (chains.lookup u).isSome = true → (chains'.lookup u).isSome = true)
    (hself : ∀ a, accepted chains' v a = accepted chains v a - rulesOfVnic db d friends a)
    (hothers : ∀ u a, u ≠ v →
      accepted chains' u a = accepted chains u a - rulesOfFriends db d locals u a) :
    ChainsIso db (known.set v (some d')) chains' := by
  have hset := fun {u : Text} (hu : u ≠ v) => known.set_ne (some d') hu
  have hiso : db.isolates d' = db.isolates d := by
    unfold Db.isolates Db.modeOf
    rw [hn']
  refine ⟨?_, ?_, ?_⟩
  · intro u x hu
    apply hexist
    by_cases huv : u = v
    · exact h.exist u d (huv ▸ hv)
    · rw [hset huv] at hu
      exact h.exist u x hu
  · intro u x f e a hu hf hne ha
    by_cases huv : u = v
    · have hfv : f ≠ v := huv ▸ hne
      rw [huv, known.set_self] at hu
      cases hu
      rw [hset hfv] at hf
      have ho := h.friends v d f e a hv hf hfv ha
      have heu := hk.uuid f e hf
      rw [huv, hself, hF.rulesOfVnic_known hk hf hfv ha, pos_sub_ite, ho, hiso]
      cases hpe : p e with
      | true =>
        have hmem : e ∈ friends := (hF.mem e).mpr ⟨heu ▸ hf, heu ▸ hfv, hpe⟩
        have hc := hown e hmem a ha
        simp only [hp e hpe, and_true, not_and_self, or_false]
        constructor
        · intro ⟨hi, h2⟩
          exact ⟨hi, (hc hi).mp h2⟩
        · intro ⟨hi, hs⟩
          exact ⟨hi, (hc hi).mpr hs⟩
      | false =>
        rw [hnp e hpe]
        simp
    · rw [hset huv] at hu
      have hxu := hk.uuid u x hu
      rw [hothers u a huv]
      by_cases hfv : f = v
      · rw [hfv, known.set_self] at hf
        cases hf
        have had : d.address = some a := by rw [ha', ha]
        have ho := h.friends u x v d a hu hv (Ne.symm huv) had
        rw [hL.rulesOfFriends_known hk hu huv had, pos_sub_ite, ho, shares_comm x d,
          shares_comm x d']
        cases hpx : p x with
        | true =>
          have hmem : x ∈ locals := (hL.mem x).mpr ⟨hxu ▸ hu, hxu ▸ huv, hpx⟩
          have hc := hfriend x hmem a had
          rw [hxu] at hc
          simp only [hp x hpx, and_true, not_and_self, or_false]
          constructor
          · intro ⟨hi, h2⟩
            exact ⟨hi, (hc hi).mp h2⟩
          · intro ⟨hi, hs⟩
            exact ⟨hi, (hc hi).mpr hs⟩
        | false =>
          rw [hnp x hpx]
          simp
      · rw [hset hfv] at hf
        have hne' : d.address ≠ some a := by
          intro hx
          exact hfv (hk.distinct f v e d hf hv (by rw [ha, hx]))
        rw [rulesOfFriends_of_ne hne', Nat.sub_zero]
        exact h.friends u x f e a hu hf hne ha
  · intro u a hpos
    have hle : 0 < accepted chains u a := by
      by_cases huv : u = v
      · rw [huv, hself] at hpos
        rw [huv]
        omega
      · rw [hothers u a huv] at hpos
        omega
    obtain ⟨x, f, e, hx, he, hne, ha⟩ := h.others u a hle
    have hx' : ∃ x, known.set v (some d') u = some x := by
      by_cases huv : u = v
      · exact ⟨d', by rw [huv, known.set_self]⟩
      · exact ⟨x, by rw [hset huv, hx]⟩
    obtain ⟨x', hx'⟩ := hx'
    by_cases hfv : f = v
    · rw [hfv, hv] at he
      cases he
      exact ⟨x', v, d', hx', known.set_self v _, hfv ▸ hne, by rw [← ha', ha]⟩
    · exact ⟨x', f, e, hx', by rw [hset hfv, he], hne, ha⟩

/-- A vnic goes: each chain that accepts it loses its only rule for it. -/
theorem ChainsIso.destroy {d : VnicMap} (h : ChainsIso db known chains) (hk : KnownOk known)
    (hv : known v = some d) (locals : List VnicMap)
    (hlast : ∀ u e, known u = some e → u ≠ v → db.isolates e = true → d.shares e = true →
      ∀ a, d.address = some a → accepted chains u a ≤ rulesOfFriends db d locals u a)
    (hexist : ∀ u, u ≠ v → (chains.lookup u).isSome = true → (chains'.lookup u).isSome = true)
    (hself : ∀ a, accepted chains' v a = 0)
    (hothers : ∀ u a, u ≠ v →
      accepted chains' u a = accepted chains u a - rulesOfFriends db d locals u a) :
    ChainsIso db (known.set v none) chains' := by
  have hset := fun {u : Text} (hu : u ≠ v) => known.set_ne none hu
  have hother : ∀ {u : Text} {x : VnicMap}, known.set v none u = some x →
      u ≠ v ∧ known u = some x := by
    intro u x hu
    by_cases huv : u = v
    · rw [huv, known.set_self] at hu
      cases hu
    · rw [hset huv] at hu
      exact ⟨huv, hu⟩
  refine ⟨?_, ?_, ?_⟩
  · intro u x hu
    obtain ⟨huv, hu⟩ := hother hu
    exact hexist u huv (h.exist u x hu)
  · intro u x f e a hu hf hne ha
    obtain ⟨huv, hu⟩ := hother hu
    obtain ⟨hfv, hf⟩ := hother hf
    have hne' : d.address ≠ some a := by
      intro hx
      exact hfv (hk.distinct f v e d hf hv (by rw [ha, hx]))
    rw [hothers u a huv, rulesOfFriends_of_ne hne', Nat.sub_zero]
    exact h.friends u x f e a hu hf hne ha
  · intro u a hpos
    have huv : u ≠ v := by
      intro huv
      rw [huv, hself] at hpos
      cases hpos
    rw [hothers u a huv] at hpos
    obtain ⟨x, f, e, hx, he, hne, ha⟩ := h.others u a (by omega)
    refine ⟨x, f, e, by rw [hset huv, hx], ?_, hne, ha⟩
    rw [hset, he]
    -- the chain would accept the vnic that goes more often than rules are removed
    intro hfv
    rw [hfv, hv] at he
    cases he
    have hfr := (h.friends u x v d a hx hv (Ne.symm huv) ha).mp (by omega)
    have := hlast u x hx huv hfr.1 (by rw [shares_comm]; exact hfr.2) a ha
    omega

end

end Netfilter

end WakameVdc
