import Mathlib.Data.List.Count
import Mathlib.Data.List.Nodup

/-!
# The security groups of an instance

`PUT /instances/:id` with security groups takes the nics out of the groups that
are not in the request, and puts them into the new ones. What is new is read from
the first nic alone.
-/

namespace WakameVdc

namespace InstancePut

structure Groups where
  serviceType : Nat → String
  referencees : Nat → List Nat

/-- A row of `network_vif_security_groups`. -/
structure Join where
  vif : Nat
  group : Nat
  deriving DecidableEq, Repr

inductive Event
  | vnicLeft (group vif : Nat)
  | leftGroup (vif group : Nat)
  | referencerRemoved (group referencer : Nat)
  | vnicJoined (group vif : Nat)
  | joinedGroup (vif group : Nat)
  | referencerAdded (group referencer : Nat)
  deriving DecidableEq, Repr

/-- The rows, and the events published once they are committed. -/
structure State where
  joins : List Join
  events : List Event
  deriving DecidableEq, Repr

structure Instance where
  serviceType : String
  nics : List Nat
  deriving DecidableEq, Repr

def groupsOf (joins : List Join) (vnic : Nat) : List Nat :=
  (joins.filter (·.vif = vnic)).map Join.group

namespace Groups

variable (gs : Groups)

def leftEvents (vnic group : Nat) : List Event :=
  .vnicLeft group vnic :: .leftGroup vnic group ::
    (gs.referencees group).map fun r => .referencerRemoved r group

def joinedEvents (vnic group : Nat) : List Event :=
  .vnicJoined group vnic :: .joinedGroup vnic group ::
    (gs.referencees group).map fun r => .referencerAdded r group

/-- `vnic.remove_security_group(group)`, which destroys the first row. -/
def remove (vnic : Nat) (s : State) (group : Nat) : State :=
  ⟨s.joins.erase ⟨vnic, group⟩, s.events ++ gs.leftEvents vnic group⟩

def add (group : Nat) (s : State) (vnic : Nat) : State :=
  ⟨s.joins ++ [⟨vnic, group⟩], s.events ++ gs.joinedEvents vnic group⟩

def removeOld (st : String) (uuids : List Nat) (s : State) (vnic : Nat) : State :=
  ((groupsOf s.joins vnic).filter (gs.serviceType · = st)).foldl
    (fun s group => if group ∈ uuids then s else gs.remove vnic s group) s

def addNew (nics : List Nat) (current uuids : List Nat) (s : State) : State :=
  uuids.foldl
    (fun s group => if group ∈ current then s else nics.foldl (gs.add group) s) s

/-- `PUT /instances/:id` with the security groups of the uuids; without a nic
`instance.nic.first` is `nil`. -/
def putInstance (inst : Instance) (uuids : List Nat) (joins : List Join) : Option State :=
  let s := inst.nics.foldl (gs.removeOld inst.serviceType uuids) ⟨joins, []⟩
  match inst.nics with
  | [] => none
  | first :: _ => some (gs.addNew inst.nics (groupsOf s.joins first) uuids s)

end Groups

/-! ## Removing -/

theorem mem_groupsOf {joins : List Join} {vnic group : Nat} :
    group ∈ groupsOf joins vnic ↔ ⟨vnic, group⟩ ∈ joins := by
  unfold groupsOf
  rw [List.mem_map]
  constructor
  · rintro ⟨⟨v, g⟩, hj, rfl⟩
    obtain ⟨hj, hv⟩ := List.mem_filter.mp hj
    have hv := of_decide_eq_true hv
    dsimp only at hv
    exact hv ▸ hj
  · intro h
    exact ⟨_, List.mem_filter.mpr ⟨h, by simp⟩, rfl⟩

theorem nodup_groupsOf {joins : List Join} (h : joins.Nodup) (vnic : Nat) :
    (groupsOf joins vnic).Nodup := by
  refine (h.filter _).map_on fun a ha b hb hab => ?_
  have ha := of_decide_eq_true (List.mem_filter.mp ha).2
  have hb := of_decide_eq_true (List.mem_filter.mp hb).2
  cases a
  cases b
  simp_all

section
variable (gs : Groups)

def leaving (st : String) (uuids : List Nat) (joins : List Join) (vnic : Nat) : List Nat :=
  (groupsOf joins vnic).filter fun g => gs.serviceType g = st ∧ g ∉ uuids

theorem foldl_remove (vnic : Nat) (groups : List Nat) (s : State) :
    groups.foldl (gs.remove vnic) s =
      ⟨s.joins.diff (groups.map (⟨vnic, ·⟩)), s.events ++ groups.flatMap (gs.leftEvents vnic)⟩ := by
  induction groups generalizing s with
  | nil => simp
  | cons g groups ih =>
    rw [List.foldl_cons, ih]
    simp [Groups.remove, List.diff_cons, List.append_assoc]

theorem removeOld_eq (st : String) (uuids : List Nat) (s : State) (vnic : Nat) :
    gs.removeOld st uuids s vnic =
      ⟨s.joins.diff ((leaving gs st uuids s.joins vnic).map (⟨vnic, ·⟩)),
        s.events ++ (leaving gs st uuids s.joins vnic).flatMap (gs.leftEvents vnic)⟩ := by
  rw [← foldl_remove]
  unfold Groups.removeOld leaving
  have h : ∀ (groups : List Nat) (t : State),
      (groups.filter (gs.serviceType · = st)).foldl
        (fun s group => if group ∈ uuids then s else gs.remove vnic s group) t =
      (groups.filter fun g => gs.serviceType g = st ∧ g ∉ uuids).foldl (gs.remove vnic) t := by
    intro groups
    induction groups with
    | nil => exact fun _ => rfl
    | cons g groups ih =>
      intro t
      by_cases ht : gs.serviceType g = st
      · by_cases hu : g ∈ uuids
        · simp [ht, hu, ih]
        · simp [ht, hu, ih]
      · simp [ht, ih]
  exact h _ s

/-- The rows of the nics whose group is of the service type and not asked for. -/
def Goes (st : String) (uuids nics : List Nat) (j : Join) : Prop :=
  j.vif ∈ nics ∧ gs.serviceType j.group = st ∧ j.group ∉ uuids

instance (st : String) (uuids nics : List Nat) (j : Join) : Decidable (Goes gs st uuids nics j) :=
  inferInstanceAs (Decidable (_ ∧ _))

theorem removeOld_joins {st : String} {uuids : List Nat} {s : State} (h : s.joins.Nodup)
    (vnic : Nat) :
    (gs.removeOld st uuids s vnic).joins = s.joins.filter (¬ Goes gs st uuids [vnic] ·) := by
  rw [removeOld_eq]
  dsimp only
  rw [h.sdiff_eq_filter]
  refine List.filter_congr fun j hj => ?_
  obtain ⟨v, g⟩ := j
  have hm : (⟨v, g⟩ : Join) ∈ (leaving gs st uuids s.joins vnic).map (⟨vnic, ·⟩) ↔
      Goes gs st uuids [vnic] ⟨v, g⟩ := by
    rw [List.mem_map]
    unfold Goes leaving
    constructor
    · rintro ⟨x, hx, he⟩
      cases he
      exact ⟨List.mem_singleton_self _, of_decide_eq_true (List.mem_filter.mp hx).2⟩
    · rintro ⟨hv, hg⟩
      rw [List.mem_singleton] at hv
      dsimp only at hv
      subst hv
      exact ⟨g, List.mem_filter.mpr ⟨mem_groupsOf.mpr hj, by simpa using hg⟩, rfl⟩
  simp [hm]

/-- The events that announce that a nic left a group. -/
def Event.Left (v g : Nat) (e : Event) : Prop := e = .vnicLeft g v ∨ e = .leftGroup v g

/-- The events that announce that a nic joined a group. -/
def Event.Joined (v g : Nat) (e : Event) : Prop := e = .vnicJoined g v ∨ e = .joinedGroup v g

variable {gs} {v g vnic x : Nat} {e : Event}

theorem count_leftEvents (he : e.Left v g) :
    (gs.leftEvents vnic x).count e = if vnic = v ∧ x = g then 1 else 0 := by
  have hr : ((gs.referencees x).map fun r => Event.referencerRemoved r x).count e = 0 := by
    refine List.count_eq_zero.mpr fun hm => ?_
    obtain ⟨r, -, hr⟩ := List.mem_map.mp hm
    rcases he with rfl | rfl <;> cases hr
  unfold Groups.leftEvents
  rw [List.count_cons, List.count_cons, hr]
  rcases he with rfl | rfl
  · by_cases h : vnic = v ∧ x = g
    · simp [h]
    · rw [if_neg h]
      simp only [beq_iff_eq, Event.vnicLeft.injEq, reduceCtorEq, if_false]
      rw [if_neg (fun hc => h ⟨hc.2, hc.1⟩)]
  · by_cases h : vnic = v ∧ x = g
    · simp [h]
    · rw [if_neg h]
      simp only [beq_iff_eq, Event.leftGroup.injEq, reduceCtorEq, if_false]
      rw [if_neg h]

theorem count_joinedEvents (he : e.Joined v g) :
    (gs.joinedEvents vnic x).count e = if vnic = v ∧ x = g then 1 else 0 := by
  have hr : ((gs.referencees x).map fun r => Event.referencerAdded r x).count e = 0 := by
    refine List.count_eq_zero.mpr fun hm => ?_
    obtain ⟨r, -, hr⟩ := List.mem_map.mp hm
    rcases he with rfl | rfl <;> cases hr
  unfold Groups.joinedEvents
  rw [List.count_cons, List.count_cons, hr]
  rcases he with rfl | rfl
  · by_cases h : vnic = v ∧ x = g
    · simp [h]
    · rw [if_neg h]
      simp only [beq_iff_eq, Event.vnicJoined.injEq, reduceCtorEq, if_false]
      rw [if_neg (fun hc => h ⟨hc.2, hc.1⟩)]
  · by_cases h : vnic = v ∧ x = g
    · simp [h]
    · rw [if_neg h]
      simp only [beq_iff_eq, Event.joinedGroup.injEq, reduceCtorEq, if_false]
      rw [if_neg h]

theorem count_leftEvents_of_joined (he : e.Joined v g) : (gs.leftEvents vnic x).count e = 0 := by
  refine List.count_eq_zero.mpr fun hm => ?_
  unfold Groups.leftEvents at hm
  rcases List.mem_cons.mp hm with rfl | hm
  · rcases he with he | he <;> cases he
  · rcases List.mem_cons.mp hm with rfl | hm
    · rcases he with he | he <;> cases he
    · obtain ⟨r, -, rfl⟩ := List.mem_map.mp hm
      rcases he with he | he <;> cases he

theorem count_joinedEvents_of_left (he : e.Left v g) : (gs.joinedEvents vnic x).count e = 0 := by
  refine List.count_eq_zero.mpr fun hm => ?_
  unfold Groups.joinedEvents at hm
  rcases List.mem_cons.mp hm with rfl | hm
  · rcases he with he | he <;> cases he
  · rcases List.mem_cons.mp hm with rfl | hm
    · rcases he with he | he <;> cases he
    · obtain ⟨r, -, rfl⟩ := List.mem_map.mp hm
      rcases he with he | he <;> cases he

theorem count_flatMap_zero {β : Type} [BEq β] [LawfulBEq β] {f : Nat → List β} {b : β}
    (h : ∀ x, (f x).count b = 0) (xs : List Nat) : (xs.flatMap f).count b = 0 := by
  rw [List.count_eq_zero, List.mem_flatMap]
  rintro ⟨x, -, hx⟩
  exact List.count_eq_zero.mp (h x) hx

/-- A count over all pieces, each of which has what is counted for one key. -/
theorem count_flatMap_key {β : Type} [BEq β] [LawfulBEq β] {f : Nat → List β} {b : β} {k n : Nat}
    (h : ∀ x, (f x).count b = if x = k then n else 0) (xs : List Nat) :
    (xs.flatMap f).count b = xs.count k * n := by
  induction xs with
  | nil => simp
  | cons x xs ih =>
    rw [List.flatMap_cons, List.count_append, ih, h, List.count_cons]
    by_cases hx : x = k
    · simp only [hx, if_true, beq_self_eq_true, Nat.add_mul, Nat.one_mul]
      omega
    · simp [hx]

theorem count_leaving {st : String} {uuids : List Nat} {joins : List Join} (h : joins.Nodup) :
    (leaving gs st uuids joins vnic).count g =
      if (⟨vnic, g⟩ : Join) ∈ joins ∧ gs.serviceType g = st ∧ g ∉ uuids then 1 else 0 := by
  have hn : (leaving gs st uuids joins vnic).Nodup := (nodup_groupsOf h vnic).filter _
  rw [hn.count]
  refine if_congr ?_ rfl rfl
  unfold leaving
  rw [List.mem_filter, mem_groupsOf, decide_eq_true_eq]

structure Removed (gs : Groups) (st : String) (uuids nics : List Nat) (s t : State) : Prop where
  joins : t.joins = s.joins.filter (¬ Goes gs st uuids nics ·)
  left : ∀ v g e, Event.Left v g e → t.events.count e =
    s.events.count e +
      if (⟨v, g⟩ : Join) ∈ s.joins ∧ Goes gs st uuids nics ⟨v, g⟩ then 1 else 0
  joined : ∀ v g e, Event.Joined v g e → t.events.count e = s.events.count e

theorem removed_one {st : String} {uuids : List Nat} {s : State} (h : s.joins.Nodup) (vnic : Nat) :
    Removed gs st uuids [vnic] s (gs.removeOld st uuids s vnic) where
  joins := removeOld_joins gs h vnic
  left v g e he := by
    rw [removeOld_eq]
    dsimp only
    rw [List.count_append]
    congr 1
    by_cases hv : vnic = v
    · subst hv
      rw [count_flatMap_key (k := g) (n := 1) fun x => by rw [count_leftEvents he]; simp,
        count_leaving h, Nat.mul_one]
      exact if_congr (by simp [Goes]) rfl rfl
    · rw [count_flatMap_key (k := g) (n := 0) fun x => by rw [count_leftEvents he]; simp [hv],
        Nat.mul_zero, if_neg]
      rintro ⟨-, hg⟩
      exact hv (List.mem_singleton.mp hg.1).symm
  joined v g e he := by
    rw [removeOld_eq]
    dsimp only
    rw [List.count_append, count_flatMap_zero fun _ => count_leftEvents_of_joined he, Nat.add_zero]

variable {st : String} {uuids nics current : List Nat} {s t u : State}

theorem Removed.trans (h : Removed gs st uuids [vnic] s t) (h' : Removed gs st uuids nics t u)
    (hn : vnic ∉ nics) : Removed gs st uuids (vnic :: nics) s u where
  joins := by
    rw [h'.joins, h.joins, List.filter_filter]
    refine List.filter_congr fun j _ => ?_
    rw [← Bool.decide_and]
    refine decide_eq_decide.mpr ?_
    simp only [Goes, List.mem_cons, List.not_mem_nil, or_false]
    tauto
  left v g e he := by
    rw [h'.left v g e he, h.left v g e he, Nat.add_assoc, h.joins]
    congr 1
    simp only [List.mem_filter, decide_eq_true_eq, Goes, List.mem_cons, List.not_mem_nil, or_false]
    by_cases hv : v = vnic
    · subst hv
      simp [hn]
    · simp [hv]
  joined v g e he := (h'.joined v g e he).trans (h.joined v g e he)

theorem removed_foldl (hn : nics.Nodup) (h : s.joins.Nodup) :
    Removed gs st uuids nics s (nics.foldl (gs.removeOld st uuids) s) := by
  induction nics generalizing s with
  | nil =>
    refine ⟨?_, ?_, fun _ _ _ _ => rfl⟩
    · simp [Goes]
    · simp [Goes]
  | cons vnic nics ih =>
    rw [List.nodup_cons] at hn
    have h1 : Removed gs st uuids [vnic] s (gs.removeOld st uuids s vnic) := removed_one h vnic
    refine h1.trans (ih hn.2 ?_) hn.1
    rw [h1.joins]
    exact h.filter _

/-! ## Adding -/

theorem foldl_add (g : Nat) (nics : List Nat) (s : State) :
    nics.foldl (gs.add g) s =
      ⟨s.joins ++ nics.map (⟨·, g⟩), s.events ++ nics.flatMap (gs.joinedEvents · g)⟩ := by
  induction nics generalizing s with
  | nil => simp
  | cons v nics ih =>
    rw [List.foldl_cons, ih]
    simp [Groups.add, List.append_assoc]

theorem addNew_eq :
    gs.addNew nics current uuids s =
      ⟨s.joins ++ (uuids.filter (· ∉ current)).flatMap fun g => nics.map (⟨·, g⟩),
        s.events ++ (uuids.filter (· ∉ current)).flatMap fun g =>
          nics.flatMap (gs.joinedEvents · g)⟩ := by
  unfold Groups.addNew
  induction uuids generalizing s with
  | nil => simp
  | cons g uuids ih =>
    rw [List.foldl_cons, ih]
    by_cases hg : g ∈ current
    · simp [hg]
    · simp [hg, foldl_add, List.append_assoc]

def added (current uuids : List Nat) (g : Nat) : Nat := if g ∈ current then 0 else uuids.count g

theorem count_filter_not_mem : (uuids.filter (· ∉ current)).count g = added current uuids g := by
  unfold added
  by_cases hg : g ∈ current
  · rw [if_pos hg, List.count_eq_zero]
    simp [hg]
  · rw [if_neg hg, List.count_filter (by simpa using hg)]

/-- What is made for each new group and nic is counted as often as the group is added. -/
theorem count_flatMap_added {β : Type} [BEq β] [LawfulBEq β] {f : Nat → List β} {b : β}
    (hn : nics.Nodup) (h : ∀ x, (f x).count b = if x = g then nics.count v else 0) :
    ((uuids.filter (· ∉ current)).flatMap f).count b =
      if v ∈ nics then added current uuids g else 0 := by
  rw [count_flatMap_key h, count_filter_not_mem, hn.count]
  by_cases hv : v ∈ nics
  · simp [hv]
  · simp [hv]

theorem addNew_joins (hn : nics.Nodup) (v g : Nat) :
    (gs.addNew nics current uuids s).joins.count ⟨v, g⟩ =
      s.joins.count ⟨v, g⟩ + if v ∈ nics then added current uuids g else 0 := by
  rw [addNew_eq]
  dsimp only
  rw [List.count_append, count_flatMap_added hn]
  intro x
  by_cases hx : x = g
  · subst hx
    rw [if_pos rfl, List.count_map_of_injective nics (fun v => (⟨v, x⟩ : Join))
      (fun a b hab => congrArg Join.vif hab)]
  · rw [if_neg hx, List.count_eq_zero]
    intro hm
    obtain ⟨w, -, hw⟩ := List.mem_map.mp hm
    exact hx (congrArg Join.group hw)

theorem addNew_joined (hn : nics.Nodup) (he : e.Joined v g) :
    (gs.addNew nics current uuids s).events.count e =
      s.events.count e + if v ∈ nics then added current uuids g else 0 := by
  rw [addNew_eq]
  dsimp only
  rw [List.count_append, count_flatMap_added hn]
  intro x
  by_cases hx : x = g
  · subst hx
    rw [if_pos rfl, count_flatMap_key (k := v) (n := 1), Nat.mul_one]
    intro w
    rw [count_joinedEvents he]
    simp
  · rw [if_neg hx, count_flatMap_zero]
    intro w
    rw [count_joinedEvents he, if_neg fun h => hx h.2]

theorem addNew_left (he : e.Left v g) :
    (gs.addNew nics current uuids s).events.count e = s.events.count e := by
  rw [addNew_eq]
  dsimp only
  rw [List.count_append, count_flatMap_zero, Nat.add_zero]
  intro x
  exact count_flatMap_zero (fun _ => count_joinedEvents_of_left he) nics

end

/-! ## The request -/

def extra (joins : List Join) (first : Nat) (uuids nics : List Nat) (v g : Nat) : Nat :=
  if v ∈ nics ∧ (⟨first, g⟩ : Join) ∉ joins then uuids.count g else 0

/-- What the request leaves, row by row, and what it announces. -/
structure PutResult (gs : Groups) (inst : Instance) (uuids : List Nat) (joins : List Join)
    (first : Nat) (s : State) : Prop where
  rows : ∀ v g, s.joins.count ⟨v, g⟩ =
    (if (⟨v, g⟩ : Join) ∈ joins ∧ ¬ Goes gs inst.serviceType uuids inst.nics ⟨v, g⟩ then 1 else 0) +
      extra joins first uuids inst.nics v g
  joined : ∀ v g e, Event.Joined v g e → s.events.count e = extra joins first uuids inst.nics v g
  left : ∀ v g e, Event.Left v g e → s.events.count e =
    if (⟨v, g⟩ : Join) ∈ joins ∧ Goes gs inst.serviceType uuids inst.nics ⟨v, g⟩ then 1 else 0

section
variable {gs : Groups} {inst : Instance} {uuids : List Nat} {joins : List Join} {first : Nat}
  {s : State}

theorem putInstance_result (hj : joins.Nodup) (hn : inst.nics.Nodup) {rest : List Nat}
    (hf : inst.nics = first :: rest) :
    ∃ s, gs.putInstance inst uuids joins = some s ∧ PutResult gs inst uuids joins first s := by
  have hr : Removed gs inst.serviceType uuids inst.nics ⟨joins, []⟩
      (inst.nics.foldl (gs.removeOld inst.serviceType uuids) ⟨joins, []⟩) := removed_foldl hn hj
  have hput : gs.putInstance inst uuids joins =
      some (gs.addNew inst.nics (groupsOf (inst.nics.foldl (gs.removeOld inst.serviceType uuids)
        ⟨joins, []⟩).joins first) uuids
        (inst.nics.foldl (gs.removeOld inst.serviceType uuids) ⟨joins, []⟩)) := by
    unfold Groups.putInstance
    split
    · rename_i h
      rw [hf] at h
      cases h
    · rename_i f _ h
      rw [hf] at h
      cases h
      rfl
  generalize inst.nics.foldl (gs.removeOld inst.serviceType uuids) ⟨joins, []⟩ = t at hr hput
  -- what is asked for stays where it is, so the first nic's groups are read as they were
  have hadd : ∀ v g, (if v ∈ inst.nics then added (groupsOf t.joins first) uuids g else 0) =
      extra joins first uuids inst.nics v g := by
    intro v g
    have hm : g ∈ uuids → (g ∈ groupsOf t.joins first ↔ (⟨first, g⟩ : Join) ∈ joins) := by
      intro hg
      rw [mem_groupsOf, hr.joins, List.mem_filter]
      simp [Goes, hg]
    unfold added extra
    by_cases hv : v ∈ inst.nics
    · by_cases hg : g ∈ uuids
      · by_cases hc : (⟨first, g⟩ : Join) ∈ joins
        · simp [hv, hc, (hm hg).mpr hc]
        · simp [hv, hc, mt (hm hg).mp hc]
      · simp [hv, List.count_eq_zero.mpr hg]
    · simp [hv]
  refine ⟨_, hput, fun v g => ?_, fun v g e he => ?_, fun v g e he => ?_⟩
  · rw [addNew_joins hn, hadd, hr.joins]
    congr 1
    rw [(hj.filter _).count]
    exact if_congr (by simp) rfl rfl
  · rw [addNew_joined hn he, hadd, hr.joined v g e he]
    simp
  · rw [addNew_left he, hr.left v g e he]
    simp

structure Updated (gs : Groups) (inst : Instance) (uuids : List Nat) (joins : List Join)
    (s : State) : Prop where
  requested : ∀ v ∈ inst.nics, ∀ g, gs.serviceType g = inst.serviceType →
    s.joins.count ⟨v, g⟩ = if g ∈ uuids then 1 else 0
  others : ∀ v ∈ inst.nics, ∀ g, gs.serviceType g ≠ inst.serviceType →
    s.joins.count ⟨v, g⟩ = joins.count ⟨v, g⟩
  joined : ∀ v g e, Event.Joined v g e → s.events.count e =
    if (⟨v, g⟩ : Join) ∉ joins ∧ ⟨v, g⟩ ∈ s.joins then 1 else 0
  left : ∀ v g e, Event.Left v g e → s.events.count e =
    if (⟨v, g⟩ : Join) ∈ joins ∧ ⟨v, g⟩ ∉ s.joins then 1 else 0

/-- The nics agree on what is asked for, and nothing new is asked for twice. -/
structure Uniform (gs : Groups) (inst : Instance) (uuids : List Nat) (joins : List Join)
    (first : Nat) : Prop where
  same : ∀ g ∈ uuids, gs.serviceType g = inst.serviceType →
    (∀ v ∈ inst.nics, (⟨v, g⟩ : Join) ∈ joins) ∨
      (∀ v ∈ inst.nics, (⟨v, g⟩ : Join) ∉ joins) ∧ uuids.count g = 1
  other : ∀ g ∈ uuids, gs.serviceType g ≠ inst.serviceType → (⟨first, g⟩ : Join) ∈ joins

theorem uniform_of_updated (hf : first ∈ inst.nics) (hr : PutResult gs inst uuids joins first s)
    (hu : Updated gs inst uuids joins s) (hj : joins.Nodup) :
    Uniform gs inst uuids joins first := by
  have hstay : ∀ v, ∀ g ∈ uuids, ¬ Goes gs inst.serviceType uuids inst.nics ⟨v, g⟩ :=
    fun _ g hg h => h.2.2 hg
  constructor
  · intro g hg ht
    have hc : ∀ v ∈ inst.nics, (if (⟨v, g⟩ : Join) ∈ joins then 1 else 0) +
        (if (⟨first, g⟩ : Join) ∉ joins then uuids.count g else 0) = 1 := by
      intro v hv
      have := (hr.rows v g).symm.trans (hu.requested v hv g ht)
      simpa [hstay v g hg, hg, extra, hv] using this
    by_cases h0 : (⟨first, g⟩ : Join) ∈ joins
    · left
      intro v hv
      by_contra hn
      have := hc v hv
      simp [h0, hn] at this
    · right
      have h1 : uuids.count g = 1 := by
        have := hc first hf
        simpa [h0] using this
      refine ⟨fun v hv hn => ?_, h1⟩
      have := hc v hv
      simp [h0, hn, h1] at this
  · intro g hg ht
    by_contra h0
    have := (hr.rows first g).symm.trans (hu.others first hf g ht)
    rw [hj.count] at this
    have hpos : 0 < uuids.count g := List.count_pos_iff.mpr hg
    simp only [h0, extra, hf, false_and, if_false, not_false_eq_true, and_self, if_true] at this
    omega

theorem updated_of_uniform (hf : first ∈ inst.nics) (hr : PutResult gs inst uuids joins first s)
    (hu : Uniform gs inst uuids joins first) (hj : joins.Nodup) :
    Updated gs inst uuids joins s := by
  have hmem : ∀ v g, (⟨v, g⟩ : Join) ∈ s.joins ↔
      ((⟨v, g⟩ : Join) ∈ joins ∧ ¬ Goes gs inst.serviceType uuids inst.nics ⟨v, g⟩) ∨
        extra joins first uuids inst.nics v g ≠ 0 := by
    intro v g
    rw [← List.count_pos_iff, hr.rows v g]
    by_cases h : (⟨v, g⟩ : Join) ∈ joins ∧ ¬ Goes gs inst.serviceType uuids inst.nics ⟨v, g⟩
    · simp only [h, not_false_eq_true, and_self, if_true, true_or, iff_true]
      omega
    · rw [if_neg h, Nat.zero_add, Nat.pos_iff_ne_zero]
      exact ⟨.inr, fun hc => hc.resolve_left h⟩
  -- a group is added to the nics that do not have it, and once
  have hextra : ∀ v g, extra joins first uuids inst.nics v g =
      if v ∈ inst.nics ∧ g ∈ uuids ∧ gs.serviceType g = inst.serviceType ∧
        (⟨v, g⟩ : Join) ∉ joins then 1 else 0 := by
    intro v g
    unfold extra
    by_cases hv : v ∈ inst.nics
    · by_cases hg : g ∈ uuids
      · by_cases ht : gs.serviceType g = inst.serviceType
        · rcases hu.same g hg ht with h | ⟨h, h1⟩
          · simp [h v hv, h first hf]
          · simp [hv, hg, ht, h v hv, h first hf, h1]
        · simp [ht, hu.other g hg ht]
      · simp [hg, List.count_eq_zero.mpr hg]
    · simp [hv]
  refine ⟨fun v hv g ht => ?_, fun v hv g ht => ?_, fun v g e he => ?_, fun v g e he => ?_⟩
  · rw [hr.rows, hextra]
    by_cases hg : g ∈ uuids
    · by_cases hm : (⟨v, g⟩ : Join) ∈ joins
      · simp [Goes, hg, hm]
      · simp [hg, hm, hv, ht]
    · simp [Goes, hg, hv, ht]
  · rw [hr.rows, hextra, hj.count]
    simp [Goes, ht]
  · rw [hr.joined v g e he, hextra]
    refine if_congr ?_ rfl rfl
    rw [hmem, hextra]
    by_cases hm : (⟨v, g⟩ : Join) ∈ joins
    · simp [hm]
    · simp [hm]
  · rw [hr.left v g e he]
    refine if_congr ?_ rfl rfl
    rw [hmem, hextra]
    by_cases hm : (⟨v, g⟩ : Join) ∈ joins
    · simp [hm]
    · simp [hm]

end

/-- The request does what it should exactly when the instance has a nic, the nics
agree on the requested groups of its service type, each of which is asked for once
if it is new, and the first nic has the requested groups of other types. -/
theorem updates_groups_iff (gs : Groups) (inst : Instance) (uuids : List Nat) (joins : List Join)
    (hj : joins.Nodup) (hn : inst.nics.Nodup) :
    (∃ s, gs.putInstance inst uuids joins = some s ∧ Updated gs inst uuids joins s) ↔
      ∃ first ∈ inst.nics.head?, Uniform gs inst uuids joins first := by
  cases hf : inst.nics with
  | nil =>
    have : gs.putInstance inst uuids joins = none := by
      unfold Groups.putInstance
      split
      · rfl
      · rename_i h
        rw [hf] at h
        cases h
    simp [this]
  | cons first rest =>
    have hmem : first ∈ inst.nics := hf ▸ List.mem_cons_self
    obtain ⟨s, hs, hr⟩ := @putInstance_result gs inst uuids joins first hj hn rest hf
    constructor
    · rintro ⟨s', hs', hu⟩
      rw [hs] at hs'
      cases hs'
      exact ⟨first, rfl, uniform_of_updated hmem hr hu hj⟩
    · rintro ⟨first', hf', hu⟩
      cases hf'
      exact ⟨s, hs, updated_of_uniform hmem hr hu hj⟩

def sampleGroups : Groups := ⟨fun g => if g = 20 then "lb" else "std", fun _ => []⟩

def sampleInstance : Instance := ⟨"std", [1, 2]⟩

theorem updates_groups_sample :
    ∃ s, sampleGroups.putInstance sampleInstance [10] [⟨1, 11⟩, ⟨2, 11⟩, ⟨2, 20⟩] = some s ∧
      Updated sampleGroups sampleInstance [10] [⟨1, 11⟩, ⟨2, 11⟩, ⟨2, 20⟩] s := by
  refine (updates_groups_iff sampleGroups sampleInstance [10] _ (by decide) (by decide)).mpr ?_
  exact ⟨1, rfl, by decide, by decide⟩

/-- The first nic has the group already, so the second one does not get it. -/
theorem not_updates_groups :
    ¬ ∃ s, sampleGroups.putInstance sampleInstance [10] [⟨1, 10⟩] = some s ∧
      Updated sampleGroups sampleInstance [10] [⟨1, 10⟩] s := by
  rintro ⟨s, hs, hu⟩
  have hp : sampleGroups.putInstance sampleInstance [10] [⟨1, 10⟩] = some ⟨[⟨1, 10⟩], []⟩ := by
    decide
  rw [hp] at hs
  cases hs
  exact absurd (hu.requested 2 (by decide) 10 (by decide)) (by decide)

end InstancePut
end WakameVdc
