import WakameVdc.SubscriptionEntry

/-!
# Subscribing and unsubscribing

The parts of the handlers that change the subscriptions do not touch the node,
and each is known by the events it adds or drops.
-/

namespace WakameVdc

open Lib

namespace Netfilter

section
variable {α : Type} {node : Node}

/-! ## The part that works on the node -/

theorem exec_onNode (x : NodeM α) (events : List Topic) :
    Proc.exec (onNode x) ⟨node, events⟩ =
      ((Proc.exec x node).1, ⟨(Proc.exec x node).2, events⟩) := rfl

/-- A handler goes on from where its node part ended, if that did not raise. -/
theorem final_onNode_bind {G : Service → Prop} {x : NodeM α} {f : α → ServiceM Unit}
    {events : List Topic}
    (herr : ∀ e node', Proc.exec x node = (.error e, node') → G ⟨node', events⟩)
    (hok : ∀ a node', Proc.exec x node = (.ok a, node') →
      G (Proc.final (f a) ⟨node', events⟩)) :
    G (Proc.final (onNode x >>= f) ⟨node, events⟩) := by
  unfold Proc.final at hok ⊢
  rw [Proc.exec_bind, exec_onNode]
  cases h : Proc.exec x node with
  | mk r node' =>
    cases r with
    | ok a => exact hok a node' h
    | error e => exact herr e node' h

theorem runs_onNode {x : NodeM α} {a : α} {node' : Node} (h : Proc.Runs x node a node')
    (events : List Topic) : Proc.Runs (onNode x) ⟨node, events⟩ a ⟨node', events⟩ := by
  show ((Proc.exec x node).1, Service.mk (Proc.exec x node).2 events) = _
  rw [h]

theorem final_onNode (x : NodeM α) (events : List Topic) :
    Proc.final (onNode x) ⟨node, events⟩ = ⟨Proc.final x node, events⟩ := rfl

theorem final_onNode_getCache (f : Cache → ServiceM Unit) (s : Service) :
    Proc.final (onNode getCache >>= f) s = Proc.final (f s.node.cache) s :=
  (runs_onNode (runs_getCache s.node) s.subscribedEvents).final_bind

/-! ## Events that are added -/

/-- From this node `x` does nothing but to subscribe; of the events of groups these
are the ones with `P`. -/
structure Adds (node : Node) (x : ServiceM Unit) (P : Topic → Prop) : Prop where
  runs : ∀ events, ∃ events', Proc.Runs x ⟨node, events⟩ () ⟨node, events'⟩ ∧
    ∀ t, t.ofGroup = true → (t ∈ events' ↔ t ∈ events ∨ P t)

variable {P Q : Topic → Prop} {x y : ServiceM Unit}

theorem adds_subscribe (ev : Topic) : Adds node (subscribeToEvent ev) fun t => t = ev := by
  constructor
  intro events
  by_cases h : ev ∈ events
  · refine ⟨events, ?_, ?_⟩
    · show Proc.exec (modify _ : ServiceM Unit) _ = _
      rw [Proc.exec_modify, if_pos h]
    · intro t _
      constructor
      · exact Or.inl
      · intro ht
        rcases ht with ht | ht
        · exact ht
        · rw [ht]
          exact h
  · refine ⟨events ++ [ev], ?_, ?_⟩
    · show Proc.exec (modify _ : ServiceM Unit) _ = _
      rw [Proc.exec_modify, if_neg h]
    · intro t _
      rw [List.mem_append, List.mem_singleton]

theorem adds_nothing : Adds node (pure ()) fun _ => False :=
  ⟨fun events => ⟨events, rfl, fun _ _ => (or_false _).symm.to_iff⟩⟩

theorem Adds.bind (hx : Adds node x P) (hy : Adds node y Q) :
    Adds node (x >>= fun _ => y) fun t => P t ∨ Q t := by
  constructor
  intro events
  obtain ⟨events', hr, hm⟩ := hx.runs events
  obtain ⟨events'', hr', hm'⟩ := hy.runs events'
  refine ⟨events'', hr.bind hr', ?_⟩
  intro t ht
  rw [hm' t ht, hm t ht, or_assoc]

theorem Adds.congr (hx : Adds node x P) (h : ∀ t, t.ofGroup = true → (P t ↔ Q t)) :
    Adds node x Q := by
  constructor
  intro events
  obtain ⟨events', hr, hm⟩ := hx.runs events
  refine ⟨events', hr, ?_⟩
  intro t ht
  rw [hm t ht, h t ht]

theorem adds_when {b : Bool} (hx : Adds node x P) :
    Adds node (Proc.when b x) fun t => b = true ∧ P t := by
  cases b with
  | true => exact hx.congr fun t _ => by simp
  | false => exact adds_nothing.congr fun t _ => by simp

theorem adds_forM {as : List α} {f : α → ServiceM Unit} {R : α → Topic → Prop}
    (hf : ∀ a ∈ as, Adds node (f a) (R a)) :
    Adds node (as.forM f) fun t => ∃ a ∈ as, R a t := by
  induction as with
  | nil => exact adds_nothing.congr fun t _ => by simp
  | cons a as ih =>
    have htail := ih fun b hb => hf b (List.mem_cons_of_mem _ hb)
    have hboth := (hf a List.mem_cons_self).bind htail
    exact hboth.congr fun t _ => by simp

theorem adds_after_getCache {f : Cache → ServiceM Unit} (hf : Adds node (f node.cache) P) :
    Adds node (onNode getCache >>= f) P := by
  constructor
  intro events
  obtain ⟨events', hr, hm⟩ := hf.runs events
  exact ⟨events', (runs_onNode (runs_getCache node) events).bind hr, hm⟩

/-! ## Events that are dropped -/

/-- From this node `x` does nothing but to unsubscribe; of the events of groups
these are the ones with `P`. -/
structure Drops (node : Node) (x : ServiceM Unit) (P : Topic → Prop) : Prop where
  runs : ∀ events, ∃ events', Proc.Runs x ⟨node, events⟩ () ⟨node, events'⟩ ∧
    ∀ t, t.ofGroup = true → (t ∈ events' ↔ t ∈ events ∧ ¬ P t)

theorem drops_unsubscribe (ev : Topic) : Drops node (unsubscribeFromEvent ev) fun t => t = ev := by
  constructor
  intro events
  refine ⟨events.filter fun x => x != ev, rfl, ?_⟩
  intro t _
  rw [List.mem_filter, bne_iff_ne]

theorem drops_nothing : Drops node (pure ()) fun _ => False :=
  ⟨fun events => ⟨events, rfl, fun _ _ => by simp⟩⟩

theorem Drops.bind (hx : Drops node x P) (hy : Drops node y Q) :
    Drops node (x >>= fun _ => y) fun t => P t ∨ Q t := by
  constructor
  intro events
  obtain ⟨events', hr, hm⟩ := hx.runs events
  obtain ⟨events'', hr', hm'⟩ := hy.runs events'
  refine ⟨events'', hr.bind hr', ?_⟩
  intro t ht
  rw [hm' t ht, hm t ht, not_or, and_assoc]

theorem Drops.congr (hx : Drops node x P) (h : ∀ t, t.ofGroup = true → (P t ↔ Q t)) :
    Drops node x Q := by
  constructor
  intro events
  obtain ⟨events', hr, hm⟩ := hx.runs events
  refine ⟨events', hr, ?_⟩
  intro t ht
  rw [hm t ht, h t ht]

theorem drops_when {b : Bool} (hx : Drops node x P) :
    Drops node (Proc.when b x) fun t => b = true ∧ P t := by
  cases b with
  | true => exact hx.congr fun t _ => by simp
  | false => exact drops_nothing.congr fun t _ => by simp

theorem drops_forM {as : List α} {f : α → ServiceM Unit} {R : α → Topic → Prop}
    (hf : ∀ a ∈ as, Drops node (f a) (R a)) :
    Drops node (as.forM f) fun t => ∃ a ∈ as, R a t := by
  induction as with
  | nil => exact drops_nothing.congr fun t _ => by simp
  | cons a as ih =>
    have htail := ih fun b hb => hf b (List.mem_cons_of_mem _ hb)
    have hboth := (hf a List.mem_cons_self).bind htail
    exact hboth.congr fun t _ => by simp

theorem drops_after_getCache {f : Cache → ServiceM Unit} (hf : Drops node (f node.cache) P) :
    Drops node (onNode getCache >>= f) P := by
  constructor
  intro events
  obtain ⟨events', hr, hm⟩ := hf.runs events
  exact ⟨events', (runs_onNode (runs_getCache node) events).bind hr, hm⟩

/-! ## The methods of the service -/

def vnicsOf (r : Text) (t : Topic) : Prop := t = .vnicJoined r ∨ t = .vnicLeft r

def ownEvents (g : Text) (t : Topic) : Prop :=
  t = .referencerAdded g ∨ t = .referencerRemoved g ∨ t = .rulesUpdated g

theorem adds_subscribeToReferencees (r : Text) :
    Adds node (subscribeToReferencees r) (vnicsOf r) :=
  (adds_subscribe _).bind (adds_subscribe _)

theorem adds_subscribeToSecurityGroup (g : Text) :
    Adds node (subscribeToSecurityGroup g) fun t => vnicsOf g t ∨ ownEvents g t :=
  (adds_subscribeToReferencees g).bind
    ((adds_subscribe _).bind ((adds_subscribe _).bind (adds_subscribe _)))

theorem adds_subscribeToLocalVnic (v : Text) :
    Adds node (subscribeToLocalVnic v) fun _ => False :=
  ((adds_subscribe (.joinedGroup v)).bind (adds_subscribe (.leftGroup v))).congr fun t ht => by
    cases t with
    | joinedGroup _ | leftGroup _ => cases ht
    | _ => simp

theorem mem_keys_iff {κ ν : Type} [DecidableEq κ] {h : Hash κ ν} {k : κ} :
    k ∈ h.keys ↔ (h.lookup k).isSome = true := by
  rw [← AList.mem_keys, AList.lookup_isSome]

theorem adds_subscribeToGroupAndReferencees {g : Text} {group : GroupMap}
    (hg : node.cache.securityGroups.lookup g = some group) :
    Adds node (subscribeToGroupAndReferencees g) fun t => (vnicsOf g t ∨ ownEvents g t) ∨
      ∃ r, (group.referencees.lookup r).isSome = true ∧ vnicsOf r t := by
  apply (adds_subscribeToSecurityGroup g).bind
  apply adds_after_getCache
  rw [hg]
  have hall : Adds node (group.referencees.keys.forM subscribeToReferencees) _ :=
    adds_forM fun r _ => adds_subscribeToReferencees r
  exact hall.congr fun t _ => by simp only [mem_keys_iff]

theorem drops_unsubscribeFromReferencedSecurityGroup (g : Text) :
    Drops node (unsubscribeFromReferencedSecurityGroup g) (vnicsOf g) :=
  (drops_unsubscribe _).bind (drops_unsubscribe _)

theorem drops_unsubscribeFromSecurityGroup (g : Text) :
    Drops node (unsubscribeFromSecurityGroup g) fun t =>
      (node.cache.localReferenceesLeft g = false ∧ vnicsOf g t) ∨ ownEvents g t := by
  apply drops_after_getCache
  have hgroup : Drops node (unsubscribeFromReferencedSecurityGroup g) (vnicsOf g) :=
    drops_unsubscribeFromReferencedSecurityGroup g
  have hfirst := drops_when (b := !node.cache.localReferenceesLeft g) hgroup
  have hall := hfirst.bind ((drops_unsubscribe (.referencerAdded g)).bind
    ((drops_unsubscribe (.referencerRemoved g)).bind (drops_unsubscribe (.rulesUpdated g))))
  exact hall.congr fun t _ => by simp only [Bool.not_eq_true', ownEvents]

theorem drops_unsubscribeFromLocalVnic (v : Text) :
    Drops node (unsubscribeFromLocalVnic v) fun _ => False :=
  ((drops_unsubscribe (.joinedGroup v)).bind (drops_unsubscribe (.leftGroup v))).congr
    fun t ht => by
      cases t with
      | joinedGroup _ | leftGroup _ => cases ht
      | _ => simp

theorem drops_unsubscribeFromReferencees (c : Cache) (g : Text) :
    Drops node (unsubscribeFromReferencees c g) fun _ => False := by
  unfold unsubscribeFromReferencees
  cases c.securityGroups.lookup g with
  | none => exact drops_nothing
  | some group =>
    have hone : ∀ vnics, Drops node (do
        unsubscribeFromEvent (.vnicsJoined vnics)
        unsubscribeFromEvent (.vnicsLeft vnics)) _ := fun vnics =>
      (drops_unsubscribe (.vnicsJoined vnics)).bind (drops_unsubscribe (.vnicsLeft vnics))
    have hall := drops_forM fun vnics (_ : vnics ∈ Hash.values group.referencees) =>
      drops_when (b := !c.otherGroupsReferencingGroup g) (hone vnics)
    apply hall.congr
    intro t ht
    cases t with
    | vnicsJoined _ | vnicsLeft _ => cases ht
    | _ => simp

end

/-! ## Exact subscriptions -/

section
variable {groups groups' : LocalGroups} {events : List Topic}

theorem LocalGroups.named_congr
    (h : ∀ g, (groups' g).map LocalGroup.names = (groups g).map LocalGroup.names) (r : Text) :
    groups'.Named r ↔ groups.Named r := by
  have hmap : ∀ gs : LocalGroups, gs.Named r ↔
      ∃ g names, (gs g).map LocalGroup.names = some names ∧ r ∈ names := by
    intro gs
    constructor
    · intro hx
      obtain ⟨g, x, hg, hr⟩ := hx
      exact ⟨g, x.names, by rw [hg]; rfl, hr⟩
    · intro hx
      obtain ⟨g, names, hg, hr⟩ := hx
      obtain ⟨x, hx, he⟩ := Option.map_eq_some_iff.mp hg
      exact ⟨g, x, hx, by rw [he]; exact hr⟩
  rw [hmap, hmap]
  simp only [h]

theorem LocalGroups.isSome_congr
    (h : ∀ g, (groups' g).map LocalGroup.names = (groups g).map LocalGroup.names) (g : Text) :
    (groups' g).isSome = (groups g).isSome := by
  rw [← Option.isSome_map (f := LocalGroup.names), h, Option.isSome_map]

theorem LocalGroups.wants_congr
    (h : ∀ g, (groups' g).map LocalGroup.names = (groups g).map LocalGroup.names) (t : Topic) :
    groups'.Wants t ↔ groups.Wants t := by
  cases t with
  | vnicJoined r | vnicLeft r =>
    show groups'.Needs r ↔ groups.Needs r
    unfold LocalGroups.Needs
    rw [LocalGroups.isSome_congr h, LocalGroups.named_congr h]
  | rulesUpdated g | referencerAdded g | referencerRemoved g =>
    show (groups' g).isSome = true ↔ (groups g).isSome = true
    rw [LocalGroups.isSome_congr h]
  | vnicCreated | vnicDestroyed | joinedGroup _ | leftGroup _ | vnicsJoined _ | vnicsLeft _ =>
    exact Iff.rfl

theorem Exact.congr (h : Exact groups events)
    (hg : ∀ g, (groups' g).map LocalGroup.names = (groups g).map LocalGroup.names) :
    Exact groups' events := by
  intro t ht
  rw [h t ht]
  exact (LocalGroups.wants_congr hg t).symm

variable {node : Node} {x : ServiceM Unit} {P : Topic → Prop}

theorem Exact.adds (h : Exact groups events) (hx : Adds node x P)
    (hw : ∀ t, t.ofGroup = true → (groups'.Wants t ↔ groups.Wants t ∨ P t)) :
    (Proc.final x ⟨node, events⟩).node = node ∧
      Exact groups' (Proc.final x ⟨node, events⟩).subscribedEvents := by
  obtain ⟨events', hr, hm⟩ := hx.runs events
  rw [hr.final]
  refine ⟨rfl, ?_⟩
  intro t ht
  rw [hm t ht, hw t ht, h t ht]

theorem Exact.drops (h : Exact groups events) (hx : Drops node x P)
    (hw : ∀ t, t.ofGroup = true → (groups'.Wants t ↔ groups.Wants t ∧ ¬ P t)) :
    (Proc.final x ⟨node, events⟩).node = node ∧
      Exact groups' (Proc.final x ⟨node, events⟩).subscribedEvents := by
  obtain ⟨events', hr, hm⟩ := hx.runs events
  rw [hr.final]
  refine ⟨rfl, ?_⟩
  intro t ht
  rw [hm t ht, hw t ht, h t ht]

end

end Netfilter

end WakameVdc
