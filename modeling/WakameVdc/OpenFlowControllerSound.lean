import WakameVdc.Lib.Run
import WakameVdc.OpenFlowController
import WakameVdc.OpenFlowGroup

/-!
# Runs of the OpenFlow controller

When the flow table holds the flows of the ports, instances and services there are, after
every step of a run, whatever `ovs-ofctl` makes of flows it cannot read.
-/

namespace WakameVdc

open Lib

namespace OpenFlow

variable {env : Env} {sw sw' sw'' : Switch}

theorem mem_wanted {f : Flow} : f ∈ sw.wanted env ↔
    (sw.ready = true ∧ f ∈ baseFlows env) ∨
      (sw.flooded = true ∧ f ∈ physicalFloodFlows sw.ethPorts) ∨
      f ∈ (Hash.values sw.networks).flatMap (Network.flows env) ∨
      f ∈ (Hash.values sw.ports).flatMap Port.flows := by
  unfold Switch.wanted
  simp only [List.mem_append, or_assoc]
  refine or_congr ?_ (or_congr ?_ Iff.rfl)
  · cases sw.ready <;> simp
  · cases sw.flooded <;> simp

theorem wanted_ports (sw : Switch) (ports : Hash Nat Port) {P : Flow → Prop}
    (h : ∀ f, f ∈ (Hash.values ports).flatMap Port.flows ↔
      f ∈ (Hash.values sw.ports).flatMap Port.flows ∨ P f) (f : Flow) :
    f ∈ ({ sw with ports := ports } : Switch).wanted env ↔ f ∈ sw.wanted env ∨ P f := by
  rw [mem_wanted, mem_wanted, h f]
  tauto

variable (env) in
theorem wanted_networks (sw : Switch) (networks : Hash Nat Network) {P : Flow → Prop}
    (h : ∀ f, f ∈ (Hash.values networks).flatMap (Network.flows env) ↔
      f ∈ (Hash.values sw.networks).flatMap (Network.flows env) ∨ P f) (f : Flow) :
    f ∈ ({ sw with networks := networks } : Switch).wanted env ↔ f ∈ sw.wanted env ∨ P f := by
  rw [mem_wanted, mem_wanted, h f]
  tauto

structure SameNetwork (n n' : Network) : Prop where
  id : n'.id = n.id
  virtual : n'.virtual = n.virtual
  broadcastAddr : n'.broadcastAddr = n.broadcastAddr
  services : n'.services = n.services

theorem installFlows_same {n n' : Network} (h : SameNetwork n n') :
    n'.installFlows env = n.installFlows env := by
  unfold Network.installFlows Network.installVirtualNetwork Network.installMacSubnet
  rw [h.id, h.broadcastAddr]

theorem mem_flows {n : Network} {f : Flow} : f ∈ n.flows env ↔
    (n.virtual = true ∧ (f ∈ n.installFlows env ∨ f ∈ n.floodFlows env)) ∨
      f ∈ (Hash.values n.services).flatMap Service.activeFlows := by
  unfold Network.flows
  rw [List.mem_append]
  refine or_congr ?_ Iff.rfl
  cases n.virtual <;> simp

theorem mem_flows_same {n n' : Network} (h : SameNetwork n n') {f : Flow} : f ∈ n'.flows env ↔
    (n.virtual = true ∧ (f ∈ n.installFlows env ∨ f ∈ n'.floodFlows env)) ∨
      f ∈ (Hash.values n.services).flatMap Service.activeFlows := by
  rw [mem_flows, h.virtual, h.services, installFlows_same h]

/-- The flows the ports were ever given, those of instances that are gone among them. -/
def Switch.queued (sw : Switch) : List Flow := (Hash.values sw.ports).flatMap Port.activeFlows

/-! ## Growing -/

section
variable [Ofctl] [DecidableLE Match]

variable (env) in
def Grows (sw sw' : Switch) : Prop :=
  ∃ calls, sw'.table = addCalls sw.table calls ∧
    FlowTable.Turns (sw.wanted env) calls.flatten [] (sw'.wanted env) ∧
    ∀ f ∈ sw'.queued, f ∈ sw.queued ∨ f ∈ calls.flatten

theorem Grows.of_grow (calls : List (List Flow)) (htable : sw'.table = addCalls sw.table calls)
    (hwanted : ∀ f, f ∈ sw'.wanted env ↔ f ∈ sw.wanted env ∨ f ∈ calls.flatten)
    (hqueued : ∀ f ∈ sw'.queued, f ∈ sw.queued ∨ f ∈ calls.flatten) : Grows env sw sw' :=
  ⟨calls, htable, .grow hwanted, hqueued⟩

theorem Grows.of_same (htable : sw'.table = sw.table)
    (hwanted : ∀ f, f ∈ sw'.wanted env ↔ f ∈ sw.wanted env)
    (hqueued : ∀ f ∈ sw'.queued, f ∈ sw.queued) : Grows env sw sw' :=
  .of_grow [] htable (fun f => by simp [hwanted f]) fun f hf => .inl (hqueued f hf)

theorem Grows.refl (sw : Switch) : Grows env sw sw :=
  .of_same rfl (fun _ => Iff.rfl) fun _ hf => hf

theorem Grows.trans (h1 : Grows env sw sw') (h2 : Grows env sw' sw'') : Grows env sw sw'' := by
  obtain ⟨calls, ht, hfs, hq⟩ := h1
  obtain ⟨calls', ht', hgs, hq'⟩ := h2
  refine ⟨calls ++ calls', ?_, ?_, ?_⟩
  · rw [ht', ht]
    exact List.foldl_append.symm
  · rw [List.flatten_append]
    exact hfs.trans hgs
  · intro f hf
    rw [List.flatten_append, List.mem_append]
    rcases hq' f hf with hf | hf
    · exact (hq f hf).imp_right .inl
    · exact .inr (.inr hf)

theorem Grows.foldl {ι : Type} {g : Switch → ι → Switch} (hg : ∀ sw i, Grows env sw (g sw i))
    (is : List ι) (sw : Switch) : Grows env sw (is.foldl g sw) := by
  induction is generalizing sw with
  | nil => exact .refl sw
  | cons i is ih => exact (hg sw i).trans (ih _)

/-! ## Ports -/

omit [Ofctl] [DecidableLE Match] in
theorem mem_queued_modifyPort {number : Nat} {g : Port → Port} {fs : List Flow}
    (hg : ∀ p, sw.ports.lookup number = some p → (g p).activeFlows = p.activeFlows ++ fs) :
    ∀ f ∈ (sw.modifyPort number g).queued, f ∈ sw.queued ∨ f ∈ fs := by
  intro f hf
  change f ∈ (Hash.values (Hash.modify number g sw.ports)).flatMap Port.activeFlows at hf
  show f ∈ (Hash.values sw.ports).flatMap Port.activeFlows ∨ _
  cases hp : sw.ports.lookup number with
  | none =>
    rw [Hash.mem_all_modify_of_not_lookup hp] at hf
    exact .inl hf
  | some p =>
    rw [Hash.mem_all_modify hp, hg p hp, List.mem_append] at hf
    rw [Hash.mem_all_of_lookup hp]
    tauto

theorem grows_modifyPort {number : Nat} {g : Port → Port}
    (hg : ∀ p, sw.ports.lookup number = some p → (g p).flows = p.flows)
    (hactive : ∀ p, (g p).activeFlows = p.activeFlows) :
    Grows env sw (sw.modifyPort number g) := by
  refine .of_same rfl (fun f => ?_) fun f hf => ?_
  swap
  · have hmem : f ∈ sw.queued ∨ f ∈ [] :=
      mem_queued_modifyPort (fun p _ => by rw [hactive, List.append_nil]) f hf
    exact hmem.resolve_right List.not_mem_nil
  have hports : ∀ f, f ∈ (Hash.values (Hash.modify number g sw.ports)).flatMap Port.flows ↔
      f ∈ (Hash.values sw.ports).flatMap Port.flows ∨ False := by
    intro f
    cases hp : sw.ports.lookup number with
    | none => rw [Hash.mem_all_modify_of_not_lookup hp, or_false]
    | some p => rw [Hash.mem_all_modify hp, Hash.mem_all_of_lookup hp, hg p hp, or_false]
  exact (wanted_ports sw _ hports f).trans (or_false _).to_iff

theorem grows_joinNetwork (number id : Nat) : Grows env sw (sw.joinNetwork number id) :=
  grows_modifyPort (fun _ _ => rfl) fun _ => rfl

/-- The flows of the port show: it is no vif, or its instance runs. -/
def Port.Shows (p : Port) : Prop :=
  ¬ (p.info.name = .vif ∧ p.hasInstance = false) ∧ p.earlier ≤ p.activeFlows.length

theorem grows_queueFlows {number : Nat} {p : Port} (hp : sw.ports.lookup number = some p)
    (hshows : p.Shows) (fs : List Flow) : Grows env sw (sw.queueFlows number fs) := by
  have hflat : [fs].flatten = fs := List.flatten_singleton
  refine .of_grow [fs] rfl (fun f => ?_) ?_
  swap
  · rw [hflat]
    exact mem_queued_modifyPort fun _ _ => rfl
  rw [hflat]
  refine wanted_ports sw _ (fun f => ?_) f
  have hflows : Port.flows { p with activeFlows := p.activeFlows ++ fs } = p.flows ++ fs := by
    unfold Port.flows
    rw [if_neg hshows.1, if_neg hshows.1, List.drop_append_of_le_length hshows.2]
  show f ∈ (Hash.values (Hash.modify number _ sw.ports)).flatMap Port.flows ↔ _
  rw [Hash.mem_all_modify hp, Hash.mem_all_of_lookup hp, hflows, List.mem_append]
  tauto

/-! ## Flood flows -/

omit [DecidableLE Match] in
theorem physicalFloodFlows_place (ethPorts ethPorts' : List Nat) :
    ∀ f ∈ physicalFloodFlows ethPorts, ∃ g ∈ physicalFloodFlows ethPorts', g.SamePlace f := by
  intro f hf
  simp only [physicalFloodFlows, List.mem_cons, List.not_mem_nil, or_false] at hf ⊢
  rcases hf with rfl | rfl | rfl | rfl
  · exact ⟨_, .inl rfl, .refl _⟩
  · exact ⟨_, .inr (.inl rfl), .refl _⟩
  · exact ⟨_, .inr (.inr (.inl rfl)), .refl _⟩
  · exact ⟨_, .inr (.inr (.inr rfl)), .refl _⟩

theorem grows_flood (ethPorts : List Nat) :
    Grows env sw ({ sw with ethPorts := ethPorts } : Switch).flood := by
  refine ⟨[physicalFloodFlows ethPorts], rfl, ?_, fun f hf => .inl hf⟩
  rw [List.flatten_singleton]
  refine .change ?_ ?_ ?_
  · intro f hf
    exact mem_wanted.mpr (.inr (.inl ⟨rfl, hf⟩))
  · intro f hf
    rcases mem_wanted.mp hf with h | ⟨-, h⟩ | h
    · exact .inl (mem_wanted.mpr (.inl h))
    · exact .inr (physicalFloodFlows_place sw.ethPorts ethPorts f h)
    · exact .inl (mem_wanted.mpr (.inr (.inr h)))
  · intro f hf
    rcases mem_wanted.mp hf with h | ⟨-, h⟩ | h
    · exact .inl (mem_wanted.mpr (.inl h))
    · exact .inr h
    · exact .inl (mem_wanted.mpr (.inr (.inr h)))

/-! ## Networks -/

omit [DecidableLE Match] in
theorem floodFlows_place {n n' : Network} (h : SameNetwork n n') :
    ∀ f ∈ n.floodFlows env, ∃ g ∈ n'.floodFlows env, g.SamePlace f := by
  intro f hf
  simp only [Network.floodFlows, List.mem_append, List.mem_cons, List.not_mem_nil, or_false,
    List.mem_map, h.id, h.broadcastAddr] at hf ⊢
  rcases hf with (rfl | rfl) | ⟨p, hp, rfl⟩
  · exact ⟨_, .inl (.inl rfl), .refl _⟩
  · exact ⟨_, .inl (.inr rfl), .refl _⟩
  · exact ⟨_, .inr ⟨p, hp, rfl⟩, .refl _⟩

variable (env) in
def allFlows (networks : Hash Nat Network) : List Flow :=
  (Hash.values networks).flatMap (Network.flows env)

theorem grows_networks (sw : Switch) {networks : Hash Nat Network} (fs : List Flow)
    (hadded : ∀ f ∈ fs, f ∈ allFlows env networks)
    (hkept : ∀ f ∈ allFlows env sw.networks, f ∈ allFlows env networks ∨ ∃ g ∈ fs, g.SamePlace f)
    (hfresh : ∀ f ∈ allFlows env networks, f ∈ allFlows env sw.networks ∨ f ∈ fs) :
    Grows env sw (({ sw with networks := networks } : Switch).addFlows fs) := by
  refine ⟨[fs], rfl, ?_, fun f hf => .inl hf⟩
  rw [List.flatten_singleton]
  refine .change ?_ ?_ ?_
  · intro f hf
    exact mem_wanted.mpr (.inr (.inr (.inl (hadded f hf))))
  · intro f hf
    rcases mem_wanted.mp hf with h | h | h | h
    · exact .inl (mem_wanted.mpr (.inl h))
    · exact .inl (mem_wanted.mpr (.inr (.inl h)))
    · exact (hkept f h).imp_left fun h => mem_wanted.mpr (.inr (.inr (.inl h)))
    · exact .inl (mem_wanted.mpr (.inr (.inr (.inr h))))
  · intro f hf
    rcases mem_wanted.mp hf with h | h | h | h
    · exact .inl (mem_wanted.mpr (.inl h))
    · exact .inl (mem_wanted.mpr (.inr (.inl h)))
    · exact (hfresh f h).imp_left fun h => mem_wanted.mpr (.inr (.inr (.inl h)))
    · exact .inl (mem_wanted.mpr (.inr (.inr (.inr h))))

theorem grows_networks_same {networks : Hash Nat Network}
    (h : ∀ f, f ∈ allFlows env networks ↔ f ∈ allFlows env sw.networks) :
    Grows env sw { sw with networks := networks } := by
  refine .of_same rfl (fun f => ?_) fun f hf => hf
  have hnetworks := wanted_networks env sw networks (P := fun _ => False)
    (fun f => (h f).trans (or_false _).to_iff.symm) f
  exact hnetworks.trans (or_false _).to_iff

theorem grows_changePorts {id : Nat} {g : Network → Network} (hg : ∀ n, SameNetwork n (g n))
    {n : Network} (hn : sw.networks.lookup id = some n) (ethPorts : List Nat)
    (heth : n.virtual = true → ethPorts = sw.ethPorts) :
    Grows env sw
      (({ sw with networks := Hash.modify id g sw.networks, ethPorts := ethPorts } : Switch).update
        env id) := by
  have hlookup : (Hash.modify id g sw.networks).lookup id = some (g n) := by
    rw [Hash.lookup_modify, hn]
    simp
  have hold : ∀ f, f ∈ allFlows env sw.networks ↔
      f ∈ n.flows env ∨ Hash.Others (Network.flows env) sw.networks id f :=
    fun f => Hash.mem_all_of_lookup hn
  have hnew : ∀ f, f ∈ allFlows env (Hash.modify id g sw.networks) ↔
      f ∈ (g n).flows env ∨ Hash.Others (Network.flows env) sw.networks id f :=
    fun f => Hash.mem_all_modify hn g
  unfold Switch.update
  dsimp only
  rw [hlookup]
  dsimp only
  rw [(hg n).virtual]
  cases hv : n.virtual with
  | true =>
    rw [heth hv, if_pos rfl]
    refine grows_networks sw _ ?_ ?_ ?_
    · intro f hf
      exact (hnew f).mpr (.inl ((mem_flows_same (hg n)).mpr (.inl ⟨hv, .inr hf⟩)))
    · intro f hf
      rw [hold, mem_flows] at hf
      rw [hnew, mem_flows_same (hg n)]
      rcases hf with (⟨-, h | h⟩ | h) | h
      · exact .inl (.inl (.inl ⟨hv, .inl h⟩))
      · exact .inr (floodFlows_place (hg n) f h)
      · exact .inl (.inl (.inr h))
      · exact .inl (.inr h)
    · intro f hf
      rw [hnew, mem_flows_same (hg n)] at hf
      rw [hold, mem_flows]
      tauto
  | false =>
    rw [if_neg Bool.false_ne_true]
    have hsame : Grows env sw { sw with networks := Hash.modify id g sw.networks } := by
      refine grows_networks_same fun f => ?_
      rw [hnew, hold, mem_flows_same (hg n), mem_flows, hv]
      simp
    exact hsame.trans (grows_flood ethPorts)

theorem modifyNetwork_of_not_lookup {id : Nat} (hn : sw.networks.lookup id = none)
    (g : Network → Network) : Grows env sw (sw.modifyNetwork id g) :=
  grows_networks_same fun _ => Hash.mem_all_modify_of_not_lookup hn g

theorem grows_addPort (id number : Nat) (isLocal : Bool) :
    Grows env sw (sw.addPort env id number isLocal) := by
  unfold Switch.addPort
  cases hn : sw.networks.lookup id with
  | none =>
    have hn' : (sw.modifyNetwork id (Network.addPort number isLocal)).networks.lookup id = none := by
      show (Hash.modify id _ sw.networks).lookup id = none
      rw [Hash.lookup_modify, hn]
      simp
    unfold Switch.update
    simp only [hn']
    exact modifyNetwork_of_not_lookup hn _
  | some n =>
    have hg : ∀ n, SameNetwork n (Network.addPort number isLocal n) := fun _ => ⟨rfl, rfl, rfl, rfl⟩
    exact grows_changePorts hg hn sw.ethPorts fun _ => rfl

theorem grows_removePort (sw : Switch) (number id : Nat) :
    Grows env sw (sw.removePort env number id) := by
  unfold Switch.removePort
  cases hn : sw.networks.lookup id with
  | none => exact .refl sw
  | some n =>
    dsimp only
    have hg : ∀ n, SameNetwork n (Network.removePort number n) := fun _ => ⟨rfl, rfl, rfl, rfl⟩
    cases hv : n.virtual with
    | true =>
      rw [if_pos rfl]
      exact grows_changePorts hg hn sw.ethPorts fun _ => rfl
    | false =>
      rw [if_neg Bool.false_ne_true]
      refine grows_changePorts hg hn _ fun h => ?_
      rw [hv] at h
      cases h

theorem grows_modifyNetwork {id : Nat} {n : Network} (hn : sw.networks.lookup id = some n)
    {g : Network → Network} {fs : List Flow}
    (hg : ∀ f, f ∈ (g n).flows env ↔ f ∈ n.flows env ∨ f ∈ fs) :
    Grows env sw ((sw.modifyNetwork id g).addFlows fs) := by
  refine .of_grow [fs] rfl (fun f => ?_) fun f hf => .inl hf
  rw [List.flatten_singleton]
  refine wanted_networks env sw _ (fun f => ?_) f
  show f ∈ (Hash.values (Hash.modify id g sw.networks)).flatMap (Network.flows env) ↔ _
  rw [Hash.mem_all_modify hn, Hash.mem_all_of_lookup hn, hg]
  tauto

theorem grows_insertNetwork {id : Nat} {n : Network} (hn : sw.networks.lookup id = none)
    {calls : List (List Flow)} (hflows : ∀ f, f ∈ n.flows env ↔ f ∈ calls.flatten) :
    Grows env sw
      { sw with networks := sw.networks.insert id n, table := addCalls sw.table calls } := by
  refine .of_grow calls rfl (fun f => ?_) fun f hf => .inl hf
  refine wanted_networks env sw _ (fun f => ?_) f
  show f ∈ (Hash.values (sw.networks.insert id n)).flatMap (Network.flows env) ↔ _
  rw [Hash.mem_all_insert _ hn, hflows]
  exact or_comm

/-! ## Services -/

omit [Ofctl] [DecidableLE Match] in
theorem addService_spec (n : Network) (map : ServiceMap) :
    ∃ services, (n.addService map).1 = { n with services := services } ∧
      ∀ f, f ∈ (Hash.values services).flatMap Service.activeFlows ↔
        f ∈ (Hash.values n.services).flatMap Service.activeFlows ∨ f ∈ (n.addService map).2 := by
  unfold Network.addService
  split
  · exact ⟨n.services, rfl, fun f => by simp⟩
  · next h =>
    rw [not_or, Option.not_isSome_iff_eq_none] at h
    refine ⟨_, rfl, fun f => ?_⟩
    rw [Hash.mem_all_insert _ h.1]
    exact or_comm

omit [Ofctl] [DecidableLE Match] in
theorem addServices_spec (maps : List ServiceMap) (n : Network) :
    ∃ services, (n.addServices maps).1 = { n with services := services } ∧
      ∀ f, f ∈ (Hash.values services).flatMap Service.activeFlows ↔
        f ∈ (Hash.values n.services).flatMap Service.activeFlows ∨
          f ∈ (n.addServices maps).2.flatten := by
  induction maps generalizing n with
  | nil => exact ⟨n.services, rfl, fun f => by simp [Network.addServices]⟩
  | cons map maps ih =>
    obtain ⟨services, he, hs⟩ := addService_spec n map
    obtain ⟨services', he', hs'⟩ := ih (n.addService map).1
    refine ⟨services', ?_, fun f => ?_⟩
    · show ((n.addService map).1.addServices maps).1 = _
      rw [he', he]
    · show _ ↔ _ ∨
        f ∈ ((n.addService map).2 :: ((n.addService map).1.addServices maps).2).flatten
      rw [hs', List.flatten_cons, List.mem_append, ← or_assoc, ← hs, he]

omit [Ofctl] [DecidableLE Match] in
theorem mem_flows_services {n : Network} {services : Hash Text Service} {fs : List Flow}
    (hs : ∀ f, f ∈ (Hash.values services).flatMap Service.activeFlows ↔
      f ∈ (Hash.values n.services).flatMap Service.activeFlows ∨ f ∈ fs) (f : Flow) :
    f ∈ ({ n with services := services } : Network).flows env ↔ f ∈ n.flows env ∨ f ∈ fs := by
  rw [mem_flows, mem_flows, hs, or_assoc]
  exact Iff.rfl

omit [Ofctl] [DecidableLE Match] in
variable (env) in
theorem mem_flows_createNetwork (map : NetworkMap) (f : Flow) :
    f ∈ (createNetwork env map).1.flows env ↔ f ∈ (createNetwork env map).2.flatten := by
  obtain ⟨services, he, hs⟩ := addServices_spec map.services (.create map)
  have hempty : ∀ f, ¬ f ∈ (Hash.values (Network.create map).services).flatMap
      Service.activeFlows := fun f h => nomatch h
  unfold createNetwork
  dsimp only
  cases hv : map.virtual with
  | true =>
    rw [if_pos rfl, he]
    dsimp only
    have hvirtual : (Network.create map).virtual = true := hv
    rw [mem_flows]
    dsimp only
    rw [hs, List.flatten_append, List.mem_append, hvirtual]
    have hflat (n : Network) : f ∈ [n.installVirtualNetwork, n.installMacSubnet env,
        n.floodFlows env].flatten ↔ f ∈ n.installFlows env ∨ f ∈ n.floodFlows env := by
      simp [Network.installFlows, or_assoc]
    rw [hflat]
    have := hempty f
    tauto
  | false =>
    rw [if_neg Bool.false_ne_true, he]
    obtain ⟨services', he', hs'⟩ := addServices_spec map.defaultServices
      (({ Network.create map with services := services } : Network).addPort ofppLocal true)
    dsimp only
    rw [he', mem_flows]
    dsimp only
    have hvirtual : ¬ (Network.create map).virtual = true := by
      rw [show (Network.create map).virtual = false from hv]
      exact Bool.false_ne_true
    rw [hs', List.flatten_append, List.mem_append]
    show ((Network.create map).virtual = true ∧ _) ∨
      f ∈ (Hash.values services).flatMap Service.activeFlows ∨ _ ↔ _
    rw [hs]
    have := hempty f
    tauto

theorem grows_getNetwork {map : NetworkMap} (h : sw.getNetwork env map = some sw') :
    Grows env sw sw' := by
  unfold Switch.getNetwork at h
  split at h
  · cases h
    exact .refl sw
  · next hnone =>
    rw [Option.not_isSome_iff_eq_none] at hnone
    split at h
    · have hadd := grows_insertNetwork hnone (mem_flows_createNetwork env map)
      cases h
      split
      · exact hadd
      · exact hadd.trans (grows_flood _)
    · cases h

theorem grows_addService (id : Nat) (map : ServiceMap) :
    Grows env sw (sw.addService id map) := by
  unfold Switch.addService
  cases hn : sw.networks.lookup id with
  | none => exact .refl sw
  | some n =>
    refine grows_modifyNetwork hn fun f => ?_
    obtain ⟨services, he, hs⟩ := addService_spec n map
    rw [he]
    exact mem_flows_services hs f

theorem grows_requestMac (number : Nat) (hw : Text) (id : Nat) :
    Grows env sw (sw.requestMac env number hw id) := by
  unfold Switch.requestMac
  split
  · exact .refl sw
  · next n hn =>
    split
    · exact .refl sw
    · next s hs =>
      split
      · refine grows_modifyNetwork hn fun f => mem_flows_services (fun f => ?_) f
        rw [Hash.mem_all_modify hs, Hash.mem_all_of_lookup hs, List.mem_append]
        tauto
      · exact .refl sw

/-! ## Ports that come -/

omit [Ofctl] [DecidableLE Match] in
theorem lookup_modifyPort (number : Nat) (g : Port → Port) :
    (sw.modifyPort number g).ports.lookup number = (sw.ports.lookup number).map g := by
  show (Hash.modify number g sw.ports).lookup number = _
  rw [Hash.lookup_modify, if_pos rfl]

theorem update_ports (id : Nat) : (sw.update env id).ports = sw.ports := by
  unfold Switch.update
  split
  · rfl
  · split <;> rfl

theorem getNetwork_ports {map : NetworkMap} (h : sw.getNetwork env map = some sw') :
    sw'.ports = sw.ports := by
  unfold Switch.getNetwork at h
  split at h
  · cases h
    rfl
  · split at h
    · cases h
      split <;> rfl
    · cases h

theorem addPort_ports (id number : Nat) (isLocal : Bool) :
    (sw.addPort env id number isLocal).ports = sw.ports := update_ports id

omit [Ofctl] [DecidableLE Match] in
theorem lookup_joinNetwork {number : Nat} {p : Port} (id : Nat)
    (hp : sw.ports.lookup number = some p) :
    (sw.joinNetwork number id).ports.lookup number =
      some { p with networks := p.networks ++ [id] } := by
  unfold Switch.joinNetwork
  rw [lookup_modifyPort, hp]
  rfl

theorem grows_joinPhysical (number : Nat) (hw : Text) (maps : List NetworkMap) (sw : Switch) :
    Grows env sw (sw.joinPhysical env number hw maps) := by
  induction maps generalizing sw with
  | nil => exact .refl sw
  | cons map maps ih =>
    unfold Switch.joinPhysical
    split
    · exact .refl sw
    · next sw' h =>
      exact (grows_getNetwork h).trans <| (grows_joinNetwork number map.id).trans <|
        (grows_addPort map.id number true).trans <| (grows_requestMac number hw map.id).trans (ih _)

theorem grows_addEth {info : PortInfo} {p : Port} (hp : sw.ports.lookup info.number = some p)
    (hshows : p.Shows) : Grows env sw (sw.addEth env info) := by
  unfold Switch.addEth
  refine (grows_queueFlows hp hshows (initEth info.number)).trans <| .trans ?_
    (grows_joinPhysical _ _ _ _)
  split
  · exact .refl _
  · exact grows_flood _

theorem grows_addInstance {number : Nat} {p : Port} (hp : sw.ports.lookup number = some p)
    (hvif : p.info.name = .vif) (nic : Option NicMap) :
    Grows env sw (sw.addInstance env number nic) := by
  unfold Switch.addInstance
  rw [hp]
  cases nic with
  | none => exact .refl sw
  | some nic =>
    dsimp only
    split
    · exact .refl sw
    · next ip _ =>
      split
      · exact .refl sw
      · next hidle =>
        -- the port gets an instance that has no flows yet
        have hstart : Grows env sw (sw.modifyPort number fun p =>
            { p with ip := some ip, mac := some nic.mac, hasInstance := true,
                     earlier := p.activeFlows.length }) := by
          refine grows_modifyPort (fun q hq => ?_) fun q => rfl
          rw [hp] at hq
          cases hq
          unfold Port.flows
          simp [hvif, hidle]
        refine hstart.trans ?_
        split
        · exact .refl _
        · next sw' h =>
          have hq := congrArg (AList.lookup number) (getNetwork_ports h)
          rw [lookup_modifyPort, hp] at hq
          have hport := lookup_joinNetwork nic.network.id hq
          refine (grows_getNetwork h).trans <| (grows_joinNetwork number nic.network.id).trans <|
            .trans (?_ : Grows env _ _) <| (grows_addPort nic.network.id number true).trans <|
              grows_queueFlows (p := { p with
                ip := some ip, mac := some nic.mac, hasInstance := true,
                earlier := p.activeFlows.length, networks := p.networks ++ [nic.network.id] }) ?_ ?_ _
          · split
            · exact .refl _
            · exact grows_flood _
          · rw [addPort_ports]
            split
            · exact hport
            · exact hport
          · exact ⟨fun h => Bool.noConfusion h.2, le_refl _⟩

theorem grows_joinTunnel {number : Nat} {p : Port} (hp : sw.ports.lookup number = some p)
    (hshows : p.Shows) (id : Nat) :
    Grows env sw (Switch.addTunnel.join env number id sw) := by
  unfold Switch.addTunnel.join
  refine (grows_joinNetwork number id).trans <| (grows_addPort id number false).trans <|
    grows_queueFlows (p := { p with networks := p.networks ++ [id] }) ?_ hshows _
  rw [addPort_ports]
  exact lookup_joinNetwork id hp

theorem grows_addTunnel {number : Nat} {p : Port} (hp : sw.ports.lookup number = some p)
    (hshows : p.Shows) (vnetId : Nat) (map : Option NetworkMap) :
    Grows env sw (sw.addTunnel env number vnetId map) := by
  unfold Switch.addTunnel
  split
  · exact .refl sw
  · split
    · exact grows_joinTunnel hp hshows vnetId
    · cases map with
      | none => exact .refl sw
      | some map =>
        dsimp only
        cases h : sw.getNetwork env map with
        | none => exact .refl sw
        | some sw' =>
          refine (grows_getNetwork h).trans (grows_joinTunnel (p := p) ?_ hshows map.id)
          rw [getNetwork_ports h]
          exact hp

theorem grows_insertPort {info : PortInfo} (hp : sw.ports.lookup info.number = some (.create info))
    (nic : Option NicMap) (network : Option NetworkMap) :
    Grows env sw (sw.insertPort env info nic network) := by
  have hshows (h : info.name ≠ .vif) : (Port.create info).Shows := ⟨fun hv => h hv.1, le_refl _⟩
  unfold Switch.insertPort
  split
  · exact .refl sw
  · split
    · next h => exact grows_addEth hp (hshows (by rw [h]; exact PortName.noConfusion))
    · next h => exact grows_addInstance hp h nic
    · next h => exact grows_addTunnel hp (hshows (by rw [h]; exact PortName.noConfusion)) _ network
    · exact .refl sw

theorem grows_newPort {info : PortInfo} (hnew : sw.ports.lookup info.number = none) :
    Grows env sw { sw with ports := sw.ports.insert info.number (.create info) } := by
  refine .of_same rfl (fun f => ?_) fun f hf => ?_
  swap
  · change f ∈ (Hash.values (sw.ports.insert info.number (.create info))).flatMap
      Port.activeFlows at hf
    rw [Hash.mem_all_insert _ hnew] at hf
    exact hf.resolve_left List.not_mem_nil
  have hports : ∀ f, f ∈ (Hash.values (sw.ports.insert info.number (.create info))).flatMap
      Port.flows ↔ f ∈ (Hash.values sw.ports).flatMap Port.flows ∨ False := by
    intro f
    rw [Hash.mem_all_insert _ hnew]
    simp [Port.flows, Port.create]
  exact (wanted_ports sw _ hports f).trans (or_false _).to_iff

/-! ## One event -/

def deletes (sw : Switch) : Op → List Flow
  | .deletePort number => (sw.ports.lookup number).elim [] Port.activeFlows
  | .deleteService id name =>
    ((sw.networks.lookup id).bind fun n => n.services.lookup name).elim [] Service.activeFlows
  | _ => []

def forgets (sw : Switch) : Op → List Flow
  | .terminateInstance number =>
    if sw.isVif number then (sw.ports.lookup number).elim [] Port.flows else []
  | _ => []

def drops (sw : Switch) : Op → List Flow
  | .deletePort number => (sw.ports.lookup number).elim [] Port.flows
  | .deleteService id name => deletes sw (.deleteService id name)
  | op => forgets sw op

variable (env) in
/-- The table loses `ds`, and what is wanted loses `dropped`. -/
def Changes (ds dropped : List Flow) (sw sw' : Switch) : Prop :=
  ∃ calls, sw'.table = FlowTable.del (addCalls sw.table calls) (Ofctl.delFlows.read ds) ∧
    FlowTable.Turns (sw.wanted env) calls.flatten dropped (sw'.wanted env) ∧
    ∀ f ∈ sw'.queued, f ∈ sw.queued ∨ f ∈ calls.flatten

omit [Ofctl] [DecidableLE Match] in
theorem read_nil {reads : Match → Bool} (r : Reading reads) : r.read [] = [] :=
  r.read_all [] fun _ hf => nomatch hf

theorem Grows.changes (h : Grows env sw sw') : Changes env [] [] sw sw' := by
  obtain ⟨calls, ht, hfs, hq⟩ := h
  exact ⟨calls, by rw [read_nil, FlowTable.del_nil, ht], hfs, hq⟩

theorem Grows.changes_of_drop (ds : List Flow) {dropped : List Flow} (h : Grows env sw' sw'')
    (hwanted : ∀ f, f ∈ sw.wanted env ↔ f ∈ sw'.wanted env ∨ f ∈ dropped)
    (hqueued : ∀ f ∈ sw'.queued, f ∈ sw.queued) (htable : sw'.table = sw.table) :
    Changes env ds dropped sw (sw''.delFlows ds) := by
  obtain ⟨calls, ht, hfs, hq⟩ := h
  refine ⟨calls, ?_, FlowTable.Turns.trans (.drop hwanted) hfs, ?_⟩
  · show FlowTable.del sw''.table _ = _
    rw [ht, htable]
  · intro f hf
    exact (hq f hf).imp_left (hqueued f)

theorem update_withPorts (sw : Switch) (id : Nat) (ports : Hash Nat Port) :
    ({ sw with ports := ports } : Switch).update env id =
      { sw.update env id with ports := ports } := by
  unfold Switch.update
  cases sw.networks.lookup id with
  | none => rfl
  | some n =>
    dsimp only
    split
    · rfl
    · rfl

theorem removePort_withPorts (number id : Nat) (ports : Hash Nat Port) :
    ({ sw with ports := ports } : Switch).removePort env number id =
      { sw.removePort env number id with ports := ports } := by
  unfold Switch.removePort
  cases sw.networks.lookup id with
  | none => rfl
  | some n =>
    dsimp only
    split
    · exact update_withPorts (sw.modifyNetwork id (Network.removePort number)) id ports
    · exact update_withPorts
        { sw.modifyNetwork id (Network.removePort number) with
          ethPorts := sw.ethPorts.filter (· ≠ number) } id ports

variable (env) in
theorem removePorts_withPorts (number : Nat) (ids : List Nat) (sw : Switch) (ports : Hash Nat Port) :
    ids.foldl (fun sw id => sw.removePort env number id) { sw with ports := ports } =
      { ids.foldl (fun sw id => sw.removePort env number id) sw with ports := ports } := by
  induction ids generalizing sw with
  | nil => rfl
  | cons id ids ih =>
    rw [List.foldl_cons, List.foldl_cons, removePort_withPorts]
    exact ih _

theorem removePorts_ports (number : Nat) (ids : List Nat) (sw : Switch) :
    (ids.foldl (fun sw id => sw.removePort env number id) sw).ports = sw.ports := by
  rw [removePorts_withPorts env number ids sw sw.ports]

theorem changes_deletePort {number : Nat} {p : Port} (hp : sw.ports.lookup number = some p) :
    Changes env p.activeFlows p.flows sw (sw.deletePort env number) := by
  have hgrows : Grows env _ _ :=
    .foldl (fun sw id => grows_removePort sw number id) p.networks
      { sw with ports := sw.ports.erase number }
  rw [removePorts_withPorts] at hgrows
  have hwanted (f : Flow) : f ∈ sw.wanted env ↔
      f ∈ ({ sw with ports := sw.ports.erase number } : Switch).wanted env ∨ f ∈ p.flows := by
    refine wanted_ports { sw with ports := sw.ports.erase number } sw.ports (fun f => ?_) f
    rw [Hash.mem_all_of_lookup hp, Hash.mem_all_erase]
    exact or_comm
  have hqueued : ∀ f ∈ ({ sw with ports := sw.ports.erase number } : Switch).queued,
      f ∈ sw.queued := by
    intro f hf
    exact (Hash.mem_all_of_lookup hp).mpr (.inr (Hash.mem_all_erase.mp hf))
  have hchanges := hgrows.changes_of_drop p.activeFlows hwanted hqueued rfl
  -- the ports are the same before and after
  have hports : (p.networks.foldl (fun sw id => sw.removePort env number id) sw).ports =
      sw.ports :=
    removePorts_ports number p.networks sw
  rw [← hports] at hchanges
  unfold Switch.deletePort
  rw [hp]
  exact hchanges

theorem changes_deleteInstance {number : Nat} {p : Port} (hp : sw.ports.lookup number = some p)
    (hvif : p.info.name = .vif) : Changes env [] p.flows sw (sw.deleteInstance env number) := by
  have hwanted (f : Flow) : f ∈ sw.wanted env ↔
      f ∈ (sw.modifyPort number fun p =>
        { p with ip := none, mac := none, hasInstance := false }).wanted env ∨ f ∈ p.flows := by
    refine wanted_ports (sw.modifyPort number fun p =>
      { p with ip := none, mac := none, hasInstance := false }) sw.ports (fun f => ?_) f
    show _ ↔ f ∈ (Hash.values (Hash.modify number _ sw.ports)).flatMap Port.flows ∨ _
    have hnone : Port.flows { p with ip := none, mac := none, hasInstance := false } = [] :=
      if_pos ⟨hvif, rfl⟩
    rw [Hash.mem_all_of_lookup hp, Hash.mem_all_modify hp, hnone, or_comm]
    simp
  have hgrows (ids : List Nat) (sw : Switch) : Grows env sw (ids.foldl (fun sw id =>
      if (sw.networks.lookup id).any fun n => number ∈ n.ports then sw.removePort env number id
      else sw) sw) := by
    refine .foldl (fun sw id => ?_) ids sw
    split
    · exact grows_removePort sw number id
    · exact .refl sw
  have hqueued : ∀ f ∈ (sw.modifyPort number fun p =>
      { p with ip := none, mac := none, hasInstance := false }).queued, f ∈ sw.queued := by
    intro f hf
    have hmem : f ∈ sw.queued ∨ f ∈ [] := by
      refine mem_queued_modifyPort (fun p _ => ?_) f hf
      exact (List.append_nil p.activeFlows).symm
    exact hmem.resolve_right List.not_mem_nil
  have hchanges := (hgrows sw.networks.keys _).changes_of_drop [] hwanted hqueued rfl
  unfold Switch.deleteInstance
  unfold Switch.delFlows at hchanges
  rw [read_nil, FlowTable.del_nil] at hchanges
  exact hchanges

theorem changes_deleteService {id : Nat} {name : Text} {n : Network} {s : Service}
    (hn : sw.networks.lookup id = some n) (hs : n.services.lookup name = some s) :
    Changes env s.activeFlows s.activeFlows sw (sw.deleteService id name) := by
  have hflows (f : Flow) : f ∈ n.flows env ↔
      f ∈ ({ n with services := n.services.erase name } : Network).flows env ∨
        f ∈ s.activeFlows := by
    refine mem_flows_services (n := { n with services := n.services.erase name }) (fun f => ?_) f
    rw [Hash.mem_all_of_lookup hs, Hash.mem_all_erase]
    exact or_comm
  have hwanted (f : Flow) : f ∈ sw.wanted env ↔
      f ∈ (sw.modifyNetwork id fun n => { n with services := n.services.erase name }).wanted env ∨
        f ∈ s.activeFlows := by
    refine wanted_networks env (sw.modifyNetwork id fun n =>
      { n with services := n.services.erase name }) sw.networks (fun f => ?_) f
    show _ ↔ f ∈ (Hash.values (Hash.modify id _ sw.networks)).flatMap (Network.flows env) ∨ _
    rw [Hash.mem_all_modify hn, Hash.mem_all_of_lookup hn, hflows]
    tauto
  unfold Switch.deleteService
  rw [hn]
  dsimp only
  rw [hs]
  exact (Grows.refl _).changes_of_drop s.activeFlows hwanted (fun _ hf => hf) rfl

omit [Ofctl] [DecidableLE Match] in
theorem isVif_iff {number : Nat} : sw.isVif number = true ↔
    ∃ p, sw.ports.lookup number = some p ∧ p.info.name = .vif := by
  unfold Switch.isVif
  rw [Option.any_eq_true]
  simp only [beq_iff_eq]

variable (env) in
theorem step_changes (sw : Switch) (op : Op) :
    Changes env (deletes sw op) (drops sw op) sw (step env sw op) := by
  cases op with
  | featuresReply =>
    have hgrows : Grows env sw (step env sw .featuresReply) := by
      refine .of_grow [baseFlows env] rfl (fun f => ?_) fun f hf => .inl hf
      show f ∈ Switch.wanted env { sw with ready := true } ↔ _
      rw [mem_wanted, mem_wanted, List.flatten_singleton]
      tauto
    exact hgrows.changes
  | addPort info nic network =>
    show Changes env [] [] sw (ite _ sw _)
    split
    · exact (Grows.refl sw).changes
    · next hnew =>
      rw [Option.not_isSome_iff_eq_none] at hnew
      exact ((grows_newPort hnew).trans
        (grows_insertPort (AList.lookup_insert sw.ports) nic network)).changes
  | startInstance number nic =>
    show Changes env [] [] sw (ite _ _ sw)
    split
    · next hvif =>
      obtain ⟨p, hp, hvif⟩ := isVif_iff.mp hvif
      exact (grows_addInstance hp hvif nic).changes
    · exact (Grows.refl sw).changes
  | terminateInstance number =>
    show Changes env [] (ite _ _ []) sw (ite _ _ sw)
    by_cases hvif : sw.isVif number = true
    · rw [if_pos hvif]
      obtain ⟨p, hp, hname⟩ := isVif_iff.mp hvif
      rw [hp]
      by_cases hstarted : p.hasInstance = true
      · rw [if_pos ⟨hvif, hstarted⟩]
        exact changes_deleteInstance hp hname
      · rw [if_neg fun h => hstarted h.2]
        have hnone : p.flows = [] := if_pos ⟨hname, Bool.eq_false_iff.mpr hstarted⟩
        simp only [Option.elim_some, hnone]
        exact (Grows.refl sw).changes
    · rw [if_neg hvif, if_neg fun h => hvif h.1]
      exact (Grows.refl sw).changes
  | addService id map => exact (grows_addService id map).changes
  | deleteService id name =>
    show Changes env (Option.elim (Option.bind _ _) _ _) (Option.elim (Option.bind _ _) _ _) sw
      (sw.deleteService id name)
    cases hn : sw.networks.lookup id with
    | none =>
      unfold Switch.deleteService
      rw [hn]
      exact (Grows.refl sw).changes
    | some n =>
      simp only [Option.bind_some]
      cases hs : n.services.lookup name with
      | none =>
        unfold Switch.deleteService
        simp only [hn, hs]
        exact (Grows.refl sw).changes
      | some s => exact changes_deleteService hn hs
  | deletePort number =>
    show Changes env (Option.elim _ _ _) (Option.elim _ _ _) sw (sw.deletePort env number)
    cases hp : sw.ports.lookup number with
    | none =>
      unfold Switch.deletePort
      rw [hp]
      exact (Grows.refl sw).changes
    | some p => exact changes_deletePort hp

/-! ## Runs -/

omit [Ofctl] [DecidableLE Match] in
theorem Port.mem_activeFlows {p : Port} {f : Flow} (h : f ∈ p.flows) : f ∈ p.activeFlows := by
  unfold Port.flows at h
  split at h
  · cases h
  · exact List.mem_of_mem_drop h

omit [Ofctl] [DecidableLE Match] in
/-- What an event takes away it deletes, but for an instance. -/
theorem mem_drops {op : Op} {f : Flow} (h : f ∈ drops sw op) :
    f ∈ forgets sw op ∨ f ∈ deletes sw op := by
  cases op with
  | deletePort number =>
    right
    change f ∈ (sw.ports.lookup number).elim [] Port.flows at h
    show f ∈ (sw.ports.lookup number).elim [] Port.activeFlows
    cases hp : sw.ports.lookup number with
    | none =>
      rw [hp] at h
      cases h
    | some p =>
      rw [hp] at h
      exact Port.mem_activeFlows h
  | deleteService id name => exact .inr h
  | _ => exact .inl h

omit [DecidableLE Match] in
theorem leaves_iff {op : Op} {wanted : List Flow} :
    FlowTable.Leaves (drops sw op) (deletes sw op) wanted ↔
      ∃ f ∈ forgets sw op, ∀ g ∈ wanted, ¬ g.SamePlace f := by
  constructor
  · rintro ⟨f, hf, htaken, hplace⟩
    obtain hf | hf := mem_drops hf
    · exact ⟨f, hf, hplace⟩
    · exact absurd (.refl f) (htaken f hf)
  · rintro ⟨f, hf, hplace⟩
    cases op with
    | terminateInstance number => exact ⟨f, hf, fun d hd => (nomatch hd), hplace⟩
    | _ => cases hf

variable (env) in
/-- The flows that are wanted next can be read and do not clash, no deletion takes one of
them, and where a terminated instance has a flow another one stands. -/
structure Spares (sw : Switch) (op : Op) : Prop where
  reads : ∀ f ∈ (step env sw op).wanted env, Ofctl.reads f.pattern = true
  clash : ¬ FlowTable.Clash ((step env sw op).wanted env)
  sweeps : ¬ FlowTable.Sweeps (deletes sw op) ((step env sw op).wanted env)
  forgets : ∀ f ∈ forgets sw op, ∃ g ∈ (step env sw op).wanted env, g.SamePlace f

variable (env) in
/-- The table has the flows of what there is, and everything ever queued could be read. -/
structure Settled (sw : Switch) : Prop where
  unique : FlowTable.Unique sw.table
  holds : FlowTable.Holds sw.table (sw.wanted env)
  table : ∀ f ∈ sw.table, Ofctl.reads f.pattern = true
  queued : ∀ f ∈ sw.queued, Ofctl.reads f.pattern = true

variable (env) in
def Exact (sw : Switch) (op : Op) : Prop :=
  FlowTable.Holds (step env sw op).table ((step env sw op).wanted env)

/-! ### Flows that can be read -/

omit [DecidableLE Match] in
theorem reads_samePlace {f g : Flow} (h : f.SamePlace g) :
    Ofctl.reads f.pattern = Ofctl.reads g.pattern :=
  Ofctl.reads_congr h.2.2.1 h.2.2.2

/-- The calls do nothing else than one that adds everything, if all of it can be read. -/
theorem addCalls_of_reads {table : List Flow} {calls : List (List Flow)}
    (h : ∀ f ∈ calls.flatten, Ofctl.reads f.pattern = true) :
    addCalls table calls = FlowTable.addAll table calls.flatten := by
  induction calls generalizing table with
  | nil => rfl
  | cons fs calls ih =>
    rw [List.flatten_cons] at h ⊢
    have hfs : Ofctl.addFlow.read fs = fs :=
      Ofctl.addFlow.read_all fs fun f hf => h f (List.mem_append_left _ hf)
    show addCalls (FlowTable.addAll table (Ofctl.addFlow.read fs)) calls = _
    rw [hfs, ih fun f hf => h f (List.mem_append_right _ hf), FlowTable.addAll_append]

theorem reads_addCalls {table : List Flow} {calls : List (List Flow)}
    (h : ∀ f ∈ table, Ofctl.reads f.pattern = true) :
    ∀ f ∈ addCalls table calls, Ofctl.reads f.pattern = true := by
  induction calls generalizing table with
  | nil => exact h
  | cons fs calls ih =>
    apply ih
    intro f hf
    rcases FlowTable.mem_addAll.mp hf with hf | ⟨hf, -⟩
    · exact (Ofctl.addFlow.mem_read fs f (FlowTable.mem_of_mem_addAll hf)).2
    · exact h f hf

omit [DecidableLE Match] in
theorem reads_of_holds {table wanted : List Flow} (h : FlowTable.Holds table wanted)
    (ht : ∀ f ∈ table, Ofctl.reads f.pattern = true) :
    ∀ f ∈ wanted, Ofctl.reads f.pattern = true := by
  intro f hf
  obtain ⟨g, hg, hgf⟩ := h.present f hf
  rw [← reads_samePlace hgf.1]
  exact ht g hg

theorem reads_added {old fs dropped new : List Flow} (h : FlowTable.Turns old fs dropped new)
    (hnew : ∀ f ∈ new, Ofctl.reads f.pattern = true) :
    ∀ f ∈ fs, Ofctl.reads f.pattern = true := by
  intro f hf
  obtain ⟨g, hg, hgf⟩ := FlowTable.exists_mem_addAll hf
  rw [← reads_samePlace hgf]
  exact hnew g (h.added g hg)

omit [DecidableLE Match] in
theorem reads_deletes (h : Settled env sw) (op : Op) :
    ∀ f ∈ deletes sw op, Ofctl.reads f.pattern = true := by
  intro f hf
  cases op with
  | deletePort number =>
    change f ∈ (sw.ports.lookup number).elim [] Port.activeFlows at hf
    cases hp : sw.ports.lookup number with
    | none =>
      rw [hp] at hf
      cases hf
    | some p =>
      rw [hp] at hf
      exact h.queued f ((Hash.mem_all_of_lookup hp).mpr (.inl hf))
  | deleteService id name =>
    change f ∈ ((sw.networks.lookup id).bind fun n => n.services.lookup name).elim []
      Service.activeFlows at hf
    cases hs : (sw.networks.lookup id).bind fun n => n.services.lookup name with
    | none =>
      rw [hs] at hf
      cases hf
    | some s =>
      rw [hs] at hf
      obtain ⟨n, hn, hsn⟩ := Option.bind_eq_some_iff.mp hs
      apply reads_of_holds h.holds h.table
      have hflows : f ∈ n.flows env :=
        mem_flows.mpr (.inr ((Hash.mem_all_of_lookup hsn).mpr (.inl hf)))
      exact mem_wanted.mpr (.inr (.inr (.inl ((Hash.mem_all_of_lookup hn).mpr (.inl hflows)))))
  | _ => cases hf

/-- If everything wanted can be read, the table changes as the flows say. -/
theorem step_turns (h : Settled env sw) (op : Op)
    (hreads : ∀ f ∈ (step env sw op).wanted env, Ofctl.reads f.pattern = true) :
    ∃ fs, (step env sw op).table =
        FlowTable.del (FlowTable.addAll sw.table fs) (deletes sw op) ∧
      FlowTable.Turns (sw.wanted env) fs (drops sw op) ((step env sw op).wanted env) ∧
      ∀ f ∈ (step env sw op).queued, f ∈ sw.queued ∨ f ∈ fs := by
  obtain ⟨calls, ht, hfs, hq⟩ := step_changes env sw op
  refine ⟨calls.flatten, ?_, hfs, hq⟩
  rw [ht, addCalls_of_reads (reads_added hfs hreads),
    Ofctl.delFlows.read_all _ (reads_deletes h op)]

theorem reads_table_step (h : Settled env sw) (op : Op) :
    ∀ f ∈ (step env sw op).table, Ofctl.reads f.pattern = true := by
  obtain ⟨calls, ht, -, -⟩ := step_changes env sw op
  intro f hf
  rw [ht] at hf
  exact reads_addCalls h.table f (FlowTable.mem_del.mp hf).1

theorem step_holds_iff (h : Settled env sw) (op : Op) :
    Exact env sw op ↔ Spares env sw op := by
  have hiff (hreads : ∀ f ∈ (step env sw op).wanted env, Ofctl.reads f.pattern = true) :
      Exact env sw op ↔ ¬ FlowTable.Clash ((step env sw op).wanted env) ∧
        ¬ FlowTable.Sweeps (deletes sw op) ((step env sw op).wanted env) ∧
        ∀ f ∈ forgets sw op, ∃ g ∈ (step env sw op).wanted env, g.SamePlace f := by
    obtain ⟨fs, ht, hfs, -⟩ := step_turns h op hreads
    unfold Exact
    rw [ht, hfs.holds_iff h.holds h.unique, leaves_iff]
    push Not
    exact Iff.rfl
  constructor
  · intro he
    have hreads : ∀ f ∈ (step env sw op).wanted env, Ofctl.reads f.pattern = true :=
      reads_of_holds he (reads_table_step h op)
    obtain ⟨hclash, hsweeps, hforgets⟩ := (hiff hreads).mp he
    exact ⟨hreads, hclash, hsweeps, hforgets⟩
  · intro hs
    exact (hiff hs.reads).mpr ⟨hs.clash, hs.sweeps, hs.forgets⟩

theorem step_settled (h : Settled env sw) {op : Op} (hs : Spares env sw op) :
    Settled env (step env sw op) := by
  obtain ⟨fs, ht, hfs, hq⟩ := step_turns h op hs.reads
  refine ⟨?_, (step_holds_iff h op).mpr hs, reads_table_step h op, ?_⟩
  · rw [ht]
    exact h.unique.addAll.del
  · intro f hf
    rcases hq f hf with hf | hf
    · exact h.queued f hf
    · exact reads_added hfs hs.reads f hf

omit [DecidableLE Match] in
theorem settled_empty : Settled env .empty :=
  ⟨FlowTable.unique_nil, FlowTable.holds_nil, fun _ h => (nomatch h), fun _ h => (nomatch h)⟩

variable (env) in
/-- After every step of a run the table has the flows of what there is exactly if every step
spares them. -/
theorem table_holds_iff (ops : List Op) :
    Each (step env) (Exact env) .empty ops ↔ Each (step env) (Spares env) .empty ops :=
  (each_congr_of (Settled env) (fun _ _ h hs => step_settled h hs)
    (fun _ op h => (step_holds_iff h op).symm) settled_empty).symm

end

section

@[reducible] def tagOrder : Preorder Match where
  le m m' := m'.tags ⊆ m.tags
  le_refl m := List.Subset.refl m.tags
  le_trans _ _ _ h h' := List.Subset.trans h' h

@[reducible] def tagOrderDec : @DecidableLE Match tagOrder.toLE :=
  fun m m' => inferInstanceAs (Decidable (m'.tags ⊆ m.tags))

def OvsOfctl.reading (ovs : OvsOfctl) : Reading fun m => m.tags.all Tag.readable where
  read := ovs.installs
  read_all := ovs.installs_all
  mem_read := ovs.mem_installs

@[reducible] def OvsOfctl.ofTags (ovs : OvsOfctl) : Ofctl where
  toPreorder := tagOrder
  reads m := m.tags.all Tag.readable
  reads_congr {m m'} h h' := by
    rw [Bool.eq_iff_iff, List.all_eq_true, List.all_eq_true]
    exact ⟨fun hm t ht => hm t (h ht), fun hm t ht => hm t (h' ht)⟩
  addFlow := ovs.reading
  delFlows := ovs.reading

@[reducible] def wholeOfctl : Ofctl := OvsOfctl.whole.ofTags

attribute [local instance] wholeOfctl tagOrderDec

/-- A host without networks. -/
def bareEnv : Env := ⟨"02:00:00:00:00:01".toList, none, false, none, []⟩

def ethRun : List Op :=
  [.featuresReply, .addPort ⟨1, .eth, "02:00:00:00:00:02".toList⟩ none none, .deletePort 1]

def vnet : NetworkMap := ⟨5, true, true, [], none, [], none, none, "02:00:00:00:05:ff".toList⟩

def vnic : NicMap := ⟨vnet, some "10.0.0.2".toList, "02:00:00:00:05:02".toList, none, none, none⟩

def vifRun : List Op :=
  [.featuresReply, .addPort ⟨2, .vif, "02:00:00:00:05:02".toList⟩ (some vnic) none,
    .terminateInstance 2]

def pnet : NetworkMap :=
  ⟨6, false, true, [], none, "10.0.1.1".toList, none, none, "02:00:00:00:06:ff".toList⟩

def pnic : NicMap :=
  ⟨pnet, some "10.0.1.2".toList, "02:00:00:00:06:02".toList, none, none,
    some [[.transport 22 22 "sg-b".toList]]⟩

def groupRun : List Op := [.addPort ⟨3, .vif, "02:00:00:00:06:02".toList⟩ (some pnic) none]

/-- An eth port that is deleted takes flows of the switch with it, an instance that is
terminated leaves its own, and one whose group names a group never gets them. -/
theorem runs_not_exact :
    ¬ Each (step bareEnv) (Exact bareEnv) .empty ethRun ∧
      ¬ Each (step bareEnv) (Exact bareEnv) .empty vifRun ∧
      ¬ Each (step bareEnv) (Exact bareEnv) .empty groupRun := by
  refine ⟨?_, ?_, ?_⟩
  · rintro ⟨-, -, h, -⟩
    revert h
    unfold Exact
    decide +kernel
  · rintro ⟨-, -, h, -⟩
    revert h
    unfold Exact
    decide +kernel
  · rintro ⟨h, -⟩
    revert h
    unfold Exact
    decide +kernel

end

end OpenFlow

end WakameVdc
