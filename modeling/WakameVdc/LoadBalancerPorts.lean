import WakameVdc.LoadBalancer

/-!
# The ports of the two proxies

With a secure protocol stud accepts the connections of its port and hands them to haproxy
on another one. haproxy binds that port and the ports of all other inbounds.
-/

namespace WakameVdc

open Lib

namespace LoadBalancer

/-- `accept_ports` of `update_load_balancer_config`; a port that is `nil` is not bound. -/
def Config.bindPorts (c : Config) : List Text := c.ports ++ (c.securePort.map Text.ofInt).toList

/-! ## The configuration of the model -/

def Lb.ports (lb : Lb) : List Port := lb.inbounds.map Inbound.port

def Lb.protocols (lb : Lb) : List Text := lb.inbounds.map Inbound.protocol

def Lb.acceptSecurePort (lb : Lb) : Option Int :=
  (lb.inbounds.find? fun i => secureProtocols.contains i.protocol).map fun i =>
    if i.port = .num 4433 then 443 else 4433

def Lb.securePort (lb : Lb) : Option Port :=
  (lb.inbounds.find? fun i => secureProtocols.contains i.protocol).map Inbound.port

/-- `config`, which the event hook sends when an address of a target has changed. -/
def Lb.config (lb : Lb) (servers : List Server) : Config where
  instanceProtocol := lb.instanceProtocol
  instancePort := lb.instancePort
  ports := (lb.ports.filter fun p => lb.securePort != some p).map Port.toText
  protocols := lb.protocols
  securePort := lb.acceptSecurePort
  secureProtocol := secureProtocol lb.inbounds
  balanceAlgorithm := lb.balanceAlgorithm
  cookieName := lb.cookieName
  servers := servers
  httpchkPath := lb.httpchkPath

theorem config_eq (lb : Lb) (servers : List Server) :
    lb.config servers = configParams lb lb.inbounds servers := rfl

/-! ## Which ports are one -/

/-- How the text of a port is read: as it stands, or as the number it shows. -/
structure Reading (α : Type*) where
  read : Text → α
  injective : Function.Injective fun n => read (Text.ofInt n)

namespace Reading

def byText : Reading Text := ⟨id, Text.ofInt_injective⟩

def byNumber : Reading Int := ⟨Text.toI, fun n m he => by simpa [Text.toI_ofInt] using he⟩

variable {α : Type*} (rd : Reading α)

def port (p : Port) : α := rd.read p.toText

def Distinct (inbounds : List Inbound) : Prop := (inbounds.map fun i => rd.port i.port).Nodup

/-- haproxy binds each port once, leaves the one of stud alone, and misses no other port. -/
structure Binds (inbounds : List Inbound) (bound : List Text) : Prop where
  once : (bound.map rd.read).Nodup
  accept : ∀ p, acceptPort inbounds = some p → rd.port p ∉ bound.map rd.read
  others : ∀ i ∈ inbounds, (∀ p, acceptPort inbounds = some p → rd.port i.port ≠ rd.port p) →
    rd.port i.port ∈ bound.map rd.read
  connect : ∀ n, connectPort inbounds = some n → rd.read (Text.ofInt n) ∈ bound.map rd.read

/-- No inbound has the port stud hands its connections to. -/
def Free (inbounds : List Inbound) : Prop :=
  ∀ i, secureInbound inbounds = some i → ∀ j ∈ inbounds,
    if i.port = .num 4433 then rd.port j.port ≠ rd.read (Text.ofInt 443)
    else rd.port j.port ≠ rd.read (Text.ofInt 4433)

variable {rd} {inbounds : List Inbound} {lb : Lb} {servers : List Server}

theorem Distinct.ports (h : rd.Distinct inbounds) : (inbounds.map Inbound.port).Nodup := by
  unfold Distinct at h
  rw [← Function.comp_def rd.port Inbound.port, ← List.map_map] at h
  exact h.of_map _

theorem Distinct.eq_of_port (h : rd.Distinct inbounds) {i j : Inbound} (hi : i ∈ inbounds)
    (hj : j ∈ inbounds) (he : rd.port i.port = rd.port j.port) : i = j :=
  List.inj_on_of_nodup_map h hi hj he

variable (rd lb servers) in
theorem bindPorts_of_plain (hs : secureInbound inbounds = none) :
    (configParams lb inbounds servers).bindPorts.map rd.read =
      inbounds.map fun i => rd.port i.port := by
  have hf : (inbounds.map Inbound.port).filter (fun p => (none : Option Port) != some p) =
      inbounds.map Inbound.port := List.filter_eq_self.mpr fun _ _ => rfl
  simp only [Config.bindPorts, configParams, acceptPort, connectPort, hs, Option.map_none,
    Option.toList_none, List.append_nil, hf, List.map_map]
  rfl

variable (lb servers) in
theorem bindPorts_of_secure {i : Inbound} (hs : secureInbound inbounds = some i)
    (h : rd.Distinct inbounds) :
    (configParams lb inbounds servers).bindPorts.map rd.read =
      ((inbounds.erase i).map fun j => rd.port j.port) ++
        [rd.read (Text.ofInt (if i.port = .num 4433 then 443 else 4433))] := by
  have hi : i ∈ inbounds := List.mem_of_find?_eq_some hs
  have hf : (inbounds.map Inbound.port).filter (fun p => some i.port != some p) =
      (inbounds.erase i).map Inbound.port := by
    have hnd : inbounds.Nodup := h.of_map _
    rw [List.filter_map, hnd.erase_eq_filter]
    congr 1
    refine List.filter_congr fun j hj => ?_
    rw [Function.comp, Bool.eq_iff_iff, bne_iff_ne, bne_iff_ne, ne_eq, Option.some.injEq, not_iff_not]
    constructor
    · intro he
      exact h.eq_of_port hj hi (by rw [he])
    · intro he
      rw [he]
  simp only [Config.bindPorts, configParams, acceptPort, connectPort, hs, Option.map_some,
    Option.toList_some, hf, List.map_append, List.map_map, List.map_cons, List.map_nil]
  rfl

/-- The port stud hands its connections to, next to the first secure inbound. -/
theorem binds_secure_iff {i : Inbound} (hs : secureInbound inbounds = some i)
    (h : rd.Distinct inbounds) :
    rd.Binds inbounds (configParams lb inbounds servers).bindPorts ↔
      ∀ j ∈ inbounds,
        rd.port j.port ≠ rd.read (Text.ofInt (if i.port = .num 4433 then 443 else 4433)) := by
  have hi : i ∈ inbounds := List.mem_of_find?_eq_some hs
  have ha : acceptPort inbounds = some i.port := by rw [acceptPort, hs, Option.map_some]
  have hb := bindPorts_of_secure lb servers hs h
  have hnd : inbounds.Nodup := h.of_map _
  have hmem : ∀ j, j ∈ inbounds.erase i ↔ j ≠ i ∧ j ∈ inbounds := fun j => hnd.mem_erase_iff
  constructor
  · intro hbinds j hj he
    by_cases hji : j = i
    · -- stud would accept on the port it connects to
      refine hbinds.accept i.port ha ?_
      rw [hb, List.mem_append, List.mem_singleton, ← he, hji]
      exact .inr rfl
    · have honce := hbinds.once
      rw [hb, List.nodup_append] at honce
      exact honce.2.2 _ (List.mem_map_of_mem ((hmem j).mpr ⟨hji, hj⟩)) _
        (List.mem_singleton_self _) he
  · intro hfree
    refine ⟨?_, ?_, ?_, ?_⟩
    · rw [hb, List.nodup_append]
      refine ⟨h.sublist (List.erase_sublist.map _), List.nodup_singleton _, ?_⟩
      intro x hx y hy he
      obtain ⟨j, hj, rfl⟩ := List.mem_map.mp hx
      rw [List.mem_singleton.mp hy] at he
      exact hfree j ((hmem j).mp hj).2 he
    · intro p hp hmemp
      cases ha.symm.trans hp
      rw [hb, List.mem_append, List.mem_map, List.mem_singleton] at hmemp
      rcases hmemp with ⟨j, hj, he⟩ | he
      · exact ((hmem j).mp hj).1 (h.eq_of_port ((hmem j).mp hj).2 hi he)
      · exact hfree i hi he
    · intro j hj hne
      rw [hb, List.mem_append]
      refine .inl (List.mem_map_of_mem ((hmem j).mpr ⟨?_, hj⟩))
      intro he
      exact hne i.port ha (by rw [he])
    · intro n hn
      rw [connectPort, hs, Option.map_some, Option.some.injEq] at hn
      rw [hb, List.mem_append, hn]
      exact .inr (List.mem_singleton_self _)

theorem binds_plain (hs : secureInbound inbounds = none) (h : rd.Distinct inbounds) :
    rd.Binds inbounds (configParams lb inbounds servers).bindPorts := by
  have hb := bindPorts_of_plain rd lb servers hs
  refine ⟨?_, ?_, ?_, ?_⟩
  · rw [hb]
    exact h
  · intro p hp
    rw [acceptPort, hs] at hp
    cases hp
  · intro i hi _
    rw [hb]
    exact List.mem_map_of_mem hi
  · intro n hn
    rw [connectPort, hs] at hn
    cases hn

/-- haproxy and stud share the ports out just when no inbound has the port between them,
which is 4433, or 443 next to a secure inbound with the number 4433. -/
theorem binds_iff (rd : Reading α) (lb : Lb) (inbounds : List Inbound) (servers : List Server)
    (h : rd.Distinct inbounds) :
    (rd.Binds inbounds (configParams lb inbounds servers).bindPorts ↔ rd.Free inbounds) ∧
      (lb.inbounds = inbounds →
        (rd.Binds inbounds (lb.config servers).bindPorts ↔ rd.Free inbounds)) := by
  have hiff : rd.Binds inbounds (configParams lb inbounds servers).bindPorts ↔ rd.Free inbounds := by
    cases hs : secureInbound inbounds with
    | none =>
      refine iff_of_true (binds_plain hs h) fun i hi => ?_
      rw [hs] at hi
      cases hi
    | some i =>
      rw [binds_secure_iff hs h]
      unfold Free
      rw [hs]
      constructor
      · intro hfree i' hi' j hj
        cases hi'
        have hne := hfree j hj
        split_ifs at hne ⊢
        · exact hne
        · exact hne
      · intro hfree j hj
        have hne := hfree i rfl j hj
        split_ifs at hne ⊢
        · exact hne
        · exact hne
  refine ⟨hiff, ?_⟩
  rintro rfl
  rw [config_eq]
  exact hiff

end Reading

/-! ## Inbounds on the port in between -/

def httpsOn (port : Port) : Inbound := ⟨"https".toList, port⟩

def httpOn (port : Port) : Inbound := ⟨"http".toList, port⟩

def emptyLb : Lb where
  instanceProtocol := "http".toList
  instancePort := 80
  balanceAlgorithm := "leastconn".toList
  cookieName := none
  httpchkPath := none
  inboundRows := []
  targets := []

theorem binds_https_and_http :
    Reading.byNumber.Binds [httpsOn (.text "443".toList), httpOn (.text "80".toList)]
      (configParams emptyLb [httpsOn (.text "443".toList), httpOn (.text "80".toList)] []).bindPorts := by
  refine (Reading.binds_iff Reading.byNumber emptyLb _ [] (by unfold Reading.Distinct; decide)).1.mpr ?_
  rintro i hi j hj
  obtain rfl : httpsOn (.text "443".toList) = i := Option.some.inj hi
  revert j
  decide

/-- An http inbound on 4433 is bound a second time for stud, and a request for https on 4433
makes stud accept on the port that haproxy binds. -/
theorem port_bound_twice :
    ¬ Reading.byText.Binds [httpsOn (.num 443), httpOn (.num 4433)]
        (configParams emptyLb [httpsOn (.num 443), httpOn (.num 4433)] []).bindPorts ∧
      ¬ Reading.byText.Binds [httpsOn (.text "4433".toList)]
        (configParams emptyLb [httpsOn (.text "4433".toList)] []).bindPorts := by
  constructor
  · intro h
    exact absurd h.once (by decide)
  · intro h
    exact h.accept (.text "4433".toList) rfl (by decide)

end LoadBalancer

end WakameVdc
