import WakameVdc.Lib.Hash
import WakameVdc.Lib.Run
import WakameVdc.Lib.Text

/-!
# Services of an OpenFlow network

`add_service` registers a service with its network, with the ARP and ICMP handlers
and among the packet handlers; `delete_service` takes it from the network alone.
What a network should have registered is told by the services present.
-/

namespace WakameVdc

open Lib

namespace OpenFlowNetwork

/-- `service_map[:address]`, read by `IPAddr.new`. -/
inductive Address
  | absent
  | ip (ip : Text)
  | malformed
  deriving DecidableEq, Repr

structure ServiceMap where
  name : Text
  macAddr : Option Text
  address : Address
  instanceUuid : Option Text
  deriving DecidableEq, Repr

inductive Kind
  | dhcp | dns | gateway | externalIp | metadata
  deriving DecidableEq, Repr

namespace Kind

def name : Kind → Text
  | .dhcp => "dhcp".toList
  | .dns => "dns".toList
  | .gateway => "gateway".toList
  | .externalIp => "external-ip".toList
  | .metadata => "metadata".toList

/-- The key `add_service` stores it under. -/
def symbol : Kind → Text
  | .externalIp => "external_ip".toList
  | k => k.name

def all : List Kind := [.dhcp, .dns, .gateway, .externalIp, .metadata]

def ofName (t : Text) : Option Kind := all.find? (·.name = t)

def ofSymbol (t : Text) : Option Kind := all.find? (·.symbol = t)

theorem ofName_eq_some {t : Text} {k : Kind} : ofName t = some k ↔ k.name = t := by
  constructor
  · intro h
    exact of_decide_eq_true (List.find?_some (p := fun k : Kind => decide (k.name = t)) h)
  · rintro rfl
    cases k <;> decide

theorem ofSymbol_eq_some {t : Text} {k : Kind} : ofSymbol t = some k ↔ k.symbol = t := by
  constructor
  · intro h
    exact of_decide_eq_true (List.find?_some (p := fun k : Kind => decide (k.symbol = t)) h)
  · rintro rfl
    cases k <;> decide

theorem ofSymbol_symbol (k : Kind) : ofSymbol k.symbol = some k := ofSymbol_eq_some.mpr rfl

theorem symbol_of_ne {k : Kind} (h : k ≠ .externalIp) : k.symbol = k.name := by
  cases k with
  | externalIp => exact absurd rfl h
  | _ => rfl

theorem symbol_ne_externalIp (k : Kind) : k.symbol ≠ Kind.externalIp.name := by
  cases k <;> decide

theorem eq_of_name_eq_symbol {k l : Kind} (h : l.name = k.symbol) : l = k := by
  cases k <;> cases l <;> first | rfl | exact absurd h (by decide)

end Kind

/-- A service object; `call` tells the objects apart. -/
structure Service where
  kind : Kind
  call : Nat
  mac : Option Text
  ip : Option Text
  deriving DecidableEq, Repr

/-- An entry of the ARP or ICMP handler; `owner` is the object it was added for. -/
structure Entry where
  mac : Text
  owner : Nat
  deriving DecidableEq, Repr

/-- A packet handler: of the ARP and the ICMP handler, and of a service object. -/
inductive Handler
  | arp
  | icmp
  | dhcp (service : Nat)
  | metadata (service : Nat)
  deriving DecidableEq, Repr

structure Network where
  virtual : Bool
  services : Hash Text Service
  arp : Hash Text Entry
  icmp : Hash Text Entry
  packetHandlers : List Handler
  calls : Nat

def Network.create (virtual : Bool) : Network := ⟨virtual, ∅, ∅, ∅, [.arp, .icmp], 0⟩

/-- A call, with the `bridge_ipv4` of its switch. -/
inductive Call
  | add (bridgeIpv4 : Option Text) (map : ServiceMap)
  | delete (map : ServiceMap)
  deriving DecidableEq, Repr

/-- `ArpHandler#add` and `IcmpHandler#add` -/
def addEntry (mac ip : Text) (owner : Nat) (entries : Hash Text Entry) : Hash Text Entry :=
  if (entries.lookup ip).isSome then entries else entries.insert ip ⟨mac, owner⟩

namespace Address

def ip? : Address → Option Text
  | .ip t => some t
  | _ => none

end Address

namespace Service

/-- The packet handlers `install` adds. -/
def installs (s : Service) (bridgeIpv4 : Option Text) : List Handler :=
  match s.kind with
  | .dhcp => [.dhcp s.call]
  | .metadata => if some (s.ip.getD []) = bridgeIpv4 then [.metadata s.call] else []
  | _ => []

def tableEntry (s : Service) (virtual : Bool) (instanceUuid : Option Text) :
    Option (Text × Entry) :=
  match s.ip, s.mac with
  | some ip, some mac =>
    if virtual && instanceUuid.isNone then some (ip, ⟨mac, s.call⟩) else none
  | _, _ => none

end Service

namespace Network

def register (n : Network) (bridgeIpv4 : Option Text) (map : ServiceMap) (kind : Kind) : Network :=
  let service : Service := ⟨kind, n.calls, map.macAddr, map.address.ip?⟩
  let n := { n with
    services := n.services.insert kind.symbol service
    packetHandlers := n.packetHandlers ++ service.installs bridgeIpv4 }
  match service.tableEntry n.virtual map.instanceUuid with
  | none => n
  | some (ip, e) =>
    { n with
      arp := addEntry e.mac ip e.owner n.arp
      icmp := addEntry e.mac ip e.owner n.icmp }

def addService (n : Network) (bridgeIpv4 : Option Text) (map : ServiceMap) : Network :=
  if (n.services.lookup map.name).isSome then n
  else if map.address = .malformed then n
  else match Kind.ofName map.name with
    | none => n
    | some kind => n.register bridgeIpv4 map kind

/-- `uninstall` removes flows only. -/
def deleteService (n : Network) (map : ServiceMap) : Network :=
  { n with services := n.services.erase map.name }

def perform (n : Network) : Call → Network
  | .add bridgeIpv4 map => { n.addService bridgeIpv4 map with calls := n.calls + 1 }
  | .delete map => { n.deleteService map with calls := n.calls + 1 }

end Network

/-! ## The services present -/

/-- An `add_service` call that took effect. -/
structure Added where
  call : Nat
  bridgeIpv4 : Option Text
  map : ServiceMap
  deriving DecidableEq, Repr

/-- The services added and not deleted since, one for a name. -/
abbrev Present := Kind → Option Added

namespace Added

def service (a : Added) (kind : Kind) : Service := ⟨kind, a.call, a.map.macAddr, a.map.address.ip?⟩

def handlers (a : Added) (kind : Kind) : List Handler := (a.service kind).installs a.bridgeIpv4

def tableEntry (a : Added) (kind : Kind) (virtual : Bool) : Option (Text × Entry) :=
  (a.service kind).tableEntry virtual a.map.instanceUuid

end Added

namespace Present

def perform (p : Present) (call : Nat) : Call → Present
  | .add bridgeIpv4 map =>
    match Kind.ofName map.name with
    | none => p
    | some kind =>
      if map.address = .malformed ∨ (p kind).isSome then p
      else Function.update p kind (some ⟨call, bridgeIpv4, map⟩)
  | .delete map =>
    match Kind.ofName map.name with
    | none => p
    | some kind => Function.update p kind none

def handlers (p : Present) : List Handler :=
  Kind.all.flatMap fun k => match p k with
    | none => []
    | some a => a.handlers k

end Present

/-- The entries are those of the services present: every address of theirs is
answered for, and every answer is one of theirs. -/
structure EntriesOf (virtual : Bool) (p : Present) (entries : Hash Text Entry) : Prop where
  answered : ∀ k a, p k = some a → ∀ ip e, a.tableEntry k virtual = some (ip, e) →
    (entries.lookup ip).isSome
  owned : ∀ ip e, entries.lookup ip = some e →
    ∃ k a, p k = some a ∧ a.tableEntry k virtual = some (ip, e)

/-- What is registered is that of the services present. -/
structure Exact (n : Network) (p : Present) : Prop where
  services : ∀ key, n.services.lookup key =
    (Kind.ofSymbol key).bind fun k => (p k).map fun a => a.service k
  arp : EntriesOf n.virtual p n.arp
  icmp : EntriesOf n.virtual p n.icmp
  handlers : n.packetHandlers.Perm ([.arp, .icmp] ++ p.handlers)

structure Calls (n : Network) (p : Present) : Prop where
  lt : ∀ k a, p k = some a → a.call < n.calls
  unique : ∀ k l a b, p k = some a → p l = some b → a.call = b.call → k = l

/-! ## The entries -/

section
variable {virtual : Bool} {p : Present} {entries : Hash Text Entry} {k : Kind} {a : Added}

theorem Added.tableEntry_owner {ip : Text} {e : Entry} (h : a.tableEntry k virtual = some (ip, e)) :
    e.owner = a.call := by
  unfold Added.tableEntry Service.tableEntry at h
  split at h
  · split at h
    · cases h
      rfl
    · cases h
  · cases h

theorem EntriesOf.owned_update (h : EntriesOf virtual p entries) (hk : p k = none)
    (o : Option Added) {ip : Text} {e : Entry} (he : entries.lookup ip = some e) :
    ∃ l b, Function.update p k o l = some b ∧ b.tableEntry l virtual = some (ip, e) := by
  obtain ⟨l, b, hl, hb⟩ := h.owned ip e he
  have hne : l ≠ k := by
    rintro rfl
    rw [hk] at hl
    cases hl
  exact ⟨l, b, by rw [Function.update_of_ne hne, hl], hb⟩

theorem EntriesOf.add_none (h : EntriesOf virtual p entries) (hk : p k = none)
    (ha : a.tableEntry k virtual = none) :
    EntriesOf virtual (Function.update p k (some a)) entries where
  answered l b hl ip e hb := by
    by_cases hlk : l = k
    · subst hlk
      rw [Function.update_self] at hl
      cases hl
      rw [ha] at hb
      cases hb
    · rw [Function.update_of_ne hlk] at hl
      exact h.answered l b hl ip e hb
  owned _ _ he := h.owned_update hk _ he

theorem EntriesOf.add_some (h : EntriesOf virtual p entries) (hk : p k = none) {ip : Text}
    {e : Entry} (ha : a.tableEntry k virtual = some (ip, e)) :
    EntriesOf virtual (Function.update p k (some a)) (addEntry e.mac ip e.owner entries) := by
  have hkeep : ∀ ip', (entries.lookup ip').isSome = true →
      ((addEntry e.mac ip e.owner entries).lookup ip').isSome = true := by
    intro ip' h'
    unfold addEntry
    split
    · exact h'
    · exact (Hash.isSome_lookup_insert ..).mpr (.inl h')
  constructor
  · intro l b hl ip' e' hb
    by_cases hlk : l = k
    · subst hlk
      rw [Function.update_self] at hl
      cases hl
      rw [ha] at hb
      cases hb
      unfold addEntry
      split
      · assumption
      · exact (Hash.isSome_lookup_insert ..).mpr (.inr rfl)
    · rw [Function.update_of_ne hlk] at hl
      exact hkeep ip' (h.answered l b hl ip' e' hb)
  · intro ip' e' he
    unfold addEntry at he
    split at he
    · exact h.owned_update hk _ he
    · rw [Hash.lookup_insert] at he
      split at he
      · rename_i hip
        cases he
        exact ⟨k, a, Function.update_self .., hip ▸ ha⟩
      · exact h.owned_update hk _ he

/-- A deleted service leaves the entries right if it owns none of them. -/
theorem EntriesOf.delete_iff (h : EntriesOf virtual p entries) (hk : p k = some a)
    (hu : ∀ l b, p l = some b → a.call = b.call → k = l) :
    EntriesOf virtual (Function.update p k none) entries ↔
      ∀ ip e, entries.lookup ip = some e → e.owner ≠ a.call := by
  constructor
  · intro h' ip e he ho
    obtain ⟨l, b, hl, hb⟩ := h'.owned ip e he
    by_cases hlk : l = k
    · rw [hlk, Function.update_self] at hl
      cases hl
    · rw [Function.update_of_ne hlk] at hl
      exact hlk (hu l b hl (ho.symm.trans (Added.tableEntry_owner hb))).symm
  · intro ho
    constructor
    · intro l b hl ip e hb
      by_cases hlk : l = k
      · rw [hlk, Function.update_self] at hl
        cases hl
      · rw [Function.update_of_ne hlk] at hl
        exact h.answered l b hl ip e hb
    · intro ip e he
      obtain ⟨l, b, hl, hb⟩ := h.owned ip e he
      by_cases hlk : l = k
      · subst hlk
        rw [hk] at hl
        cases hl
        exact absurd (Added.tableEntry_owner hb) (ho ip e he)
      · exact ⟨l, b, by rw [Function.update_of_ne hlk, hl], hb⟩

/-! ## The packet handlers -/

theorem Present.handlers_add (hk : p k = none) :
    (Present.handlers (Function.update p k (some a))).Perm (p.handlers ++ a.handlers k) := by
  rw [List.perm_iff_count]
  intro h
  cases k <;>
  · simp only [Present.handlers, Kind.all, List.flatMap_cons, List.flatMap_nil, List.append_nil,
      List.count_append, Function.update_self, ne_eq, reduceCtorEq, not_false_eq_true,
      Function.update_of_ne, hk, List.count_nil]
    omega

theorem Present.handlers_delete (hk : p k = some a) :
    p.handlers.Perm (Present.handlers (Function.update p k none) ++ a.handlers k) := by
  have h := Present.handlers_add (p := Function.update p k none) (k := k) (a := a)
    (Function.update_self ..)
  rwa [Function.update_idem, ← hk, Function.update_eq_self] at h

end

/-! ## One call -/

section
variable {n : Network} {p : Present} {k : Kind} {a : Added} {map : ServiceMap}
  {bridgeIpv4 : Option Text}

def Network.OwnsNothing (n : Network) (call : Nat) : Prop :=
  (∀ ip e, n.arp.lookup ip = some e → e.owner ≠ call) ∧
  (∀ ip e, n.icmp.lookup ip = some e → e.owner ≠ call)

/-- A call the registrations follow: the service `external-ip`, stored under another
key than its name, is neither added twice nor deleted, and a deleted service has no
entry and no packet handler. -/
def Call.Fits (n : Network) (p : Present) : Call → Prop
  | .add _ map =>
    map.name = Kind.externalIp.name → map.address ≠ .malformed → p .externalIp = none
  | .delete map =>
    (map.name = Kind.externalIp.name ∨ map.name = Kind.externalIp.symbol → p .externalIp = none) ∧
    ∀ k a, k ≠ .externalIp → k.name = map.name → p k = some a →
      a.handlers k = [] ∧ n.OwnsNothing a.call

theorem Exact.services_update (h : Exact n p) {services : Hash Text Service} {o : Option Added}
    (hk : services.lookup k.symbol = o.map fun a => a.service k)
    (hne : ∀ key ≠ k.symbol, services.lookup key = n.services.lookup key) (key : Text) :
    services.lookup key =
      (Kind.ofSymbol key).bind fun l => (Function.update p k o l).map fun b => b.service l := by
  by_cases hkey : key = k.symbol
  · rw [hkey, hk, Kind.ofSymbol_symbol, Option.bind_some, Function.update_self]
  · rw [hne key hkey, h.services]
    cases hl : Kind.ofSymbol key with
    | none => rfl
    | some l =>
      have hlk : l ≠ k := by
        rintro rfl
        exact hkey (Kind.ofSymbol_eq_some.mp hl).symm
      rw [Option.bind_some, Option.bind_some, Function.update_of_ne hlk]

theorem Exact.lookup_symbol (h : Exact n p) (k : Kind) :
    n.services.lookup k.symbol = (p k).map fun a => a.service k := by
  rw [h.services, Kind.ofSymbol_symbol, Option.bind_some]

theorem Exact.present_of_lookup (h : Exact n p) {key : Text} (hs : (n.services.lookup key).isSome) :
    ∃ k a, k.symbol = key ∧ p k = some a := by
  rw [h.services] at hs
  cases hk : Kind.ofSymbol key with
  | none =>
    rw [hk] at hs
    cases hs
  | some k =>
    cases hp : p k with
    | none =>
      rw [hk, Option.bind_some, hp] at hs
      cases hs
    | some a => exact ⟨k, a, Kind.ofSymbol_eq_some.mp hk, hp⟩

theorem Network.register_none
    (he : (Service.mk k n.calls map.macAddr map.address.ip?).tableEntry n.virtual map.instanceUuid =
      none) :
    n.register bridgeIpv4 map k =
      { n with
        services := n.services.insert k.symbol ⟨k, n.calls, map.macAddr, map.address.ip?⟩
        packetHandlers := n.packetHandlers ++
          (Service.mk k n.calls map.macAddr map.address.ip?).installs bridgeIpv4 } := by
  simp only [Network.register, he]

theorem Network.register_some {ip : Text} {e : Entry}
    (he : (Service.mk k n.calls map.macAddr map.address.ip?).tableEntry n.virtual map.instanceUuid =
      some (ip, e)) :
    n.register bridgeIpv4 map k =
      { n with
        services := n.services.insert k.symbol ⟨k, n.calls, map.macAddr, map.address.ip?⟩
        packetHandlers := n.packetHandlers ++
          (Service.mk k n.calls map.macAddr map.address.ip?).installs bridgeIpv4
        arp := addEntry e.mac ip e.owner n.arp
        icmp := addEntry e.mac ip e.owner n.icmp } := by
  simp only [Network.register, he]

theorem Network.register_services : (n.register bridgeIpv4 map k).services =
    n.services.insert k.symbol ⟨k, n.calls, map.macAddr, map.address.ip?⟩ := by
  cases he : (Service.mk k n.calls map.macAddr map.address.ip?).tableEntry n.virtual
      map.instanceUuid with
  | none => rw [Network.register_none he]
  | some x => rw [Network.register_some he]

theorem exact_register (h : Exact n p) (hk : p k = none) (bridgeIpv4 : Option Text)
    (map : ServiceMap) :
    Exact (n.register bridgeIpv4 map k)
      (Function.update p k (some ⟨n.calls, bridgeIpv4, map⟩)) := by
  let a : Added := ⟨n.calls, bridgeIpv4, map⟩
  have hstored : (n.services.insert k.symbol (a.service k)).lookup k.symbol =
      (some a).map fun a => a.service k := by
    rw [Hash.lookup_insert, if_pos rfl]
    rfl
  have hservices := h.services_update hstored fun key hkey => by
    rw [Hash.lookup_insert, if_neg hkey]
  have hhandlers : (n.packetHandlers ++ a.handlers k).Perm
      ([.arp, .icmp] ++ Present.handlers (Function.update p k (some a))) := by
    have := (h.handlers.append_right (a.handlers k))
    rw [List.append_assoc] at this
    exact this.trans ((Present.handlers_add hk).symm.append_left _)
  cases he : (a.service k).tableEntry n.virtual map.instanceUuid with
  | none =>
    rw [Network.register_none he]
    exact ⟨hservices, h.arp.add_none hk he, h.icmp.add_none hk he, hhandlers⟩
  | some x =>
    rw [Network.register_some he]
    exact ⟨hservices, h.arp.add_some hk he, h.icmp.add_some hk he, hhandlers⟩

/-- Called for a name that is present, `register` leaves another object under it. -/
theorem not_exact_register (hc : Calls n p) (hk : p k = some a) (bridgeIpv4 : Option Text)
    (map : ServiceMap) : ¬ Exact (n.register bridgeIpv4 map k) p := by
  intro h
  have hl := h.lookup_symbol k
  rw [Network.register_services, Hash.lookup_insert, if_pos rfl, hk, Option.map_some] at hl
  have hcall : n.calls = a.call := congrArg Service.call (Option.some.inj hl)
  exact absurd hcall (Nat.ne_of_gt (hc.lt k a hk))

theorem Present.perform_add_of_some {call : Nat} (hk : Kind.ofName map.name = some k) :
    p.perform call (.add bridgeIpv4 map) =
      if map.address = .malformed ∨ (p k).isSome then p
      else Function.update p k (some ⟨call, bridgeIpv4, map⟩) := by
  simp only [Present.perform, hk]

theorem Present.perform_add_of_none {call : Nat} (hk : Kind.ofName map.name = none) :
    p.perform call (.add bridgeIpv4 map) = p := by
  simp only [Present.perform, hk]

theorem Present.perform_delete_of_some {call : Nat} (hk : Kind.ofName map.name = some k) :
    p.perform call (.delete map) = Function.update p k none := by
  simp only [Present.perform, hk]

theorem Present.perform_delete_of_none {call : Nat} (hk : Kind.ofName map.name = none) :
    p.perform call (.delete map) = p := by
  simp only [Present.perform, hk]

theorem Present.perform_add_malformed {call : Nat} (hm : map.address = .malformed) :
    p.perform call (.add bridgeIpv4 map) = p := by
  cases hl : Kind.ofName map.name with
  | none => exact Present.perform_add_of_none hl
  | some l => rw [Present.perform_add_of_some hl, if_pos (.inl hm)]

theorem Present.perform_add_present {call : Nat} (hk : p k = some a) (hname : k.symbol = map.name) :
    p.perform call (.add bridgeIpv4 map) = p := by
  cases hl : Kind.ofName map.name with
  | none => exact Present.perform_add_of_none hl
  | some l =>
    have hlk := Kind.eq_of_name_eq_symbol ((Kind.ofName_eq_some.mp hl).trans hname.symm)
    rw [Present.perform_add_of_some hl, hlk, hk, if_pos (.inr rfl)]

theorem exact_add_iff (h : Exact n p) (hc : Calls n p) (bridgeIpv4 : Option Text)
    (map : ServiceMap) :
    Exact (n.addService bridgeIpv4 map) (p.perform n.calls (.add bridgeIpv4 map)) ↔
      Call.Fits n p (.add bridgeIpv4 map) := by
  by_cases hs : (n.services.lookup map.name).isSome
  · obtain ⟨k, a, hname, hk⟩ := h.present_of_lookup hs
    rw [Network.addService, if_pos hs, Present.perform_add_present hk hname]
    constructor
    · intro _ he
      exact absurd (hname.trans he) (Kind.symbol_ne_externalIp k)
    · intro _
      exact h
  · rw [Network.addService, if_neg hs]
    by_cases hm : map.address = .malformed
    · rw [if_pos hm, Present.perform_add_malformed hm]
      exact ⟨fun _ _ hm' => absurd hm hm', fun _ => h⟩
    · rw [if_neg hm]
      cases hl : Kind.ofName map.name with
      | none =>
        rw [Present.perform_add_of_none hl]
        constructor
        · intro _ he
          rw [Kind.ofName_eq_some.mpr he.symm] at hl
          cases hl
        · intro _
          exact h
      | some k =>
        rw [Present.perform_add_of_some hl]
        cases hk : p k with
        | none =>
          rw [if_neg (by simp [hm])]
          constructor
          · intro _ he _
            rw [Kind.ofName_eq_some.mpr he.symm] at hl
            cases hl
            exact hk
          · intro _
            exact exact_register h hk bridgeIpv4 map
        | some a =>
          -- The lookup missed a service present: its key is not its name.
          have hke : k = .externalIp := by
            by_contra hne
            rw [← Kind.ofName_eq_some.mp hl, ← Kind.symbol_of_ne hne, h.lookup_symbol, hk] at hs
            exact hs rfl
          subst hke
          rw [if_pos (.inr rfl)]
          constructor
          · intro h'
            exact absurd h' (not_exact_register hc hk bridgeIpv4 map)
          · intro hf
            have hnone := hf (Kind.ofName_eq_some.mp hl).symm hm
            rw [hk] at hnone
            cases hnone

theorem exact_delete_of_absent (h : Exact n p) (hl : n.services.lookup map.name = none) :
    Exact (n.deleteService map) p where
  services key := by
    change (n.services.erase map.name).lookup key = _
    rw [Hash.lookup_erase]
    split
    · rename_i hkey
      rw [← h.services, hkey, hl]
    · exact h.services key
  arp := h.arp
  icmp := h.icmp
  handlers := h.handlers

/-- A service whose key is its name leaves the services; what else is exact is
what it never registered. -/
theorem exact_delete_present (h : Exact n p) (hc : Calls n p) (hk : p k = some a)
    (hsymbol : k.symbol = map.name) :
    Exact (n.deleteService map) (Function.update p k none) ↔
      a.handlers k = [] ∧ n.OwnsNothing a.call := by
  have hu : ∀ l b, p l = some b → a.call = b.call → k = l := fun l b hl he =>
    hc.unique k l a b hk hl he
  have hp := h.handlers.trans ((Present.handlers_delete hk).append_left _)
  rw [← List.append_assoc] at hp
  constructor
  · intro h'
    refine ⟨?_, (h.arp.delete_iff hk hu).mp h'.arp, (h.icmp.delete_iff hk hu).mp h'.icmp⟩
    have hlen := hp.length_eq.symm.trans h'.handlers.length_eq
    rw [List.length_append] at hlen
    exact List.eq_nil_of_length_eq_zero (by omega)
  · rintro ⟨hnil, harp, hicmp⟩
    rw [hnil, List.append_nil] at hp
    refine ⟨?_, (h.arp.delete_iff hk hu).mpr harp, (h.icmp.delete_iff hk hu).mpr hicmp, hp⟩
    refine h.services_update (o := none) ?_ fun key hkey => ?_
    · change (n.services.erase map.name).lookup k.symbol = none
      rw [Hash.lookup_erase, if_pos hsymbol]
    · change (n.services.erase map.name).lookup key = _
      rw [Hash.lookup_erase, if_neg (hsymbol ▸ hkey)]

theorem exact_delete_unknown (h : Exact n p) (hl : Kind.ofName map.name = none) :
    Exact (n.deleteService map) p ↔ Call.Fits n p (.delete map) := by
  have hname : ∀ k : Kind, k.name ≠ map.name := by
    intro k he
    rw [Kind.ofName_eq_some.mpr he] at hl
    cases hl
  have hfits : Call.Fits n p (.delete map) ↔
      (map.name = Kind.externalIp.symbol → p .externalIp = none) :=
    ⟨fun hf he => hf.1 (.inr he), fun hf => ⟨fun he => hf (he.resolve_left (hname _ ·.symm)),
      fun k _ _ he => absurd he (hname k)⟩⟩
  rw [hfits]
  constructor
  · intro h' he
    have hx := h'.lookup_symbol .externalIp
    change (n.services.erase map.name).lookup _ = _ at hx
    rw [Hash.lookup_erase, if_pos he.symm] at hx
    exact Option.map_eq_none_iff.mp hx.symm
  · intro hf
    refine exact_delete_of_absent h ?_
    by_contra hsome
    obtain ⟨k, a, hk, ha⟩ := h.present_of_lookup (Option.isSome_iff_ne_none.mpr hsome)
    by_cases hke : k = .externalIp
    · subst hke
      rw [hf hk.symm] at ha
      cases ha
    · exact hname k ((Kind.symbol_of_ne hke).symm.trans hk)

theorem exact_delete_externalIp (h : Exact n p) (hname : Kind.externalIp.name = map.name) :
    Exact (n.deleteService map) (Function.update p .externalIp none) ↔
      Call.Fits n p (.delete map) := by
  have habsent : n.services.lookup map.name = none := by
    by_contra hsome
    obtain ⟨l, a, hk, _⟩ := h.present_of_lookup (Option.isSome_iff_ne_none.mpr hsome)
    exact Kind.symbol_ne_externalIp l (hk.trans hname.symm)
  have hdel := exact_delete_of_absent h habsent
  constructor
  · intro h'
    have hx := hdel.lookup_symbol .externalIp
    rw [h'.lookup_symbol, Function.update_self] at hx
    have hnone := Option.map_eq_none_iff.mp hx.symm
    refine ⟨fun _ => hnone, fun l a hne he _ => ?_⟩
    have hl := Kind.ofName_eq_some.mpr hname
    rw [← he, Kind.ofName_eq_some.mpr rfl] at hl
    cases hl
    exact absurd rfl hne
  · intro hf
    rw [← hf.1 (.inl hname.symm), Function.update_eq_self]
    exact hdel

theorem exact_delete_named (h : Exact n p) (hc : Calls n p) (hke : k ≠ .externalIp)
    (hname : k.name = map.name) :
    Exact (n.deleteService map) (Function.update p k none) ↔ Call.Fits n p (.delete map) := by
  have hsymbol := (Kind.symbol_of_ne hke).trans hname
  have hfirst : map.name = Kind.externalIp.name ∨ map.name = Kind.externalIp.symbol →
      p .externalIp = none := by
    rintro (he | he)
    · exact absurd (hsymbol.trans he) (Kind.symbol_ne_externalIp k)
    · exact absurd (Kind.eq_of_name_eq_symbol (hname.trans he)) hke
  cases hk : p k with
  | none =>
    rw [← hk, Function.update_eq_self]
    have hdel : Exact (n.deleteService map) p :=
      exact_delete_of_absent h (by rw [← hsymbol, h.lookup_symbol, hk]; rfl)
    refine ⟨fun _ => ⟨hfirst, fun l a _ he ha => ?_⟩, fun _ => hdel⟩
    rw [Kind.eq_of_name_eq_symbol (he.trans hsymbol.symm), hk] at ha
    cases ha
  | some a =>
    rw [exact_delete_present h hc hk hsymbol]
    constructor
    · intro hex
      refine ⟨hfirst, fun l b _ he hb => ?_⟩
      obtain rfl : l = k := Kind.eq_of_name_eq_symbol (he.trans hsymbol.symm)
      rw [hk] at hb
      cases hb
      exact hex
    · intro hf
      exact hf.2 k a hke hname hk

theorem exact_delete_iff (h : Exact n p) (hc : Calls n p) (map : ServiceMap) :
    Exact (n.deleteService map) (p.perform n.calls (.delete map)) ↔
      Call.Fits n p (.delete map) := by
  cases hl : Kind.ofName map.name with
  | none =>
    rw [Present.perform_delete_of_none hl]
    exact exact_delete_unknown h hl
  | some k =>
    rw [Present.perform_delete_of_some hl]
    have hname := Kind.ofName_eq_some.mp hl
    by_cases hke : k = .externalIp
    · subst hke
      exact exact_delete_externalIp h hname
    · exact exact_delete_named h hc hke hname

theorem calls_perform (hc : Calls n p) (c : Call) : Calls (n.perform c) (p.perform n.calls c) := by
  have hcalls : (n.perform c).calls = n.calls + 1 := by cases c <;> rfl
  have hnew : ∀ k a, p.perform n.calls c k = some a →
      p k = some a ∨ a.call = n.calls ∧ ∀ l b, p.perform n.calls c l = some b → l ≠ k →
        p l = some b := by
    intro k a ha
    cases c with
    | add bridgeIpv4 map =>
      cases hl : Kind.ofName map.name with
      | none =>
        rw [Present.perform_add_of_none hl] at ha
        exact .inl ha
      | some j =>
        rw [Present.perform_add_of_some hl] at ha ⊢
        split at ha
        · exact .inl ha
        · rename_i hif
          rw [if_neg hif]
          by_cases hkj : k = j
          · rw [hkj, Function.update_self] at ha
            cases ha
            refine .inr ⟨rfl, fun l b hb hne => ?_⟩
            rwa [Function.update_of_ne (hkj ▸ hne)] at hb
          · rw [Function.update_of_ne hkj] at ha
            exact .inl ha
    | delete map =>
      left
      cases hl : Kind.ofName map.name with
      | none => rwa [Present.perform_delete_of_none hl] at ha
      | some j =>
        rw [Present.perform_delete_of_some hl] at ha
        by_cases hkj : k = j
        · rw [hkj, Function.update_self] at ha
          cases ha
        · rwa [Function.update_of_ne hkj] at ha
  constructor
  · intro k a ha
    rw [hcalls]
    rcases hnew k a ha with hk | ⟨he, -⟩
    · exact Nat.lt_succ_of_lt (hc.lt k a hk)
    · omega
  · intro k l a b ha hb he
    by_contra hne
    rcases hnew k a ha with hk | ⟨hka, hother⟩
    · rcases hnew l b hb with hl | ⟨hlb, hother⟩
      · exact hne (hc.unique k l a b hk hl he)
      · have := hc.lt k a hk
        omega
    · have := hc.lt l b (hother l b hb (Ne.symm hne))
      omega

theorem exact_perform_iff (h : Exact n p) (hc : Calls n p) (c : Call) :
    Exact (n.perform c) (p.perform n.calls c) ↔ c.Fits n p := by
  cases c with
  | add bridgeIpv4 map =>
    rw [← exact_add_iff h hc]
    exact ⟨fun h' => ⟨h'.services, h'.arp, h'.icmp, h'.handlers⟩,
      fun h' => ⟨h'.services, h'.arp, h'.icmp, h'.handlers⟩⟩
  | delete map =>
    rw [← exact_delete_iff h hc]
    exact ⟨fun h' => ⟨h'.services, h'.arp, h'.icmp, h'.handlers⟩,
      fun h' => ⟨h'.services, h'.arp, h'.icmp, h'.handlers⟩⟩

end

/-! ## Runs -/

structure State where
  network : Network
  present : Present

namespace State

def init (virtual : Bool) : State := ⟨Network.create virtual, fun _ => none⟩

def perform (s : State) (c : Call) : State :=
  ⟨s.network.perform c, s.present.perform s.network.calls c⟩

/-- After the call what is registered is that of the services present. -/
def Exact (s : State) (c : Call) : Prop :=
  OpenFlowNetwork.Exact (s.perform c).network (s.perform c).present

def Fits (s : State) (c : Call) : Prop := c.Fits s.network s.present

def run (virtual : Bool) (cs : List Call) : State := cs.foldl perform (init virtual)

end State

theorem exact_create (virtual : Bool) :
    Exact (Network.create virtual) (fun _ => none) where
  services key := by
    cases Kind.ofSymbol key <;> rfl
  arp := ⟨fun _ _ h => (Option.some_ne_none _ h.symm).elim, fun _ _ h => by cases h⟩
  icmp := ⟨fun _ _ h => (Option.some_ne_none _ h.symm).elim, fun _ _ h => by cases h⟩
  handlers := .refl _

/-- What is registered is that of the services present all along a run if and only
if no call of the run adds `external-ip` again, deletes it, or deletes a service
that has an entry or a packet handler. -/
theorem services_exact_iff (virtual : Bool) (cs : List Call) :
    Each State.perform State.Exact (State.init virtual) cs ↔
      Each State.perform State.Fits (State.init virtual) cs := by
  refine each_congr_of (fun s : State => Exact s.network s.present ∧ Calls s.network s.present)
    (fun s c h hx => ⟨hx, calls_perform h.2 c⟩) (fun s c h => exact_perform_iff h.1 h.2 c) ?_
  refine ⟨exact_create virtual, ?_, ?_⟩
  · intro _ _ h
    cases h
  · intro _ _ _ _ h
    cases h

def gatewayMap : ServiceMap :=
  ⟨Kind.gateway.name, some "52:54:00:00:00:01".toList, .ip "10.0.0.1".toList, none⟩

def leftSample : List Call := [.add none gatewayMap, .delete gatewayMap]

theorem not_services_exact :
    ¬ Each State.perform State.Exact (State.init true) leftSample ∧
    (State.run true leftSample).present .gateway = none ∧
    (State.run true leftSample).network.arp.lookup "10.0.0.1".toList =
      some ⟨"52:54:00:00:00:01".toList, 0⟩ := by
  have hp : (State.run true leftSample).present = fun _ => none := by
    funext k
    cases k <;> decide +kernel
  have ha : (State.run true leftSample).network.arp.lookup "10.0.0.1".toList =
      some ⟨"52:54:00:00:00:01".toList, 0⟩ := by decide +kernel
  refine ⟨fun h => ?_, by rw [hp], ha⟩
  have hx : Exact (State.run true leftSample).network (State.run true leftSample).present := h.2.1
  obtain ⟨k, a, hk, -⟩ := hx.arp.owned _ _ ha
  rw [hp] at hk
  cases hk

end OpenFlowNetwork
end WakameVdc
