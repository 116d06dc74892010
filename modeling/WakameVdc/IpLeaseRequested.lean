import WakameVdc.IpLeaseReserved
import WakameVdc.Lib.Ipv4

/-!
# Requested addresses

`SpecifyIP.perform_checks` of `scheduler/ip_address/specify_ip.rb` and
`check_network_ip_combo` of `endpoints/12.03/instances.rb` on the text of a request. Both
look for the address among the leases of all networks.
-/

namespace WakameVdc

open Lib

namespace Lease

/-- What the checks use of the `IPAddress` gem: `valid_ipv4?`, and the number of an address
that `IPAddress::IPv4.new` and `IPAddress` make of a text, or nothing where they raise. -/
structure IPAddressGem where
  validIpv4 : Text → Bool
  u32 : Text → Option Nat
  reads : ∀ ip, validIpv4 ip = true → (u32 ip).isSome = true

def IPAddressGem.read (gem : IPAddressGem) (ip : Text) : Option Nat :=
  if gem.validIpv4 ip then gem.u32 ip else none

namespace Db

/-- A valid address in the segment and a DHCP range of the network, and not leased there. -/
def Grants (db : Db) (gem : IPAddressGem) (nw : NetworkRow) (ip : Text) : Prop :=
  gem.validIpv4 ip = true ∧ ∃ a ∈ gem.u32 ip, nw.includes a = true ∧
    db.existsInDhcpRange nw.id a = true ∧ db.isLeased nw.id a = false

def LeasedElsewhere (db : Db) (gem : IPAddressGem) (nw : NetworkRow) (ip : Text) : Prop :=
  ∃ a ∈ gem.u32 ip, ∃ l ∈ db.ipLeases.rows, l.networkId ≠ nw.id ∧ l.ipv4 = a

end Db

section
variable {db : Db} {gem : IPAddressGem} {nw : NetworkRow} {ip : Text}

theorem read_eq_some {a : Nat} :
    gem.read ip = some a ↔ gem.validIpv4 ip = true ∧ gem.u32 ip = some a := by
  unfold IPAddressGem.read
  split
  · rename_i h
    simp [h]
  · rename_i h
    simp [h]

variable (nw) in
theorem not_leased_iff {a : Nat} : (∀ l ∈ db.ipLeases.rows, l.ipv4 ≠ a) ↔
    db.isLeased nw.id a = false ∧ ¬ ∃ l ∈ db.ipLeases.rows, l.networkId ≠ nw.id ∧ l.ipv4 = a := by
  simp only [Db.isLeased, List.any_eq_false, Bool.and_eq_true, beq_iff_eq, not_and, not_exists]
  constructor
  · exact fun h => ⟨fun l hl _ => h l hl, fun l hl _ => h l hl⟩
  · intro h l hl
    by_cases hn : l.networkId = nw.id
    · exact h.1 l hl hn
    · exact h.2 l hl hn

theorem accepted_iff : (∃ a, gem.read ip = some a ∧ nw.includes a = true ∧
      db.existsInDhcpRange nw.id a = true ∧ ∀ l ∈ db.ipLeases.rows, l.ipv4 ≠ a) ↔
    db.Grants gem nw ip ∧ ¬ db.LeasedElsewhere gem nw ip := by
  unfold Db.Grants Db.LeasedElsewhere
  constructor
  · rintro ⟨a, hr, hs, hd, hl⟩
    obtain ⟨hv, ha⟩ := read_eq_some.mp hr
    obtain ⟨hfree, helse⟩ := (not_leased_iff nw).mp hl
    refine ⟨⟨hv, a, ha, hs, hd, hfree⟩, ?_⟩
    rintro ⟨b, hb, h⟩
    rw [Option.mem_def, ha] at hb
    cases hb
    exact helse h
  · rintro ⟨⟨hv, a, ha, hs, hd, hfree⟩, helse⟩
    refine ⟨a, read_eq_some.mpr ⟨hv, ha⟩, hs, hd, (not_leased_iff nw).mpr ⟨hfree, ?_⟩⟩
    exact fun h => helse ⟨a, ha, h⟩

theorem performChecks_accepts : (∃ a, SpecifyIP.performChecks db nw (gem.read ip) = .ok a) ↔
    db.Grants gem nw ip ∧ ¬ db.LeasedElsewhere gem nw ip := by
  simp only [performChecks_iff]
  exact accepted_iff

theorem checkNetworkIpCombo_iff (hn : db.networks.find nw.id = some nw) {ip : Option Nat} :
    db.checkNetworkIpCombo (some nw.id) ip = .ok () ↔ ∃ a, ip = some a ∧ nw.includes a = true ∧
      db.existsInDhcpRange nw.id a = true ∧ ∀ l ∈ db.ipLeases.rows, l.ipv4 ≠ a := by
  unfold Db.checkNetworkIpCombo
  rw [Option.bind_some, hn]
  cases ip with
  | none => simp
  | some a =>
    simp only [Option.some.injEq, exists_eq_left']
    have hany : (db.ipLeases.rows.any fun l => l.ipv4 == a) = true ↔
        ¬ ∀ l ∈ db.ipLeases.rows, l.ipv4 ≠ a := by simp
    split
    · rename_i h
      simp only [reduceCtorEq, false_iff]
      exact fun h' => hany.mp h h'.2.2
    · rename_i h
      rw [hany, not_not] at h
      cases hs : nw.includes a with
      | false => simp
      | true =>
        cases hd : db.existsInDhcpRange nw.id a with
        | false => simp
        | true => simpa using h

/-- Both checks grant exactly what the network can grant if and only if that is not
leased in another network. -/
theorem request_granted_iff (hn : db.networks.find nw.id = some nw) :
    (((∃ a, SpecifyIP.performChecks db nw (gem.read ip) = .ok a) ↔ db.Grants gem nw ip) ∧
        (db.checkNetworkIpCombo (some nw.id) (gem.read ip) = .ok () ↔ db.Grants gem nw ip)) ↔
      ¬ (db.Grants gem nw ip ∧ db.LeasedElsewhere gem nw ip) := by
  rw [performChecks_accepts, checkNetworkIpCombo_iff hn, accepted_iff]
  tauto

end

def quadGem : IPAddressGem where
  validIpv4 ip := (Ipv4.ofQuad ip).isSome
  u32 ip := (Ipv4.ofQuad ip).map BitVec.toNat
  reads ip h := by simpa using h

/-- Two networks `10.0.0.0/24` with a range `10.0.0.10` to `10.0.0.20` each, and a lease
of `10.0.0.15` in the second one. -/
def twinNetworks : Db := { threeVifs with
  networks := threeVifs.networks.create
    (fun id => ⟨id, 0x0a000000, 24, none, none, none, none, .asc, 2⟩) fun _ => rfl
  dhcpRanges := threeVifs.dhcpRanges.create (fun id => ⟨id, 2, 0x0a00000a, 0x0a000014⟩) fun _ => rfl
  ipLeases := Table.empty.create (fun id => ⟨id, 2, 0x0a00000f⟩) fun _ => rfl }

def firstTwin : NetworkRow := ⟨1, 0x0a000000, 24, none, none, none, none, .asc, 1⟩

theorem request_granted_unleased :
    ((∃ a, SpecifyIP.performChecks twinNetworks firstTwin (quadGem.read "10.0.0.16".toList) = .ok a) ↔
        twinNetworks.Grants quadGem firstTwin "10.0.0.16".toList) ∧
      (twinNetworks.checkNetworkIpCombo (some 1) (quadGem.read "10.0.0.16".toList) = .ok () ↔
        twinNetworks.Grants quadGem firstTwin "10.0.0.16".toList) := by
  have hread : quadGem.u32 "10.0.0.16".toList = some 0x0a000010 := by decide
  refine (request_granted_iff (show twinNetworks.networks.find firstTwin.id = some firstTwin from rfl)).mpr ?_
  rintro ⟨_, a, ha, hl⟩
  rw [hread] at ha
  cases ha
  revert hl
  decide

/-- The lease of the second network keeps the address from the first. -/
theorem other_network_refuses :
    twinNetworks.Grants quadGem firstTwin "10.0.0.15".toList ∧
      SpecifyIP.performChecks twinNetworks firstTwin (quadGem.read "10.0.0.15".toList) =
        .error (.alreadyLeased 0x0a00000f) ∧
      twinNetworks.checkNetworkIpCombo (some 1) (quadGem.read "10.0.0.15".toList) =
        .error (.duplicateIpAddress 0x0a00000f) := by
  have hread : quadGem.u32 "10.0.0.15".toList = some 0x0a00000f := by decide
  exact ⟨⟨by decide, 0x0a00000f, hread, by decide, by decide, by decide⟩, by decide, by decide⟩

end Lease

end WakameVdc
