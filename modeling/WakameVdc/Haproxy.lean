import WakameVdc.Lib.Hash
import WakameVdc.Lib.Run
import WakameVdc.Lib.Text

/-!
# The servers of a proxy configuration

`add_server` and `remove_server` of `drivers/haproxy.rb`. A new server is numbered from the
count of the servers that are held, an address that is held keeps its number.
-/

namespace WakameVdc

open Lib

namespace Haproxy

structure Server where
  name : Text
  address : Text
  port : Int
  cookie : Text
  maxconn : Int
  backup : Bool
  deriving DecidableEq

/-- The options of a call, which replace what the record holds under the same key. -/
structure Options where
  name : Option Text
  address : Option Text
  port : Option Int
  cookie : Option Text
  maxconn : Option Int
  backup : Option Bool

def Options.none : Options := ⟨.none, .none, .none, .none, .none, .none⟩

def Server.merge (s : Server) (o : Options) : Server where
  name := o.name.getD s.name
  address := o.address.getD s.address
  port := o.port.getD s.port
  cookie := o.cookie.getD s.cookie
  maxconn := o.maxconn.getD s.maxconn
  backup := o.backup.getD s.backup

/-- `@listen[:servers]` -/
abbrev Servers := Hash Text Server

/-- `srv-` and `cookie-` with a number. -/
def numbered (head : String) (n : Nat) : Text := head.toList ++ Text.ofNat n

namespace Servers

variable (s : Servers)

def totalServer : Nat := s.entries.length

def nextServerName : Text := numbered "srv-" (s.totalServer + 1)

def nextCookieName : Text := numbered "cookie-" (s.totalServer + 1)

def addServer (address : Text) (port : Int) (options : Options) : Servers :=
  let record (name cookie : Text) : Server :=
    { name := name, address := address, port := port, cookie := cookie, maxconn := 1000, backup := false }
  match s.lookup address with
  | some v => s.insert address ((record v.name v.cookie).merge options)
  | none => s.insert address ((record s.nextServerName s.nextCookieName).merge options)

def removeServer (address : Text) : Servers := s.erase address

end Servers

inductive Call
  | addServer (address : Text) (port : Int) (options : Options)
  | removeServer (address : Text)

def Servers.perform (s : Servers) : Call → Servers
  | .addServer address port options => s.addServer address port options
  | .removeServer address => s.removeServer address

/-! ## What a call is to do, and when it does -/

def Servers.Keeps (s s' : Servers) : Call → Prop
  | .addServer address _ _ => ∀ v, s.lookup address = some v →
      ∃ w, s'.lookup address = some w ∧ w.name = v.name ∧ w.cookie = v.cookie
  | .removeServer _ => True

/-- After the call all servers have their own name and their own cookie. -/
structure Servers.Right (s : Servers) (c : Call) : Prop where
  names : ((s.perform c).values.map Server.name).Nodup
  cookies : ((s.perform c).values.map Server.cookie).Nodup
  keeps : s.Keeps (s.perform c) c

/-- The number that comes next is in use nowhere, and the options name no other server. -/
def Servers.Fits (s : Servers) : Call → Prop
  | .addServer address _ options =>
    match s.lookup address with
    | some v => (∀ n, options.name = some n → n = v.name) ∧ ∀ n, options.cookie = some n → n = v.cookie
    | none => ∀ b w, s.lookup b = some w →
        w.name ≠ options.name.getD s.nextServerName ∧ w.cookie ≠ options.cookie.getD s.nextCookieName
  | .removeServer _ => True

/-! ## One call -/

namespace Servers

section
variable {s : Servers} {address : Text} {port : Int} {options : Options} {v : Server}

theorem addServer_of_held (h : s.lookup address = some v) : s.addServer address port options =
    s.insert address (Server.merge ⟨v.name, address, port, v.cookie, 1000, false⟩ options) := by
  unfold addServer
  simp [h]

theorem addServer_of_new (h : s.lookup address = none) : s.addServer address port options =
    s.insert address
      (Server.merge ⟨s.nextServerName, address, port, s.nextCookieName, 1000, false⟩ options) := by
  unfold addServer
  simp [h]

theorem exists_addServer (s : Servers) (address : Text) (port : Int) (backup : Option Bool) :
    ∃ w, s.addServer address port { Options.none with backup := backup } = s.insert address w ∧
      w.address = address ∧ w.port = port ∧ w.backup = backup.getD false := by
  cases hl : s.lookup address with
  | none => exact ⟨_, addServer_of_new hl, rfl, rfl, rfl⟩
  | some v => exact ⟨_, addServer_of_held hl, rfl, rfl, rfl⟩

theorem right_of_held (hn : (s.values.map Server.name).Nodup) (hc : (s.values.map Server.cookie).Nodup)
    (h : s.lookup address = some v) :
    s.Right (.addServer address port options) ↔ s.Fits (.addServer address port options) := by
  have hs : s.perform (.addServer address port options) = _ := addServer_of_held h
  simp only [Fits, h]
  constructor
  · intro hr
    have hkeeps := hr.keeps
    rw [hs] at hkeeps
    obtain ⟨w, hw, hwn, hwc⟩ := hkeeps v h
    rw [Hash.lookup_insert, if_pos rfl] at hw
    cases hw
    refine ⟨fun n ho => ?_, fun n ho => ?_⟩
    · simpa [Server.merge, ho] using hwn
    · simpa [Server.merge, ho] using hwc
  · intro ⟨hon, hoc⟩
    have hname : (Server.merge ⟨v.name, address, port, v.cookie, 1000, false⟩ options).name = v.name := by
      cases ho : options.name with
      | none => simp [Server.merge, ho]
      | some n => simp [Server.merge, ho, hon n ho]
    have hcookie : (Server.merge ⟨v.name, address, port, v.cookie, 1000, false⟩ options).cookie = v.cookie := by
      cases ho : options.cookie with
      | none => simp [Server.merge, ho]
      | some n => simp [Server.merge, ho, hoc n ho]
    refine ⟨?_, ?_, ?_⟩
    · rw [hs, Hash.nodup_map_values_insert hn]
      intro j hj w hw he
      exact hj (Hash.nodup_map_values.mp hn j address w v hw h (he.trans hname))
    · rw [hs, Hash.nodup_map_values_insert hc]
      intro j hj w hw he
      exact hj (Hash.nodup_map_values.mp hc j address w v hw h (he.trans hcookie))
    · rw [hs]
      intro v' hv'
      rw [h] at hv'
      cases hv'
      exact ⟨_, by rw [Hash.lookup_insert, if_pos rfl], hname, hcookie⟩

/-- A new address stands apart when its name and its cookie are in use nowhere. -/
theorem right_of_new (hn : (s.values.map Server.name).Nodup) (hc : (s.values.map Server.cookie).Nodup)
    (h : s.lookup address = none) :
    s.Right (.addServer address port options) ↔ s.Fits (.addServer address port options) := by
  have hs : s.perform (.addServer address port options) = _ := addServer_of_new h
  have hne : ∀ j w, s.lookup j = some w → j ≠ address := by
    intro j w hj he
    rw [he, h] at hj
    cases hj
  simp only [Fits, h]
  constructor
  · intro hr j w hj
    have hrn := hr.names
    have hrc := hr.cookies
    rw [hs, Hash.nodup_map_values_insert hn] at hrn
    rw [hs, Hash.nodup_map_values_insert hc] at hrc
    exact ⟨hrn j (hne j w hj) w hj, hrc j (hne j w hj) w hj⟩
  · intro hf
    refine ⟨?_, ?_, ?_⟩
    · rw [hs, Hash.nodup_map_values_insert hn]
      exact fun j _ w hj => (hf j w hj).1
    · rw [hs, Hash.nodup_map_values_insert hc]
      exact fun j _ w hj => (hf j w hj).2
    · intro v hv
      rw [h] at hv
      cases hv

theorem right_iff (hn : (s.values.map Server.name).Nodup) (hc : (s.values.map Server.cookie).Nodup)
    (c : Call) : s.Right c ↔ s.Fits c := by
  cases c with
  | addServer address port options =>
    cases h : s.lookup address with
    | none => exact right_of_new hn hc h
    | some v => exact right_of_held hn hc h
  | removeServer address =>
    refine iff_of_true ⟨?_, ?_, trivial⟩ trivial
    · exact Hash.nodup_map_values_erase hn
    · exact Hash.nodup_map_values_erase hc

end

/-! ## Runs -/

def Apart (s : Servers) : Prop := (s.values.map Server.name).Nodup ∧ (s.values.map Server.cookie).Nodup

theorem apart_empty : Apart (∅ : Servers) := ⟨List.nodup_nil, List.nodup_nil⟩

/-- Names and cookies stay apart in a run just when no number comes twice among the servers
that are held. -/
theorem each_right_iff (cs : List Call) :
    Each perform Right (∅ : Servers) cs ↔ Each perform Fits (∅ : Servers) cs :=
  each_congr_of Apart (fun _ _ _ h => ⟨h.names, h.cookies⟩) (fun _ c hs => right_iff hs.1 hs.2 c) apart_empty

def leftThree : List Call :=
  [.addServer "10.0.0.1".toList 80 Options.none, .addServer "10.0.0.2".toList 80 Options.none,
    .removeServer "10.0.0.1".toList, .addServer "10.0.0.3".toList 80 Options.none]

/-- The count is back at one, and the second server is numbered twice. -/
theorem not_right_leftThree : ¬ Each perform Right (∅ : Servers) leftThree := by
  intro h
  have hn := h.2.2.2.1.names
  revert hn
  decide

/-! ## Runs without a removal -/

theorem totalServer_insert (s : Servers) (address : Text) (v : Server) :
    totalServer (s.insert address v) =
      if s.lookup address = none then s.totalServer + 1 else s.totalServer :=
  Hash.length_insert address v s

def Numbered (s : Servers) : Prop :=
  ∀ a v, s.lookup a = some v → ∃ i ≤ s.totalServer,
    v.name = numbered "srv-" i ∧ v.cookie = numbered "cookie-" i

theorem numbered_injective {head : String} {i j : Nat} (h : numbered head i = numbered head j) : i = j :=
  Text.ofNat_injective (List.append_cancel_left h)

theorem Numbered.insert {s : Servers} {address : Text} {v : Server} {i : Nat} (h : s.Numbered)
    (hi : i ≤ totalServer (s.insert address v)) (hn : v.name = numbered "srv-" i)
    (hc : v.cookie = numbered "cookie-" i) : Numbered (s.insert address v) := by
  intro a w hw
  rw [Hash.lookup_insert] at hw
  split at hw
  · cases hw
    exact ⟨i, hi, hn, hc⟩
  · obtain ⟨j, hj, hjn, hjc⟩ := h a w hw
    refine ⟨j, ?_, hjn, hjc⟩
    rw [totalServer_insert]
    split <;> omega

/-- Calls as the controller makes them, which tell a backup server at most. -/
theorem Numbered.addServer {s : Servers} (h : s.Numbered) (address : Text) (port : Int) (backup : Option Bool) :
    Numbered (s.addServer address port { Options.none with backup := backup }) ∧
      s.Fits (.addServer address port { Options.none with backup := backup }) := by
  cases hl : s.lookup address with
  | none =>
    rw [addServer_of_new hl]
    refine ⟨h.insert ?_ rfl rfl, ?_⟩
    · rw [totalServer_insert, if_pos hl]
    · simp only [Fits, hl]
      intro b w hb
      obtain ⟨i, hi, hn, hc⟩ := h b w hb
      refine ⟨fun he => ?_, fun he => ?_⟩
      · have := numbered_injective (hn.symm.trans he)
        omega
      · have := numbered_injective (hc.symm.trans he)
        omega
  | some v =>
    obtain ⟨i, hi, hn, hc⟩ := h address v hl
    rw [addServer_of_held hl]
    refine ⟨h.insert ?_ hn hc, ?_⟩
    · rw [totalServer_insert, if_neg (by simp [hl])]
      exact hi
    · simp only [Fits, hl]
      refine ⟨fun n hn => ?_, fun n hn => ?_⟩
      · cases hn
      · cases hn

/-- A configuration that is only added to has all its servers apart. -/
theorem each_right_of_added {cs : List Call} (h : ∀ c ∈ cs, ∃ address port backup,
    c = .addServer address port { Options.none with backup := backup }) :
    Each perform Right (∅ : Servers) cs := by
  refine Each.of_invariant (fun s : Servers => Apart s ∧ Numbered s) ?_ (each_forall.mpr h)
    ⟨apart_empty, fun a v hv => ?_⟩
  · rintro s c ⟨hs, hnum⟩ ⟨address, port, backup, rfl⟩
    obtain ⟨hnum', hfits⟩ := hnum.addServer address port backup
    have hright := (right_iff hs.1 hs.2 _).mpr hfits
    exact ⟨⟨⟨hright.names, hright.cookies⟩, hnum'⟩, hright⟩
  · rw [AList.lookup_empty] at hv
    cases hv

end Servers

end Haproxy

end WakameVdc
