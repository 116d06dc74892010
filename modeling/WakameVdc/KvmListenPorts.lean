import Mathlib.Data.Int.Range
import Mathlib.Data.List.Nodup
import Mathlib.Data.List.Perm.Subperm
import WakameVdc.Lib.Loop
import WakameVdc.Lib.Text

/-!
# Unused listen ports

The Kvm driver draws TCP ports of its configured range until it has as many as
it needs. A port `netstat` shows or one drawn before is drawn again.
-/

namespace WakameVdc

open Lib

namespace Kvm

inductive Setting
  | integer (n : Int)
  | text (t : Text)
  | nil
  deriving DecidableEq, Repr

namespace Setting

def toI : Setting → Int
  | .integer n => n
  | .text t => Text.toI t
  | .nil => 0

def toS : Setting → Text
  | .integer n => Text.ofInt n
  | .text t => t
  | .nil => []

def isInteger : Setting → Bool
  | .integer _ => true
  | _ => false

end Setting

structure Configuration where
  tcpListenPortRangeBegin : Setting
  tcpListenPortRangeEnd : Setting
  deriving DecidableEq, Repr

namespace Configuration

def default : Configuration := ⟨.integer 28500, .integer 32767⟩

def tcpPortMax : Int := 0xFFFF

def isPort (s : Setting) : Bool :=
  s.isInteger && decide (0 ≤ s.toI ∧ s.toI ≤ tcpPortMax)

def validate (c : Configuration) : List Text × Configuration :=
  let errors :=
    (if isPort c.tcpListenPortRangeBegin then []
      else ["Invalid tcp_listen_port_range_begin: ".toList ++ c.tcpListenPortRangeBegin.toS]) ++
    (if isPort c.tcpListenPortRangeEnd then []
      else ["Invalid tcp_listen_port_range_end: ".toList ++ c.tcpListenPortRangeEnd.toS])
  if c.tcpListenPortRangeBegin.toI < c.tcpListenPortRangeEnd.toI then (errors, c)
  else (errors, ⟨.integer c.tcpListenPortRangeEnd.toI, .integer c.tcpListenPortRangeBegin.toI⟩)

/-- A configuration that passed `validate`. -/
structure Accepted (given c : Configuration) : Prop where
  validated : given.validate = ([], c)

example : default.validate = ([], default) := by decide

end Configuration

/-! ## What netstat shows -/

/-- `split(/\s+/)` up to the empty fields at the end. -/
def fields : Text → List Text
  | [] => [[]]
  | c :: t =>
    if Text.isSpace c then
      match t with
      | [] => [[], []]
      | d :: t => if Text.isSpace d then fields (d :: t) else [] :: fields (d :: t)
    else
      match fields t with
      | [] => [[c]]
      | f :: fs => (c :: f) :: fs

/-- The port of the local address; `none` where the line has no such field. -/
def localPort (line : Text) : Option Int :=
  match ((fields line).rdropWhile List.isEmpty)[3]? with
  | none => none
  | some address =>
    match (Text.split ':' address).getLast? with
    | none => some 0
    | some port => some (Text.toI port)

/-- `tcp_listen_port_range` -/
structure PortRange where
  first : Int
  last : Int
  deriving DecidableEq, Repr

def Configuration.tcpListenPortRange (c : Configuration) : PortRange :=
  ⟨c.tcpListenPortRangeBegin.toI, c.tcpListenPortRangeEnd.toI⟩

namespace PortRange

def Includes (r : PortRange) (p : Int) : Prop := r.first ≤ p ∧ p ≤ r.last

instance (r : PortRange) (p : Int) : Decidable (r.Includes p) := inferInstanceAs (Decidable (_ ∧ _))

/-- The keys of `listen_ports`, from what netstat prints. -/
def listenPorts (r : PortRange) (netstat : Text) : Option (List Int) :=
  (((Text.split '\n' netstat).drop 2).mapM localPort).map (·.filter (r.Includes ·))

/-! ## The draws -/

structure Search where
  drawn : Nat
  newPorts : List Int

/-- One draw: the inner loop goes on if the port is taken, the outer one while
there are too few ports. -/
def draw (used : List Int) (random : Nat → Int) (numbers : Nat) (s : Search) :
    List Int ⊕ Search :=
  let newPort := random s.drawn
  if newPort ∈ used ∨ newPort ∈ s.newPorts then .inr ⟨s.drawn + 1, s.newPorts⟩
  else
    let newPorts := s.newPorts ++ [newPort]
    if newPorts.length < numbers then .inr ⟨s.drawn + 1, newPorts⟩ else .inl newPorts

inductive Error
  | noMethodError
  deriving DecidableEq, Repr

/-- How `find_unused_tcp_listen_ports` ends, if it does. -/
def FindUnused (r : PortRange) (netstat : Text) (random : Nat → Int) (numbers : Nat) :
    Except Error (List Int) → Prop
  | .ok ports => ∃ used, r.listenPorts netstat = some used ∧
      Loop.Ends (draw used random numbers) ⟨0, []⟩ ports
  | .error e => r.listenPorts netstat = none ∧ e = .noMethodError

/-- The ports of the range that are not in use. -/
def unused (r : PortRange) (used : List Int) : List Int :=
  (Int.range r.first (r.last + 1)).filter (· ∉ used)

variable {r : PortRange} {used : List Int} {random : Nat → Int} {numbers : Nat} {p : Int}

theorem mem_unused : p ∈ r.unused used ↔ r.Includes p ∧ p ∉ used := by
  simp only [unused, List.mem_filter, Int.mem_range_iff, Int.lt_add_one_iff, decide_not,
    Bool.not_eq_true', decide_eq_false_iff_not, Includes]

theorem nodup_unused (r : PortRange) (used : List Int) : (r.unused used).Nodup :=
  (List.nodup_range.map fun _ _ h => Int.ofNat_inj.mp (Int.add_left_cancel h)).filter _

/-- What the ports drawn so far are, while more are needed. -/
structure Drawn (r : PortRange) (used : List Int) (numbers : Nat) (ports : List Int) : Prop where
  nodup : ports.Nodup
  unused : ∀ p ∈ ports, p ∈ r.unused used
  few : ports.length < numbers

theorem Drawn.push {ports : List Int} (h : Drawn r used numbers ports) (hp : r.Includes p)
    (hu : p ∉ used) (hn : p ∉ ports) :
    (ports ++ [p]).Nodup ∧ ∀ q ∈ ports ++ [p], q ∈ r.unused used := by
  refine ⟨?_, fun q hq => ?_⟩
  · rw [← List.concat_eq_append]
    exact h.nodup.concat hn
  · rcases List.mem_append.mp hq with hq | hq
    · exact h.unused q hq
    · rw [List.mem_singleton.mp hq]
      exact mem_unused.mpr ⟨hp, hu⟩

theorem drawn_of_draw_inr {s t : Search} (hr : ∀ k, r.Includes (random k))
    (h : Drawn r used numbers s.newPorts) (hd : draw used random numbers s = .inr t) :
    Drawn r used numbers t.newPorts := by
  unfold draw at hd
  dsimp only at hd
  split at hd
  · cases hd
    exact h
  · rename_i hn
    rw [not_or] at hn
    split at hd
    · rename_i hf
      cases hd
      obtain ⟨h1, h2⟩ := h.push (hr _) hn.1 hn.2
      exact ⟨h1, h2, hf⟩
    · cases hd

theorem ports_of_draw_inl {s : Search} {ports : List Int} (hr : ∀ k, r.Includes (random k))
    (h : Drawn r used numbers s.newPorts) (hd : draw used random numbers s = .inl ports) :
    ports.length = numbers ∧ ports.Nodup ∧ ∀ p ∈ ports, p ∈ r.unused used := by
  unfold draw at hd
  dsimp only at hd
  split at hd
  · cases hd
  · rename_i hn
    rw [not_or] at hn
    split at hd
    · cases hd
    · rename_i hf
      cases hd
      refine ⟨?_, h.push (hr _) hn.1 hn.2⟩
      have := h.few
      rw [List.length_append, List.length_singleton] at hf ⊢
      omega

theorem draw_of_few {s : Search} (hr : ∀ k, r.Includes (random k))
    (h : Drawn r used numbers s.newPorts) (hu : (r.unused used).length < numbers) :
    ∃ t, draw used random numbers s = .inr t := by
  cases hd : draw used random numbers s with
  | inr t => exact ⟨t, rfl⟩
  | inl ports =>
    obtain ⟨hl, hn, hp⟩ := ports_of_draw_inl hr h hd
    have hc := (hn.subperm hp).length_le
    omega

theorem drawn_nil (h : 1 ≤ numbers) : Drawn r used numbers [] :=
  ⟨List.nodup_nil, fun _ hp => absurd hp List.not_mem_nil, h⟩

theorem not_ends_of_few {ports : List Int} (hn : 1 ≤ numbers) (hr : ∀ k, r.Includes (random k))
    (hu : (r.unused used).length < numbers) :
    ¬ Loop.Ends (draw used random numbers) ⟨0, []⟩ ports := by
  refine Loop.not_ends (fun s => Drawn r used numbers s.newPorts) ?_ (drawn_nil hn)
  intro s hs
  obtain ⟨t, ht⟩ := draw_of_few hr hs hu
  exact ⟨t, ht, drawn_of_draw_inr hr hs ht⟩

/-- Draws that never miss: `ports` one after the other. -/
theorem ends_of_ports {ports : List Int} (hn : ports.Nodup) (hu : ∀ p ∈ ports, p ∉ used)
    (hr : ∀ k (h : k < ports.length), random k = ports[k]) {k : Nat} (hk : k < ports.length) :
    Loop.Ends (draw used random ports.length) ⟨k, ports.take k⟩ ports := by
  have hm : ports[k] ∈ ports := List.getElem_mem hk
  have hnew : ports[k] ∉ ports.take k := by
    intro h
    obtain ⟨i, hi, he⟩ := List.getElem_of_mem h
    rw [List.length_take] at hi
    rw [List.getElem_take] at he
    have := hn.getElem_inj_iff.mp he
    omega
  have hd : draw used random ports.length ⟨k, ports.take k⟩ =
      if k + 1 < ports.length then .inr ⟨k + 1, ports.take (k + 1)⟩ else .inl ports := by
    unfold draw
    dsimp only
    rw [hr k hk, if_neg (not_or.mpr ⟨hu _ hm, hnew⟩), List.take_append_getElem hk,
      List.length_take, Nat.min_eq_left hk]
    split
    · rfl
    · rw [List.take_of_length_le (by omega)]
  by_cases hlt : k + 1 < ports.length
  · rw [if_pos hlt] at hd
    exact (Loop.ends_iff_of_inr hd).mpr (ends_of_ports hn hu hr hlt)
  · rw [if_neg hlt] at hd
    exact Loop.ends_of_inl hd
termination_by ports.length - k

/-- What the callers of `find_unused_tcp_listen_ports` rely on, where netstat
shows the ports `used`. -/
structure Finds (r : PortRange) (netstat : Text) (used : List Int) (numbers : Nat) : Prop where
  returns : numbers ≤ (r.unused used).length → ∃ random, (∀ k, r.Includes (random k)) ∧
    ∃ ports, r.FindUnused netstat random numbers (.ok ports)
  ports : ∀ random, (∀ k, r.Includes (random k)) → ∀ ports,
    r.FindUnused netstat random numbers (.ok ports) →
      ports.length = numbers ∧ ports.Nodup ∧ ∀ p ∈ ports, r.Includes p ∧ p ∉ used
  raises : (r.unused used).length < numbers → ∀ random, (∀ k, r.Includes (random k)) →
    ∃ e, r.FindUnused netstat random numbers (.error e)

variable {netstat : Text}

theorem exists_returns (h : r.listenPorts netstat = some used) (hn : 1 ≤ numbers)
    (hu : numbers ≤ (r.unused used).length) :
    ∃ random, (∀ k, r.Includes (random k)) ∧
      ∃ ports, r.FindUnused netstat random numbers (.ok ports) := by
  let ports := (r.unused used).take numbers
  have hl : ports.length = numbers := by rw [List.length_take, Nat.min_eq_left hu]
  have hmem : ∀ p ∈ ports, r.Includes p ∧ p ∉ used := fun p hp =>
    mem_unused.mp (List.mem_of_mem_take hp)
  have h0 : 0 < ports.length := by omega
  let random : Nat → Int := fun k => ports.getD k ports[0]
  have hr : ∀ k (h : k < ports.length), random k = ports[k] := fun k hk =>
    (List.getElem_eq_getD _).symm
  refine ⟨random, fun k => ?_, ports, used, h, ?_⟩
  · by_cases hk : k < ports.length
    · rw [hr k hk]
      exact (hmem _ (List.getElem_mem hk)).1
    · have : random k = ports[0] := by simp [random, List.getElem?_eq_none (Nat.le_of_not_lt hk)]
      rw [this]
      exact (hmem _ (List.getElem_mem h0)).1
  · have hn := (nodup_unused r used).sublist (List.take_sublist numbers _)
    have hends : Loop.Ends (draw used random ports.length) ⟨0, ports.take 0⟩ ports :=
      ends_of_ports hn (fun p hp => (hmem p hp).2) hr h0
    rwa [hl] at hends

theorem ports_of_findUnused (h : r.listenPorts netstat = some used) (hn : 1 ≤ numbers)
    (hr : ∀ k, r.Includes (random k)) {ports : List Int}
    (hf : r.FindUnused netstat random numbers (.ok ports)) :
    ports.length = numbers ∧ ports.Nodup ∧ ∀ p ∈ ports, r.Includes p ∧ p ∉ used := by
  obtain ⟨used', h', he⟩ := hf
  rw [h] at h'
  cases h'
  obtain ⟨hl, hnd, hp⟩ := he.invariant (fun s => Drawn r used numbers s.newPorts)
    (fun ports => ports.length = numbers ∧ ports.Nodup ∧ ∀ p ∈ ports, p ∈ r.unused used)
    (fun _ _ hs hd => drawn_of_draw_inr hr hs hd) (fun _ _ hs hd => ports_of_draw_inl hr hs hd)
    (drawn_nil hn)
  exact ⟨hl, hnd, fun p hm => mem_unused.mp (hp p hm)⟩

theorem not_raises (h : r.listenPorts netstat = some used) (e : Error) :
    ¬ r.FindUnused netstat random numbers (.error e) := by
  rintro ⟨h', -⟩
  rw [h] at h'
  cases h'

theorem finds_of_unused (h : r.listenPorts netstat = some used) (hn : 1 ≤ numbers)
    (hu : numbers ≤ (r.unused used).length) : Finds r netstat used numbers where
  returns := exists_returns h hn
  ports _ hr _ hf := ports_of_findUnused h hn hr hf
  raises hlt := absurd hu (Nat.not_le_of_lt hlt)

theorem not_finds_of_few (hi : r.first ≤ r.last) (h : r.listenPorts netstat = some used)
    (hu : (r.unused used).length < numbers) : ¬ Finds r netstat used numbers := by
  intro hf
  obtain ⟨e, he⟩ := hf.raises hu (fun _ => r.first) fun _ => ⟨Int.le_refl _, hi⟩
  exact not_raises h e he

end PortRange

namespace Configuration

variable {given c : Configuration}

theorem Accepted.eq (h : Accepted given c) :
    given.tcpListenPortRangeBegin.toI < given.tcpListenPortRangeEnd.toI ∧ c = given ∨
    given.tcpListenPortRangeEnd.toI ≤ given.tcpListenPortRangeBegin.toI ∧
      c = ⟨.integer given.tcpListenPortRangeEnd.toI, .integer given.tcpListenPortRangeBegin.toI⟩ := by
  have hv := h.validated
  unfold validate at hv
  dsimp only at hv
  split at hv
  · rename_i hlt
    exact .inl ⟨hlt, (Prod.ext_iff.mp hv).2.symm⟩
  · rename_i hlt
    exact .inr ⟨Int.not_lt.mp hlt, (Prod.ext_iff.mp hv).2.symm⟩

theorem Accepted.first_le_last (h : Accepted given c) :
    c.tcpListenPortRange.first ≤ c.tcpListenPortRange.last := by
  rcases h.eq with ⟨hlt, rfl⟩ | ⟨hle, rfl⟩
  · exact Int.le_of_lt hlt
  · exact hle

/-- Ports are found, and the search ends, exactly when enough ports of the range
are unused. -/
theorem finds_ports_iff (h : Accepted given c) {netstat : Text} {used : List Int}
    (hu : c.tcpListenPortRange.listenPorts netstat = some used) {numbers : Nat}
    (hn : 1 ≤ numbers) :
    c.tcpListenPortRange.Finds netstat used numbers ↔
      numbers ≤ (c.tcpListenPortRange.unused used).length := by
  constructor
  · intro hf
    by_contra hlt
    exact PortRange.not_finds_of_few h.first_le_last hu (Nat.lt_of_not_le hlt) hf
  · exact PortRange.finds_of_unused hu hn

def onePort : Configuration := ⟨.integer 40000, .integer 40000⟩

def netstatSample : Text :=
  "Active Internet connections (servers and established)\n".toList ++
  "Proto Recv-Q Send-Q Local Address Foreign Address State\n".toList ++
  "tcp        0      0 0.0.0.0:40000           0.0.0.0:*               LISTEN\n".toList

theorem listenPorts_sample :
    onePort.tcpListenPortRange.listenPorts netstatSample = some [40000] := by decide +kernel

/-- The search neither returns nor raises, whatever is drawn. -/
theorem not_finds_ports :
    Accepted onePort onePort ∧ ¬ onePort.tcpListenPortRange.Finds netstatSample [40000] 1 ∧
      ∀ random, (∀ k, onePort.tcpListenPortRange.Includes (random k)) →
        ∀ result, ¬ onePort.tcpListenPortRange.FindUnused netstatSample random 1 result := by
  refine ⟨⟨by decide⟩, PortRange.not_finds_of_few (by decide) listenPorts_sample (by decide), ?_⟩
  rintro random hr (e | ports) hf
  · exact PortRange.not_raises listenPorts_sample e hf
  · obtain ⟨used, hused, hends⟩ := hf
    rw [listenPorts_sample] at hused
    cases hused
    exact PortRange.not_ends_of_few (by decide) hr (by decide) hends

def reversed : Configuration := ⟨.integer 40003, .integer 40000⟩

def fourPorts : Configuration := ⟨.integer 40000, .integer 40003⟩

theorem finds_ports_reversed : fourPorts.tcpListenPortRange.Finds netstatSample [40000] 3 :=
  (finds_ports_iff (show Accepted reversed fourPorts from ⟨by decide⟩) (by decide +kernel)
    (by decide)).mpr (by decide)

end Configuration
end Kvm
end WakameVdc
