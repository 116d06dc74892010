import WakameVdc.Lib.Loop
import WakameVdc.Lib.Scan

/-!
# Watching a live migration

The source host asks its QEMU monitor how the migration goes, until a reply says
that it is completed. The `start_migration` job of `rpc/migration_handler.rb` goes
on from there: it shuts the source down and switches the host node.
-/

namespace WakameVdc

open Lib

namespace Kvm

/-- What comes before the word of `/\nMigration status: (\w+)/`. -/
def statusLabel : Text := "\nMigration status: ".toList

/-- `$1` of the first match. -/
def migrationStatus (line : Text) : Option Text := Text.scan statusLabel Text.isWord line

inductive Exn
  | timeoutError | invalidMigration
  deriving DecidableEq, Repr

/-- What `t.cmd("info migrate")` does; `closed` is the `nil` of a monitor that
hung up. -/
inductive Reply
  | line (t : Text)
  | closed
  | raised (e : Exn)
  deriving DecidableEq, Repr

/-- The loop of `watch_migration` at its reply number `k`. After `active` it
sleeps, any other status has no branch. -/
def watchRound (reply : Nat → Reply) (k : Nat) : Except Exn Unit ⊕ Nat :=
  match reply k with
  | .raised e => .inl (.error e)
  | .closed => .inl (.ok ())
  | .line t => if migrationStatus t = some "completed".toList then .inl (.ok ()) else .inr (k + 1)

/-- How `watch_migration` ends, if it does. -/
def WatchMigration (reply : Nat → Reply) (r : Except Exn Unit) : Prop :=
  Loop.Ends (watchRound reply) 0 r

/-- The statuses a migration does not leave. -/
inductive Status
  | completed | failed | cancelled
  deriving DecidableEq, Repr

def Status.text : Status → Text
  | .completed => "completed".toList
  | .failed => "failed".toList
  | .cancelled => "cancelled".toList

theorem Status.text_injective : Function.Injective Status.text := by
  intro a b h
  cases a <;> cases b <;> first | rfl | exact absurd h (by decide)

/-- The replies report a final status and go on to report it. -/
def Settles (replies : Nat → Text) (s : Status) : Prop :=
  ∃ n, (∀ k < n, ∀ s' : Status, migrationStatus (replies k) ≠ some s'.text) ∧
    ∀ k, n ≤ k → migrationStatus (replies k) = some s.text

/-! ## The loop -/

section
variable {replies : Nat → Text} {s : Status} {r : Except Exn Unit}

theorem watchRound_of_ne {k : Nat} (h : migrationStatus (replies k) ≠ some Status.completed.text) :
    watchRound (fun k => .line (replies k)) k = .inr (k + 1) := if_neg h

theorem watchRound_of_eq {k : Nat} (h : migrationStatus (replies k) = some Status.completed.text) :
    watchRound (fun k => .line (replies k)) k = .inl (.ok ()) := if_pos h

/-- The replies before the one that reports completion are read over. -/
theorem ends_iff_of_before {n : Nat}
    (h : ∀ k < n, migrationStatus (replies k) ≠ some Status.completed.text) :
    WatchMigration (fun k => .line (replies k)) r ↔
      Loop.Ends (watchRound fun k => .line (replies k)) n r := by
  induction n with
  | zero => exact Iff.rfl
  | succ n ih =>
    rw [ih fun k hk => h k (Nat.lt_succ_of_lt hk)]
    exact Loop.ends_iff_of_inr (watchRound_of_ne (h n (Nat.lt_succ_self n)))

theorem watch_completed (h : Settles replies .completed) :
    WatchMigration (fun k => .line (replies k)) r ↔ .ok () = r := by
  obtain ⟨n, hb, ha⟩ := h
  rw [ends_iff_of_before fun k hk => hb k hk .completed]
  exact Loop.ends_iff_of_inl (watchRound_of_eq (ha n (Nat.le_refl n)))

theorem not_watch (h : Settles replies s) (hs : s ≠ .completed) :
    ¬ WatchMigration (fun k => .line (replies k)) r := by
  obtain ⟨n, hb, ha⟩ := h
  refine Loop.not_ends (fun _ => True) (fun k _ => ⟨k + 1, watchRound_of_ne ?_, trivial⟩) trivial
  intro hc
  rcases Nat.lt_or_ge k n with hk | hk
  · exact hb k hk .completed hc
  · have := (ha k hk).symm.trans hc
    exact hs (Status.text_injective (Option.some.inj this))

end

/-- `watch_migration` tells how the migration ended. -/
def Watches (replies : Nat → Text) (s : Status) : Prop :=
  if s = .completed then WatchMigration (fun k => .line (replies k)) (.ok ())
  else ∃ e, WatchMigration (fun k => .line (replies k)) (.error e)

theorem watches_iff_completed {replies : Nat → Text} {s : Status} (h : Settles replies s) :
    Watches replies s ↔ s = .completed := by
  unfold Watches
  by_cases hs : s = .completed
  · subst hs
    rw [if_pos rfl, watch_completed h]
    exact ⟨fun _ => rfl, fun _ => rfl⟩
  · rw [if_neg hs]
    exact ⟨fun he => absurd he.choose_spec (not_watch h hs), fun he => absurd he hs⟩

end Kvm

/-! ## The job -/

namespace MigrationHandler

open Kvm (Reply Exn Status Settles Watches WatchMigration)

inductive InstanceState
  | migrating | running
  deriving DecidableEq, Repr

/-- The instance the job is about, and whether its process runs on the source. -/
structure Instance where
  state : InstanceState
  hostNode : Nat
  onSource : Bool
  deriving DecidableEq, Repr

/-- What the job meets besides the replies: whether `start_migration` and the
`switch_instance_host_node` rpc raise. -/
structure Calls where
  startRaises : Bool
  switchRaises : Bool
  destNode : Nat

def Instance.fail (i : Instance) : Instance := { i with state := .running }

/-- The job from the end of `watch_migration` on. -/
def Calls.finish (c : Calls) (i : Instance) : Except Exn Unit → Instance
  | .error _ => i.fail
  | .ok () =>
    let i := { i with onSource := false }
    if c.switchRaises then i.fail
    else { i with hostNode := c.destNode, state := .running }

/-- What `start_migration` leaves, if it ends. -/
def StartMigration (c : Calls) (reply : Nat → Reply) (i i' : Instance) : Prop :=
  if c.startRaises then i' = i.fail
  else ∃ r, WatchMigration reply r ∧ i' = c.finish i r

/-- The source is given up only for a completed migration, and otherwise the
instance runs on it. -/
structure Moves (c : Calls) (replies : Nat → Text) (s : Status) (i : Instance) : Prop where
  leaves : ∀ i', StartMigration c (fun k => .line (replies k)) i i' →
    i'.onSource ≠ i.onSource ∨ i'.hostNode ≠ i.hostNode → s = .completed ∧ c.startRaises = false
  finishes : s = .completed → c.startRaises = false →
    StartMigration c (fun k => .line (replies k)) i (c.finish i (.ok ()))
  stays : s ≠ .completed ∨ c.startRaises = true →
    StartMigration c (fun k => .line (replies k)) i { i with state := .running }

section
variable {c : Calls} {replies : Nat → Text} {s : Status} {i : Instance}

theorem moves_of_raises (hr : c.startRaises = true) : Moves c replies s i where
  leaves i' h hd := by
    rw [StartMigration, if_pos hr] at h
    subst h
    exact absurd hd (by simp [Instance.fail])
  finishes _ hf := by
    rw [hr] at hf
    cases hf
  stays _ := by
    rw [StartMigration, if_pos hr]
    rfl

theorem moves_of_completed (h : Settles replies .completed) (hr : c.startRaises = false) :
    Moves c replies .completed i where
  leaves _ _ _ := ⟨rfl, hr⟩
  finishes _ _ := by
    rw [StartMigration, if_neg (by simp [hr])]
    exact ⟨.ok (), (Kvm.watch_completed h).mpr rfl, rfl⟩
  stays hd := by
    rcases hd with hd | hd
    · exact absurd rfl hd
    · rw [hr] at hd
      cases hd

theorem not_moves (h : Settles replies s) (hs : s ≠ .completed) (hr : c.startRaises = false) :
    ¬ Moves c replies s i := by
  intro hm
  have := hm.stays (.inl hs)
  rw [StartMigration, if_neg (by simp [hr])] at this
  obtain ⟨r, hw, -⟩ := this
  exact Kvm.not_watch h hs hw

theorem moves_iff (h : Settles replies s) :
    Moves c replies s i ↔ s = .completed ∨ c.startRaises = true := by
  cases hr : c.startRaises with
  | true => exact ⟨fun _ => .inr rfl, fun _ => moves_of_raises hr⟩
  | false =>
    constructor
    · intro hm
      by_cases hs : s = .completed
      · exact .inl hs
      · exact absurd hm (not_moves h hs hr)
    · rintro (rfl | hf)
      · exact moves_of_completed h hr
      · cases hf

end

/-- The watch and the job around it do what they should exactly when the
migration completes; a job whose migration does not start does so as well. -/
theorem migrates_iff {replies : Nat → Text} {s : Status} (h : Settles replies s) :
    (Watches replies s ↔ s = .completed) ∧
    ∀ (c : Calls) (i : Instance), Moves c replies s i ↔ s = .completed ∨ c.startRaises = true :=
  ⟨Kvm.watches_iff_completed h, fun _ _ => moves_iff h⟩

def replyText (status : String) : Text :=
  ("info migrate\n" ++ "Migration status: " ++ status ++ "\n").toList

theorem settles_replyText {s : Status} {status : String}
    (h : Kvm.migrationStatus (replyText status) = some s.text) :
    Settles (fun _ => replyText status) s :=
  ⟨0, fun _ hk => absurd hk (Nat.not_lt_zero _), fun _ _ => h⟩

/-- The migration is active for the first `n` replies. -/
def activeReplies (n : Nat) (k : Nat) : Text :=
  if k < n then replyText "active" else replyText "completed"

theorem settles_activeReplies (n : Nat) : Settles (activeReplies n) .completed := by
  refine ⟨n, fun k hk s => ?_, fun k hk => ?_⟩
  · rw [activeReplies, if_pos hk]
    cases s <;> decide
  · rw [activeReplies, if_neg (Nat.not_lt.mpr hk)]
    decide

/-- Two replies are active; the source is given up, and the instance is on host node 2. -/
theorem migrates_completed :
    Watches (activeReplies 2) .completed ∧
      StartMigration ⟨false, false, 2⟩ (fun k => .line (activeReplies 2 k)) ⟨.migrating, 1, true⟩
        ⟨.running, 2, false⟩ :=
  have h := migrates_iff (settles_activeReplies 2)
  ⟨h.1.mpr rfl, ((h.2 ⟨false, false, 2⟩ ⟨.migrating, 1, true⟩).mpr (.inl rfl)).finishes rfl rfl⟩

/-- A failed migration: the loop does not end, and the job never gets to its
failure block. -/
theorem not_migrates_failed :
    ¬ Watches (fun _ => replyText "failed") .failed ∧
    ∀ i, ¬ StartMigration ⟨false, false, 2⟩ (fun _ => .line (replyText "failed"))
      ⟨.migrating, 1, true⟩ i := by
  have h : Settles (fun _ => replyText "failed") .failed :=
    settles_replyText (by decide)
  refine ⟨fun hw => absurd ((Kvm.watches_iff_completed h).mp hw) (by decide), fun i hi => ?_⟩
  rw [StartMigration, if_neg (by decide)] at hi
  obtain ⟨r, hw, -⟩ := hi
  exact Kvm.not_watch h (by decide) hw

end MigrationHandler
end WakameVdc
