import WakameVdc.Evacuate
import WakameVdc.Lib.Run
import WakameVdc.Lib.Sessions

/-!
# Attaching and detaching volumes

The requests `attach` and `detach` of `endpoints/12.03/volumes.rb`, `poweron` and `poweroff`
of `endpoints/12.03/instances.rb`, and the jobs of `rpc/hva_handler.rb` they submit. A job
makes one rpc or driver call after another, and between two of them anything else may happen.
-/

namespace WakameVdc

open Lib

namespace VolumeAttach

open Scheduler (InstanceState VolumeState)
open Sessions (Outcome)

structure Volume where
  state : VolumeState
  instanceId : Option Nat
  deriving DecidableEq, Repr

/-- `up` says that the machine has a process. -/
structure Instance where
  state : InstanceState
  terminated : Bool
  bootVolumeId : Nat
  up : Bool
  deriving DecidableEq, Repr

/-! ## Jobs -/

/-- `named` says that the volume was in the `:volume` of the instance. -/
inductive Attach
  | submitted
  | read (named : Bool)
  | checked (named : Bool)
  | marked (named : Bool)
  | plugged
  | failed
  deriving DecidableEq, Repr

inductive Detach
  | submitted | checked | marked | unplugged
  deriving DecidableEq, Repr

/-- `named` says which volumes were in the `:volume` of the instance. -/
inductive Poweron
  | submitted
  | read (named : Nat → Bool)
  | starting (named : Nat → Bool)
  | on
  | failed

/-- `soft` is the job `soft_poweroff`. -/
inductive Poweroff
  | submitted | off | soft
  deriving DecidableEq, Repr

inductive Job
  | attach (instanceId volumeId : Nat) (at_ : Attach)
  | detach (instanceId volumeId : Nat) (at_ : Detach)
  | poweron (instanceId : Nat) (at_ : Poweron)
  | poweroff (instanceId : Nat) (at_ : Poweroff)

namespace Job

def instanceId : Job → Nat
  | attach i _ _ | detach i _ _ | poweron i _ | poweroff i _ => i

def volumeId : Job → Option Nat
  | attach _ v _ | detach _ v _ => some v
  | poweron _ _ | poweroff _ _ => none

/-- A job that turns its instance on or off. One that failed has only its state to write. -/
def power : Job → Bool
  | attach _ _ _ | detach _ _ _ | poweron _ .failed => false
  | poweron _ _ | poweroff _ _ => true

/-- A job about a volume that another one is about too, or about an instance that is turned on
or off. -/
def clash (j j' : Job) : Prop :=
  (∃ v, j.volumeId = some v ∧ j'.volumeId = some v) ∨ j.instanceId = j'.instanceId ∧ (j.power ∨ j'.power)

end Job

/-! ## The system -/

/-- The rows, the volumes that each machine has plugged in, and the jobs under the ids of their
sessions. -/
structure Sys where
  volume : Nat → Volume
  inst : Nat → Instance
  plugged : Nat → Nat → Bool
  jobs : Hash Nat Job

namespace Sys

variable (s : Sys)

def setVolume (v : Nat) (f : Volume → Volume) : Sys :=
  { s with volume := fun x => if x = v then f (s.volume x) else s.volume x }

/-- `update_volume` with a new state. -/
def setVolumeState (v : Nat) (state : VolumeState) : Sys := s.setVolume v fun x => { x with state }

/-- `update_volume_state_to_available` -/
def release (v : Nat) : Sys := s.setVolume v fun x => { x with state := .available, instanceId := none }

/-- `update_instance` with a new state. -/
def setState (i : Nat) (state : InstanceState) : Sys :=
  { s with inst := fun x => if x = i then { s.inst x with state } else s.inst x }

/-- `attach_volume_to_guest`, which needs a machine that is up. -/
def plug (v i : Nat) : Sys :=
  { s with plugged := fun x y => s.plugged x y || (x == v && y == i && (s.inst i).up) }

def unplug (v i : Nat) : Sys := { s with plugged := fun x y => s.plugged x y && !(x == v && y == i) }

/-- `poweron_instance`: the machine starts with the volumes of its instance. -/
def turnOn (i : Nat) (named : Nat → Bool) : Sys where
  volume := s.volume
  inst x := if x = i then { s.inst x with up := true } else s.inst x
  plugged x y := s.plugged x y || (y == i && named x)
  jobs := s.jobs

/-- `poweroff_instance`, or the machine goes down by itself. -/
def turnOff (i : Nat) : Sys where
  volume := s.volume
  inst x := if x = i then { s.inst x with up := false } else s.inst x
  plugged x y := s.plugged x y && y != i
  jobs := s.jobs

def submit (k : Nat) (j : Job) : Sys := { s with jobs := s.jobs.insert k j }

def finish (k : Nat) : Sys := { s with jobs := s.jobs.erase k }

def next (k : Nat) (j : Option Job) : Sys := j.elim (s.finish k) (s.submit k)

def when (b : Bool) (f : Sys → Sys) : Sys := if b then f s else s

/-! ## Calls of the jobs -/

def execAttach (k i v : Nat) (o : Outcome) : Attach → Sys
  | .submitted =>
    if o.raises then s.submit k (.attach i v .failed)
    else s.submit k (.attach i v (.read ((s.volume v).instanceId == some i)))
  | .read named =>
    if o.raises ∨ (s.volume v).state ≠ .available then s.submit k (.attach i v .failed)
    else s.submit k (.attach i v (.checked named))
  | .checked named =>
    (s.when o.written fun s => s.setVolumeState v .attaching).submit k
      (.attach i v (if o.raises then .failed else .marked named))
  | .marked named =>
    -- `@hva_ctx.inst[:volume][@vol_id]` is nil unless the volume was named
    if !named then s.submit k (.attach i v .failed)
    else
      (s.when o.acts fun s => s.plug v i).submit k (.attach i v (if o.raises then .failed else .plugged))
  | .plugged =>
    (s.when o.written fun s => s.setVolumeState v .attached).next k
      (if o.raises then some (.attach i v .failed) else none)
  | .failed => (s.finish k).when o.written fun s => s.setVolumeState v .available

/-- The job has no failure block. -/
def execDetach (k i v : Nat) (o : Outcome) : Detach → Sys
  | .submitted =>
    if o.raises ∨ (s.volume v).state ≠ .attached then s.finish k else s.submit k (.detach i v .checked)
  | .checked =>
    (s.when o.written fun s => s.setVolumeState v .detaching).next k
      (if o.raises then none else some (.detach i v .marked))
  | .marked =>
    (s.when o.acts fun s => s.unplug v i).next k (if o.raises then none else some (.detach i v .unplugged))
  | .unplugged => (s.finish k).when o.written fun s => s.release v

def execPoweron (k i : Nat) (o : Outcome) : Poweron → Sys
  | .submitted =>
    if o.raises then s.submit k (.poweron i .failed)
    else s.submit k (.poweron i (.read fun v => (s.volume v).instanceId == some i))
  | .read named =>
    (s.when o.written fun s => s.setState i .starting).submit k
      (.poweron i (if o.raises then .failed else .starting named))
  | .starting named =>
    (s.when o.acts fun s => s.turnOn i named).submit k (.poweron i (if o.raises then .failed else .on))
  | .on =>
    (s.next k (if o.raises then some (.poweron i .failed) else none)).when o.written
      fun s => s.setState i .running
  | .failed => (s.finish k).when o.written fun s => s.setState i .halted

def execPoweroff (k i : Nat) (o : Outcome) : Poweroff → Sys
  | .submitted => (s.when o.acts fun s => s.turnOff i).next k (if o.raises then none else some (.poweroff i .off))
  | .off => (s.finish k).when o.written fun s => s.setState i .halted
  -- the guest is asked to shut down, which it does later or not at all
  | .soft => s.finish k

def exec (k : Nat) (o : Outcome) : Job → Sys
  | .attach i v p => s.execAttach k i v o p
  | .detach i v p => s.execDetach k i v o p
  | .poweron i p => s.execPoweron k i o p
  | .poweroff i p => s.execPoweroff k i o p

/-! ## Requests -/

/-- `i.live? && ['running', 'halted'].member?(i.state)` -/
def ready (i : Nat) : Bool :=
  !(s.inst i).terminated && ((s.inst i).state == .running || (s.inst i).state == .halted)

/-- The state of the volume is looked at only to find one that is attached. -/
def attach (k v i : Nat) : Sys :=
  if !s.ready i then s
  else if (s.volume v).instanceId.isSome ∧ (s.volume v).state = .attached then s
  else
    let t := s.setVolume v fun x => { x with instanceId := some i }
    if (s.inst i).state = .running then t.submit k (.attach i v .submitted)
    else t.setVolumeState v .attached

def detach (k v : Nat) : Sys :=
  match (s.volume v).instanceId with
  | none => s
  | some i =>
    if (s.inst i).bootVolumeId = v then s
    else if !s.ready i then s
    else if (s.inst i).state = .running then s.submit k (.detach i v .submitted)
    else s.release v

def poweron (k i : Nat) : Sys :=
  if (s.inst i).state ≠ .halted then s else (s.setState i .starting).submit k (.poweron i .submitted)

def poweroff (k i : Nat) (force : Bool) : Sys :=
  if (s.inst i).state ≠ .running ∧ (s.inst i).state ≠ .halting then s
  else (s.setState i .halting).submit k (.poweroff i (if force then .submitted else .soft))

end Sys

/-- A request is given the id of the session of the job it submits. A job is lost with its agent,
a machine goes down by itself, and the write of `instance_state_recovery` arrives. -/
inductive Step
  | attach (k v i : Nat)
  | detach (k v : Nat)
  | poweron (k i : Nat)
  | poweroff (k i : Nat) (force : Bool)
  | run (k : Nat) (o : Outcome)
  | lose (k : Nat)
  | crash (i : Nat)
  | recover (i : Nat)

def Sys.step (s : Sys) : Step → Sys
  | .attach k v i => s.attach k v i
  | .detach k v => s.detach k v
  | .poweron k i => s.poweron k i
  | .poweroff k i force => s.poweroff k i force
  | .run k o => (s.jobs.lookup k).elim s (s.exec k o)
  | .lose k => s.finish k
  | .crash i => s.turnOff i
  | .recover i => s.setState i .halted

/-! ## Who has a volume -/

/-- The row of a volume names the instance that has it plugged in, and the one it is being
attached to. -/
structure Exclusive (s : Sys) : Prop where
  named : ∀ v i, s.plugged v i = true → (s.volume v).instanceId = some i
  once : ∀ v i i', s.plugged v i = true → s.plugged v i' = true → i = i'
  attaching : ∀ k v i p, s.jobs.lookup k = some (.attach i v p) → (s.volume v).instanceId = some i

def Sys.idleVolume (s : Sys) (v : Nat) : Bool := (Hash.values s.jobs).all fun j => j.volumeId != some v

def Sys.idleInstance (s : Sys) (i : Nat) : Bool := (Hash.values s.jobs).all fun j => j.instanceId != i

def Sys.free (s : Sys) (k : Nat) : Bool := (s.jobs.lookup k).isNone

/-- A driver call that answers has detached the volume or turned the machine off, and the failure
block of `poweron` does not call a machine halted that is up. -/
def Job.ends (s : Sys) (o : Outcome) : Job → Bool
  | .detach _ _ .marked | .poweroff _ .submitted => o.raises || o.acts
  | .poweron i .failed => !(o.written && (s.inst i).up)
  | _ => true

/-- No request is made while a job about the same volume or instance is outstanding, a volume is
not taken from the instance its row names, and no machine that is up is called halted. -/
def Fits (s : Sys) : Step → Prop
  | .attach k v i => s.free k = true ∧ s.idleVolume v = true ∧
    ((s.volume v).instanceId = none ∨ (s.volume v).instanceId = some i)
  | .detach k v => s.free k = true ∧ s.idleVolume v = true
  | .poweron k i | .poweroff k i _ => s.free k = true ∧ s.idleInstance i = true
  | .run k o => ∀ j ∈ s.jobs.lookup k, j.ends s o = true
  | .lose _ | .crash _ => True
  | .recover i => (s.inst i).up = false ∧ s.idleInstance i = true

instance (s : Sys) : DecidablePred (Fits s)
  | .attach _ _ _ => inferInstanceAs (Decidable (_ ∧ _ ∧ (_ ∨ _)))
  | .detach _ _ | .poweron _ _ | .poweroff _ _ _ | .recover _ => inferInstanceAs (Decidable (_ ∧ _))
  | .run k o => inferInstanceAs (Decidable (∀ j ∈ s.jobs.lookup k, j.ends s o = true))
  | .lose _ | .crash _ => inferInstanceAs (Decidable True)

/-- All machines are down and no job is outstanding. -/
structure Cold (s : Sys) : Prop where
  jobs : s.jobs = ∅
  plugged : ∀ v i, s.plugged v i = false
  down : ∀ i, (s.inst i).up = false

end VolumeAttach

end WakameVdc
