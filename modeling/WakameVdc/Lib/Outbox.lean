import WakameVdc.Lib.Run

/-!
# An outbox that is sent from while it is filled

Items are put into an outbox. A sender takes what is there, is busy for a while, and then
empties the outbox. What is put in while it is busy goes with the rest and is never sent;
every other item is sent once, in the order of their coming.
-/

namespace Lib

structure Outbox (α : Type*) where
  pending : List α
  sending : Bool
  sent : List α

namespace Outbox

inductive Act (α : Type*)
  | put (a : α)
  | send
  | clear

variable {α : Type*} (o : Outbox α)

def empty : Outbox α := ⟨[], false, []⟩

def step : Act α → Outbox α
  | .put a => { o with pending := o.pending ++ [a] }
  | .send => { o with sending := true, sent := o.sent ++ o.pending }
  | .clear => { o with sending := false, pending := [] }

def Enabled : Act α → Prop
  | .put _ => True
  | .send => o.sending = false
  | .clear => o.sending = true

def kept : Act α → List α
  | .put a => if o.sending then [] else [a]
  | .send | .clear => []

def unsent : List α := if o.sending then [] else o.pending

variable {o}

theorem step_kept {a : Act α} (h : o.Enabled a) :
    (o.step a).sent ++ (o.step a).unsent = o.sent ++ o.unsent ++ o.kept a := by
  unfold unsent
  cases a with
  | put a =>
    by_cases hs : o.sending = true
    · simp [step, kept, hs]
    · simp [step, kept, hs]
  | send =>
    have hs : o.sending = false := h
    simp [step, kept, hs]
  | clear =>
    have hs : o.sending = true := h
    simp [step, kept, hs]

section
variable {σ β : Type*} {f : σ → β → σ} {P : σ → β → Prop} (I : σ → Prop) (box : σ → Outbox α)
  (act : σ → β → Option (Act α))

/-- What a step of a system does to its outbox, if it does anything. -/
def Follows (s : σ) (b : β) (s' : σ) : Prop :=
  match act s b with
  | none => box s' = box s
  | some a => (box s).Enabled a ∧ box s' = (box s).step a

/-- What a system has sent and is still to send is what it has put in and kept. -/
theorem run_kept (hs : ∀ s b, I s → P s b → I (f s b) ∧ Follows box act s b (f s b)) {s : σ} {bs : List β}
    (h : Each f P s bs) (h0 : I s) :
    (box (bs.foldl f s)).sent ++ (box (bs.foldl f s)).unsent =
      (box s).sent ++ (box s).unsent ++
        (trace f (fun s b => (act s b).elim [] (box s).kept) s bs).flatten := by
  induction bs generalizing s with
  | nil => simp [trace]
  | cons b bs ih =>
    obtain ⟨hI, hstep⟩ := hs s b h0 h.1
    have hone : (box (f s b)).sent ++ (box (f s b)).unsent =
        (box s).sent ++ (box s).unsent ++ (act s b).elim [] (box s).kept := by
      unfold Follows at hstep
      cases hact : act s b with
      | none =>
        rw [hact] at hstep
        rw [hstep, Option.elim_none, List.append_nil]
      | some a =>
        rw [hact] at hstep
        rw [hstep.2, step_kept hstep.1, Option.elim_some]
    rw [List.foldl_cons, ih h.2 hI, hone, trace, List.flatten_cons, List.append_assoc]

end

end Outbox

end Lib
