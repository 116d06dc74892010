import Mathlib.Tactic.Common

/-!
# Computations that keep what they wrote when they raise

A computation over a state `σ` answers or raises, and in both cases leaves the
state it reached. `Keeps I x` says that `x` leads from states with `I` to states
with `I`, whether it answers or not.
-/

namespace Lib

theorem bind_ok {ε α β : Type} {x : Except ε α} {f : α → Except ε β} {b : β}
    (h : x >>= f = .ok b) : ∃ a, x = .ok a ∧ f a = .ok b := by
  cases x with
  | error e => cases h
  | ok a => exact ⟨a, rfl, h⟩

theorem foldlM_invariant {ε σ α : Type} {f : σ → α → Except ε σ} (I : σ → Prop)
    (hf : ∀ s a s', I s → f s a = .ok s' → I s') {as : List α} {s s' : σ}
    (h : as.foldlM f s = .ok s') (hs : I s) : I s' := by
  induction as generalizing s with
  | nil =>
    cases h
    exact hs
  | cons a as ih =>
    rw [List.foldlM_cons] at h
    obtain ⟨t, ht, h⟩ := bind_ok h
    exact ih h (hf s a t hs ht)

abbrev Proc (ε σ : Type) := ExceptT ε (StateM σ)

namespace Proc

variable {ε σ α β : Type}

def exec (x : Proc ε σ α) (s : σ) : Except ε α × σ := StateT.run (ExceptT.run x) s

def final (x : Proc ε σ α) (s : σ) : σ := (exec x s).2

/-- `x` if the condition holds. -/
def when (c : Bool) (x : Proc ε σ Unit) : Proc ε σ Unit := if c then x else pure ()

theorem exec_pure (a : α) (s : σ) : exec (pure a : Proc ε σ α) s = (.ok a, s) := rfl

theorem exec_get (s : σ) : exec (get : Proc ε σ σ) s = (.ok s, s) := rfl

theorem exec_modify (g : σ → σ) (s : σ) : exec (modify g : Proc ε σ Unit) s = (.ok (), g s) := rfl

theorem exec_bind (x : Proc ε σ α) (f : α → Proc ε σ β) (s : σ) :
    exec (x >>= f) s =
      match exec x s with
      | (.ok a, t) => exec (f a) t
      | (.error e, t) => (.error e, t) := by
  show (StateT.run (ExceptT.run x) s >>= fun p => StateT.run (ExceptT.bindCont f p.1) p.2) = _
  unfold exec
  cases h : StateT.run (ExceptT.run x) s with
  | mk r t =>
    cases r with
    | ok a => rfl
    | error e => rfl

theorem exec_bind_ok {x : Proc ε σ α} {f : α → Proc ε σ β} {s u : σ} {b : β}
    (h : exec (x >>= f) s = (.ok b, u)) :
    ∃ a t, exec x s = (.ok a, t) ∧ exec (f a) t = (.ok b, u) := by
  rw [exec_bind] at h
  cases hx : exec x s with
  | mk r t =>
    rw [hx] at h
    cases r with
    | ok a => exact ⟨a, t, rfl, h⟩
    | error e => cases h

theorem final_bind_get (f : σ → Proc ε σ β) (s : σ) :
    final (get >>= f) s = final (f s) s := by
  unfold final
  rw [exec_bind, exec_get]

theorem final_bind_modify (g : σ → σ) (f : Unit → Proc ε σ β) (s : σ) :
    final (modify g >>= f) s = final (f ()) (g s) := by
  unfold final
  rw [exec_bind, exec_modify]

structure Keeps (I : σ → Prop) (x : Proc ε σ α) : Prop where
  at_final : ∀ s, I s → I (final x s)

variable {I : σ → Prop}

theorem keeps_pure (a : α) : Keeps I (pure a : Proc ε σ α) := ⟨fun _ hs => hs⟩

theorem keeps_throw (e : ε) : Keeps I (throw e : Proc ε σ α) := ⟨fun _ hs => hs⟩

theorem keeps_get : Keeps I (get : Proc ε σ σ) := ⟨fun _ hs => hs⟩

theorem keeps_modify {g : σ → σ} (h : ∀ s, I s → I (g s)) :
    Keeps I (modify g : Proc ε σ Unit) := ⟨h⟩

theorem keeps_set {t : σ} (h : I t) : Keeps I (set t : Proc ε σ PUnit) := ⟨fun _ _ => h⟩

theorem final_bind {x : Proc ε σ α} {f : α → Proc ε σ β} {s : σ} (hx : I (final x s))
    (hf : ∀ a, Keeps I (f a)) : I (final (x >>= f) s) := by
  unfold final at hx ⊢
  rw [exec_bind]
  cases h : exec x s with
  | mk r t =>
    rw [h] at hx
    cases r with
    | ok a => exact (hf a).at_final t hx
    | error e => exact hx

theorem Keeps.bind {x : Proc ε σ α} {f : α → Proc ε σ β} (hx : Keeps I x)
    (hf : ∀ a, Keeps I (f a)) : Keeps I (x >>= f) :=
  ⟨fun s hs => final_bind (hx.at_final s hs) hf⟩

theorem keeps_when {c : Bool} {x : Proc ε σ Unit} (hx : c = true → Keeps I x) :
    Keeps I (when c x) := by
  cases c with
  | true => exact hx rfl
  | false => exact keeps_pure _

theorem keeps_forM {γ : Type} {as : List γ} {f : γ → Proc ε σ PUnit}
    (hf : ∀ a ∈ as, Keeps I (f a)) : Keeps I (as.forM f) := by
  induction as with
  | nil => exact keeps_pure _
  | cons a as ih =>
    show Keeps I (f a >>= fun _ => as.forM f)
    apply Keeps.bind (hf a List.mem_cons_self)
    intro _
    apply ih
    intro b hb
    exact hf b (List.mem_cons_of_mem _ hb)

/-- From states with `I` the computation leads to states with `I`, and what it
answers, if it does, meets `Q`. -/
structure Answers (I : σ → Prop) (x : Proc ε σ α) (Q : α → Prop) : Prop where
  keeps : Keeps I x
  answer : ∀ s, I s → ∀ a t, exec x s = (.ok a, t) → Q a

section
variable {Q : α → Prop} {R : β → Prop} {x : Proc ε σ α} {f : α → Proc ε σ β}

theorem answers_pure {a : α} (h : Q a) : Answers I (pure a : Proc ε σ α) Q := by
  refine ⟨keeps_pure a, ?_⟩
  intro s _ b t hb
  cases hb
  exact h

theorem answers_throw (e : ε) : Answers I (throw e : Proc ε σ α) Q := by
  refine ⟨keeps_throw e, ?_⟩
  intro s _ b t hb
  cases hb

theorem answers_get : Answers I (get : Proc ε σ σ) I := by
  refine ⟨keeps_get, ?_⟩
  intro s hs b t hb
  cases hb
  exact hs

theorem Keeps.answers (h : Keeps I x) : Answers I x fun _ => True := ⟨h, fun _ _ _ _ _ => trivial⟩

theorem Answers.bind_keeps (hx : Answers I x Q) (hf : ∀ a, Q a → Keeps I (f a)) :
    Keeps I (x >>= f) := by
  constructor
  intro s hs
  have hk := hx.keeps.at_final s hs
  unfold final at hk ⊢
  rw [exec_bind]
  cases h : exec x s with
  | mk r t =>
    rw [h] at hk
    cases r with
    | ok a => exact (hf a (hx.answer s hs a t h)).at_final t hk
    | error e => exact hk

theorem Answers.bind (hx : Answers I x Q) (hf : ∀ a, Q a → Answers I (f a) R) :
    Answers I (x >>= f) R := by
  refine ⟨hx.bind_keeps fun a ha => (hf a ha).keeps, ?_⟩
  intro s hs b u h
  obtain ⟨a, t, ha, hb⟩ := exec_bind_ok h
  have ht : I t := by
    have hk := hx.keeps.at_final s hs
    unfold final at hk
    rw [ha] at hk
    exact hk
  exact (hf a (hx.answer s hs a t ha)).answer t ht b u hb

theorem Keeps.bind_answers (hx : Keeps I x) (hf : ∀ a, Answers I (f a) R) :
    Answers I (x >>= f) R :=
  hx.answers.bind fun a _ => hf a

end

/-- From states with `I` the computation answers in a state with `Q`, or raises in
one with `E`. -/
structure Ends (I : σ → Prop) (x : Proc ε σ α) (Q : α → σ → Prop) (E : σ → Prop) : Prop where
  ok : ∀ s, I s → ∀ a t, exec x s = (.ok a, t) → Q a t
  error : ∀ s, I s → ∀ e t, exec x s = (.error e, t) → E t

theorem ends_pure {a : α} {E : σ → Prop} : Ends I (pure a : Proc ε σ α) (fun _ => I) E := by
  refine ⟨?_, ?_⟩
  · intro s hs b t h
    cases h
    exact hs
  · intro s _ e t h
    cases h

theorem ends_throw {e : ε} {Q : α → σ → Prop} : Ends I (throw e : Proc ε σ α) Q I := by
  refine ⟨?_, ?_⟩
  · intro s _ a t h
    cases h
  · intro s hs e' t h
    cases h
    exact hs

theorem ends_modify {g : σ → σ} {J E : σ → Prop} (h : ∀ s, I s → J (g s)) :
    Ends I (modify g : Proc ε σ Unit) (fun _ => J) E := by
  refine ⟨?_, ?_⟩
  · intro s hs a t ht
    cases ht
    exact h s hs
  · intro s _ e t ht
    cases ht

theorem Keeps.ends {x : Proc ε σ α} (h : Keeps I x) : Ends I x (fun _ => I) I := by
  have hf : ∀ s, I s → I (exec x s).2 := h.at_final
  refine ⟨?_, ?_⟩
  · intro s hs a t ht
    have := hf s hs
    rw [ht] at this
    exact this
  · intro s hs e t ht
    have := hf s hs
    rw [ht] at this
    exact this

theorem Ends.pre {p : Prop} {x : Proc ε σ α} {Q : α → σ → Prop} {E : σ → Prop}
    (h : p → Ends I x Q E) : Ends (fun s => p ∧ I s) x Q E :=
  ⟨fun s hs => (h hs.1).ok s hs.2, fun s hs => (h hs.1).error s hs.2⟩

theorem Ends.bind {x : Proc ε σ α} {f : α → Proc ε σ β} {Q : α → σ → Prop} {R : β → σ → Prop}
    {E : σ → Prop} (hx : Ends I x Q E) (hf : ∀ a, Ends (Q a) (f a) R E) : Ends I (x >>= f) R E := by
  refine ⟨?_, ?_⟩
  · intro s hs b u h
    obtain ⟨a, t, ha, hb⟩ := exec_bind_ok h
    exact (hf a).ok t (hx.ok s hs a t ha) b u hb
  · intro s hs e u h
    rw [exec_bind] at h
    cases ha : exec x s with
    | mk r t =>
      rw [ha] at h
      cases r with
      | ok a => exact (hf a).error t (hx.ok s hs a t ha) e u h
      | error e' =>
        cases h
        exact hx.error s hs _ _ ha

/-- From `s` the computation answers with `a`, in the state `t`. -/
def Runs (x : Proc ε σ α) (s : σ) (a : α) (t : σ) : Prop := exec x s = (.ok a, t)

theorem Runs.final {x : Proc ε σ α} {s t : σ} {a : α} (h : Runs x s a t) : final x s = t := by
  unfold Proc.final
  rw [h]

theorem runs_pure (a : α) (s : σ) : Runs (pure a : Proc ε σ α) s a s := rfl

theorem runs_modify (g : σ → σ) (s : σ) : Runs (modify g : Proc ε σ Unit) s () (g s) := rfl

theorem Runs.bind {x : Proc ε σ α} {f : α → Proc ε σ β} {s t u : σ} {a : α} {b : β}
    (hx : Runs x s a t) (hf : Runs (f a) t b u) : Runs (x >>= f) s b u := by
  unfold Runs
  rw [exec_bind, hx]
  exact hf

theorem Runs.final_bind {x : Proc ε σ α} {f : α → Proc ε σ β} {s t : σ} {a : α} (h : Runs x s a t) :
    Proc.final (x >>= f) s = Proc.final (f a) t := by
  unfold Proc.final
  rw [exec_bind, h]

theorem final_bind_pure (x : Proc ε σ α) (b : β) (s : σ) :
    Proc.final (x >>= fun _ => pure b) s = Proc.final x s := by
  unfold Proc.final
  rw [exec_bind]
  cases exec x s with
  | mk r t =>
    cases r with
    | ok a => rfl
    | error e => rfl

theorem runs_when {c : Bool} {x : Proc ε σ Unit} {s t : σ} (hx : c = true → Runs x s () t)
    (hs : c = false → t = s) : Runs (when c x) s () t := by
  cases c with
  | true => exact hx rfl
  | false =>
    rw [hs rfl]
    exact runs_pure () s

theorem runs_forM {γ : Type} (J : List γ → σ → Prop) {as : List γ} {f : γ → Proc ε σ PUnit}
    (hf : ∀ done a rest s, as = done ++ a :: rest → J done s →
      ∃ t, Runs (f a) s () t ∧ J (done ++ [a]) t) {s : σ} (hs : J [] s) :
    ∃ t, Runs (as.forM f) s () t ∧ J as t := by
  have hrest : ∀ rest done s, as = done ++ rest → J done s →
      ∃ t, Runs (rest.forM f) s () t ∧ J as t := by
    intro rest
    induction rest with
    | nil =>
      intro done s he hd
      rw [List.append_nil] at he
      rw [he]
      exact ⟨s, runs_pure () s, hd⟩
    | cons a rest ih =>
      intro done s he hd
      obtain ⟨t, ht, hj⟩ := hf done a rest s he hd
      obtain ⟨u, hu, hall⟩ := ih (done ++ [a]) t (by rw [he, List.append_assoc]; rfl) hj
      refine ⟨u, ?_, hall⟩
      show Runs (f a >>= fun _ => rest.forM f) s () u
      exact ht.bind hu
  exact hrest as [] s rfl hs

/-- What holds after each part of the list holds after a loop that answers. -/
theorem forM_invariant {γ : Type} (J : List γ → σ → Prop) {as : List γ} {f : γ → Proc ε σ PUnit}
    (hf : ∀ done a rest s t, as = done ++ a :: rest → J done s → exec (f a) s = (.ok (), t) →
      J (done ++ [a]) t) {s t : σ} (hs : J [] s) (h : exec (as.forM f) s = (.ok (), t)) : J as t := by
  have hrest : ∀ rest done s, as = done ++ rest → J done s → exec (rest.forM f) s = (.ok (), t) → J as t := by
    intro rest
    induction rest with
    | nil =>
      intro done s he hd h
      cases h
      rw [he, List.append_nil]
      exact hd
    | cons a rest ih =>
      intro done s he hd h
      obtain ⟨_, u, hu, h⟩ := exec_bind_ok (show exec (f a >>= fun _ => rest.forM f) s = _ from h)
      exact ih (done ++ [a]) u (by rw [he, List.append_assoc]; rfl) (hf done a rest s u he hd hu) h
  exact hrest as [] s rfl hs h

/-- From states with `I` the computation answers with some `a` with `Q a`, in a
state with `I`. -/
structure Succeeds (I : σ → Prop) (x : Proc ε σ α) (Q : α → Prop) : Prop where
  runs : ∀ s, I s → ∃ a t, exec x s = (.ok a, t) ∧ I t ∧ Q a

theorem succeeds_pure {Q : α → Prop} {a : α} (h : Q a) :
    Succeeds I (pure a : Proc ε σ α) Q := ⟨fun s hs => ⟨a, s, rfl, hs, h⟩⟩

theorem succeeds_modify {g : σ → σ} (h : ∀ s, I s → I (g s)) :
    Succeeds I (modify g : Proc ε σ Unit) fun _ => True :=
  ⟨fun s hs => ⟨(), g s, rfl, h s hs, trivial⟩⟩

theorem Succeeds.bind {x : Proc ε σ α} {f : α → Proc ε σ β} {Q : α → Prop} {R : β → Prop}
    (hx : Succeeds I x Q) (hf : ∀ a, Q a → Succeeds I (f a) R) : Succeeds I (x >>= f) R := by
  constructor
  intro s hs
  obtain ⟨a, t, he, ht, ha⟩ := hx.runs s hs
  obtain ⟨b, u, he', hu, hb⟩ := (hf a ha).runs t ht
  refine ⟨b, u, ?_, hu, hb⟩
  rw [exec_bind, he]
  exact he'

theorem succeeds_when {c : Bool} {x : Proc ε σ Unit}
    (hx : c = true → Succeeds I x fun _ => True) : Succeeds I (when c x) fun _ => True := by
  cases c with
  | true => exact hx rfl
  | false => exact succeeds_pure trivial

theorem succeeds_forM {γ : Type} {as : List γ} {f : γ → Proc ε σ PUnit}
    (hf : ∀ a ∈ as, Succeeds I (f a) fun _ => True) :
    Succeeds I (as.forM f) fun _ => True := by
  induction as with
  | nil => exact succeeds_pure trivial
  | cons a as ih =>
    show Succeeds I (f a >>= fun _ => as.forM f) fun _ => True
    apply Succeeds.bind (hf a List.mem_cons_self)
    intro _ _
    apply ih
    intro b hb
    exact hf b (List.mem_cons_of_mem _ hb)

/-- After a computation that succeeds the next one goes on from its state. -/
theorem Succeeds.final_bind {x : Proc ε σ α} {f : α → Proc ε σ β} {Q : α → Prop} {J : σ → Prop}
    (hx : Succeeds I x Q) {s : σ} (hs : I s) (hf : ∀ a t, I t → Q a → J (final (f a) t)) :
    J (final (x >>= f) s) := by
  obtain ⟨a, t, he, ht, ha⟩ := hx.runs s hs
  have := hf a t ht ha
  unfold final at this ⊢
  rw [exec_bind, he]
  exact this

end Proc

end Lib
