import Mathlib.Data.List.Basic
import Mathlib.Data.List.Pairwise
import Mathlib.Algebra.Order.Group.Multiset
import Mathlib.Logic.Function.Basic

/-!
# Chains of rules

Named lists of rules that commands change at the head, and the walk through such a list that ends
at the first rule with a verdict on the packet.
-/

namespace Lib

/-! ## Commands -/

inductive ChainCommand (κ ρ : Type)
  | insert (chain : κ) (rule : ρ)
  | delete (chain : κ) (rule : ρ)
  deriving DecidableEq, Repr

namespace ChainCommand

variable {κ ρ : Type}

def chain : ChainCommand κ ρ → κ
  | insert c _ => c
  | delete c _ => c

end ChainCommand

namespace Chains

section
variable {κ ρ : Type} [DecidableEq κ] [DecidableEq ρ]

def exec (k : κ → List ρ) : ChainCommand κ ρ → κ → List ρ
  | .insert c r => Function.update k c (r :: k c)
  | .delete c r => Function.update k c ((k c).erase r)

def execAll (k : κ → List ρ) (commands : List (ChainCommand κ ρ)) : κ → List ρ :=
  commands.foldl exec k

def rulesFor (c : κ) (l : List (κ × ρ)) : List ρ :=
  l.filterMap fun x => if x.1 = c then some x.2 else none

def inserts (l : List (κ × ρ)) : List (ChainCommand κ ρ) := l.map fun x => .insert x.1 x.2

def deletes (l : List (κ × ρ)) : List (ChainCommand κ ρ) := l.map fun x => .delete x.1 x.2

theorem execAll_append (k : κ → List ρ) (l m : List (ChainCommand κ ρ)) :
    execAll k (l ++ m) = execAll (execAll k l) m := List.foldl_append

omit [DecidableEq ρ] in
@[simp] theorem rulesFor_nil (c : κ) : rulesFor c ([] : List (κ × ρ)) = [] := rfl

omit [DecidableEq ρ] in
theorem rulesFor_cons (c : κ) (x : κ × ρ) (l : List (κ × ρ)) :
    rulesFor c (x :: l) = if x.1 = c then x.2 :: rulesFor c l else rulesFor c l := by
  unfold rulesFor
  by_cases h : x.1 = c
  · simp [h]
  · simp [h]

omit [DecidableEq ρ] in
theorem rulesFor_append (c : κ) (l m : List (κ × ρ)) :
    rulesFor c (l ++ m) = rulesFor c l ++ rulesFor c m := List.filterMap_append

omit [DecidableEq ρ] in
theorem mem_rulesFor {c : κ} {l : List (κ × ρ)} {r : ρ} : r ∈ rulesFor c l ↔ (c, r) ∈ l := by
  simp only [rulesFor, List.mem_filterMap, Option.ite_none_right_eq_some, Option.some.injEq]
  constructor
  · rintro ⟨x, hx, rfl, rfl⟩
    exact hx
  · intro h
    exact ⟨_, h, rfl, rfl⟩

theorem count_rulesFor (c : κ) (l : List (κ × ρ)) (r : ρ) :
    (rulesFor c l).count r = l.count (c, r) := by
  induction l with
  | nil => rfl
  | cons x l ih =>
    rw [rulesFor_cons, List.count_cons, ← ih]
    by_cases h : x.1 = c
    · subst h
      rw [if_pos rfl, List.count_cons]
      simp [Prod.ext_iff]
    · have hne : ¬ x = (c, r) := fun he => h (by rw [he])
      simp [h, hne]

theorem perm_iff_rulesFor {l m : List (κ × ρ)} :
    l.Perm m ↔ ∀ c, (rulesFor c l).Perm (rulesFor c m) := by
  simp only [List.perm_iff_count, count_rulesFor]
  exact ⟨fun h c r => h (c, r), fun h x => h x.1 x.2⟩

omit [DecidableEq ρ] in
theorem rulesFor_of_none {c : κ} {l : List (κ × ρ)} (h : ∀ y ∈ l, y.1 ≠ c) : rulesFor c l = [] := by
  refine List.eq_nil_iff_forall_not_mem.mpr fun r hr => ?_
  exact h _ (mem_rulesFor.mp hr) rfl

theorem execAll_inserts (k : κ → List ρ) (l : List (κ × ρ)) (c : κ) :
    execAll k (inserts l) c = (rulesFor c l).reverse ++ k c := by
  induction l generalizing k with
  | nil => rfl
  | cons x l ih =>
    have hstep : execAll k (inserts (x :: l)) =
        execAll (Function.update k x.1 (x.2 :: k x.1)) (inserts l) := rfl
    rw [hstep, ih, rulesFor_cons]
    by_cases h : x.1 = c
    · subst h
      simp
    · simp [h, Function.update_of_ne (Ne.symm h)]

theorem execAll_deletes (k : κ → List ρ) (l : List (κ × ρ)) (c : κ) :
    execAll k (deletes l) c = (k c).diff (rulesFor c l) := by
  induction l generalizing k with
  | nil => rfl
  | cons x l ih =>
    have hstep : execAll k (deletes (x :: l)) =
        execAll (Function.update k x.1 ((k x.1).erase x.2)) (deletes l) := rfl
    rw [hstep, ih, rulesFor_cons]
    by_cases h : x.1 = c
    · subst h
      simp
    · simp [h, Function.update_of_ne (Ne.symm h)]

theorem append_diff_left (l m : List ρ) : (l ++ m).diff l = m := by
  induction l with
  | nil => rfl
  | cons r l ih => simpa using ih

/-- Deleting the rules that have been inserted, in whatever order, leaves every chain as it was. -/
theorem deletes_inserts (k : κ → List ρ) (l : List (κ × ρ)) :
    execAll (execAll k (inserts l)) (deletes l) = k := by
  funext c
  rw [execAll_deletes, execAll_inserts, List.Perm.diff_left _ (List.reverse_perm _).symm,
    append_diff_left]

theorem exec_of_ne (k : κ → List ρ) {x : ChainCommand κ ρ} {c : κ} (h : x.chain ≠ c) :
    exec k x c = k c := by
  cases x with
  | insert d r => exact Function.update_of_ne (Ne.symm h) ..
  | delete d r => exact Function.update_of_ne (Ne.symm h) ..

theorem execAll_of_none {k : κ → List ρ} {commands : List (ChainCommand κ ρ)} {c : κ}
    (h : ∀ x ∈ commands, x.chain ≠ c) : execAll k commands c = k c := by
  induction commands generalizing k with
  | nil => rfl
  | cons x commands ih =>
    have hstep : execAll k (x :: commands) = execAll (exec k x) commands := rfl
    rw [hstep, ih fun y hy => h y (by simp [hy]), exec_of_ne k (h x (by simp))]

/-! ### Rules put in place of others -/

def exchange (old new : List (κ × ρ)) : List (ChainCommand κ ρ) := inserts new ++ deletes old

theorem coe_execAll_inserts (k : κ → List ρ) (l : List (κ × ρ)) (c : κ) :
    (execAll k (inserts l) c : Multiset ρ) = k c + rulesFor c l := by
  rw [execAll_inserts, ← Multiset.coe_add, Multiset.coe_reverse, Multiset.add_comm]

theorem coe_execAll_deletes (k : κ → List ρ) (l : List (κ × ρ)) (c : κ) :
    (execAll k (deletes l) c : Multiset ρ) = k c - (rulesFor c l : Multiset ρ) := by
  rw [execAll_deletes, Multiset.coe_sub]

theorem coe_execAll_exchange (k : κ → List ρ) (old new : List (κ × ρ)) (c : κ) :
    (execAll k (exchange old new) c : Multiset ρ) = k c + rulesFor c new - rulesFor c old := by
  rw [exchange, execAll_append, coe_execAll_deletes, coe_execAll_inserts]

theorem prefix_append_cases {α : Type} {p l m : List α} (h : p <+: l ++ m) :
    p <+: l ∨ ∃ q, p = l ++ q ∧ q <+: m := by
  obtain ⟨t, ht⟩ := h
  rcases List.append_eq_append_iff.mp ht with ⟨q, rfl, -⟩ | ⟨q, rfl, hq⟩
  · exact .inl ⟨q, rfl⟩
  · exact .inr ⟨q, rfl, ⟨t, hq.symm⟩⟩

/-- On the way no rule is missing that is there at the start and at the end. -/
theorem le_execAll_of_prefix {k : κ → List ρ} {old new : List (κ × ρ)} {c : κ} {m : Multiset ρ}
    (hstart : m ≤ k c) (hend : m ≤ k c + rulesFor c new - rulesFor c old)
    {p : List (ChainCommand κ ρ)} (hp : p <+: exchange old new) :
    m ≤ (execAll k p c : Multiset ρ) := by
  rcases prefix_append_cases hp with hp | ⟨q, rfl, hq⟩
  · obtain ⟨done, -, rfl⟩ := List.prefix_map_iff.mp hp
    exact hstart.trans (by
      rw [show done.map _ = inserts done from rfl, coe_execAll_inserts]
      exact Multiset.le_add_right _ _)
  · obtain ⟨done, hdone, rfl⟩ := List.prefix_map_iff.mp hq
    rw [execAll_append, show done.map _ = deletes done from rfl, coe_execAll_deletes,
      coe_execAll_inserts]
    refine hend.trans ?_
    have hle : (rulesFor c done : Multiset ρ) ≤ rulesFor c old :=
      Multiset.coe_le.mpr (hdone.sublist.filterMap _).subperm
    exact tsub_le_tsub_left hle _

section
variable {k : κ → List ρ} {old new : List (κ × ρ)} {c : κ} {front back : List (ChainCommand κ ρ)}
  (hfront : ∀ x ∈ front, x.chain ≠ c) (hback : ∀ x ∈ back, x.chain ≠ c)
include hfront hback

/-- Commands about other chains around an exchange make no difference. -/
theorem coe_execAll_within :
    (execAll k (front ++ (exchange old new ++ back)) c : Multiset ρ) =
      k c + rulesFor c new - rulesFor c old := by
  rw [execAll_append, execAll_append, execAll_of_none hback, coe_execAll_exchange,
    execAll_of_none hfront]

theorem le_execAll_within {m : Multiset ρ} (hstart : m ≤ k c)
    (hend : m ≤ k c + rulesFor c new - rulesFor c old) {p : List (ChainCommand κ ρ)}
    (hp : p <+: front ++ (exchange old new ++ back)) : m ≤ (execAll k p c : Multiset ρ) := by
  have hstart' : m ≤ (execAll k front c : Multiset ρ) := by rwa [execAll_of_none hfront]
  have hend' : m ≤ (execAll k front c : Multiset ρ) + rulesFor c new - rulesFor c old := by
    rwa [execAll_of_none hfront]
  rcases prefix_append_cases hp with hp | ⟨q, rfl, hq⟩
  · rwa [execAll_of_none fun x hx => hfront x (hp.subset hx)]
  · rw [execAll_append]
    rcases prefix_append_cases hq with hq | ⟨r, rfl, hr⟩
    · exact le_execAll_of_prefix hstart' hend' hq
    · rw [execAll_append, execAll_of_none fun x hx => hback x (hr.subset hx)]
      rwa [coe_execAll_exchange]

end

end

/-! ## The walk through a chain -/

section
variable {ρ : Type}

/-- The first rule that matches the packet and has a verdict decides: `some true` accepts it. -/
def walk (verdict : ρ → Option Bool) (matched : ρ → Bool) (chain : List ρ) : Option Bool :=
  chain.findSome? fun r => if matched r then verdict r else none

/-- Of the rules that drop, only guards have a rule that accepts behind them. -/
def Ordered (verdict : ρ → Option Bool) (guard : ρ → Prop) (chain : List ρ) : Prop :=
  chain.Pairwise fun x y => verdict x = some false → verdict y = some true → guard x

variable {verdict : ρ → Option Bool} {guard : ρ → Prop}

theorem walk_cons (matched : ρ → Bool) (r : ρ) (chain : List ρ) :
    walk verdict matched (r :: chain) =
      ((if matched r then verdict r else none).or (walk verdict matched chain)) := by
  unfold walk
  rw [List.findSome?_cons]
  cases (if matched r then verdict r else none) with
  | none => rfl
  | some v => rfl

/-- A packet is accepted if a rule that accepts it has no guard in front that drops it. -/
theorem walk_accepts_iff {chain : List ρ} (h : Ordered verdict guard chain) (matched : ρ → Bool) :
    walk verdict matched chain = some true ↔
      ∃ front r rest, chain = front ++ r :: rest ∧ verdict r = some true ∧ matched r ∧
        ∀ x ∈ front, guard x → verdict x = some false → ¬ matched x := by
  induction chain with
  | nil => simp [walk]
  | cons r chain ih =>
    obtain ⟨hhead, htail⟩ := List.pairwise_cons.mp h
    have ih := ih htail
    rw [walk_cons]
    constructor
    · intro hwalk
      cases hm : (if matched r then verdict r else none) with
      | some v =>
        rw [hm] at hwalk
        cases v with
        | false => cases hwalk
        | true =>
          obtain ⟨hr, hv⟩ := Option.ite_none_right_eq_some.mp hm
          exact ⟨[], r, chain, rfl, hv, hr, by simp⟩
      | none =>
        rw [hm, Option.none_or] at hwalk
        obtain ⟨front, a, rest, rfl, ha, hma, hfront⟩ := ih.mp hwalk
        refine ⟨r :: front, a, rest, rfl, ha, hma, ?_⟩
        intro x hx hg hv hmx
        cases hx with
        | head => simp [hmx, hv] at hm
        | tail _ hx => exact hfront x hx hg hv hmx
    · rintro ⟨front, a, rest, heq, ha, hma, hfront⟩
      cases front with
      | nil =>
        obtain ⟨rfl, rfl⟩ := List.cons.inj heq
        simp [hma, ha]
      | cons y front =>
        obtain ⟨rfl, rfl⟩ := List.cons.inj heq
        have hrest : walk verdict matched (front ++ a :: rest) = some true :=
          ih.mpr ⟨front, a, rest, rfl, ha, hma, fun x hx => hfront x (by simp [hx])⟩
        by_cases hr : matched r
        · simp only [hr, if_true]
          cases hv : verdict r with
          | none => simpa using hrest
          | some v =>
            cases v with
            | true => rfl
            | false => exact absurd hr (hfront r (by simp) (hhead a (by simp) hv ha) hv)
        · simpa [hr] using hrest

theorem walk_accepts_iff_exists {chain : List ρ} (h : Ordered verdict (fun _ => False) chain)
    (matched : ρ → Bool) :
    walk verdict matched chain = some true ↔ ∃ r ∈ chain, verdict r = some true ∧ matched r := by
  rw [walk_accepts_iff h]
  constructor
  · rintro ⟨front, r, rest, rfl, hr, hm, -⟩
    exact ⟨r, by simp, hr, hm⟩
  · rintro ⟨r, hmem, hr, hm⟩
    obtain ⟨front, rest, rfl⟩ := List.append_of_mem hmem
    exact ⟨front, r, rest, rfl, hr, hm, fun _ _ h => h.elim⟩

end

/-! ## The order of insertion -/

section
variable {κ ρ : Type}

/-- What may be inserted after an accepting rule of the same chain: no rule that drops, unless it
is a guard. -/
def Clear (verdict : ρ → Option Bool) (guard : κ → ρ → Prop) (l : List (κ × ρ)) : Prop :=
  l.Pairwise fun x y =>
    x.1 = y.1 → verdict y.2 = some false → verdict x.2 = some true → guard y.1 y.2

variable {verdict : ρ → Option Bool} {guard : κ → ρ → Prop}

theorem Clear.append {l m : List (κ × ρ)} (hl : Clear verdict guard l)
    (hm : ∀ y ∈ m, verdict y.2 = some false → ∀ x ∈ l ++ m, x.1 = y.1 → verdict x.2 = some true →
      guard y.1 y.2) :
    Clear verdict guard (l ++ m) := by
  refine List.pairwise_append.mpr ⟨hl, ?_, ?_⟩
  · refine List.pairwise_of_forall_mem_list ?_
    intro x hx y hy hchain hdrop haccept
    exact hm y hy hdrop x (by simp [hx]) hchain haccept
  · intro x hx y hy hchain hdrop haccept
    exact hm y hy hdrop x (by simp [hx]) hchain haccept

theorem Clear.append_of_no_drop {l m : List (κ × ρ)} (hl : Clear verdict guard l)
    (hm : ∀ y ∈ m, verdict y.2 ≠ some false) : Clear verdict guard (l ++ m) :=
  hl.append fun y hy hdrop => absurd hdrop (hm y hy)

theorem Clear.of_no_accept {l : List (κ × ρ)} (hl : ∀ x ∈ l, verdict x.2 ≠ some true) :
    Clear verdict guard l := by
  refine List.pairwise_of_forall_mem_list ?_
  intro x hx _ _ _ _ haccept
  exact absurd haccept (hl x hx)

/-- Inserted in such an order the rules are in order in every chain that was empty. -/
theorem Clear.ordered [DecidableEq κ] [DecidableEq ρ] {l : List (κ × ρ)}
    (h : Clear verdict guard l) {k : κ → List ρ} {c : κ} (hc : k c = []) :
    Ordered verdict (guard c) (execAll k (inserts l) c) := by
  rw [execAll_inserts, hc, List.append_nil]
  refine List.pairwise_reverse.mpr ?_
  refine List.Pairwise.filterMap _ ?_ h
  intro x y hxy a ha b hb hdrop haccept
  obtain ⟨hx, hxa⟩ := Option.ite_none_right_eq_some.mp ha
  obtain ⟨hy, hyb⟩ := Option.ite_none_right_eq_some.mp hb
  cases hxa
  cases hyb
  exact hy ▸ hxy (hx.trans hy.symm) hdrop haccept

end

end Chains

end Lib
