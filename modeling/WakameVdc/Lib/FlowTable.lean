import Mathlib.Data.List.Induction
import Mathlib.Order.Basic
import Mathlib.Tactic.Common

/-!
# Flow tables

Entries of tables, with a priority and a pattern. Patterns are preordered: `p ≤ q` if
`p` is at least as specific as `q`. Adding an entry replaces the one of the same table,
priority and pattern. Deleting takes every entry of a table with a pattern at least as
specific as a given one, whatever its priority.
-/

namespace Lib

structure Entry (τ π α : Type) where
  table : τ
  priority : Nat
  pattern : π
  actions : α
  deriving DecidableEq, Repr

namespace Entry

section
variable {τ π α : Type} [Preorder π] {f g h d : Entry τ π α}

def SamePlace (f g : Entry τ π α) : Prop :=
  f.table = g.table ∧ f.priority = g.priority ∧ f.pattern ≤ g.pattern ∧ g.pattern ≤ f.pattern

/-- What a deletion by the table and the pattern of `d` takes. -/
def Within (f d : Entry τ π α) : Prop := f.table = d.table ∧ f.pattern ≤ d.pattern

def Same (f g : Entry τ π α) : Prop := f.SamePlace g ∧ f.actions = g.actions

instance [DecidableEq τ] [DecidableLE π] : Decidable (f.SamePlace g) :=
  inferInstanceAs (Decidable (_ ∧ _))

instance [DecidableEq τ] [DecidableLE π] : Decidable (f.Within d) :=
  inferInstanceAs (Decidable (_ ∧ _))

instance [DecidableEq τ] [DecidableLE π] [DecidableEq α] : Decidable (f.Same g) :=
  inferInstanceAs (Decidable (_ ∧ _))

theorem SamePlace.refl (f : Entry τ π α) : f.SamePlace f := ⟨rfl, rfl, le_refl _, le_refl _⟩

theorem SamePlace.symm (h : f.SamePlace g) : g.SamePlace f :=
  ⟨h.1.symm, h.2.1.symm, h.2.2.2, h.2.2.1⟩

theorem SamePlace.trans (hf : f.SamePlace g) (hg : g.SamePlace h) : f.SamePlace h :=
  ⟨hf.1.trans hg.1, hf.2.1.trans hg.2.1, hf.2.2.1.trans hg.2.2.1, hg.2.2.2.trans hf.2.2.2⟩

theorem Same.refl (f : Entry τ π α) : f.Same f := ⟨.refl f, rfl⟩

theorem Same.symm (h : f.Same g) : g.Same f := ⟨h.1.symm, h.2.symm⟩

theorem Same.trans (hf : f.Same g) (hg : g.Same h) : f.Same h :=
  ⟨hf.1.trans hg.1, hf.2.trans hg.2⟩

theorem Within.refl (f : Entry τ π α) : f.Within f := ⟨rfl, le_refl _⟩

theorem SamePlace.within (h : f.SamePlace g) (hg : g.Within d) : f.Within d :=
  ⟨h.1.trans hg.1, h.2.2.1.trans hg.2⟩

end

end Entry

namespace FlowTable

section
variable {τ π α : Type} [Preorder π]

def Unique (t : List (Entry τ π α)) : Prop := ∀ f ∈ t, ∀ g ∈ t, f.SamePlace g → f = g

/-- The table has exactly the wanted entries. -/
structure Holds (t wanted : List (Entry τ π α)) : Prop where
  present : ∀ f ∈ wanted, ∃ g ∈ t, g.Same f
  nothingElse : ∀ g ∈ t, ∃ f ∈ wanted, g.Same f

/-- Two wanted entries of one place that do different things. -/
def Clash (wanted : List (Entry τ π α)) : Prop :=
  ∃ f ∈ wanted, ∃ g ∈ wanted, f.SamePlace g ∧ f.actions ≠ g.actions

def Sweeps (ds wanted : List (Entry τ π α)) : Prop := ∃ f ∈ wanted, ∃ d ∈ ds, f.Within d

/-- An entry no longer wanted is not among what is taken, and nothing wanted stands
in its place. -/
def Leaves (dropped ds wanted : List (Entry τ π α)) : Prop :=
  ∃ f ∈ dropped, (∀ d ∈ ds, ¬ f.Within d) ∧ ∀ g ∈ wanted, ¬ g.SamePlace f

variable {t wanted : List (Entry τ π α)} {f g : Entry τ π α}

instance [DecidableEq τ] [DecidableLE π] [DecidableEq α] : Decidable (Holds t wanted) :=
  decidable_of_iff
    ((∀ f ∈ wanted, ∃ g ∈ t, g.Same f) ∧ ∀ g ∈ t, ∃ f ∈ wanted, g.Same f)
    ⟨fun h => ⟨h.1, h.2⟩, fun h => ⟨h.1, h.2⟩⟩

theorem unique_nil : Unique ([] : List (Entry τ π α)) := fun _ h => nomatch h

theorem holds_nil : Holds ([] : List (Entry τ π α)) [] :=
  ⟨fun _ h => (nomatch h), fun _ h => (nomatch h)⟩

theorem Holds.not_clash (h : Holds t wanted) (hu : Unique t) : ¬ Clash wanted := by
  rintro ⟨f, hf, g, hg, hp, hne⟩
  obtain ⟨f', hf', hff⟩ := h.present f hf
  obtain ⟨g', hg', hgg⟩ := h.present g hg
  have he := hu f' hf' g' hg' (hff.1.trans (hp.trans hgg.1.symm))
  subst he
  exact hne (hff.2.symm.trans hgg.2)

theorem same_of_not_clash (h : ¬ Clash wanted) (hf : f ∈ wanted) (hg : g ∈ wanted)
    (hp : f.SamePlace g) : f.Same g := by
  refine ⟨hp, ?_⟩
  by_contra hne
  exact h ⟨f, hf, g, hg, hp, hne⟩

end

/-! ## Adding and deleting -/

variable {τ π α : Type} [DecidableEq τ] [Preorder π] [DecidableLE π]

def add (t : List (Entry τ π α)) (f : Entry τ π α) : List (Entry τ π α) :=
  f :: t.filter fun g => ¬ g.SamePlace f

def addAll (t fs : List (Entry τ π α)) : List (Entry τ π α) := fs.foldl add t

def del (t ds : List (Entry τ π α)) : List (Entry τ π α) :=
  t.filter fun f => ¬ ∃ d ∈ ds, f.Within d

section
variable {t fs gs ds : List (Entry τ π α)} {f g : Entry τ π α}

theorem mem_add : g ∈ add t f ↔ g = f ∨ g ∈ t ∧ ¬ g.SamePlace f := by
  simp [add]

theorem mem_del : g ∈ del t ds ↔ g ∈ t ∧ ∀ d ∈ ds, ¬ g.Within d := by
  simp [del]

theorem del_nil : del t [] = t := by
  simp [del]

theorem addAll_append : addAll t (fs ++ gs) = addAll (addAll t fs) gs := List.foldl_append

theorem mem_addAll :
    g ∈ addAll t fs ↔ g ∈ addAll [] fs ∨ g ∈ t ∧ ∀ f ∈ fs, ¬ g.SamePlace f := by
  induction fs using List.reverseRecOn with
  | nil => simp [addAll]
  | append_singleton fs f ih =>
    rw [addAll_append, addAll_append]
    show g ∈ add _ f ↔ g ∈ add _ f ∨ _
    rw [mem_add, mem_add, ih]
    simp only [List.mem_append, List.mem_singleton]
    grind

theorem mem_of_mem_addAll (h : g ∈ addAll [] fs) : g ∈ fs := by
  induction fs using List.reverseRecOn with
  | nil => exact h
  | append_singleton fs f ih =>
    rw [addAll_append] at h
    rw [List.mem_append, List.mem_singleton]
    obtain rfl | ⟨hm, _⟩ := mem_add.mp h
    · exact .inr rfl
    · exact .inl (ih hm)

theorem exists_mem_addAll (h : f ∈ fs) : ∃ g ∈ addAll [] fs, g.SamePlace f := by
  induction fs using List.reverseRecOn with
  | nil => cases h
  | append_singleton fs e ih =>
    rw [addAll_append]
    by_cases hp : f.SamePlace e
    · exact ⟨e, mem_add.mpr (.inl rfl), hp.symm⟩
    · have hf : f ∈ fs := by
        obtain hf | hf := List.mem_append.mp h
        · exact hf
        · rw [List.mem_singleton] at hf
          exact absurd (hf ▸ .refl f) hp
      obtain ⟨g, hg, hgf⟩ := ih hf
      exact ⟨g, mem_add.mpr (.inr ⟨hg, fun he => hp (hgf.symm.trans he)⟩), hgf⟩

end

section
variable {t fs ds : List (Entry τ π α)}

theorem Unique.add (h : Unique t) (e : Entry τ π α) : Unique (add t e) := by
  intro f hf g hg hp
  obtain rfl | ⟨hf, hfe⟩ := mem_add.mp hf
  · obtain rfl | ⟨_, hge⟩ := mem_add.mp hg
    · rfl
    · exact absurd hp.symm hge
  · obtain rfl | ⟨hg, _⟩ := mem_add.mp hg
    · exact absurd hp hfe
    · exact h f hf g hg hp

theorem Unique.addAll (h : Unique t) : Unique (addAll t fs) := by
  induction fs generalizing t with
  | nil => exact h
  | cons e fs ih => exact ih (h.add e)

theorem Unique.del (h : Unique t) : Unique (del t ds) :=
  fun f hf g hg => h f (mem_del.mp hf).1 g (mem_del.mp hg).1

end

/-! ## What is wanted, while the table changes -/

/-- What is wanted turns from `old` to `new` while `fs` is added and `dropped` is given
up. What was added last in its place is wanted. -/
structure Turns (old fs dropped new : List (Entry τ π α)) : Prop where
  added : ∀ g ∈ addAll [] fs, g ∈ new
  kept : ∀ f ∈ old, f ∈ new ∨ f ∈ dropped ∨ ∃ g ∈ fs, g.SamePlace f
  fresh : ∀ f ∈ new, f ∈ old ∨ f ∈ fs
  dropped_old : ∀ f ∈ dropped, f ∈ old

section
variable {t old new mid fs gs ds dropped : List (Entry τ π α)}

/-- What is added is wanted, some of it instead of what stood in its place. -/
theorem Turns.change (hadded : ∀ f ∈ fs, f ∈ new)
    (hkept : ∀ f ∈ old, f ∈ new ∨ ∃ g ∈ fs, g.SamePlace f) (hfresh : ∀ f ∈ new, f ∈ old ∨ f ∈ fs) :
    Turns old fs [] new where
  added g hg := hadded g (mem_of_mem_addAll hg)
  kept f hf := (hkept f hf).imp_right .inr
  fresh := hfresh
  dropped_old _ hf := nomatch hf

theorem Turns.grow (h : ∀ f, f ∈ new ↔ f ∈ old ∨ f ∈ fs) : Turns old fs [] new :=
  .change (fun f hf => (h f).mpr (.inr hf)) (fun f hf => .inl ((h f).mpr (.inl hf)))
    fun f hf => (h f).mp hf

theorem Turns.drop (h : ∀ f, f ∈ old ↔ f ∈ new ∨ f ∈ dropped) : Turns old [] dropped new where
  added _ hg := nomatch hg
  kept f hf := ((h f).mp hf).imp_right .inl
  fresh f hf := .inl ((h f).mpr (.inl hf))
  dropped_old f hf := (h f).mpr (.inr hf)

theorem Turns.trans (h1 : Turns old fs dropped mid) (h2 : Turns mid gs [] new) :
    Turns old (fs ++ gs) dropped new where
  added g hg := by
    rw [addAll_append, mem_addAll] at hg
    obtain hg | ⟨hg, hne⟩ := hg
    · exact h2.added g hg
    · obtain hn | hd | ⟨e, he, hp⟩ := h2.kept g (h1.added g hg)
      · exact hn
      · cases hd
      · exact absurd hp.symm (hne e he)
  kept f hf := by
    obtain hm | hd | ⟨e, he, hp⟩ := h1.kept f hf
    · obtain hn | hd | ⟨e, he, hp⟩ := h2.kept f hm
      · exact .inl hn
      · cases hd
      · exact .inr (.inr ⟨e, List.mem_append_right _ he, hp⟩)
    · exact .inr (.inl hd)
    · exact .inr (.inr ⟨e, List.mem_append_left _ he, hp⟩)
  fresh f hf := by
    obtain hm | hg := h2.fresh f hf
    · obtain ho | hf := h1.fresh f hm
      · exact .inl ho
      · exact .inr (List.mem_append_left _ hf)
    · exact .inr (List.mem_append_right _ hg)
  dropped_old := h1.dropped_old

/-- The table follows what is wanted exactly if no two wanted entries clash, nothing
wanted is taken, and nothing given up stays. -/
theorem Turns.holds_iff (h : Turns old fs dropped new) (ho : Holds t old) (hu : Unique t) :
    Holds (del (addAll t fs) ds) new ↔
      ¬ Clash new ∧ ¬ Sweeps ds new ∧ ¬ Leaves dropped ds new := by
  constructor
  · intro hn
    refine ⟨hn.not_clash hu.addAll.del, ?_, ?_⟩
    · rintro ⟨f, hf, d, hd, hw⟩
      obtain ⟨g, hg, hgf⟩ := hn.present f hf
      exact (mem_del.mp hg).2 d hd (hgf.1.within hw)
    · rintro ⟨f, hf, htaken, hplace⟩
      obtain ⟨g, hg, hgf⟩ := ho.present f (h.dropped_old f hf)
      by_cases hp : ∃ e ∈ fs, g.SamePlace e
      · obtain ⟨e, he, hp⟩ := hp
        obtain ⟨e', he', hee⟩ := exists_mem_addAll he
        exact hplace e' (h.added e' he') (hee.trans (hp.symm.trans hgf.1))
      · have hg' : g ∈ del (addAll t fs) ds := by
          rw [mem_del, mem_addAll]
          refine ⟨.inr ⟨hg, fun e he hs => hp ⟨e, he, hs⟩⟩, fun d hd hw => ?_⟩
          exact htaken d hd (hgf.1.symm.within hw)
        obtain ⟨e, he, hge⟩ := hn.nothingElse g hg'
        exact hplace e he (hge.1.symm.trans hgf.1)
  · rintro ⟨hc, hs, hl⟩
    constructor
    · intro f hf
      suffices hin : ∃ g ∈ addAll t fs, g.Same f by
        obtain ⟨g, hg, hgf⟩ := hin
        refine ⟨g, mem_del.mpr ⟨hg, fun d hd hw => ?_⟩, hgf⟩
        exact hs ⟨f, hf, d, hd, hgf.1.symm.within hw⟩
      by_cases hp : ∃ e ∈ fs, e.SamePlace f
      · obtain ⟨e, he, hef⟩ := hp
        obtain ⟨e', he', hee⟩ := exists_mem_addAll he
        exact ⟨e', mem_addAll.mpr (.inl he'),
          same_of_not_clash hc (h.added e' he') hf (hee.trans hef)⟩
      · obtain hold | hfs := h.fresh f hf
        · obtain ⟨g, hg, hgf⟩ := ho.present f hold
          exact ⟨g, mem_addAll.mpr (.inr ⟨hg, fun e he hge =>
            hp ⟨e, he, hge.symm.trans hgf.1⟩⟩), hgf⟩
        · exact absurd ⟨f, hfs, .refl f⟩ hp
    · intro g hg
      obtain ⟨hg, htaken⟩ := mem_del.mp hg
      obtain hg | ⟨hg, hne⟩ := mem_addAll.mp hg
      · exact ⟨g, h.added g hg, .refl g⟩
      · obtain ⟨f, hf, hgf⟩ := ho.nothingElse g hg
        obtain hn | hd | ⟨e, he, hp⟩ := h.kept f hf
        · exact ⟨f, hn, hgf⟩
        · -- nothing took the entry, so something wanted stands in its place
          by_contra hno
          refine hl ⟨f, hd, fun d hd hw => htaken d hd (hgf.1.within hw), fun e he hef => ?_⟩
          obtain hold | hfs := h.fresh e he
          · have hsame := same_of_not_clash (ho.not_clash hu) hold hf hef
            exact hno ⟨e, he, hgf.trans hsame.symm⟩
          · exact hne e hfs (hgf.1.trans hef.symm)
        · exact absurd (hgf.1.trans hp.symm) (hne e he)

end

end FlowTable

end Lib
