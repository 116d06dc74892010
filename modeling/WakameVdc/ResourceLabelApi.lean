import WakameVdc.Lib.Run
import WakameVdc.ResourceLabelMap

/-!
# The label API

The routes of `endpoints/12.03/helpers/resource_label.rb` under `/:id/labels`, and the labels
that are given when a resource is created. A request is one transaction: when it raises,
nothing of it stays.
-/

namespace WakameVdc

open Lib

namespace ResourceLabel

/-! ## Requests -/

/-- An element of `label` in a bulk request. The value of a hash may be missing, or be there
and be none. -/
inductive BulkItem
  | hash (name : Option Text) (value : Option (Option Bytes))
  | text (t : Text)

inductive BulkParams
  | arrays (names : List (Option Text)) (values : List (Option Bytes))
  | labels (items : List BulkItem)
  | other

inductive LabelItem
  | hash (name : Option Text) (value : Option Bytes)
  | other

/-- `labels` of a request that creates a resource. The second and the third pattern come as
a hash. -/
inductive LabelsParam
  | array (items : List LabelItem)
  | hash
  | other

inductive Request
  | get (uuid name : Text)
  | set (uuid name : Text) (value : Option Bytes)
  | bulk (uuid : Text) (params : BulkParams)
  | delete (uuid name : Text)
  | deleteAll (uuid : Text)
  | create (uuid : Text) (labels : Option LabelsParam)

def blank (t : Text) : Bool := t.all Text.isSpace

def blankValue (v : Bytes) : Bool := v.all fun b => b = 32 || (9 ≤ b && b ≤ 13)

/-- None raises. A label without a name or a value is left out, and a text with the word
`name` in it has a name, but no keys. -/
def BulkItem.pair : BulkItem → Option (Option (Text × Bytes))
  | .hash (some n) (some v) => some (if blank n then none else some (n, v.getD []))
  | .hash _ _ => some none
  | .text t => if t.tails.any "name".toList.isPrefixOf then none else some none

/-- `each_bulk_label_params`; none raises. The column of the name takes no null. -/
def eachBulkLabelParams : BulkParams → Option (List (Text × Bytes))
  | .arrays names values =>
    if names.length = values.length then
      (names.mapM id).map fun names => names.zip (values.map fun v => v.getD [])
    else none
  | .labels items => (items.mapM BulkItem.pair).map List.reduceOption
  | .other => none

def LabelItem.pair : LabelItem → Option (Text × Bytes)
  | .hash (some n) (some v) => if blank n || blankValue v then none else some (n, v)
  | _ => none

/-- `labels_param_each_pair`; none raises. The branch for a hash reads a name that is not
defined, so it raises as well. -/
def labelsParamEachPair : LabelsParam → Option (List (Text × Bytes))
  | .array items => items.mapM LabelItem.pair
  | .hash => none
  | .other => none

namespace ResourceLabels

variable {e : Engine} (t : ResourceLabels e)

/-- `set_label` of one pair after the other -/
def saveLabels (uuid : Text) : ResourceLabels e → List (Text × Bytes) →
    Option (ResourceLabels e × List (Option LabelRow))
  | t, [] => some (t, [])
  | t, p :: ps => do
    let (t, l) ← t.saveLabel uuid p.1 p.2
    let (t, ls) ← saveLabels uuid t ps
    return (t, l :: ls)

/-- `R::ResourceLabel.new` raises without a label. -/
def respond (a : ResourceLabels e × List (Option LabelRow)) : Option (ResourceLabels e × List LabelRow) :=
  if a.2.all Option.isSome then some (a.1, a.2.reduceOption) else none

/-- What a request leaves and responds with; none if it raises. -/
def perform : Request → Option (ResourceLabels e × List LabelRow)
  | .get uuid name => (t.label uuid name).map fun l => (t, [l])
  | .set uuid name value => do
    let (t, l) ← t.saveLabel uuid name (value.getD [])
    respond (t, [l])
  | .bulk uuid params => do
    let pairs ← eachBulkLabelParams params
    let a ← saveLabels uuid t pairs
    respond a
  | .delete uuid name => some (t.unsetLabel uuid (some name), [])
  | .deleteAll uuid => some (t.unsetLabel uuid none, [])
  | .create uuid labels => do
    let pairs ← (labels.map labelsParamEachPair).getD (some [])
    let (t, _) ← saveLabels uuid t pairs
    return (t, [])

/-- The transaction of a request that raises is rolled back. -/
def step (r : Request) : ResourceLabels e := ((t.perform r).map Prod.fst).getD t

end ResourceLabels

/-! ## What a request is to do -/

/-- The values of labels, by resource and name. A label may be there without a value. -/
abbrev Labels := Text → Text → Option (Option Bytes)

namespace Labels

variable (m : Labels)

def set (uuid name : Text) (v : Bytes) : Labels := fun u n => if u = uuid ∧ n = name then some (some v) else m u n

def setAll (uuid : Text) (ps : List (Text × Bytes)) : Labels := ps.foldl (fun m p => m.set uuid p.1 p.2) m

def unset (uuid name : Text) : Labels := fun u n => if u = uuid ∧ n = name then none else m u n

def clear (uuid : Text) : Labels := fun u n => if u = uuid then none else m u n

end Labels

namespace Request

def uuid : Request → Text
  | get uuid _ => uuid
  | set uuid _ _ => uuid
  | bulk uuid _ => uuid
  | delete uuid _ => uuid
  | deleteAll uuid => uuid
  | create uuid _ => uuid

/-- The pairs that a request sets, unless its parameters are refused. -/
def pairs : Request → Option (List (Text × Bytes))
  | set _ name value => some [(name, value.getD [])]
  | bulk _ params => eachBulkLabelParams params
  | create _ labels => (labels.map labelsParamEachPair).getD (some [])
  | _ => some []

def effect (r : Request) (m : Labels) : Labels :=
  match r with
  | delete uuid name => m.unset uuid name
  | deleteAll uuid => m.clear uuid
  | r => m.setAll r.uuid (r.pairs.getD [])

def names : Request → List Text
  | get _ name => [name]
  | delete _ name => [name]
  | r => (r.pairs.getD []).map Prod.fst

end Request

namespace ResourceLabels

variable {e : Engine} (t : ResourceLabels e)

/-- A request is rejected and leaves all labels, or it does to them what it is to do. A
label is read as it is held, and no label that can be set is rejected. -/
structure Right (r : Request) : Prop where
  effect : t.perform r = none ∧ (t.step r).held = t.held ∨
    t.perform r ≠ none ∧ (t.step r).held = r.effect t.held
  read : ∀ uuid name, r = .get uuid name →
    (t.perform r).map (fun a => a.2.map LabelRow.value) = (t.held uuid name).map fun v => [v]
  accepts : ∀ ps, r.pairs = some ps → ps ≠ [] → (∀ p ∈ ps, Fits e r.uuid p.1 p.2) → t.perform r ≠ none

/-- The names and values of the request fit their columns, and the database takes no other
label, nor one of these names, for another one of them. -/
structure Plain (r : Request) : Prop where
  fits : ∀ p ∈ r.pairs.getD [], Fits e r.uuid p.1 p.2
  told : ∀ n ∈ r.names, t.Told r.uuid n
  apart : ∀ n ∈ r.names, ∀ n' ∈ r.names, e.same n n' = true → n = n'

def put (uuid : Text) (t : ResourceLabels e) (p : Text × Bytes) : ResourceLabels e :=
  ((t.saveLabel uuid p.1 p.2).map Prod.fst).getD t

/-- Every label that is set changes, and all labels are removed of a resource without any. -/
def Changes : Request → Prop
  | .set uuid name value => ¬ t.Stored uuid name (value.getD [])
  | .bulk uuid params =>
    Each (put uuid) (fun t p => ¬ t.Stored uuid p.1 p.2) t ((eachBulkLabelParams params).getD [])
  | .deleteAll uuid => ∀ n, t.held uuid n = none
  | _ => True

/-! ## One request -/

section
variable {t} {uuid name : Text} {v : Bytes} {t' : ResourceLabels e} {ps : List (Text × Bytes)} {r : Request}

/-- A label that is new is told apart from the names it is told apart from. -/
theorem told_of_wrote (h : t.Wrote uuid name v t') {n : Text} (ht : t.Told uuid n)
    (hn : e.same name n = true → name = n) : t'.Told uuid n := by
  intro l hl hit
  rcases h.fresh l hl with ⟨l₀, hl₀, -, hu, hname⟩ | ⟨-, hu, hname⟩
  · have hit₀ : LabelRow.isOf e uuid n l₀ = true := by
      rw [isOf_iff] at hit ⊢
      rw [hu, hname]
      exact hit
    obtain ⟨hu₀, hn₀⟩ := ht l₀ hl₀ hit₀
    exact ⟨hu ▸ hu₀, hname ▸ hn₀⟩
  · have hsame : e.same name n = true := by
      unfold LabelRow.isOf at hit
      rw [Bool.and_eq_true, hname] at hit
      exact hit.2
    exact ⟨hu, hname.trans (hn hsame)⟩

theorem put_eq {l : Option LabelRow} (h : t.saveLabel uuid name v = some (t', l)) :
    put uuid t (name, v) = t' := by
  unfold put
  rw [h]
  rfl

theorem held_of_wrote (h : t.Wrote uuid name v t') : t'.held = Labels.set t.held uuid name v :=
  funext fun u => funext fun n => h.held u n

/-- The pairs are set one after the other, and each comes back as a label just when it
changes the label it finds. -/
theorem saveLabels_eq (hf : ∀ p ∈ ps, Fits e uuid p.1 p.2) (ht : ∀ p ∈ ps, t.Told uuid p.1)
    (ha : ∀ p ∈ ps, ∀ q ∈ ps, e.same p.1 q.1 = true → p.1 = q.1) :
    ∃ t' ls, saveLabels uuid t ps = some (t', ls) ∧ t'.held = Labels.setAll t.held uuid ps ∧
      (ls.all Option.isSome = true ↔ Each (put uuid) (fun t p => ¬ t.Stored uuid p.1 p.2) t ps) := by
  induction ps generalizing t with
  | nil => exact ⟨t, [], rfl, rfl, by simp⟩
  | cons p ps ih =>
    obtain ⟨t₁, l, hsave, hwrote, hl⟩ := saveLabel_wrote (ht p (by simp)) (hf p (by simp))
    have ht₁ : ∀ q ∈ ps, t₁.Told uuid q.1 := fun q hq =>
      told_of_wrote hwrote (ht q (by simp [hq])) (ha p (by simp) q (by simp [hq]))
    obtain ⟨t', ls, hrest, hheld, hls⟩ := ih (fun q hq => hf q (by simp [hq])) ht₁
      fun q hq r hr => ha q (by simp [hq]) r (by simp [hr])
    refine ⟨t', l :: ls, ?_, ?_, ?_⟩
    · show (t.saveLabel uuid p.1 p.2).bind _ = _
      rw [hsave]
      show (saveLabels uuid t₁ ps).bind _ = _
      rw [hrest]
      rfl
    · rw [hheld, held_of_wrote hwrote]
      rfl
    · rw [List.all_cons, Bool.and_eq_true, hls, each_cons, put_eq hsave, ← hl]
      simp [Option.isSome_iff_ne_none]

/-- The pairs of a request that fit and are told apart can all be set. -/
theorem saveLabels_of_plain (h : t.Plain r) (hps : r.pairs = some ps) (hnames : r.names = ps.map Prod.fst) :
    (∀ p ∈ ps, Fits e r.uuid p.1 p.2) ∧
    ∃ t' ls, saveLabels r.uuid t ps = some (t', ls) ∧ t'.held = Labels.setAll t.held r.uuid ps ∧
      (ls.all Option.isSome = true ↔ Each (put r.uuid) (fun t p => ¬ t.Stored r.uuid p.1 p.2) t ps) := by
  have hfits : ∀ p ∈ ps, Fits e r.uuid p.1 p.2 := by
    have := h.fits
    rw [hps, Option.getD_some] at this
    exact this
  have hmem : ∀ p ∈ ps, p.1 ∈ r.names := fun p hp => hnames ▸ List.mem_map_of_mem hp
  exact ⟨hfits, saveLabels_eq hfits (fun p hp => h.told p.1 (hmem p hp))
    fun p hp q hq => h.apart p.1 (hmem p hp) q.1 (hmem q hq)⟩

theorem right_of_effect (hr : ∀ uuid name, r ≠ .get uuid name)
    (heff : t.perform r = none ∧ (t.step r).held = t.held ∨
      t.perform r ≠ none ∧ (t.step r).held = r.effect t.held)
    (hacc : ∀ ps, r.pairs = some ps → ps ≠ [] → (∀ p ∈ ps, Fits e r.uuid p.1 p.2) → t.perform r ≠ none) :
    t.Right r :=
  ⟨heff, fun uuid name h => absurd h (hr uuid name), hacc⟩

theorem right_of_none (hr : ∀ uuid name, r ≠ .get uuid name) (hperform : t.perform r = none)
    (hps : r.pairs = none) : t.Right r := by
  refine right_of_effect hr (.inl ⟨hperform, ?_⟩) fun ps hps' => ?_
  · unfold step
    rw [hperform]
    rfl
  · rw [hps] at hps'
    cases hps'

theorem right_of_saves (hr : ∀ uuid name, r ≠ .get uuid name)
    (heff : r.effect t.held = Labels.setAll t.held r.uuid ps) (hps : r.pairs = some ps)
    (hperform : t.perform r = (saveLabels r.uuid t ps).bind respond)
    (h : t.Plain r) (hnames : r.names = ps.map Prod.fst) :
    t.Right r ↔ Each (put r.uuid) (fun t p => ¬ t.Stored r.uuid p.1 p.2) t ps := by
  obtain ⟨hfits, t', ls, hsave, hheld, hls⟩ := saveLabels_of_plain h hps hnames
  rw [hsave, Option.bind_some] at hperform
  rw [← hls]
  constructor
  · intro hright
    by_cases hall : ls.all Option.isSome = true
    · exact hall
    · have hnone : t.perform r = none := by
        rw [hperform]
        exact if_neg hall
      cases ps with
      | nil => exact hls.mpr trivial
      | cons p ps => exact absurd hnone (hright.accepts _ hps (by simp) hfits)
  · intro hall
    have hsome : t.perform r = some (t', ls.reduceOption) := by
      rw [hperform]
      exact if_pos hall
    have hne : t.perform r ≠ none := by simp [hsome]
    refine right_of_effect hr (.inr ⟨hne, ?_⟩) fun _ _ _ _ => hne
    rw [heff, ← hheld]
    unfold step
    rw [hsome]
    rfl

theorem right_get (h : t.Plain (.get uuid name)) : t.Right (.get uuid name) := by
  have hrow : t.label uuid name = t.row uuid name := label_eq_row (h.told name (by simp [Request.names]))
  have hperform : t.perform (.get uuid name) = (t.row uuid name).map fun l => (t, [l]) := by
    rw [← hrow]
    rfl
  refine ⟨?_, ?_, ?_⟩
  · unfold step
    rw [hperform]
    cases t.row uuid name with
    | none => exact .inl ⟨rfl, rfl⟩
    | some l => exact .inr ⟨Option.some_ne_none _, rfl⟩
  · intro u n heq
    cases heq
    rw [hperform]
    unfold held
    rw [Option.map_map, Option.map_map]
    rfl
  · intro ps hps hne
    cases hps
    exact absurd rfl hne

theorem right_delete (h : t.Plain (.delete uuid name)) : t.Right (.delete uuid name) := by
  refine right_of_effect nofun (.inr ⟨Option.some_ne_none _, ?_⟩) fun _ _ _ _ => Option.some_ne_none _
  exact funext fun u => funext fun n => held_unsetLabel (h.told name (by simp [Request.names])) u n

/-- `unset_label` looks for a name that is none, and leaves every label. -/
theorem right_deleteAll_iff : t.Right (.deleteAll uuid) ↔ ∀ n, t.held uuid n = none := by
  constructor
  · intro h n
    obtain ⟨hnone, -⟩ | ⟨-, heff⟩ := h.effect
    · cases hnone
    · have hclear : t.held uuid n = Labels.clear t.held uuid uuid n := congrFun (congrFun heff uuid) n
      rw [hclear]
      exact if_pos rfl
  · intro h
    refine right_of_effect nofun (.inr ⟨Option.some_ne_none _, ?_⟩) fun _ _ _ _ => Option.some_ne_none _
    funext u n
    show t.held u n = if u = uuid then none else t.held u n
    by_cases hu : u = uuid
    · rw [if_pos hu, hu, h n]
    · rw [if_neg hu]

theorem right_create {labels : Option LabelsParam} (h : t.Plain (.create uuid labels)) :
    t.Right (.create uuid labels) := by
  cases hps : (labels.map labelsParamEachPair).getD (some []) with
  | none =>
    have hperform : t.perform (.create uuid labels) = none := by
      show Option.bind ((labels.map labelsParamEachPair).getD (some [])) _ = none
      rw [hps]
      rfl
    exact right_of_none nofun hperform hps
  | some ps =>
    have hpairs : (Request.create uuid labels).pairs = some ps := hps
    have hnames : (Request.create uuid labels).names = ps.map Prod.fst := by
      show ((Request.create uuid labels).pairs.getD []).map Prod.fst = _
      rw [hpairs]
      rfl
    obtain ⟨-, t', ls, hsave, hheld, -⟩ := saveLabels_of_plain h hpairs hnames
    have hperform : t.perform (.create uuid labels) = some (t', []) := by
      show Option.bind ((labels.map labelsParamEachPair).getD (some [])) _ = _
      rw [hps, Option.bind_some]
      exact congrArg (fun a => Option.bind a _) hsave
    have hne : t.perform (.create uuid labels) ≠ none := by simp [hperform]
    refine right_of_effect nofun (.inr ⟨hne, ?_⟩) fun _ _ _ _ => hne
    have heff : (Request.create uuid labels).effect t.held = Labels.setAll t.held uuid ps := by
      show Labels.setAll t.held uuid ((Request.create uuid labels).pairs.getD []) = _
      rw [hpairs]
      rfl
    unfold step
    rw [hperform, heff]
    exact hheld

theorem right_set_iff {value : Option Bytes} (h : t.Plain (.set uuid name value)) :
    t.Right (.set uuid name value) ↔ ¬ t.Stored uuid name (value.getD []) := by
  have hperform : t.perform (.set uuid name value) =
      (saveLabels uuid t [(name, value.getD [])]).bind respond := by
    show Option.bind (t.saveLabel uuid name (value.getD [])) _ =
      (Option.bind (t.saveLabel uuid name (value.getD [])) _).bind _
    cases t.saveLabel uuid name (value.getD []) with
    | none => rfl
    | some a => rfl
  have heach : t.Right (.set uuid name value) ↔
      Each (put uuid) (fun t p => ¬ t.Stored uuid p.1 p.2) t [(name, value.getD [])] :=
    right_of_saves nofun rfl rfl hperform h rfl
  rw [heach, each_cons]
  exact and_iff_left trivial

theorem right_bulk_iff {params : BulkParams} (h : t.Plain (.bulk uuid params)) :
    t.Right (.bulk uuid params) ↔
      Each (put uuid) (fun t p => ¬ t.Stored uuid p.1 p.2) t ((eachBulkLabelParams params).getD []) := by
  cases hps : eachBulkLabelParams params with
  | none =>
    have hperform : t.perform (.bulk uuid params) = none := by
      show Option.bind (eachBulkLabelParams params) _ = none
      rw [hps]
      rfl
    exact iff_of_true (right_of_none nofun hperform hps) trivial
  | some ps =>
    have hpairs : (Request.bulk uuid params).pairs = some ps := hps
    rw [Option.getD_some]
    refine right_of_saves nofun ?_ hpairs ?_ h ?_
    · show Labels.setAll t.held uuid ((Request.bulk uuid params).pairs.getD []) = _
      rw [hpairs]
      rfl
    · show Option.bind (eachBulkLabelParams params) _ = _
      rw [hps]
      rfl
    · show ((Request.bulk uuid params).pairs.getD []).map Prod.fst = _
      rw [hpairs]
      rfl

theorem right_iff_changes (h : t.Plain r) : t.Right r ↔ t.Changes r := by
  cases r with
  | get uuid name => exact iff_of_true (right_get h) trivial
  | set uuid name value => exact right_set_iff h
  | bulk uuid params => exact right_bulk_iff h
  | delete uuid name => exact iff_of_true (right_delete h) trivial
  | deleteAll uuid => exact right_deleteAll_iff
  | create uuid labels => exact iff_of_true (right_create h) trivial

end

/-! ## Runs -/

/-- In every run of requests whose names and values fit their columns and are told apart,
each request is right just when every label it sets changes, and all labels are removed of
no resource that has any. -/
theorem requests_right_iff (t₀ : ResourceLabels e) (rs : List Request) :
    Each step (fun t r => t.Plain r ∧ t.Right r) t₀ rs ↔
      Each step (fun t r => t.Plain r ∧ t.Changes r) t₀ rs := by
  constructor
  · intro h
    exact h.mono fun t r ⟨hplain, hright⟩ => ⟨hplain, (right_iff_changes hplain).mp hright⟩
  · intro h
    exact h.mono fun t r ⟨hplain, hchanges⟩ => ⟨hplain, (right_iff_changes hplain).mpr hchanges⟩

/-- All labels of a resource with one label, and the value that is there already. -/
theorem not_right_labels :
    ¬ small.Right (.deleteAll "i-abc12345".toList) ∧
    ¬ small.Right (.set "i-abc12345".toList "k".toList (some [118])) := by
  constructor
  · intro h
    obtain ⟨hnone, -⟩ | ⟨-, heff⟩ := h.effect
    · cases hnone
    · have hk := congrFun (congrFun heff "i-abc12345".toList) "k".toList
      revert hk
      decide
  · intro h
    refine h.accepts [("k".toList, [118])] rfl (by decide) ?_ (by decide)
    intro p hp
    rw [List.mem_singleton.mp hp]
    exact ⟨⟨by decide, List.all_eq_true.mp (by decide)⟩, ⟨by decide, List.all_eq_true.mp (by decide)⟩,
      fun b hb => by rw [List.mem_singleton.mp hb]; decide, by decide⟩

end ResourceLabels

end ResourceLabel

end WakameVdc
