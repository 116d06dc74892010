import WakameVdc.NetworkRoute

/-!
# What a route connects

Each side settles on a lease of the state it finds, and attaches it if it stands at
no vif. Whether the two ends are then apart is not checked any more.
-/

namespace WakameVdc

open Lib

namespace Lease

/-! ## The two sides -/

def RouteRequest.sides (request : RouteRequest) : Option (Option SideOptions × Option SideOptions) :=
  match request.createOptions with
  | none => some (none, none)
  | some (some inner, some outer) => some (some inner, some outer)
  | some _ => none

namespace Db

def settles (db : Db) (services : Services) (leaseId : Option Nat) (options : Option SideOptions) :
    Option Nat :=
  match options with
  | none => leaseId
  | some options =>
    if options.vifFirst then
      (db.sideVif services options).bind fun v => (db.ipDataset v.id).head?.map VifLeaseRow.id
    else leaseId

/-- The lease that is given and stands at no vif, with the vif it comes to. -/
def attaches (db : Db) (services : Services) (leaseId : Option Nat) (options : Option SideOptions) :
    Option (VifLeaseRow × VifRow) :=
  match options with
  | none => none
  | some options =>
    if options.vifFirst then none
    else (leaseId.bind db.vifLeases.find).bind fun l =>
      if (db.networkVif l).isSome then none
      else (db.sideVif services options).map fun v => (l, v)

/-- Nothing refuses the side. -/
def Fits (db : Db) (services : Services) (leaseId : Option Nat) (options : Option SideOptions) :
    Prop :=
  ∀ o, options = some o →
    if o.vifFirst then ∃ v, db.sideVif services o = some v ∧ db.ipDataset v.id ≠ []
    else ∀ l, leaseId.bind db.vifLeases.find = some l → db.networkVif l = none →
      ∃ v, db.sideVif services o = some v ∧ db.acceptsIpLease v l = true ∧ db.revalidateLease l = []

def attach (db : Db) : Option (VifLeaseRow × VifRow) → Db
  | none => db
  | some (l, v) => { db with
      vifLeases := db.vifLeases.modify l.id (fun r => { r with networkVifId := some v.id }) fun _ => rfl }

def afterSide (db : Db) (services : Services) (leaseId : Option Nat) (options : Option SideOptions) :
    Db := db.attach (db.attaches services leaseId options)

/-- The side ends at the lease `l` and the vif `v`. -/
def EndsAt (db : Db) (services : Services) (leaseId : Option Nat) (options : Option SideOptions)
    (l : VifLeaseRow) (v : VifRow) : Prop :=
  (db.settles services leaseId options).bind db.vifLeases.find = some l ∧
    (db.networkVif l = some v ∨ db.attaches services leaseId options = some (l, v))

end Db

/-- Nothing refuses the request. -/
structure Accepted (services : Services) (db : Db) (request : RouteRequest)
    (inner outer : Option SideOptions) : Prop where
  sides : request.sides = some (inner, outer)
  valid : db.validateRoute services request = .ok []
  fitsInner : db.Fits services request.innerLeaseId inner
  fitsOuter : (db.afterSide services request.innerLeaseId inner).Fits services request.outerLeaseId outer
  unique : ∀ r ∈ db.routes.rows, r.deleted = false →
    ¬ (r.innerLeaseId = db.settles services request.innerLeaseId inner ∧
      r.outerLeaseId = (db.afterSide services request.innerLeaseId inner).settles services
        request.outerLeaseId outer)

/-- The two sides, the outer one after the inner one, end at alive leases of two
vifs of two networks. -/
def EndsApart (services : Services) (db : Db) (request : RouteRequest)
    (inner outer : Option SideOptions) : Prop :=
  ∃ l v k w, db.EndsAt services request.innerLeaseId inner l v ∧
    (db.afterSide services request.innerLeaseId inner).EndsAt services request.outerLeaseId outer k w ∧
    l.deleted = false ∧ k.deleted = false ∧ v.Apart w

section
variable {services : Services} {db t u : Db} {request : RouteRequest} {leaseId : Option Nat}
  {options : SideOptions} {route : RouteRow}

theorem find_sideVif {v : VifRow} (h : db.sideVif services options = some v) :
    db.vifs.find v.id = some v := by
  unfold Db.sideVif at h
  split at h
  · obtain ⟨id, -, hv⟩ := Option.bind_eq_some_iff.mp h
    rwa [← db.vifs.pk_of_find hv] at hv
  · obtain ⟨network, -, hv⟩ := Option.bind_eq_some_iff.mp h
    exact db.vifs.find_of_mem (List.mem_of_mem_filter (List.mem_of_mem_head? hv))

theorem attachVif_eq {l : VifLeaseRow} {v : VifRow} (haccepts : db.acceptsIpLease v l = true)
    (hvalid : db.revalidateLease l = []) :
    db.addIpLease v l true = .ok (db.attach (some (l, v))) := by
  unfold Db.acceptsIpLease at haccepts
  rw [Bool.and_eq_true, beq_iff_eq] at haccepts
  have hfree : (l.networkVifId.bind db.vifs.find).isSome = false := by
    simpa [Db.networkVif] using haccepts.1
  unfold Db.addIpLease Db.attachVif
  rw [hvalid, hfree, if_neg (by simp), if_neg (by simp), if_neg (not_not.mpr haccepts.2)]
  rfl

theorem exec_placeSide (hfits : db.Fits services leaseId (some options)) :
    Proc.exec (placeSide services leaseId options) db =
      (.ok ⟨db.settles services leaseId (some options),
        (db.attaches services leaseId (some options)).isSome⟩,
      db.afterSide services leaseId (some options)) := by
  have hfits := hfits options rfl
  unfold placeSide Db.settles Db.afterSide Db.attaches
  rw [Proc.exec_bind, Proc.exec_get]
  dsimp only
  cases hfirst : options.vifFirst with
  | true =>
    rw [if_pos rfl, if_pos rfl, if_pos rfl]
    rw [hfirst, if_pos rfl] at hfits
    obtain ⟨v, hv, hne⟩ := hfits
    rw [hv, Option.bind_some]
    dsimp only
    cases hd : db.ipDataset v.id with
    | nil => exact absurd hd hne
    | cons l ls => rfl
  | false =>
    rw [if_neg Bool.false_ne_true, if_neg Bool.false_ne_true, if_neg Bool.false_ne_true]
    rw [hfirst, if_neg Bool.false_ne_true] at hfits
    cases hl : leaseId.bind db.vifLeases.find with
    | none => rfl
    | some l =>
      dsimp only [Option.bind_some]
      cases hvif : db.networkVif l with
      | some v => rfl
      | none =>
        obtain ⟨v, hv, haccepts, hvalid⟩ := hfits l hl hvif
        simp only [hv, Option.isSome_none, Bool.false_eq_true, if_false, haccepts, Bool.not_true,
          Option.map_some, attachVif_eq haccepts hvalid]
        rfl

theorem exec_placeSide_error (hfits : ¬ db.Fits services leaseId (some options)) :
    ∃ e, Proc.exec (placeSide services leaseId options) db = (.error e, db) := by
  unfold placeSide
  rw [Proc.exec_bind, Proc.exec_get]
  dsimp only
  cases hfirst : options.vifFirst with
  | true =>
    rw [if_pos rfl]
    cases hv : db.sideVif services options with
    | none => exact ⟨_, rfl⟩
    | some v =>
      dsimp only
      cases hd : db.ipDataset v.id with
      | nil => exact ⟨_, rfl⟩
      | cons l ls =>
        refine absurd ?_ hfits
        rintro o ⟨⟩
        rw [hfirst, if_pos rfl]
        exact ⟨v, hv, by simp [hd]⟩
  | false =>
    rw [if_neg Bool.false_ne_true]
    have hl : ∃ l, leaseId.bind db.vifLeases.find = some l ∧ db.networkVif l = none ∧
        ¬ ∃ v, db.sideVif services options = some v ∧ db.acceptsIpLease v l = true ∧
          db.revalidateLease l = [] := by
      by_contra hno
      apply hfits
      rintro o ⟨⟩
      rw [hfirst, if_neg Bool.false_ne_true]
      intro l hl hvif
      by_contra hrefuses
      exact hno ⟨l, hl, hvif, hrefuses⟩
    obtain ⟨l, hl, hvif, hrefuses⟩ := hl
    rw [hl]
    dsimp only
    rw [hvif]
    cases hv : db.sideVif services options with
    | none => exact ⟨_, rfl⟩
    | some v =>
      dsimp only
      rw [if_neg (by simp)]
      cases haccepts : db.acceptsIpLease v l with
      | false => exact ⟨_, rfl⟩
      | true =>
        rw [if_neg (by simp)]
        cases hadd : db.addIpLease v l true with
        | error e => exact ⟨_, rfl⟩
        | ok db' =>
          refine absurd ⟨v, hv, haccepts, ?_⟩ hrefuses
          unfold Db.acceptsIpLease at haccepts
          rw [Bool.and_eq_true, beq_iff_eq] at haccepts
          have hfree : (l.networkVifId.bind db.vifs.find).isSome = false := by
            simpa [Db.networkVif] using haccepts.1
          unfold Db.addIpLease Db.attachVif at hadd
          rw [hfree, if_neg (by simp), if_neg (by simp), if_neg (not_not.mpr haccepts.2)] at hadd
          cases hvalid : db.revalidateLease l with
          | nil => rfl
          | cons e es =>
            rw [hvalid] at hadd
            cases hadd

/-! ## The call -/

theorem transaction_ok {α : Type} {x : RouteM α} {a : α} (h : Proc.exec x db = (.ok a, t)) :
    Proc.exec (transaction x) db = (.ok a, t) := by
  unfold transaction
  rw [Proc.exec_bind, Proc.exec_get]
  dsimp only
  rw [h]
  rfl

theorem transaction_error {α : Type} {x : RouteM α} {e : RouteError} (h : Proc.exec x db = (.error e, t)) :
    Proc.exec (transaction x) db = (.error e, db) := by
  unfold transaction
  rw [Proc.exec_bind, Proc.exec_get]
  dsimp only
  rw [h]
  rfl

theorem createRoute_error {e : RouteError}
    (h : Proc.exec (createRoute services request) db = (.error e, t)) : t = db := by
  unfold createRoute at h
  rw [Proc.exec_bind, Proc.exec_get] at h
  dsimp only at h
  split at h
  · cases h
    rfl
  · cases hx : Proc.exec (aroundCreate services request) db with
    | mk r u =>
      cases r with
      | error e' =>
        rw [transaction_error hx] at h
        cases h
        rfl
      | ok a =>
        rw [transaction_ok hx] at h
        cases h
  · cases h
    rfl

theorem exec_insertRoute (inner outer : Placed) (db : Db) :
    (∀ r ∈ db.routes.rows, r.deleted = false →
        ¬ (r.innerLeaseId = inner.leaseId ∧ r.outerLeaseId = outer.leaseId)) ∧
      Proc.exec (insertRoute inner outer) db =
        (.ok ⟨db.routes.next, inner.leaseId, outer.leaseId, inner.release, outer.release, false⟩,
          { db with routes := db.routes.create (fun id =>
            ⟨id, inner.leaseId, outer.leaseId, inner.release, outer.release, false⟩) fun _ => rfl }) ∨
      (¬ ∀ r ∈ db.routes.rows, r.deleted = false →
        ¬ (r.innerLeaseId = inner.leaseId ∧ r.outerLeaseId = outer.leaseId)) ∧
      Proc.exec (insertRoute inner outer) db = (.error .uniqueConstraint, db) := by
  unfold insertRoute
  rw [Proc.exec_bind, Proc.exec_get]
  dsimp only
  split
  · rename_i hany
    obtain ⟨r, hr, hsame⟩ := List.any_eq_true.mp hany
    simp only [Bool.and_eq_true, Bool.not_eq_true', beq_iff_eq] at hsame
    exact .inr ⟨fun hno => hno r hr hsame.1.1 ⟨hsame.1.2, hsame.2⟩, rfl⟩
  · rename_i hnone
    refine .inl ⟨?_, rfl⟩
    rintro r hr hdel ⟨hinner, houter⟩
    apply hnone
    exact List.any_eq_true.mpr ⟨r, hr, by simp [hdel, hinner, houter]⟩

theorem routes_attach (db : Db) (p : Option (VifLeaseRow × VifRow)) :
    (db.attach p).routes = db.routes := by
  cases p with
  | none => rfl
  | some p => rfl

def createdRoute (services : Services) (db : Db) (request : RouteRequest)
    (inner outer : Option SideOptions) (id : Nat) : RouteRow :=
  let after := db.afterSide services request.innerLeaseId inner
  ⟨id, db.settles services request.innerLeaseId inner,
    after.settles services request.outerLeaseId outer,
    (db.attaches services request.innerLeaseId inner).isSome,
    (after.attaches services request.outerLeaseId outer).isSome, false⟩

def createdDb (services : Services) (db : Db) (request : RouteRequest)
    (inner outer : Option SideOptions) : Db :=
  { (db.afterSide services request.innerLeaseId inner).afterSide services request.outerLeaseId outer
    with routes := db.routes.create (createdRoute services db request inner outer) fun _ => rfl }

theorem routes_afterSide (db : Db) (services : Services) (leaseId : Option Nat)
    (options : Option SideOptions) : (db.afterSide services leaseId options).routes = db.routes :=
  routes_attach _ _

variable {inner outer : Option SideOptions}

theorem exec_aroundCreate (h : Accepted services db request inner outer) :
    Proc.exec (aroundCreate services request) db =
      (.ok (createdRoute services db request inner outer db.routes.next),
        createdDb services db request inner outer) := by
  have hsides := h.sides
  unfold RouteRequest.sides at hsides
  unfold aroundCreate
  split at hsides
  · rename_i hnone
    cases hsides
    rw [hnone]
    rcases exec_insertRoute ⟨request.innerLeaseId, false⟩ ⟨request.outerLeaseId, false⟩ db with
      ⟨-, he⟩ | ⟨hno, -⟩
    · exact he
    · exact absurd h.unique hno
  · rename_i i o hsome
    cases hsides
    rw [hsome]
    dsimp only
    rw [Proc.exec_bind, exec_placeSide h.fitsInner]
    dsimp only
    rw [Proc.exec_bind, exec_placeSide h.fitsOuter]
    dsimp only
    rcases exec_insertRoute _ _ ((db.afterSide services request.innerLeaseId (some i)).afterSide services
      request.outerLeaseId (some o)) with ⟨-, he⟩ | ⟨hno, -⟩
    · rw [he]
      simp only [routes_afterSide]
      rfl
    · simp only [routes_afterSide] at hno
      exact absurd h.unique hno
  · cases hsides

theorem exec_aroundCreate_error (hsides : request.sides = some (inner, outer))
    (hvalid : db.validateRoute services request = .ok [])
    (h : ¬ Accepted services db request inner outer) :
    ∃ e t, Proc.exec (aroundCreate services request) db = (.error e, t) := by
  have hs := hsides
  unfold RouteRequest.sides at hs
  unfold aroundCreate
  split at hs
  · rename_i hnone
    cases hs
    rw [hnone]
    rcases exec_insertRoute ⟨request.innerLeaseId, false⟩ ⟨request.outerLeaseId, false⟩ db with
      ⟨hfree, -⟩ | ⟨-, he⟩
    · refine absurd ⟨hsides, hvalid, ?_, ?_, hfree⟩ h
      · rintro o ⟨⟩
      · rintro o ⟨⟩
    · exact ⟨_, _, he⟩
  · rename_i i o hsome
    cases hs
    rw [hsome]
    dsimp only
    by_cases hinner : db.Fits services request.innerLeaseId (some i)
    · rw [Proc.exec_bind, exec_placeSide hinner]
      dsimp only
      by_cases houter : (db.afterSide services request.innerLeaseId (some i)).Fits services
          request.outerLeaseId (some o)
      · rw [Proc.exec_bind, exec_placeSide houter]
        dsimp only
        rcases exec_insertRoute
          ⟨db.settles services request.innerLeaseId (some i),
            (db.attaches services request.innerLeaseId (some i)).isSome⟩
          ⟨(db.afterSide services request.innerLeaseId (some i)).settles services
              request.outerLeaseId (some o),
            ((db.afterSide services request.innerLeaseId (some i)).attaches services
              request.outerLeaseId (some o)).isSome⟩
          ((db.afterSide services request.innerLeaseId (some i)).afterSide services
            request.outerLeaseId (some o)) with ⟨hfree, -⟩ | ⟨-, he⟩
        · simp only [routes_afterSide] at hfree
          exact absurd ⟨hsides, hvalid, hinner, houter, hfree⟩ h
        · exact ⟨_, _, he⟩
      · obtain ⟨e, he⟩ := exec_placeSide_error houter
        rw [Proc.exec_bind, he]
        exact ⟨_, _, rfl⟩
    · obtain ⟨e, he⟩ := exec_placeSide_error hinner
      rw [Proc.exec_bind, he]
      exact ⟨_, _, rfl⟩
  · cases hs

theorem sides_of_valid (h : db.validateRoute services request = .ok []) :
    ∃ inner outer, request.sides = some (inner, outer) := by
  unfold Db.validateRoute at h
  unfold RouteRequest.sides
  generalize request.createOptions = options at h ⊢
  match options with
  | none => exact ⟨none, none, rfl⟩
  | some (some i, some o) => exact ⟨some i, some o, rfl⟩
  | some (none, _) => cases h
  | some (some _, none) => cases h

theorem exec_createRoute (h : Accepted services db request inner outer) :
    Proc.exec (createRoute services request) db =
      (.ok (createdRoute services db request inner outer db.routes.next),
        createdDb services db request inner outer) := by
  unfold createRoute
  rw [Proc.exec_bind, Proc.exec_get]
  dsimp only
  rw [h.valid]
  exact transaction_ok (exec_aroundCreate h)

theorem createRoute_ok (h : Proc.exec (createRoute services request) db = (.ok route, t)) :
    ∃ inner outer, Accepted services db request inner outer ∧
      route = createdRoute services db request inner outer db.routes.next ∧
      t = createdDb services db request inner outer := by
  have hvalid : db.validateRoute services request = .ok [] := by
    unfold createRoute at h
    rw [Proc.exec_bind, Proc.exec_get] at h
    dsimp only at h
    split at h
    · cases h
    · assumption
    · cases h
  obtain ⟨inner, outer, hsides⟩ := sides_of_valid hvalid
  by_cases hacc : Accepted services db request inner outer
  · rw [exec_createRoute hacc] at h
    cases h
    exact ⟨inner, outer, hacc, rfl, rfl⟩
  · obtain ⟨e, u, he⟩ := exec_aroundCreate_error hsides hvalid hacc
    unfold createRoute at h
    rw [Proc.exec_bind, Proc.exec_get] at h
    dsimp only at h
    rw [hvalid] at h
    dsimp only at h
    rw [transaction_error he] at h
    cases h

/-! ## Where the sides end -/

theorem networkVif_attach (db : Db) (p : Option (VifLeaseRow × VifRow)) (l : VifLeaseRow) :
    (db.attach p).networkVif l = db.networkVif l := by
  cases p with
  | none => rfl
  | some p => rfl

theorem find_attach (db : Db) (l : VifLeaseRow) (v : VifRow) (k : Nat) :
    (db.attach (some (l, v))).vifLeases.find k =
      if k = l.id then (db.vifLeases.find k).map fun r => { r with networkVifId := some v.id }
      else db.vifLeases.find k :=
  db.vifLeases.find_modify l.id (fun r => { r with networkVifId := some v.id }) (fun _ => rfl) k

/-- The lease stands at no vif, and the vif exists. -/
structure Attachable (db : Db) (l : VifLeaseRow) (v : VifRow) : Prop where
  lease : db.vifLeases.find l.id = some l
  free : db.networkVif l = none
  vif : db.vifs.find v.id = some v

theorem attaches_some {side : Option SideOptions} {l : VifLeaseRow} {v : VifRow}
    (h : db.attaches services leaseId side = some (l, v)) :
    leaseId = some l.id ∧ db.settles services leaseId side = some l.id ∧ Attachable db l v ∧
      (db.Fits services leaseId side → db.revalidateLease l = []) := by
  unfold Db.attaches at h
  unfold Db.settles Db.Fits
  cases side with
  | none => cases h
  | some o =>
    dsimp only at h ⊢
    split at h
    · cases h
    · rename_i hfirst
      obtain ⟨k, hk, h⟩ := Option.bind_eq_some_iff.mp h
      split at h
      · cases h
      · rename_i hfree
        obtain ⟨w, hw, he⟩ := Option.map_eq_some_iff.mp h
        cases he
        obtain ⟨id, hid, hfind⟩ := Option.bind_eq_some_iff.mp hk
        have hlid : l.id = id := db.vifLeases.pk_of_find hfind
        rw [← hlid] at hid hfind
        have hnone : db.networkVif l = none := by simpa using hfree
        refine ⟨hid, ?_, ⟨hfind, hnone, find_sideVif hw⟩, fun hfits => ?_⟩
        · rw [if_neg hfirst, hid]
        · have hfits := hfits o rfl
          rw [if_neg hfirst] at hfits
          obtain ⟨_, _, _, hvalid⟩ := hfits l hk hnone
          exact hvalid

theorem standsAt_afterSide (side : Option SideOptions) (v : VifRow) :
    (∃ l, (db.afterSide services leaseId side).StandsAt (db.settles services leaseId side) l v) ↔
      ∃ l, db.EndsAt services leaseId side l v ∧ l.deleted = false := by
  unfold Db.afterSide Db.EndsAt
  cases hatt : db.attaches services leaseId side with
  | none =>
    constructor
    · rintro ⟨l, hl, halive, hvif⟩
      exact ⟨l, ⟨hl, .inl hvif⟩, halive⟩
    · rintro ⟨l, ⟨hl, hvif | hno⟩, halive⟩
      · exact ⟨l, hl, halive, hvif⟩
      · cases hno
  | some p =>
    obtain ⟨k, w⟩ := p
    obtain ⟨-, hsettles, ha, -⟩ := attaches_some hatt
    have hfind := find_attach db k w k.id
    rw [if_pos rfl, ha.lease, Option.map_some] at hfind
    rw [hsettles, Option.bind_some, ha.lease]
    constructor
    · rintro ⟨l, hl, halive, hvif⟩
      rw [Option.bind_some, hfind] at hl
      cases hl
      rw [networkVif_attach, Db.networkVif, Option.bind_some, ha.vif] at hvif
      cases hvif
      exact ⟨k, ⟨rfl, .inr rfl⟩, halive⟩
    · rintro ⟨l, ⟨hl, hvif⟩, halive⟩
      cases hl
      rcases hvif with hvif | he
      · rw [ha.free] at hvif
        cases hvif
      · cases he
        refine ⟨_, hfind, halive, ?_⟩
        rw [networkVif_attach]
        exact ha.vif

theorem standsAt_attach {p : Option (VifLeaseRow × VifRow)} {l : VifLeaseRow} {v : VifRow}
    (hp : ∀ k w, p = some (k, w) → Attachable db k w)
    (hset : p ≠ none → ∀ l, leaseId.bind db.vifLeases.find = some l → db.networkVif l ≠ none) :
    (db.attach p).StandsAt leaseId l v ↔ db.StandsAt leaseId l v := by
  have hsame : leaseId.bind (db.attach p).vifLeases.find = leaseId.bind db.vifLeases.find := by
    cases p with
    | none => rfl
    | some p =>
      obtain ⟨k, w⟩ := p
      have ha := hp k w rfl
      cases leaseId with
      | none => rfl
      | some id =>
        rw [Option.bind_some, Option.bind_some, find_attach, if_neg]
        rintro rfl
        exact hset (Option.some_ne_none _) k ha.lease ha.free
  constructor
  · rintro ⟨hl, halive, hvif⟩
    rw [hsame] at hl
    rw [networkVif_attach] at hvif
    exact ⟨hl, halive, hvif⟩
  · rintro ⟨hl, halive, hvif⟩
    rw [← hsame] at hl
    rw [← networkVif_attach db p] at hvif
    exact ⟨hl, halive, hvif⟩

theorem networkVif_afterSide (hfits : db.Fits services leaseId (some options)) {l : VifLeaseRow}
    (hl : (db.settles services leaseId (some options)).bind
      (db.afterSide services leaseId (some options)).vifLeases.find = some l) :
    (db.afterSide services leaseId (some options)).networkVif l ≠ none := by
  unfold Db.afterSide at hl ⊢
  rw [networkVif_attach]
  cases hatt : db.attaches services leaseId (some options) with
  | some p =>
    obtain ⟨k, w⟩ := p
    obtain ⟨-, hsettles, ha, -⟩ := attaches_some hatt
    rw [hatt, hsettles, Option.bind_some, find_attach, if_pos rfl, ha.lease] at hl
    cases hl
    rw [Db.networkVif, Option.bind_some, ha.vif]
    exact Option.some_ne_none _
  | none =>
    have hfits := hfits options rfl
    rw [hatt] at hl
    unfold Db.settles at hl
    unfold Db.attaches at hatt
    dsimp only at hl hatt
    cases hfirst : options.vifFirst with
    | true =>
      rw [hfirst, if_pos rfl] at hfits hl
      obtain ⟨v, hv, -⟩ := hfits
      rw [hv, Option.bind_some] at hl
      cases hd : db.ipDataset v.id with
      | nil =>
        rw [hd] at hl
        cases hl
      | cons k ks =>
        have hk : k ∈ db.ipDataset v.id := by
          rw [hd]
          exact List.mem_cons_self
        obtain ⟨hmem, howner⟩ := List.mem_filter.mp hk
        have hfind : db.vifLeases.find k.id = some k := db.vifLeases.find_of_mem hmem
        rw [hd] at hl
        change db.vifLeases.find k.id = some l at hl
        rw [hfind] at hl
        cases hl
        rw [Db.networkVif, eq_of_beq howner, Option.bind_some, find_sideVif hv]
        exact Option.some_ne_none _
    | false =>
      rw [hfirst, if_neg Bool.false_ne_true] at hfits hl hatt
      change leaseId.bind db.vifLeases.find = some l at hl
      intro hnone
      obtain ⟨v, hv, -⟩ := hfits l hl hnone
      rw [hl, Option.bind_some, hnone, hv] at hatt
      cases hatt

theorem outer_of_sides (hsides : request.sides = some (none, outer)) : outer = none := by
  unfold RouteRequest.sides at hsides
  split at hsides
  · cases hsides
    rfl
  · cases hsides
  · cases hsides

theorem connects_iff (h : Accepted services db request inner outer) (id : Nat) :
    (createdDb services db request inner outer).Connects
        (createdRoute services db request inner outer id) ↔
      EndsApart services db request inner outer := by
  have houter := @standsAt_afterSide services (db.afterSide services request.innerLeaseId inner)
    request.outerLeaseId outer
  have hinner : ∀ l v, ((db.afterSide services request.innerLeaseId inner).afterSide services
      request.outerLeaseId outer).StandsAt (db.settles services request.innerLeaseId inner) l v ↔
      (db.afterSide services request.innerLeaseId inner).StandsAt
        (db.settles services request.innerLeaseId inner) l v := by
    intro l v
    apply standsAt_attach
    · intro k w hatt
      exact (attaches_some hatt).2.2.1
    · intro hne k hk
      cases inner with
      | none =>
        rw [outer_of_sides h.sides] at hne
        exact absurd rfl hne
      | some i => exact networkVif_afterSide h.fitsInner hk
  constructor
  · rintro ⟨l, v, k, w, hl, hk, hapart⟩
    obtain ⟨l', hends, halive⟩ := (standsAt_afterSide inner v).mp
      ⟨l, (hinner l v).mp ⟨hl.lease, hl.alive, hl.vif⟩⟩
    obtain ⟨k', hends', halive'⟩ := (houter w).mp ⟨k, hk.lease, hk.alive, hk.vif⟩
    exact ⟨l', v, k', w, hends, hends', halive, halive', hapart⟩
  · rintro ⟨l, v, k, w, hends, hends', halive, halive', hapart⟩
    obtain ⟨l', hl⟩ := (standsAt_afterSide inner v).mpr ⟨l, hends, halive⟩
    have hl := (hinner l' v).mpr hl
    obtain ⟨k', hk⟩ := (houter w).mpr ⟨k, hends', halive'⟩
    exact ⟨l', v, k', w, ⟨hl.lease, hl.alive, hl.vif⟩, ⟨hk.lease, hk.alive, hk.vif⟩, hapart⟩

/-! ## What destroying the route takes back -/

theorem releaseRouteLease_other {s : Db} {release : Bool} {k : Nat}
    (h : s.releaseRouteLease leaseId release = .ok u) (hk : release = true → leaseId ≠ some k) :
    u.vifLeases.find k = s.vifLeases.find k := by
  unfold Db.releaseRouteLease at h
  split at h
  · cases h
    rfl
  · rename_i l hl
    split at h
    · cases h
      rfl
    · rename_i v _
      split at h
      · rename_i hrelease
        obtain ⟨id, hid, hfind⟩ := Option.bind_eq_some_iff.mp hl
        have hne : k ≠ l.id := by
          rintro rfl
          rw [← s.vifLeases.pk_of_find hfind] at hid
          exact hk hrelease hid
        unfold Db.removeIpLease at h
        split at h
        · cases h
          rfl
        split at h
        · unfold Db.detachVif at h
          split at h
          · cases h
          split at h
          · cases h
            have hfind := s.vifLeases.find_modify l.id (fun r => { r with networkVifId := none })
              (fun _ => rfl) k
            rwa [if_neg hne] at hfind
          · cases h
        · cases h
          have hfind := s.vifLeases.find_modify l.id (fun r => { r with deleted := true })
            (fun _ => rfl) k
          rwa [if_neg hne] at hfind
      · cases h
        rfl

theorem releaseRouteLease_taken {s : Db} {r : VifLeaseRow} {v : VifRow}
    (hr : s.vifLeases.find r.id = some r) (hvif : s.networkVif r = some v)
    (hvalid : s.revalidateLease r = []) :
    ∃ u, s.releaseRouteLease (some r.id) true = .ok u ∧ u.vifs = s.vifs ∧ u.networks = s.networks ∧
      (u.vifLeases.find r.id = some { r with networkVifId := none } ∨
        u.vifLeases.find r.id = some { r with deleted := true }) := by
  have howner : r.networkVifId = some v.id := by
    obtain ⟨id, hid, hfind⟩ := Option.bind_eq_some_iff.mp hvif
    rw [hid, ← s.vifs.pk_of_find hfind]
    rfl
  have hfound : r.networkVifId.bind s.vifs.find = some v := hvif
  unfold Db.releaseRouteLease
  rw [Option.bind_some, hr]
  dsimp only
  rw [hfound]
  dsimp only
  rw [if_pos rfl]
  unfold Db.removeIpLease
  rw [if_neg (not_not.mpr howner)]
  cases hhandle : s.hasAliveHandle r with
  | true =>
    unfold Db.detachVif
    rw [if_pos rfl, hfound, if_neg (by simp), hvalid]
    refine ⟨_, rfl, rfl, rfl, .inl ?_⟩
    have hfind := s.vifLeases.find_modify r.id (fun r => { r with networkVifId := none })
      (fun _ => rfl) r.id
    rwa [if_pos rfl, hr] at hfind
  | false =>
    rw [if_neg Bool.false_ne_true]
    refine ⟨_, rfl, rfl, rfl, .inr ?_⟩
    have hfind := s.vifLeases.find_modify r.id (fun r => { r with deleted := true })
      (fun _ => rfl) r.id
    rwa [if_pos rfl, hr] at hfind

/-- What releasing a side does to its lease: `p` is what the side has attached. -/
theorem releaseRouteLease_side {s : Db} {p : Option (VifLeaseRow × VifRow)}
    (hp : ∀ l v, p = some (l, v) → leaseId = some l.id ∧ ∃ r, r.id = l.id ∧
      s.vifLeases.find l.id = some r ∧ s.networkVif r = some v ∧ s.revalidateLease r = []) :
    ∃ u, s.releaseRouteLease leaseId p.isSome = .ok u ∧ u.vifs = s.vifs ∧ u.networks = s.networks ∧
      (∀ k, (∀ l v, p = some (l, v) → k ≠ l.id) → u.vifLeases.find k = s.vifLeases.find k) ∧
      ∀ l v r, p = some (l, v) → s.vifLeases.find l.id = some r →
        u.vifLeases.find l.id = some { r with networkVifId := none } ∨
          u.vifLeases.find l.id = some { r with deleted := true } := by
  cases p with
  | none =>
    refine ⟨s, ?_, rfl, rfl, fun _ _ => rfl, ?_⟩
    · unfold Db.releaseRouteLease
      split
      · rfl
      · split <;> rfl
    · intro l v r hno
      cases hno
  | some p =>
    obtain ⟨l, v⟩ := p
    obtain ⟨hid, r, hrid, hr, hvif, hvalid⟩ := hp l v rfl
    rw [← hrid] at hr hid
    obtain ⟨u, hu, hvifs, hnetworks, htaken⟩ := releaseRouteLease_taken hr hvif hvalid
    rw [hid]
    refine ⟨u, hu, hvifs, hnetworks, ?_, ?_⟩
    · intro k hk
      apply releaseRouteLease_other hu
      rintro - hsome
      exact hk l v rfl ((Option.some.inj hsome).symm.trans hrid)
    · rintro _ _ x ⟨⟩ hx
      rw [← hrid, hr] at hx
      cases hx
      rw [← hrid]
      exact htaken

theorem attachable_ne {l l' : VifLeaseRow} {v v' : VifRow} (ha : Attachable db l v)
    (ha' : Attachable (db.attach (some (l, v))) l' v') : l'.id ≠ l.id := by
  intro he
  have hlease := ha'.lease
  rw [find_attach, if_pos he, he, ha.lease, Option.map_some] at hlease
  have hfree := ha'.free
  rw [networkVif_attach, ← Option.some.inj hlease, Db.networkVif, Option.bind_some, ha.vif] at hfree
  cases hfree

theorem attachedBy_iff {p q : Option (VifLeaseRow × VifRow)}
    (hp : ∀ l v, p = some (l, v) → Attachable db l v)
    (hq : ∀ l v, q = some (l, v) → Attachable (db.attach p) l v) (k : Nat) :
    AttachedBy db ((db.attach p).attach q) k ↔
      (∃ l v, p = some (l, v) ∧ k = l.id) ∨ ∃ l v, q = some (l, v) ∧ k = l.id := by
  have one : ∀ {d : Db} {l : VifLeaseRow} {v : VifRow}, Attachable d l v →
      l.networkVifId ≠ some v.id := by
    intro d l v ha he
    have hfree := ha.free
    rw [Db.networkVif, he, Option.bind_some, ha.vif] at hfree
    cases hfree
  unfold AttachedBy
  cases q with
  | none =>
    cases p with
    | none => simp [Db.attach]
    | some p =>
      obtain ⟨l, v⟩ := p
      have ha := hp l v rfl
      by_cases hk : k = l.id
      · subst hk
        refine iff_of_true ?_ (.inl ⟨l, v, rfl, rfl⟩)
        rw [show (db.attach (some (l, v))).attach none = db.attach (some (l, v)) from rfl, find_attach,
          if_pos rfl, ha.lease]
        exact fun he => one ha (Option.some.inj he)
      · refine iff_of_false ?_ ?_
        · rw [show (db.attach (some (l, v))).attach none = db.attach (some (l, v)) from rfl,
            find_attach, if_neg hk]
          exact fun hne => hne rfl
        · rintro (⟨_, _, ⟨⟩, he⟩ | ⟨_, _, ⟨⟩, -⟩)
          exact hk he
  | some q =>
    obtain ⟨l', v'⟩ := q
    have ha' := hq l' v' rfl
    rw [find_attach]
    by_cases hk' : k = l'.id
    · subst hk'
      refine iff_of_true ?_ (.inr ⟨l', v', rfl, rfl⟩)
      have hsame : db.vifLeases.find l'.id = some l' := by
        have hlease := ha'.lease
        cases p with
        | none => exact hlease
        | some p =>
          obtain ⟨l, v⟩ := p
          rwa [find_attach, if_neg (attachable_ne (hp l v rfl) ha')] at hlease
      rw [if_pos rfl, ha'.lease, hsame]
      exact fun he => one ha' (Option.some.inj he)
    · rw [if_neg hk']
      cases p with
      | none =>
        refine iff_of_false (fun hne => hne rfl) ?_
        rintro (⟨_, _, ⟨⟩, -⟩ | ⟨_, _, ⟨⟩, he⟩)
        exact hk' he
      | some p =>
        obtain ⟨l, v⟩ := p
        have ha := hp l v rfl
        rw [find_attach]
        by_cases hk : k = l.id
        · subst hk
          refine iff_of_true ?_ (.inl ⟨l, v, rfl, rfl⟩)
          rw [if_pos rfl, ha.lease]
          exact fun he => one ha (Option.some.inj he)
        · rw [if_neg hk]
          refine iff_of_false (fun hne => hne rfl) ?_
          rintro (⟨_, _, ⟨⟩, he⟩ | ⟨_, _, ⟨⟩, he⟩)
          · exact hk he
          · exact hk' he

theorem revalidateLease_congr {s : Db} (hnetworks : s.networks = db.networks) (r : VifLeaseRow) :
    s.revalidateLease r = db.revalidateLease r := by
  unfold Db.revalidateLease
  rw [hnetworks]

/-- A lease that was attached stands at its vif, and still is in its network. -/
theorem attached_stands {s : Db} {l : VifLeaseRow} {v : VifRow} (ha : Attachable db l v)
    (hvalid : db.revalidateLease l = []) (hvifs : s.vifs = db.vifs) (hnetworks : s.networks = db.networks)
    (hfind : s.vifLeases.find l.id = (db.attach (some (l, v))).vifLeases.find l.id) :
    ∃ r, r.id = l.id ∧ s.vifLeases.find l.id = some r ∧ s.networkVif r = some v ∧
      s.revalidateLease r = [] := by
  rw [find_attach, if_pos rfl, ha.lease, Option.map_some] at hfind
  refine ⟨{ l with networkVifId := some v.id }, rfl, hfind, ?_, ?_⟩
  · rw [Db.networkVif, Option.bind_some, hvifs]
    exact ha.vif
  · rw [revalidateLease_congr hnetworks]
    exact hvalid

theorem vifs_attach (db : Db) (p : Option (VifLeaseRow × VifRow)) : (db.attach p).vifs = db.vifs := by
  cases p with
  | none => rfl
  | some p => rfl

theorem networks_attach (db : Db) (p : Option (VifLeaseRow × VifRow)) :
    (db.attach p).networks = db.networks := by
  cases p with
  | none => rfl
  | some p => rfl

/-- Releasing both sides of a route in a state that has what they attached. -/
theorem takenBack_attached {p q : Option (VifLeaseRow × VifRow)} {i o : Option Nat}
    (hp : ∀ l v, p = some (l, v) → i = some l.id ∧ Attachable db l v ∧ db.revalidateLease l = [])
    (hq : ∀ l v, q = some (l, v) → o = some l.id ∧ Attachable (db.attach p) l v ∧
      (db.attach p).revalidateLease l = [])
    (ht : t.vifLeases = ((db.attach p).attach q).vifLeases) (hvifs : t.vifs = db.vifs)
    (hnetworks : t.networks = db.networks) (id : Nat) (deleted : Bool) :
    TakenBack db t ⟨id, i, o, p.isSome, q.isSome, deleted⟩ := by
  have hattached : ∀ k, AttachedBy db t k ↔
      (∃ l v, p = some (l, v) ∧ k = l.id) ∨ ∃ l v, q = some (l, v) ∧ k = l.id := by
    intro k
    unfold AttachedBy
    rw [ht]
    exact attachedBy_iff (fun l v h => (hp l v h).2.1) (fun l v h => (hq l v h).2.1) k
  have hne : ∀ l v l' v', p = some (l, v) → q = some (l', v') → l'.id ≠ l.id := by
    intro l v l' v' hl hl'
    have ha' := (hq l' v' hl').2.1
    rw [hl] at ha'
    exact attachable_ne (hp l v hl).2.1 ha'
  constructor
  · have hinner := @releaseRouteLease_side i t p (by
      intro l v hl
      obtain ⟨hi, ha, hvalid⟩ := hp l v hl
      refine ⟨hi, attached_stands ha hvalid hvifs hnetworks ?_⟩
      rw [ht, hl]
      cases hq' : q with
      | none => rfl
      | some q' =>
        obtain ⟨l', v'⟩ := q'
        rw [find_attach, if_neg (Ne.symm (hne l v l' v' hl hq'))])
    obtain ⟨u, hu, huvifs, hunetworks, hother, htaken⟩ := hinner
    have houter := @releaseRouteLease_side o u q (by
      intro l v hl
      obtain ⟨ho, ha, hvalid⟩ := hq l v hl
      refine ⟨ho, attached_stands ha hvalid ?_ ?_ ?_⟩
      · rw [huvifs, hvifs, vifs_attach]
      · rw [hunetworks, hnetworks, networks_attach]
      · rw [hother l.id fun l' v' hl' => hne l' v' l v hl' hl, ht, hl])
    obtain ⟨w, hw, -, -, hother', htaken'⟩ := houter
    refine ⟨{ w with routes := w.routes.modify id (fun r => { r with deleted := true }) fun _ => rfl },
      ?_, ?_⟩
    · unfold Db.destroyRoute
      dsimp only
      rw [hu]
      show (u.releaseRouteLease o q.isSome >>= _) = _
      rw [hw]
      rfl
    · intro l hl
      have hfind : t.vifLeases.find l.id = some l := t.vifLeases.find_of_mem hl
      rw [hattached]
      dsimp only
      constructor
      · rintro (⟨k, v, hk, hid⟩ | ⟨k, v, hk, hid⟩)
        · rw [hother' l.id fun l' v' hl' => by rw [hid]; exact Ne.symm (hne k v l' v' hk hl')]
          rw [hid] at hfind
          have hgot := htaken k v l hk hfind
          rwa [← hid] at hgot
        · have hkept : u.vifLeases.find k.id = some l := by
            rw [hother k.id fun l' v' hl' => hne l' v' k v hl' hk, ← hid]
            exact hfind
          have hgot := htaken' k v l hk hkept
          rwa [← hid] at hgot
      · intro hno
        rw [hother' l.id fun l' v' hl' he => hno (.inr ⟨l', v', hl', he⟩),
          hother l.id fun l' v' hl' he => hno (.inl ⟨l', v', hl', he⟩)]
        exact hfind
  · intro s u hu k hk
    rw [hattached] at hk
    obtain ⟨s', hs', hu⟩ := bind_ok hu
    obtain ⟨s'', hs'', hu⟩ := bind_ok hu
    cases hu
    have hinner : p.isSome = true → i ≠ some k := by
      intro hsome he
      obtain ⟨⟨l, v⟩, hl⟩ := Option.isSome_iff_exists.mp hsome
      rw [(hp l v hl).1] at he
      exact hk (.inl ⟨l, v, hl, (Option.some.inj he).symm⟩)
    have houter : q.isSome = true → o ≠ some k := by
      intro hsome he
      obtain ⟨⟨l, v⟩, hl⟩ := Option.isSome_iff_exists.mp hsome
      rw [(hq l v hl).1] at he
      exact hk (.inr ⟨l, v, hl, (Option.some.inj he).symm⟩)
    exact (releaseRouteLease_other hs'' houter).trans (releaseRouteLease_other hs' hinner)

theorem takenBack_created (h : Accepted services db request inner outer) (id : Nat) :
    TakenBack db (createdDb services db request inner outer)
      (createdRoute services db request inner outer id) := by
  apply takenBack_attached
  · intro l v hl
    obtain ⟨-, hsettles, ha, hvalid⟩ := attaches_some hl
    exact ⟨hsettles, ha, hvalid h.fitsInner⟩
  · intro l v hl
    obtain ⟨-, hsettles, ha, hvalid⟩ := attaches_some hl
    exact ⟨hsettles, ha, hvalid h.fitsOuter⟩
  · rfl
  · exact (vifs_attach _ _).trans (vifs_attach _ _)
  · exact (networks_attach _ _).trans (networks_attach _ _)

/-- The call keeps its promise exactly if the two sides of a request nothing refuses
end apart: what it does when it raises, and what its route gives back, is right
in any case. -/
theorem routePromised_iff (services : Services) (db : Db) (request : RouteRequest) :
    RoutePromised services db request ↔ ∀ inner outer,
      Accepted services db request inner outer → EndsApart services db request inner outer := by
  constructor
  · intro h inner outer hacc
    exact (connects_iff hacc _).mp (h.connects _ _ (exec_createRoute hacc))
  · intro h
    refine ⟨?_, ?_, ?_⟩
    · intro route t hok
      obtain ⟨inner, outer, hacc, rfl, rfl⟩ := createRoute_ok hok
      exact (connects_iff hacc _).mpr (h inner outer hacc)
    · intro e t herror
      rw [createRoute_error herror]
      exact ⟨rfl, rfl⟩
    · intro route t hok
      obtain ⟨inner, outer, hacc, rfl, rfl⟩ := createRoute_ok hok
      exact takenBack_created hacc _

end

/-! ## An external address for a restarted instance -/

def networkRow (ipv4Network id : Nat) : NetworkRow :=
  ⟨id, ipv4Network, 24, none, none, none, none, .asc, 1⟩

def ipLeaseRow (network ipv4 id : Nat) : IpLeaseRow := ⟨id, network, ipv4⟩

def vifLeaseRow (network : Nat) (vif : Option Nat) (ipv4 : Nat) (handle : Option Nat) (deleted : Bool)
    (id : Nat) : VifLeaseRow := ⟨id, network, vif, ipv4, .auto, handle, deleted⟩

def attachedVif (network id : Nat) : VifRow := ⟨id, some network, none, 0, none, false⟩

def addNetwork (networks : Table NetworkRow) (ipv4Network : Nat) : Table NetworkRow :=
  networks.create (networkRow ipv4Network) fun _ => rfl

def addIpLease (leases : Table IpLeaseRow) (network ipv4 : Nat) : Table IpLeaseRow :=
  leases.create (ipLeaseRow network ipv4) fun _ => rfl

def addVifLease (leases : Table VifLeaseRow) (network : Nat) (vif : Option Nat) (ipv4 : Nat)
    (handle : Option Nat) (deleted : Bool) : Table VifLeaseRow :=
  leases.create (vifLeaseRow network vif ipv4 handle deleted) fun _ => rfl

def addVif (vifs : Table VifRow) (network : Nat) : Table VifRow :=
  vifs.create (attachedVif network) fun _ => rfl

def addIpHandle (handles : Table IpHandleRow) (ipPool : Nat) : Table IpHandleRow :=
  handles.create (fun id => ⟨id, ipPool, false⟩) fun id => pk_ipHandle ipPool id

/-- The vif 1 had an address until its instance was stopped, and has another one
since. The lease 3 belongs to a handle, and the vif 2 offers the service 7. -/
def restarted : Db where
  networks := addNetwork (addNetwork .empty 0x0a000000) 0xc0a80000
  dhcpRanges := .empty
  ipLeases := addIpLease (addIpLease .empty 1 0x0a00000b) 2 0xc0a8000a
  vifLeases :=
    addVifLease
      (addVifLease (addVifLease .empty 1 (some 1) 0x0a00000a none true)
        1 (some 1) 0x0a00000b none false)
      2 none 0xc0a8000a (some 1) false
  vifs := addVif (addVif .empty 1) 2
  ipHandles := addIpHandle .empty 1
  routes := .empty
  ipPoolDcNetworks := [(1, 1)]

/-- The options of `POST /network_vifs/:id/external_ip`. -/
def externalIp : RouteRequest where
  innerLeaseId := none
  outerLeaseId := some 3
  createOptions := some (some ⟨some 1, some 1, none, true⟩, some ⟨some 2, none, some 7, false⟩)

/-- The first lease of the vif is the one that is marked as deleted. -/
theorem route_from_deleted_lease : ¬ RoutePromised [(2, 7)] restarted externalIp := by
  intro h
  obtain ⟨l, v, k, w, hl, -⟩ := h.connects ⟨1, some 1, some 3, false, true, false⟩ _ rfl
  have hlease := hl.lease
  have halive := hl.alive
  have hfirst : some (vifLeaseRow 1 (some 1) 0x0a00000a none true 1) = some l := hlease
  cases hfirst
  cases halive

end Lease

end WakameVdc
