import WakameVdc.IpLeaseWrites

/-!
# Runs of the lease operations

Each operation destroys some rows and creates others. The tables stay in step
along every run in which no operation destroys a row that is marked as deleted
already, and whose address another row holds by then.
-/

namespace WakameVdc

open Lib

namespace Lease

/-! ## The search for a free address ends -/

/-- The reserved addresses of a network no lease takes yet. -/
def Db.freeReserved (db : Db) (network : NetworkRow) : List Nat :=
  network.reservedIps.filter fun ip => !db.isLeased network.id ip

theorem freeReserved_insertLease {db : Db} {network : NetworkRow} {ip : Nat}
    (hr : ip ∈ network.reservedIps) (hf : db.isLeased network.id ip = false) (t : AllocType) :
    ((db.insertLease network.id ip none t none).freeReserved network).length <
      (db.freeReserved network).length := by
  unfold Db.freeReserved
  simp only [isLeased_insertLease]
  have hsplit : (network.reservedIps.filter fun x =>
      !(db.isLeased network.id x || (network.id == network.id && ip == x))) =
      (network.reservedIps.filter fun x => !db.isLeased network.id x).filter fun x => !(ip == x) := by
    rw [List.filter_filter]
    apply List.filter_congr
    intro x _
    simp [Bool.and_comm]
  rw [hsplit]
  apply List.length_filter_lt_length_iff_exists.mpr
  refine ⟨ip, List.mem_filter.mpr ⟨hr, ?_⟩, ?_⟩
  · rw [hf]; rfl
  · simp

theorem exec_createLease (n a : Nat) (vif : Option Nat) (t : AllocType) (handle : Option Nat)
    (db : Db) :
    Proc.exec (createLease n a vif t handle) db =
      if db.validateLease n a handle = [] then (.ok (), db.insertLease n a vif t handle)
      else (.error (.validationFailed (db.validateLease n a handle)), db) := by
  unfold createLease
  rw [Proc.exec_bind, Proc.exec_get]
  dsimp only
  cases h : db.validateLease n a handle with
  | nil => rfl
  | cons e es => rfl

theorem exec_searchRange_succ (env : Env) (network : NetworkRow) (order : Order)
    (fuel f t : Nat) (db : Db) :
    Proc.exec (searchRange env network order (fuel + 1) f t) db =
      match availableIp env db network.id f t order with
      | none => (.ok none, db)
      | some ip =>
        if network.isReservedIp ip then
          if db.validateLease network.id ip none = [] then
            Proc.exec (searchRange env network order fuel (if order = .asc then ip else f)
              (if order = .asc then t else ip)) (db.insertLease network.id ip none .reserved none)
          else (.error (.validationFailed (db.validateLease network.id ip none)), db)
        else (.ok (some ip), db) := by
  rw [searchRange, Proc.exec_bind, Proc.exec_get]
  dsimp only
  cases availableIp env db network.id f t order with
  | none => rfl
  | some ip =>
    by_cases hr : network.isReservedIp ip = true
    · simp only [if_pos hr]
      rw [Proc.exec_bind, addReserved, exec_createLease]
      by_cases hv : db.validateLease network.id ip none = []
      · simp only [if_pos hv]
        cases order with
        | asc => rfl
        | desc => rfl
      · simp only [if_neg hv]
    · simp only [if_neg hr]
      rfl

/-- Two searches agree if they do after a turn that sets a reserved address aside. -/
theorem searchRange_congr (env : Env) (network : NetworkRow) (order : Order) {fuel fuel' : Nat}
    {db : Db} (h : ∀ ip f t, network.isReservedIp ip = true →
      db.validateLease network.id ip none = [] →
        Proc.exec (searchRange env network order fuel f t)
            (db.insertLease network.id ip none .reserved none) =
          Proc.exec (searchRange env network order fuel' f t)
            (db.insertLease network.id ip none .reserved none)) (f t : Nat) :
    Proc.exec (searchRange env network order (fuel + 1) f t) db =
      Proc.exec (searchRange env network order (fuel' + 1) f t) db := by
  rw [exec_searchRange_succ, exec_searchRange_succ]
  cases availableIp env db network.id f t order with
  | none => rfl
  | some ip =>
    by_cases hr : network.isReservedIp ip = true
    · by_cases hv : db.validateLease network.id ip none = []
      · simp only [if_pos hv]
        rw [h ip _ _ hr hv]
      · simp only [if_neg hv]
    · simp only [if_neg hr]

/-- As many turns as there are free reserved addresses, and one more, are
always enough. -/
theorem searchRange_fuel (env : Env) (network : NetworkRow) (order : Order) (fuel : Nat) {db : Db}
    (h : (db.freeReserved network).length ≤ fuel) (f t : Nat) :
    Proc.exec (searchRange env network order (fuel + 1) f t) db =
      Proc.exec (searchRange env network order (fuel + 2) f t) db := by
  induction fuel generalizing db f t with
  | zero =>
    refine searchRange_congr env network order (fun ip f t hr hv => ?_) f t
    have hlt := freeReserved_insertLease (List.contains_iff_mem.mp hr) (isLeased_of_valid hv)
      .reserved
    omega
  | succ fuel ih =>
    refine searchRange_congr env network order (fun ip f t hr hv => ?_) f t
    have hlt := freeReserved_insertLease (List.contains_iff_mem.mp hr) (isLeased_of_valid hv)
      .reserved
    exact ih (by omega) f t

/-! ## What a call destroys -/

/-- The lease a route's turn destroys: one that stands at a vif, is to be
released, and has no handle to go back to. -/
def Db.routeLease (db : Db) (leaseId : Option Nat) (release : Bool) : List VifLeaseRow :=
  match leaseId.bind db.vifLeases.find with
  | none => []
  | some lease =>
    if release = true ∧ (lease.networkVifId.bind db.vifs.find).isSome = true ∧
        db.hasAliveHandle lease = false then [lease]
    else []

def Db.routeLeases (db : Db) (route : RouteRow) : List VifLeaseRow :=
  db.routeLease route.innerLeaseId route.releaseInnerVif ++
    db.routeLease route.outerLeaseId route.releaseOuterVif

def Db.detaches (db : Db) (env : Env) (vif : VifRow) : Bool :=
  vif.networkId == none || vif.deleted || env.vifValid db { vif with networkId := none }

namespace LeaseOp

def released (env : Env) (db : Db) : LeaseOp → List VifLeaseRow
  | deleteReserved network ipv4 => db.reservedLeases network ipv4
  | attachToNetwork vif _ =>
    match db.vifs.find vif with
    | none => []
    | some vif =>
      if (vif.networkId.bind db.networks.find).isSome && db.detaches env vif then
        db.ipDataset vif.id
      else []
  | detachFromNetwork vif =>
    match db.vifs.find vif with
    | none => []
    | some vif => if db.detaches env vif then db.ipDataset vif.id else []
  | removeIpLease vif lease =>
    match db.vifs.find vif, db.vifLeases.find lease with
    | some vif, some lease =>
      if lease.networkVifId = some vif.id ∧ db.hasAliveHandle lease = false then [lease] else []
    | _, _ => []
  | destroyVif vif =>
    match db.vifs.find vif with
    | none => []
    | some vif => db.ipDataset vif.id ++ (db.networkRoutes vif.id).flatMap db.routeLeases
  | _ => []

/-- No row the call destroys is marked as deleted while a row that stays has
taken over its address. -/
def FreesOwn (env : Env) (db : Db) (op : LeaseOp) : Prop := db.Covers (op.released env db)

end LeaseOp

/-! ## Destroying a vif -/

/-- A row with the columns nobody rewrites; its vif changes only when it goes
back to its handle. -/
structure SameLease (db : Db) (r r' : VifLeaseRow) : Prop where
  id : r'.id = r.id
  networkId : r'.networkId = r.networkId
  ipv4 : r'.ipv4 = r.ipv4
  ipHandleId : r'.ipHandleId = r.ipHandleId
  networkVifId : db.hasAliveHandle r = false → r'.networkVifId = r.networkVifId

def SameAt (db : Db) : Option VifLeaseRow → Option VifLeaseRow → Prop
  | none, none => True
  | some r, some r' => SameLease db r r'
  | _, _ => False

/-- `db'` is reached from `db` while a vif is destroyed. -/
structure Follows (db db' : Db) : Prop where
  vifs : db'.vifs = db.vifs
  ipHandles : db'.ipHandles = db.ipHandles
  lease : ∀ i, SameAt db (db.vifLeases.find i) (db'.vifLeases.find i)

theorem Follows.refl (db : Db) : Follows db db := by
  refine ⟨rfl, rfl, ?_⟩
  intro i
  cases db.vifLeases.find i with
  | none => trivial
  | some r => exact ⟨rfl, rfl, rfl, rfl, fun _ => rfl⟩

theorem SameAt.map {db : Db} {x y : Option VifLeaseRow} (h : SameAt db x y)
    {f : VifLeaseRow → VifLeaseRow} (hf : ∀ r r', x = some r → SameLease db r r' →
      SameLease db r (f r')) : SameAt db x (y.map f) := by
  cases x with
  | none =>
    cases y with
    | none => trivial
    | some r' => exact h
  | some r =>
    cases y with
    | none => exact h
    | some r' => exact hf r r' rfl h

theorem Follows.destroyLease {db db' : Db} (h : Follows db db') (r : VifLeaseRow) :
    Follows db (db'.destroyLease r) := by
  refine ⟨h.vifs, h.ipHandles, ?_⟩
  intro i
  simp only [Db.destroyLease, Table.find_modify]
  by_cases hi : i = r.id
  · rw [if_pos hi]
    apply (h.lease i).map
    intro s s' _ hs
    exact ⟨hs.id, hs.networkId, hs.ipv4, hs.ipHandleId, hs.networkVifId⟩
  · rw [if_neg hi]
    exact h.lease i

theorem Follows.destroyLeases {db db' : Db} (h : Follows db db') (ls : List VifLeaseRow) :
    Follows db (db'.destroyLeases ls) := by
  induction ls generalizing db' with
  | nil => exact h
  | cons r ls ih => exact ih (h.destroyLease r)

theorem Follows.hasAliveHandle {db db' : Db} (h : Follows db db') {r r' : VifLeaseRow}
    (hs : SameLease db r r') : db'.hasAliveHandle r' = db.hasAliveHandle r := by
  unfold Db.hasAliveHandle
  rw [hs.ipHandleId, h.ipHandles]

theorem Follows.detachVif {db db' db'' : Db} (h : Follows db db') {r r' : VifLeaseRow}
    (hr : db.vifLeases.find r.id = some r) (hs : SameLease db r r')
    (ha : db.hasAliveHandle r = true) (hd : db'.detachVif r' = .ok db'') : Follows db db'' := by
  unfold Db.detachVif at hd
  split at hd
  · cases hd
  · split at hd
    · cases hd
      refine ⟨h.vifs, h.ipHandles, ?_⟩
      intro i
      simp only [Table.find_modify]
      by_cases hi : i = r'.id
      · rw [if_pos hi]
        apply (h.lease i).map
        intro s s' hfind hsame
        refine ⟨hsame.id, hsame.networkId, hsame.ipv4, hsame.ipHandleId, ?_⟩
        intro hno
        rw [hi, hs.id, hr] at hfind
        cases hfind
        rw [ha] at hno
        cases hno
      · rw [if_neg hi]
        exact h.lease i
    · cases hd

theorem routeLease_some {db : Db} {leaseId : Option Nat} {release : Bool} {r : VifLeaseRow}
    (h : leaseId.bind db.vifLeases.find = some r) :
    db.routeLease leaseId release =
      if release = true ∧ (r.networkVifId.bind db.vifs.find).isSome = true ∧
        db.hasAliveHandle r = false then [r] else [] := by
  unfold Db.routeLease
  rw [h]

/-- What a route's turn does: its lease goes back to its handle, or it is
destroyed, or nothing happens to it. -/
theorem releaseRouteLease_cases {db db' db'' : Db} (h : Follows db db') {leaseId : Option Nat}
    {release : Bool} (hr : db'.releaseRouteLease leaseId release = .ok db'') :
    (db.routeLease leaseId release = [] ∧ (db'' = db' ∨ ∃ r r', db.vifLeases.find r.id = some r ∧
      SameLease db r r' ∧ db.hasAliveHandle r = true ∧ db'.detachVif r' = .ok db'')) ∨
      ∃ r r', db.routeLease leaseId release = [r] ∧ SameLease db r r' ∧
        db'.vifLeases.find r'.id = some r' ∧ db'' = db'.destroyLease r' := by
  unfold Db.releaseRouteLease at hr
  have hsame : SameAt db (leaseId.bind db.vifLeases.find) (leaseId.bind db'.vifLeases.find) := by
    cases leaseId with
    | none => trivial
    | some i => exact h.lease i
  cases hfind' : leaseId.bind db'.vifLeases.find with
  | none =>
    cases hfind : leaseId.bind db.vifLeases.find with
    | some r =>
      rw [hfind, hfind'] at hsame
      exact hsame.elim
    | none =>
      rw [hfind'] at hr
      cases hr
      refine Or.inl ⟨?_, Or.inl rfl⟩
      unfold Db.routeLease
      rw [hfind]
  | some r' =>
    cases hfind : leaseId.bind db.vifLeases.find with
    | none =>
      rw [hfind, hfind'] at hsame
      exact hsame.elim
    | some r =>
      rw [hfind, hfind'] at hsame
      rw [hfind'] at hr
      rw [routeLease_some hfind]
      have hrow : db.vifLeases.find r.id = some r := by
        obtain ⟨i, _, hi⟩ := Option.bind_eq_some_iff.mp hfind
        exact db.vifLeases.find_of_mem (db.vifLeases.mem_of_find hi)
      have hrow' : db'.vifLeases.find r'.id = some r' := by
        obtain ⟨i, _, hi⟩ := Option.bind_eq_some_iff.mp hfind'
        exact db'.vifLeases.find_of_mem (db'.vifLeases.mem_of_find hi)
      dsimp only at hr
      cases ha : db.hasAliveHandle r with
      | true =>
        rw [if_neg (fun hno => by cases hno.2.2)]
        refine Or.inl ⟨rfl, ?_⟩
        split at hr
        · cases hr
          exact Or.inl rfl
        · split at hr
          · unfold Db.removeIpLease at hr
            split at hr
            · cases hr
              exact Or.inl rfl
            · rw [if_pos ((h.hasAliveHandle hsame).trans ha)] at hr
              exact Or.inr ⟨r, r', hrow, hsame, ha, hr⟩
          · cases hr
            exact Or.inl rfl
      | false =>
        have hvif := hsame.networkVifId ha
        rw [hvif, h.vifs] at hr
        cases hv : r.networkVifId.bind db.vifs.find with
        | none =>
          rw [hv] at hr
          cases hr
          rw [if_neg (fun hno => by cases hno.2.1)]
          exact Or.inl ⟨rfl, Or.inl rfl⟩
        | some vif =>
          rw [hv] at hr
          cases release with
          | false =>
            cases hr
            rw [if_neg (fun hno => by cases hno.1)]
            exact Or.inl ⟨rfl, Or.inl rfl⟩
          | true =>
            rw [if_pos ⟨rfl, rfl, rfl⟩]
            have hid : r'.networkVifId = some vif.id := by
              obtain ⟨v, hv1, hv2⟩ := Option.bind_eq_some_iff.mp hv
              rw [hvif, hv1]
              exact congrArg some (db.vifs.pk_of_find hv2).symm
            dsimp only at hr
            rw [if_pos rfl, Db.removeIpLease, if_neg (fun hno => hno hid),
              if_neg (by rw [h.hasAliveHandle hsame, ha]; exact Bool.false_ne_true)] at hr
            cases hr
            exact Or.inr ⟨r, r', rfl, hsame, hrow', rfl⟩

/-- `db''` follows `db`, and the rows in `ls` have given up what they hold. -/
structure Released (db db' db'' : Db) (ls : List VifLeaseRow) : Prop where
  follows : Follows db db''
  holders : db''.holders = releaseRows db'.holders ls
  writes : ∀ {S : Nat × Nat → Prop} {H : Prop} {db0 : Db}, Writes S H db0 db' →
    (∀ r ∈ ls, S r.key) → Writes S H db0 db''

theorem Released.refl {db db' : Db} (h : Follows db db') : Released db db' db' [] :=
  ⟨h, (releaseRows_nil _).symm, fun hw _ => hw⟩

theorem Released.append {db d d' d'' : Db} {ls ls' : List VifLeaseRow} (h : Released db d d' ls)
    (h' : Released db d' d'' ls') : Released db d d'' (ls ++ ls') := by
  refine ⟨h'.follows, ?_, ?_⟩
  · rw [h'.holders, h.holders, releaseRows_append]
  · intro S H db0 hw hS
    apply h'.writes (h.writes hw fun r hr => hS r (List.mem_append_left _ hr))
    intro r hr
    exact hS r (List.mem_append_right _ hr)

theorem Writes.detachVif {S : Nat × Nat → Prop} {H : Prop} {db t t' : Db} (h : Writes S H db t)
    {r : VifLeaseRow} (hd : t.detachVif r = .ok t') : Writes S H db t' := by
  unfold Db.detachVif at hd
  split at hd
  · cases hd
  · split at hd
    · cases hd
      exact h.moveLease
    · cases hd

theorem releaseRouteLease_ok {db db' db'' : Db} (h : Follows db db') {leaseId : Option Nat}
    {release : Bool} (hr : db'.releaseRouteLease leaseId release = .ok db'') :
    Released db db' db'' (db.routeLease leaseId release) := by
  rcases releaseRouteLease_cases h hr with ⟨hnil, hsame | ⟨r, r', hrow, hs, ha, hd⟩⟩ |
    ⟨r, r', hone, hs, hrow', hdel⟩
  · rw [hnil, hsame]
    exact .refl h
  · rw [hnil]
    refine ⟨h.detachVif hrow hs ha hd, ?_, fun hw _ => hw.detachVif hd⟩
    rw [Db.holders_detachVif hd, releaseRows_nil]
  · have hkey : r'.key = r.key := Prod.ext hs.networkId hs.ipv4
    rw [hone, hdel]
    refine ⟨h.destroyLease r', ?_, ?_⟩
    · rw [Db.holders_destroyLease]
      simp only [releaseRows, List.mem_singleton, exists_eq_left, hkey, hs.id]
    · intro S H db0 hw hS
      apply hw.destroyLease hrow' rfl
      rw [hkey]
      exact hS r (List.mem_singleton_self r)

theorem destroyRoute_ok {db db' db'' : Db} (h : Follows db db') {route : RouteRow}
    (hr : db'.destroyRoute route = .ok db'') : Released db db' db'' (db.routeLeases route) := by
  unfold Db.destroyRoute at hr
  obtain ⟨d1, h1, hr⟩ := bind_ok hr
  obtain ⟨d2, h2, hr⟩ := bind_ok hr
  have hr1 := releaseRouteLease_ok h h1
  have hr2 := hr1.append (releaseRouteLease_ok hr1.follows h2)
  cases hr
  exact ⟨⟨hr2.follows.vifs, hr2.follows.ipHandles, hr2.follows.lease⟩, hr2.holders,
    fun hw hS => (hr2.writes hw hS).routes⟩

theorem destroyRoutes_ok {db db' db'' : Db} (h : Follows db db') {routes : List RouteRow}
    (hr : routes.foldlM Db.destroyRoute db' = .ok db'') :
    Released db db' db'' (routes.flatMap db.routeLeases) := by
  induction routes generalizing db' with
  | nil =>
    cases hr
    exact .refl h
  | cons route routes ih =>
    rw [List.foldlM_cons] at hr
    obtain ⟨d1, h1, hr⟩ := bind_ok hr
    have hr1 := destroyRoute_ok h h1
    exact hr1.append (ih hr1.follows hr)

theorem ipDataset_destroyLease (db : Db) (r : VifLeaseRow) (vif : Nat) :
    (db.destroyLease r).ipDataset vif =
      (db.ipDataset vif).map fun x => if x.id = r.id then { x with deleted := true } else x := by
  show List.filter _ (List.map _ _) = _
  rw [List.filter_map]
  congr 1
  apply List.filter_congr
  intro x _
  show (VifLeaseRow.networkVifId (if x.id = r.id then _ else _) == some vif) = _
  split
  · rfl
  · rfl

/-- The rows of a vif after some have been destroyed are its rows of before. -/
theorem mem_ipDataset_destroyLeases {db : Db} {ls : List VifLeaseRow} {vif : Nat}
    {r : VifLeaseRow} (h : r ∈ (db.destroyLeases ls).ipDataset vif) :
    ∃ x ∈ db.ipDataset vif, r.key = x.key := by
  induction ls generalizing db with
  | nil => exact ⟨r, h, rfl⟩
  | cons s ls ih =>
    obtain ⟨x, hx, hk⟩ := @ih (db.destroyLease s) h
    rw [ipDataset_destroyLease] at hx
    obtain ⟨y, hy, hyx⟩ := List.mem_map.mp hx
    refine ⟨y, hy, ?_⟩
    rw [hk, ← hyx]
    split
    · rfl
    · rfl

theorem networkRoutes_destroyLeases (db : Db) (ls : List VifLeaseRow) (vif : Nat) :
    (db.destroyLeases ls).networkRoutes vif = db.networkRoutes vif := by
  induction ls generalizing db with
  | nil => rfl
  | cons r ls ih =>
    show ((db.destroyLease r).destroyLeases ls).networkRoutes vif = _
    rw [ih]
    unfold Db.networkRoutes
    rw [ipDataset_destroyLease]
    show List.flatMap _ (db.routes.rows.filter _) = _
    congr 1
    funext route
    rw [List.filter_map, List.map_map]
    have hp : ((fun l : VifLeaseRow =>
        some l.id == route.outerLeaseId || some l.id == route.innerLeaseId) ∘
        fun x => if x.id = r.id then { x with deleted := true } else x) =
        fun l => some l.id == route.outerLeaseId || some l.id == route.innerLeaseId := by
      funext l
      by_cases hl : l.id = r.id
      · simp [hl]
      · simp [hl]
    rw [hp]
    rfl

theorem destroyVif_cases {db db' : Db} {vif : Nat} (h : db.destroyVif vif = .ok db') :
    ∃ d, Released db (db.destroyLeases (db.ipDataset vif)) d
        ((db.networkRoutes vif).flatMap db.routeLeases) ∧
      db' = { d with vifs := d.vifs.modify vif (fun r => { r with deleted := true }) fun _ => rfl } := by
  unfold Db.destroyVif at h
  obtain ⟨d, hd, h⟩ := bind_ok h
  rw [networkRoutes_destroyLeases] at hd
  refine ⟨d, destroyRoutes_ok ((Follows.refl db).destroyLeases _) hd, ?_⟩
  cases h
  rfl

theorem destroyVif_ok {db db' : Db} {vif : Nat} (h : db.destroyVif vif = .ok db') :
    db'.holders = releaseRows db.holders
      (db.ipDataset vif ++ (db.networkRoutes vif).flatMap db.routeLeases) := by
  obtain ⟨d, hd, rfl⟩ := destroyVif_cases h
  show d.holders = _
  rw [hd.holders, Db.holders_destroyLeases, releaseRows_append]

theorem writes_ipDataset {S : Nat × Nat → Prop} {H : Prop} {db : Db} {vif : Nat}
    (hS : ∀ r ∈ db.ipDataset vif, S r.key) :
    Writes S H db (db.destroyLeases (db.ipDataset vif)) := by
  apply Writes.refl.destroyLeases _ hS
  intro r hr
  exact ⟨r, db.vifLeases.find_of_mem (List.mem_of_mem_filter hr), rfl⟩

theorem writes_destroyVif {S : Nat × Nat → Prop} {H : Prop} {db db' : Db} {vif : Nat}
    (h : db.destroyVif vif = .ok db')
    (hS : ∀ r ∈ db.ipDataset vif ++ (db.networkRoutes vif).flatMap db.routeLeases, S r.key) :
    Writes S H db db' := by
  obtain ⟨d, hd, rfl⟩ := destroyVif_cases h
  apply Writes.vifs
  apply hd.writes (writes_ipDataset fun r hr => hS r (List.mem_append_left _ hr))
  intro r hr
  exact hS r (List.mem_append_right _ hr)

/-! ## One call -/

theorem mem_of_released {env : Env} {db : Db} {op : LeaseOp} {r : VifLeaseRow}
    (h : r ∈ op.released env db) : r ∈ db.vifLeases.rows := by
  have hdataset : ∀ v, r ∈ db.ipDataset v → r ∈ db.vifLeases.rows := by
    intro v hv
    exact List.mem_of_mem_filter hv
  have hroute : ∀ id release, r ∈ db.routeLease id release → r ∈ db.vifLeases.rows := by
    intro id release hr
    unfold Db.routeLease at hr
    split at hr
    · cases hr
    · rename_i lease hfind
      split at hr
      · rw [List.mem_singleton.mp hr]
        obtain ⟨i, _, hi⟩ := Option.bind_eq_some_iff.mp hfind
        exact db.vifLeases.mem_of_find hi
      · cases hr
  cases op with
  | scheduleVif | schedule | specifyIP | addReserved => cases h
  | deleteReserved network ipv4 => exact List.mem_of_mem_filter h
  | attachToNetwork vif network =>
    simp only [LeaseOp.released] at h
    split at h
    · cases h
    · split at h
      · exact hdataset _ h
      · cases h
  | detachFromNetwork vif =>
    simp only [LeaseOp.released] at h
    split at h
    · cases h
    · split at h
      · exact hdataset _ h
      · cases h
  | removeIpLease vif lease =>
    simp only [LeaseOp.released] at h
    split at h
    · rename_i hfind
      split at h
      · rw [List.mem_singleton.mp h]
        exact db.vifLeases.mem_of_find hfind
      · cases h
    · cases h
  | destroyVif vif =>
    simp only [LeaseOp.released] at h
    split at h
    · cases h
    · rcases List.mem_append.mp h with h | h
      · exact hdataset _ h
      · obtain ⟨route, _, hr⟩ := List.mem_flatMap.mp h
        rcases List.mem_append.mp hr with hr | hr
        · exact hroute _ _ hr
        · exact hroute _ _ hr

/-- Who keeps an address when the rows in `ls` are destroyed. -/
def Db.spared (db : Db) (ls : List VifLeaseRow) (i : Nat) (k : Nat × Nat) : Prop :=
  db.holders.holds i k ∧ ¬ ∃ r ∈ ls, i = r.id

theorem grown_of_releaseRows {db db' : Db} (hs : db.holders.InStep) {ls : List VifLeaseRow}
    (hmem : ∀ r ∈ ls, r ∈ db.vifLeases.rows) (hc : db.Covers ls)
    (he : db'.holders = releaseRows db.holders ls) : Grown (db.spared ls) db' := by
  constructor
  · rw [he]
    exact Db.inStep_release hs hmem hc
  · intro i k hk
    rw [he]
    exact hk

theorem grown_of_keeps {α : Type} {db : Db} (hs : db.holders.InStep) {ls : List VifLeaseRow}
    {x : LeaseM α} (hx : Proc.Keeps (Grown (db.spared ls)) x) :
    Grown (db.spared ls) (Proc.final x db) :=
  hx.at_final db ⟨hs, fun _ _ hk => hk.1⟩

theorem holders_detachFromNetwork (env : Env) (vif : VifRow) (db : Db) :
    (Proc.final (detachFromNetwork env vif) db).holders =
      releaseRows db.holders (if db.detaches env vif then db.ipDataset vif.id else []) := by
  unfold detachFromNetwork saveNetwork Db.detaches
  rw [Proc.final, Proc.exec_bind, Proc.exec_bind, Proc.exec_get]
  dsimp only
  by_cases hn : vif.networkId = none
  · rw [if_pos hn, if_pos (by simp [hn])]
    exact Db.holders_destroyLeases ..
  · rw [if_neg hn]
    by_cases hv : (vif.deleted || env.vifValid db { vif with networkId := none }) = true
    · rw [if_pos hv, if_pos (by simpa [hn] using hv)]
      exact Db.holders_destroyLeases ..
    · rw [if_neg hv, if_neg (by simpa [hn] using hv), releaseRows_nil]
      rfl

theorem final_withVif {vif : Nat} {f : VifRow → LeaseM Unit} {db : Db} :
    Proc.final (withVif vif f) db =
      match db.vifs.find vif with
      | none => db
      | some vif => Proc.final (f vif) db := by
  unfold withVif
  rw [Proc.final_bind_get]
  cases db.vifs.find vif with
  | none => rfl
  | some vif => rfl

theorem final_atomically {f : Db → Except LeaseError Db} {db : Db} :
    Proc.final (atomically f) db =
      match f db with
      | .ok db' => db'
      | .error _ => db := by
  unfold atomically
  rw [Proc.final_bind_get]
  cases f db with
  | ok db' => rfl
  | error e => rfl

section
variable {env : Env} {db : Db} (hs : db.holders.InStep)
include hs

theorem grown_self (ls : List VifLeaseRow) : Grown (db.spared ls) db := ⟨hs, fun _ _ hk => hk.1⟩

theorem grown_attachToNetwork {vif : VifRow} {network : Nat} {ls : List VifLeaseRow}
    (hls : ls = if (vif.networkId.bind db.networks.find).isSome && db.detaches env vif then
      db.ipDataset vif.id else [])
    (hmem : ∀ r ∈ ls, r ∈ db.vifLeases.rows) (hc : db.Covers ls) :
    Grown (db.spared ls) (Proc.final (attachToNetwork env vif network) db) := by
  unfold attachToNetwork
  rw [Proc.final_bind_get]
  by_cases hn : (vif.networkId.bind db.networks.find).isSome = true
  · rw [if_pos hn]
    rw [hn, Bool.true_and] at hls
    have hrest : ∀ u : Unit, Proc.Keeps (Grown (db.spared ls)) (do
        saveNetwork env { vif with networkId := none } (some network)
        leaseIpLease env { vif with networkId := some network }) := by
      intro _
      apply Proc.Keeps.bind (keeps_saveNetwork (creates_grown _) ..)
      intro _
      exact keeps_leaseIpLease (creates_grown _) ..
    refine Proc.final_bind (I := Grown (db.spared ls)) ?_ hrest
    apply grown_of_releaseRows hs hmem hc
    rw [hls]
    exact holders_detachFromNetwork env vif db
  · rw [if_neg hn]
    apply grown_of_keeps hs
    apply Proc.Keeps.bind (keeps_saveNetwork (creates_grown _) ..)
    intro _
    exact keeps_leaseIpLease (creates_grown _) ..

theorem grown_removeIpLease {vif : Nat} {lease : VifLeaseRow} (hrow : lease ∈ db.vifLeases.rows)
    (hc : db.Covers (if lease.networkVifId = some vif ∧ db.hasAliveHandle lease = false then [lease]
      else [])) {db' : Db} (h : db.removeIpLease vif lease = .ok db') :
    Grown (db.spared (if lease.networkVifId = some vif ∧ db.hasAliveHandle lease = false then [lease]
      else [])) db' := by
  unfold Db.removeIpLease at h
  by_cases hv : lease.networkVifId = some vif
  · rw [if_neg (not_not.mpr hv)] at h
    cases ha : db.hasAliveHandle lease with
    | true =>
      rw [if_pos ha] at h
      have he := Db.holders_detachVif h
      constructor
      · rw [he]
        exact hs
      · intro i k hk
        rw [he]
        exact hk.1
    | false =>
      rw [if_neg (by rw [ha]; exact Bool.false_ne_true)] at h
      rw [if_pos ⟨hv, ha⟩] at hc
      rw [if_pos ⟨hv, rfl⟩]
      cases h
      apply grown_of_releaseRows hs ?_ hc (Db.holders_destroyLease ..)
      intro r hr
      rw [List.mem_singleton.mp hr]
      exact hrow
  · rw [if_pos hv] at h
    cases h
    exact grown_self hs _

end

theorem writes_removeIpLease {S : Nat × Nat → Prop} {H : Prop} {db db' : Db} {vif : Nat}
    {lease : VifLeaseRow} (hrow : lease ∈ db.vifLeases.rows)
    (hS : ∀ r ∈ if lease.networkVifId = some vif ∧ db.hasAliveHandle lease = false then [lease]
      else [], S r.key) (h : db.removeIpLease vif lease = .ok db') : Writes S H db db' := by
  unfold Db.removeIpLease at h
  by_cases hv : lease.networkVifId = some vif
  · rw [if_neg (not_not.mpr hv)] at h
    cases ha : db.hasAliveHandle lease with
    | true =>
      rw [if_pos ha] at h
      exact Writes.refl.detachVif h
    | false =>
      rw [if_neg (by rw [ha]; exact Bool.false_ne_true)] at h
      rw [if_pos ⟨hv, ha⟩] at hS
      cases h
      exact .destroyLease .refl (db.vifLeases.find_of_mem hrow) rfl
        (hS lease (List.mem_singleton_self lease))
  · rw [if_pos hv] at h
    cases h
    exact .refl

theorem step_grown {env : Env} {db : Db} {op : LeaseOp} (hs : db.holders.InStep)
    (hc : op.FreesOwn env db) : Grown (db.spared (op.released env db)) (op.step env db) := by
  have hmem : ∀ r ∈ op.released env db, r ∈ db.vifLeases.rows := fun _ => mem_of_released
  unfold LeaseOp.FreesOwn at hc
  unfold LeaseOp.step
  cases op with
  | scheduleVif vif =>
    simp only [LeaseOp.run, final_withVif]
    cases db.vifs.find vif with
    | none => exact grown_self hs _
    | some v => exact grown_of_keeps hs (keeps_incremental (creates_grown _) env fun _ => keptByHandle_grown _)
  | schedule options =>
    exact grown_of_keeps hs
      (keeps_incremental (creates_grown _) env fun _ => keptByHandle_grown _)
  | specifyIP vif =>
    simp only [LeaseOp.run, final_withVif]
    cases db.vifs.find vif with
    | none => exact grown_self hs _
    | some v => exact grown_of_keeps hs (keeps_specifyIP (creates_grown _) _)
  | addReserved network ipv4 =>
    exact grown_of_keeps hs (keeps_createLease fun db => (creates_grown _).insertLease db _ _ _ _ _)
  | deleteReserved network ipv4 =>
    exact grown_of_releaseRows hs hmem hc (Db.holders_destroyLeases ..)
  | attachToNetwork vif network =>
    simp only [LeaseOp.run, LeaseOp.released, final_withVif] at hc hmem ⊢
    cases hv : db.vifs.find vif with
    | none => exact grown_self hs _
    | some v =>
      rw [hv] at hc hmem
      exact grown_attachToNetwork hs rfl hmem hc
  | detachFromNetwork vif =>
    simp only [LeaseOp.run, LeaseOp.released, final_withVif] at hc hmem ⊢
    cases hv : db.vifs.find vif with
    | none => exact grown_self hs _
    | some v =>
      rw [hv] at hc hmem
      exact grown_of_releaseRows hs hmem hc (holders_detachFromNetwork env v db)
  | removeIpLease vif lease =>
    simp only [LeaseOp.run, LeaseOp.released, final_atomically] at hc ⊢
    cases hv : db.vifs.find vif with
    | none => exact grown_self hs _
    | some v =>
      cases hl : db.vifLeases.find lease with
      | none => exact grown_self hs _
      | some l =>
        rw [hv, hl] at hc
        dsimp only at hc ⊢
        cases hr : db.removeIpLease v.id l with
        | error e => exact grown_self hs _
        | ok db' => exact grown_removeIpLease hs (db.vifLeases.mem_of_find hl) hc hr
  | destroyVif vif =>
    simp only [LeaseOp.run, LeaseOp.released, final_atomically] at hc hmem ⊢
    cases hv : db.vifs.find vif with
    | none => exact grown_self hs _
    | some v =>
      rw [hv] at hc hmem
      dsimp only at hc hmem ⊢
      cases hd : db.destroyVif v.id with
      | error e => exact grown_self hs _
      | ok db' => exact grown_of_releaseRows hs hmem hc (destroyVif_ok hd)

theorem writes_detachFromNetwork {S : Nat × Nat → Prop} {H : Prop} {env : Env} {vif : VifRow}
    {db : Db} (hS : ∀ r ∈ if db.detaches env vif then db.ipDataset vif.id else [], S r.key) :
    Writes S H db (Proc.final (detachFromNetwork env vif) db) := by
  unfold detachFromNetwork saveNetwork Db.detaches at *
  rw [Proc.final, Proc.exec_bind, Proc.exec_bind, Proc.exec_get]
  dsimp only
  by_cases hn : vif.networkId = none
  · rw [if_pos hn]
    rw [if_pos (by simp [hn])] at hS
    exact writes_ipDataset hS
  · rw [if_neg hn]
    by_cases hv : (vif.deleted || env.vifValid db { vif with networkId := none }) = true
    · rw [if_pos hv]
      rw [if_pos (by simpa [hn] using hv)] at hS
      apply Writes.refl.vifs.destroyLeases _ hS
      intro r hr
      exact ⟨r, db.vifLeases.find_of_mem (List.mem_of_mem_filter hr), rfl⟩
    · rw [if_neg hv]
      exact .refl

/-- What one call writes: the rows it destroys are the ones it releases, and a
handle is created only where a pool is asked for one. -/
theorem step_writes (env : Env) (db : Db) (op : LeaseOp) :
    Writes (fun k => ∃ r ∈ op.released env db, r.key = k)
      (∃ options, op = .schedule options ∧ options.ipPool.isSome = true) db (op.step env db) := by
  generalize hk : (fun k => ∃ r ∈ op.released env db, r.key = k) = S
  have hS : ∀ r ∈ op.released env db, S r.key := by
    intro r hr
    rw [← hk]
    exact ⟨r, hr, rfl⟩
  have hI : ∀ {H : Prop}, Creates (Writes S H db) := creates_writes S _ db
  unfold LeaseOp.step
  cases op with
  | scheduleVif vif =>
    simp only [LeaseOp.run, final_withVif]
    cases db.vifs.find vif with
    | none => exact .refl
    | some v => exact (keeps_incremental hI env fun hpool => by cases hpool).at_final db .refl
  | schedule options =>
    exact (keeps_incremental hI env fun hpool =>
      keptByHandle_writes S db ⟨options, rfl, hpool⟩).at_final db .refl
  | specifyIP vif =>
    simp only [LeaseOp.run, final_withVif]
    cases db.vifs.find vif with
    | none => exact .refl
    | some v => exact (keeps_specifyIP hI v).at_final db .refl
  | addReserved network ipv4 =>
    exact (keeps_createLease fun t => hI.insertLease t _ _ _ _ _).at_final db .refl
  | deleteReserved network ipv4 =>
    apply Writes.refl.destroyLeases _ hS
    intro r hr
    exact ⟨r, db.vifLeases.find_of_mem (List.mem_of_mem_filter hr), rfl⟩
  | attachToNetwork vif network =>
    simp only [LeaseOp.run, LeaseOp.released, final_withVif] at hS ⊢
    cases hv : db.vifs.find vif with
    | none => exact .refl
    | some v =>
      rw [hv] at hS
      dsimp only at hS ⊢
      unfold attachToNetwork
      rw [Proc.final_bind_get]
      by_cases hn : (v.networkId.bind db.networks.find).isSome = true
      · rw [if_pos hn]
        rw [hn, Bool.true_and] at hS
        apply Proc.final_bind (writes_detachFromNetwork hS)
        intro _
        apply Proc.Keeps.bind (keeps_saveNetwork hI ..)
        intro _
        exact keeps_leaseIpLease hI ..
      · rw [if_neg hn]
        apply Proc.Keeps.at_final _ _ .refl
        apply Proc.Keeps.bind (keeps_saveNetwork hI ..)
        intro _
        exact keeps_leaseIpLease hI ..
  | detachFromNetwork vif =>
    simp only [LeaseOp.run, LeaseOp.released, final_withVif] at hS ⊢
    cases hv : db.vifs.find vif with
    | none => exact .refl
    | some v =>
      rw [hv] at hS
      exact writes_detachFromNetwork hS
  | removeIpLease vif lease =>
    simp only [LeaseOp.run, LeaseOp.released, final_atomically] at hS ⊢
    cases hv : db.vifs.find vif with
    | none => exact .refl
    | some v =>
      cases hl : db.vifLeases.find lease with
      | none => exact .refl
      | some l =>
        rw [hv, hl] at hS
        dsimp only at hS ⊢
        cases hr : db.removeIpLease v.id l with
        | error e => exact .refl
        | ok db' => exact writes_removeIpLease (db.vifLeases.mem_of_find hl) hS hr
  | destroyVif vif =>
    simp only [LeaseOp.run, LeaseOp.released, final_atomically] at hS ⊢
    cases hv : db.vifs.find vif with
    | none => exact .refl
    | some v =>
      rw [hv] at hS
      dsimp only at hS ⊢
      cases hd : db.destroyVif v.id with
      | error e => exact .refl
      | ok db' => exact writes_destroyVif hd hS

/-! ## Runs -/

/-- What is promised of one call: it starts from tables in step, and whoever is
not released by it still has the address in `ip_leases`. -/
structure Promised (env : Env) (db : Db) (op : LeaseOp) : Prop where
  inStep : db.TablesInStep
  kept : ∀ r ∈ db.vifLeases.rows, r.deleted = false → r ∉ op.released env db →
    ∃ l ∈ (op.step env db).ipLeases.rows, l.networkId = r.networkId ∧ l.ipv4 = r.ipv4

/-- A call on a vif releases rows of that vif only, and the leases its routes
are to release. -/
theorem released_own {env : Env} {db : Db} {op : LeaseOp} {r : VifLeaseRow}
    (h : r ∈ op.released env db) :
    (∃ n a, op = .deleteReserved n a ∧ r.allocType = .reserved) ∨
      (∃ v, r.networkVifId = some v ∧ (op = .detachFromNetwork v ∨ (∃ n, op = .attachToNetwork v n) ∨
        (∃ l, op = .removeIpLease v l) ∨ op = .destroyVif v)) ∨
      ∃ v, op = .destroyVif v ∧ ∃ route ∈ db.networkRoutes v, r ∈ db.routeLeases route := by
  have hown : ∀ v, r ∈ db.ipDataset v → r.networkVifId = some v := by
    intro v hv
    exact eq_of_beq (List.mem_filter.mp hv).2
  cases op with
  | scheduleVif | schedule | specifyIP | addReserved => cases h
  | deleteReserved n a =>
    left
    have hp := (List.mem_filter.mp h).2
    simp only [Bool.and_eq_true, beq_iff_eq] at hp
    exact ⟨n, a, rfl, hp.1.2⟩
  | attachToNetwork vif n =>
    simp only [LeaseOp.released] at h
    cases hv : db.vifs.find vif with
    | none => rw [hv] at h; cases h
    | some v =>
      rw [hv] at h
      dsimp only at h
      split at h
      · rw [show v.id = vif from db.vifs.pk_of_find hv] at h
        exact Or.inr (Or.inl ⟨vif, hown _ h, Or.inr (Or.inl ⟨n, rfl⟩)⟩)
      · cases h
  | detachFromNetwork vif =>
    simp only [LeaseOp.released] at h
    cases hv : db.vifs.find vif with
    | none => rw [hv] at h; cases h
    | some v =>
      rw [hv] at h
      dsimp only at h
      split at h
      · rw [show v.id = vif from db.vifs.pk_of_find hv] at h
        exact Or.inr (Or.inl ⟨vif, hown _ h, Or.inl rfl⟩)
      · cases h
  | removeIpLease vif lease =>
    simp only [LeaseOp.released] at h
    cases hv : db.vifs.find vif with
    | none => rw [hv] at h; cases h
    | some v =>
      cases hl : db.vifLeases.find lease with
      | none => rw [hv, hl] at h; cases h
      | some l =>
        rw [hv, hl] at h
        dsimp only at h
        split at h
        · rename_i hp
          rw [show v.id = vif from db.vifs.pk_of_find hv] at hp
          rw [List.mem_singleton.mp h]
          exact Or.inr (Or.inl ⟨vif, hp.1, Or.inr (Or.inr (Or.inl ⟨lease, rfl⟩))⟩)
        · cases h
  | destroyVif vif =>
    simp only [LeaseOp.released] at h
    cases hv : db.vifs.find vif with
    | none => rw [hv] at h; cases h
    | some v =>
      rw [hv] at h
      dsimp only at h
      rw [show v.id = vif from db.vifs.pk_of_find hv] at h
      rcases List.mem_append.mp h with h | h
      · exact Or.inr (Or.inl ⟨vif, hown _ h, Or.inr (Or.inr (Or.inr rfl))⟩)
      · exact Or.inr (Or.inr ⟨vif, rfl, List.mem_flatMap.mp h⟩)

/-- Along every run whose calls free no address a row that stays has taken
over, the tables stay in step and nobody else loses an address. -/
theorem leases_in_step {env : Env} {db : Db} {ops : List LeaseOp} (h0 : db.TablesInStep)
    (h : Each (fun db op => op.step env db) (fun db op => op.FreesOwn env db) db ops) :
    Each (fun db op => op.step env db) (Promised env) db ops ∧
      (ops.foldl (fun db op => op.step env db) db).TablesInStep := by
  have hstep : ∀ db op, db.TablesInStep → op.FreesOwn env db →
      (op.step env db).TablesInStep ∧ Promised env db op := by
    intro db op hs hc
    have hg := step_grown (Db.tablesInStep_iff.mp hs) hc
    refine ⟨Db.tablesInStep_iff.mpr hg.inStep, hs, ?_⟩
    intro r hr hd hno
    have hspared : db.spared (op.released env db) r.id r.key := by
      refine ⟨Db.holds_of_mem hr hd, ?_⟩
      intro ⟨s, hs', hid⟩
      exact hno (db.vifLeases.eq_of_pk hr (mem_of_released hs') hid ▸ hs')
    obtain ⟨l, hl, hk⟩ := (hg.inStep.taken_iff r.key).mpr ⟨r.id, hg.held _ _ hspared⟩
    exact ⟨l, hl, congrArg Prod.fst hk, congrArg Prod.snd hk⟩
  constructor
  · exact h.of_invariant Db.TablesInStep hstep h0
  · exact h.invariant Db.TablesInStep (fun db op hs hc => (hstep db op hs hc).1) h0

/-! ## A release that frees an address of somebody else -/

/-- `10.0.0.0/24` with the range `10.0.0.10` to `10.0.0.20`, and three vifs
without a network. -/
def threeVifs : Db where
  networks := Table.empty.create
    (fun id => ⟨id, 0x0a000000, 24, none, none, none, none, .asc, 1⟩) fun _ => rfl
  dhcpRanges := Table.empty.create (fun id => ⟨id, 1, 0x0a00000a, 0x0a000014⟩) fun _ => rfl
  ipLeases := Table.empty
  vifLeases := Table.empty
  vifs := ((Table.empty.create (fun id => ⟨id, none, none, 0, none, false⟩) fun _ => rfl).create
    (fun id => ⟨id, none, none, 0, none, false⟩) fun _ => rfl).create
    (fun id => ⟨id, none, none, 0, none, false⟩) fun _ => rfl
  ipHandles := Table.empty
  routes := Table.empty
  ipPoolDcNetworks := []

def incrementalEnv : Env := ⟨id, fun _ => .incremental, fun _ _ => true⟩

def threeVifsAfter (ops : List LeaseOp) : Db :=
  ops.foldl (fun db op => op.step incrementalEnv db) threeVifs

theorem threeVifs_inStep : threeVifs.TablesInStep := by
  constructor
  · intro n a
    constructor
    · intro ⟨l, hl, _⟩
      cases hl
    · intro ⟨r, hr, _⟩
      cases hr
  · intro n a r hr
    cases hr

instance (db : Db) (ls : List VifLeaseRow) : Decidable (db.Covers ls) :=
  inferInstanceAs (Decidable (∀ r ∈ ls, r.deleted = true → ∀ s ∈ db.vifLeases.rows,
    s.deleted = false → s.key = r.key → s ∈ ls))

instance (env : Env) (db : Db) (op : LeaseOp) : Decidable (op.FreesOwn env db) :=
  inferInstanceAs (Decidable (db.Covers _))

theorem leases_in_step_released_once :
    (threeVifsAfter [.attachToNetwork 1 1, .attachToNetwork 2 1, .detachFromNetwork 1,
      .attachToNetwork 3 1, .destroyVif 2]).TablesInStep := by
  refine (leases_in_step threeVifs_inStep ?_).2
  exact ⟨by decide, by decide, by decide, by decide, by decide, trivial⟩

/-- The first vif gives its address back, the second one gets it, and the
destruction of the first strikes it again: the third vif gets it too. -/
theorem released_twice :
    threeVifs.TablesInStep ∧
      ¬ (threeVifsAfter [.attachToNetwork 1 1, .detachFromNetwork 1, .attachToNetwork 2 1,
        .destroyVif 1]).TablesInStep ∧
      ∃ r ∈ (threeVifsAfter [.attachToNetwork 1 1, .detachFromNetwork 1, .attachToNetwork 2 1,
        .destroyVif 1, .attachToNetwork 3 1]).vifLeases.rows,
      ∃ s ∈ (threeVifsAfter [.attachToNetwork 1 1, .detachFromNetwork 1, .attachToNetwork 2 1,
        .destroyVif 1, .attachToNetwork 3 1]).vifLeases.rows,
        r.deleted = false ∧ s.deleted = false ∧ r.key = s.key ∧ r.networkVifId = some 2 ∧
          s.networkVifId = some 3 := by
  refine ⟨threeVifs_inStep, ?_, ?_⟩
  · intro h
    have hnone : ¬ ∃ l ∈ (threeVifsAfter [.attachToNetwork 1 1, .detachFromNetwork 1,
        .attachToNetwork 2 1, .destroyVif 1]).ipLeases.rows,
        l.networkId = 1 ∧ l.ipv4 = 0x0a00000a := by decide
    apply hnone
    apply (h.leased_iff _ _).mpr
    decide
  · decide

end Lease

end WakameVdc
