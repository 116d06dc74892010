import WakameVdc.Natbox

/-!
# What the flow table of the NAT box holds

The flows of a route are found by one address each, and a deletion takes those of every
route with the address. A restore is exact; afterwards the table stays so as long as a
deletion leaves no alive route without its flows.
-/

namespace WakameVdc

open Lib

namespace Natbox

/-! ## The flow table -/

section
variable {env : Env} {db t : Lease.Db} {table : List NatFlow} {f : NatFlow} {m : NatMatch}
  {actions : List NatAction} {outer inner outer' inner' : Nat}

theorem samePlace_createFlow :
    f.SamePlace (createFlow env m actions) ↔
      f.table = env.ovsFlowTable ∧ f.priority = env.ovsFlowPriority ∧ f.pattern = m := by
  constructor
  · rintro ⟨htable, hpriority, hle, hge⟩
    exact ⟨htable, hpriority, le_antisymm hle hge⟩
  · rintro ⟨htable, hpriority, hpattern⟩
    exact ⟨htable, hpriority, le_of_eq hpattern, le_of_eq hpattern.symm⟩

theorem within_inbound :
    f.Within (createFlow env ⟨some outer, none⟩ actions) ↔
      f.table = env.ovsFlowTable ∧ f.pattern.nwDst = some outer := by
  constructor
  · rintro ⟨htable, hno | hdst, -⟩
    · cases hno
    · exact ⟨htable, hdst⟩
  · rintro ⟨htable, hdst⟩
    exact ⟨htable, .inr hdst, .inl rfl⟩

theorem within_outbound :
    f.Within (createFlow env ⟨none, some inner⟩ actions) ↔
      f.table = env.ovsFlowTable ∧ f.pattern.nwSrc = some inner := by
  constructor
  · rintro ⟨htable, -, hno | hsrc⟩
    · cases hno
    · exact ⟨htable, hsrc⟩
  · rintro ⟨htable, hsrc⟩
    exact ⟨htable, .inl rfl, .inr hsrc⟩

theorem within_all :
    f.Within (createFlow env ⟨none, none⟩ actions) ↔ f.table = env.ovsFlowTable :=
  ⟨fun h => h.1, fun h => ⟨h, .inl rfl, .inl rfl⟩⟩

def flows (env : Env) (outer inner : Nat) : List NatFlow :=
  [inbound env outer inner, outbound env outer inner]

theorem mem_flows : f ∈ flows env outer inner ↔ f = inbound env outer inner ∨
    f = outbound env outer inner := by
  simp [flows]

theorem inbound_mem_flows (h : inbound env outer inner ∈ flows env outer' inner') :
    outer' = outer ∧ inner' = inner := by
  rcases mem_flows.mp h with h | h
  · cases h
    exact ⟨rfl, rfl⟩
  · cases h

theorem outbound_mem_flows (h : outbound env outer inner ∈ flows env outer' inner') :
    outer' = outer ∧ inner' = inner := by
  rcases mem_flows.mp h with h | h
  · cases h
  · cases h
    exact ⟨rfl, rfl⟩

theorem inbound_of_samePlace (h : f ∈ flows env outer' inner')
    (hp : f.SamePlace (inbound env outer inner)) : f = inbound env outer inner' := by
  obtain ⟨-, -, hpattern⟩ := samePlace_createFlow.mp hp
  rcases mem_flows.mp h with rfl | rfl
  · cases hpattern
    rfl
  · cases hpattern

theorem outbound_of_samePlace (h : f ∈ flows env outer' inner')
    (hp : f.SamePlace (outbound env outer inner)) : f = outbound env outer' inner := by
  obtain ⟨-, -, hpattern⟩ := samePlace_createFlow.mp hp
  rcases mem_flows.mp h with rfl | rfl
  · cases hpattern
  · cases hpattern
    rfl

theorem final_addNat :
    Proc.final (addNat env outer inner) table = FlowTable.addAll table (flows env outer inner) := rfl

theorem final_removeNat :
    Proc.final (removeNat env outer inner) table = FlowTable.del table
      [createFlow env ⟨some outer, none⟩ [], createFlow env ⟨none, some inner⟩ []] := rfl

theorem mem_removeNat : f ∈ Proc.final (removeNat env outer inner) table ↔
    f ∈ table ∧ ¬ (f.table = env.ovsFlowTable ∧ f.pattern.nwDst = some outer) ∧
      ¬ (f.table = env.ovsFlowTable ∧ f.pattern.nwSrc = some inner) := by
  rw [final_removeNat, FlowTable.mem_del]
  simp only [List.mem_cons, List.not_mem_nil, or_false, forall_eq_or_imp, forall_eq, within_inbound,
    within_outbound]

/-! ## Asking for a route -/

theorem networkRouteToHash_ok {r : Lease.RouteRow} {route : RouteHash}
    (h : networkRouteToHash db r = .ok route) :
    (r.outerLeaseId.bind db.vifLeases.find).map Lease.VifLeaseRow.ipv4 = some route.outerIpv4 ∧
      (r.innerLeaseId.bind db.vifLeases.find).map Lease.VifLeaseRow.ipv4 = some route.innerIpv4 := by
  unfold networkRouteToHash at h
  split at h
  · rename_i k l hk hl
    cases h
    rw [hk, hl]
    exact ⟨rfl, rfl⟩
  · cases h

theorem Between.hash {r : Lease.RouteRow} (h : Between env db r outer inner) :
    networkRouteToHash db r = .ok ⟨r.id, outer, inner⟩ := by
  obtain ⟨k, hk, houter⟩ := Option.map_eq_some_iff.mp h.outer
  obtain ⟨l, hl, hinner⟩ := Option.map_eq_some_iff.mp h.inner
  unfold networkRouteToHash
  rw [hk, hl]
  dsimp only
  rw [houter, hinner]

theorem Between.unique {r : Lease.RouteRow} (h : Between env db r outer inner)
    (h' : Between env db r outer' inner') : outer' = outer ∧ inner' = inner := by
  have hinner := h'.inner.symm.trans h.inner
  have houter := h'.outer.symm.trans h.outer
  exact ⟨Option.some.inj houter, Option.some.inj hinner⟩

variable (env db table) in
/-- An event for a route of the box leads to the call, any other one to nothing. -/
theorem final_withRoute (g : RouteHash → NatM Unit) (id : Nat) :
    (∃ r ∈ db.routes.rows, r.id = id ∧ ∃ outer inner, Between env db r outer inner ∧
        Proc.final (withRoute env db g id) table = Proc.final (g ⟨id, outer, inner⟩) table) ∨
      (∀ r ∈ db.routes.rows, r.id = id → ∀ outer inner, ¬ Between env db r outer inner) ∧
        Proc.final (withRoute env db g id) table = table := by
  unfold withRoute getNetworkRoute
  cases hfind : db.routes.find id with
  | none =>
    refine .inr ⟨?_, rfl⟩
    rintro r hr rfl
    have hsome := db.routes.find_of_mem hr
    rw [show Row.pk r = r.id from rfl, hfind] at hsome
    cases hsome
  | some route =>
    have hmem := db.routes.mem_of_find hfind
    have hid : route.id = id := db.routes.pk_of_find hfind
    have honly : ∀ r ∈ db.routes.rows, r.id = id → r = route := by
      intro r hr he
      exact db.routes.eq_of_pk hr hmem (he.trans hid.symm)
    dsimp only
    cases hname : innerDcNetwork env db route with
    | none =>
      refine .inr ⟨?_, rfl⟩
      rintro r hr he outer inner hb
      rw [honly r hr he] at hb
      cases hname.symm.trans hb.dcNetwork
    | some name =>
      dsimp only
      by_cases hbox : name = env.innerDcNetworkName
      · rw [if_pos hbox]
        cases hhash : networkRouteToHash db route with
        | error e =>
          refine .inr ⟨?_, rfl⟩
          rintro r hr he outer inner hb
          rw [honly r hr he] at hb
          cases hhash.symm.trans hb.hash
        | ok hash =>
          obtain ⟨houter, hinner⟩ := networkRouteToHash_ok hhash
          have hb : Between env db route hash.outerIpv4 hash.innerIpv4 :=
            ⟨by rw [hname, hbox], houter, hinner⟩
          refine .inl ⟨route, hmem, hid, _, _, hb, ?_⟩
          have heq := hb.hash
          rw [hhash, hid] at heq
          rw [← Except.ok.inj heq]
          rfl
      · rw [if_neg hbox]
        refine .inr ⟨?_, rfl⟩
        rintro r hr he outer inner hb
        rw [honly r hr he] at hb
        exact hbox (Option.some.inj (hname.symm.trans hb.dcNetwork))

/-! ## The whole set of routes -/

theorem mapM_ok {α β ε : Type} {g : α → Except ε β} {as : List α}
    (h : ∀ a ∈ as, ∃ b, g a = .ok b) :
    ∃ bs, as.mapM g = .ok bs ∧ ∀ b, b ∈ bs ↔ ∃ a ∈ as, g a = .ok b := by
  induction as with
  | nil => exact ⟨[], rfl, by simp⟩
  | cons a as ih =>
    obtain ⟨b, hb⟩ := h a List.mem_cons_self
    obtain ⟨bs, hbs, hmem⟩ := ih fun x hx => h x (List.mem_cons_of_mem _ hx)
    refine ⟨b :: bs, ?_, ?_⟩
    · rw [List.mapM_cons, hb, hbs]
      rfl
    · intro c
      rw [List.mem_cons, hmem, List.exists_mem_cons_iff, hb, Except.ok.injEq, eq_comm]

variable (env) in
theorem getAliveNetworkRoutes_ok (h : Placed db) :
    ∃ routes, getAliveNetworkRoutes env db env.innerDcNetworkName = .ok routes ∧
      (∀ route ∈ routes, Routed env db route.outerIpv4 route.innerIpv4) ∧
      ∀ outer inner, Routed env db outer inner →
        ∃ route ∈ routes, route.outerIpv4 = outer ∧ route.innerIpv4 = inner := by
  have hrow : ∀ r, r ∈ env.scan (db.routes.rows.filter fun r =>
      !r.deleted && innerDcNetwork env db r == some env.innerDcNetworkName) ↔
      r ∈ db.routes.rows ∧ r.deleted = false ∧
        innerDcNetwork env db r = some env.innerDcNetworkName := by
    intro r
    rw [(env.scan_perm _).mem_iff]
    simp
  obtain ⟨routes, hok, hmem⟩ := mapM_ok (g := networkRouteToHash db) fun r hr => by
    obtain ⟨houter, hinner⟩ := h r ((hrow r).mp hr).1
    obtain ⟨k, hk⟩ := Option.isSome_iff_exists.mp houter
    obtain ⟨l, hl⟩ := Option.isSome_iff_exists.mp hinner
    refine ⟨⟨r.id, k.ipv4, l.ipv4⟩, ?_⟩
    unfold networkRouteToHash
    rw [hk, hl]
  refine ⟨routes, hok, ?_, ?_⟩
  · intro route hroute
    obtain ⟨r, hr, hhash⟩ := (hmem route).mp hroute
    obtain ⟨hmem, halive, hname⟩ := (hrow r).mp hr
    obtain ⟨houter, hinner⟩ := networkRouteToHash_ok hhash
    exact ⟨r, hmem, halive, hname, houter, hinner⟩
  · rintro outer inner ⟨r, hr, halive, hb⟩
    refine ⟨⟨r.id, outer, inner⟩, (hmem _).mpr ⟨r, ?_, hb.hash⟩, rfl, rfl⟩
    exact (hrow r).mpr ⟨hr, halive, hb.dcNetwork⟩

theorem final_addRoutes (routes : List RouteHash) :
    Proc.final (routes.forM fun route => addNat env route.outerIpv4 route.innerIpv4) table =
      FlowTable.addAll table (routes.flatMap fun route =>
        flows env route.outerIpv4 route.innerIpv4) := by
  induction routes generalizing table with
  | nil => rfl
  | cons route routes ih =>
    rw [List.flatMap_cons, FlowTable.addAll_append]
    exact ih

variable (env) in
/-- A restore leaves a flow of an alive route for each address, and no others. -/
theorem restored_spec (s : State) (h : Placed s.db) :
    (∀ outer inner, Routed env s.db outer inner →
        ∃ inner', inbound env outer inner' ∈ (s.restored env).table) ∧
      (∀ outer inner, Routed env s.db outer inner →
        ∃ outer', outbound env outer' inner ∈ (s.restored env).table) ∧
      ∀ f ∈ (s.restored env).table, f.table = env.ovsFlowTable →
        ∃ outer inner, Routed env s.db outer inner ∧ f ∈ flows env outer inner := by
  obtain ⟨routes, hok, hsound, hcomplete⟩ := getAliveNetworkRoutes_ok env h
  have htable : (s.restored env).table =
      FlowTable.addAll (FlowTable.del s.table [createFlow env ⟨none, none⟩ []])
        (routes.flatMap fun route => flows env route.outerIpv4 route.innerIpv4) := by
    show Proc.final (restore env s.db) s.table = _
    unfold restore removeAllNat delFlowsFromList
    rw [Proc.final_bind_modify, hok]
    exact final_addRoutes routes
  have hadded : ∀ f ∈ FlowTable.addAll [] (routes.flatMap fun route =>
      flows env route.outerIpv4 route.innerIpv4),
      ∃ outer inner, Routed env s.db outer inner ∧ f ∈ flows env outer inner := by
    intro f hf
    obtain ⟨route, hroute, hflow⟩ := List.mem_flatMap.mp (FlowTable.mem_of_mem_addAll hf)
    exact ⟨_, _, hsound route hroute, hflow⟩
  have hplace : ∀ outer inner, Routed env s.db outer inner → ∀ f ∈ flows env outer inner,
      ∃ g ∈ (s.restored env).table, g.SamePlace f ∧ ∃ outer inner, g ∈ flows env outer inner := by
    intro outer inner hr f hf
    obtain ⟨route, hroute, rfl, rfl⟩ := hcomplete outer inner hr
    have hall : f ∈ routes.flatMap fun route => flows env route.outerIpv4 route.innerIpv4 :=
      List.mem_flatMap.mpr ⟨route, hroute, hf⟩
    obtain ⟨g, hg, hgf⟩ := FlowTable.exists_mem_addAll hall
    obtain ⟨outer, inner, -, hflow⟩ := hadded g hg
    refine ⟨g, ?_, hgf, outer, inner, hflow⟩
    rw [htable]
    exact FlowTable.mem_addAll.mpr (.inl hg)
  refine ⟨?_, ?_, ?_⟩
  · intro outer inner hr
    obtain ⟨g, hg, hgf, o, i, hflow⟩ := hplace outer inner hr _ (mem_flows.mpr (.inl rfl))
    rw [inbound_of_samePlace hflow hgf] at hg
    exact ⟨i, hg⟩
  · intro outer inner hr
    obtain ⟨g, hg, hgf, o, i, hflow⟩ := hplace outer inner hr _ (mem_flows.mpr (.inr rfl))
    rw [outbound_of_samePlace hflow hgf] at hg
    exact ⟨o, hg⟩
  · intro f hf hmine
    rw [htable] at hf
    rcases FlowTable.mem_addAll.mp hf with hf | ⟨hf, -⟩
    · exact hadded f hf
    · exact absurd (within_all.mpr hmine) ((FlowTable.mem_del.mp hf).2 _ List.mem_cons_self)

end

/-! ## Leases keep their addresses -/

/-- The networks, and the network and the address of each lease, are the same. -/
structure SameAddresses (db t : Lease.Db) : Prop where
  networks : t.networks = db.networks
  keys : ∀ k, (t.vifLeases.find k).map Lease.VifLeaseRow.key =
    (db.vifLeases.find k).map Lease.VifLeaseRow.key

section
variable {env : Env} {db t u : Lease.Db} {r r' : Lease.RouteRow} {outer inner : Nat}

theorem SameAddresses.refl : SameAddresses db db := ⟨rfl, fun _ => rfl⟩

theorem SameAddresses.trans (h : SameAddresses db t) (h' : SameAddresses t u) :
    SameAddresses db u :=
  ⟨h'.networks.trans h.networks, fun k => (h'.keys k).trans (h.keys k)⟩

theorem sameAddresses_modify {k : Nat} {g : Lease.VifLeaseRow → Lease.VifLeaseRow}
    (hnetworks : t.networks = db.networks)
    (hleases : ∀ j, t.vifLeases.find j =
      if j = k then (db.vifLeases.find j).map g else db.vifLeases.find j)
    (hkey : ∀ l, (g l).key = l.key) : SameAddresses db t := by
  refine ⟨hnetworks, fun j => ?_⟩
  rw [hleases]
  by_cases hj : j = k
  · rw [if_pos hj, Option.map_map]
    apply Option.map_congr
    intro l _
    exact hkey l
  · rw [if_neg hj]

theorem sameAddresses_attach (db : Lease.Db) (p : Option (Lease.VifLeaseRow × Lease.VifRow)) :
    SameAddresses db (db.attach p) := by
  cases p with
  | none => exact .refl
  | some p => exact sameAddresses_modify rfl (Lease.find_attach db p.1 p.2) fun _ => rfl

theorem SameAddresses.find (h : SameAddresses db t) (leaseId : Option Nat) :
    (leaseId.bind t.vifLeases.find).map Lease.VifLeaseRow.key =
      (leaseId.bind db.vifLeases.find).map Lease.VifLeaseRow.key := by
  cases leaseId with
  | none => rfl
  | some k => exact h.keys k

theorem SameAddresses.isSome (h : SameAddresses db t) (leaseId : Option Nat) :
    (leaseId.bind t.vifLeases.find).isSome = (leaseId.bind db.vifLeases.find).isSome := by
  have hfind := congrArg Option.isSome (h.find leaseId)
  rwa [Option.isSome_map, Option.isSome_map] at hfind

theorem SameAddresses.ipv4 (h : SameAddresses db t) (leaseId : Option Nat) :
    (leaseId.bind t.vifLeases.find).map Lease.VifLeaseRow.ipv4 =
      (leaseId.bind db.vifLeases.find).map Lease.VifLeaseRow.ipv4 := by
  have hfind := congrArg (Option.map Prod.snd) (h.find leaseId)
  rwa [Option.map_map, Option.map_map] at hfind

theorem SameAddresses.leaseNetwork (h : SameAddresses db t) (leaseId : Option Nat) :
    t.leaseNetwork leaseId = db.leaseNetwork leaseId := by
  have hfind := congrArg (Option.bind · fun key => db.networks.find key.1) (h.find leaseId)
  rw [Option.bind_map, Option.bind_map] at hfind
  unfold Lease.Db.leaseNetwork
  rw [h.networks]
  exact hfind

theorem SameAddresses.between_iff (h : SameAddresses db t)
    (hinner : r'.innerLeaseId = r.innerLeaseId) (houter : r'.outerLeaseId = r.outerLeaseId) :
    Between env t r' outer inner ↔ Between env db r outer inner := by
  have hname : innerDcNetwork env t r' = innerDcNetwork env db r := by
    unfold innerDcNetwork
    rw [hinner, h.leaseNetwork]
  constructor
  · rintro ⟨hdc, ho, hi⟩
    rw [hname] at hdc
    rw [houter, h.ipv4] at ho
    rw [hinner, h.ipv4] at hi
    exact ⟨hdc, ho, hi⟩
  · rintro ⟨hdc, ho, hi⟩
    rw [← hname] at hdc
    rw [← houter, ← h.ipv4] at ho
    rw [← hinner, ← h.ipv4] at hi
    exact ⟨hdc, ho, hi⟩

/-! ## Creating a route -/

theorem postExternalIp_some {vif ipHandle : Nat} {request : Lease.RouteRequest}
    (h : postExternalIp env db vif ipHandle = some request) :
    ∃ lease inner outer, db.vifLeases.find lease.id = some lease ∧
      request = ⟨none, some lease.id, some (some inner, some outer)⟩ ∧
      inner.vifFirst = true ∧ outer.vifFirst = false := by
  unfold postExternalIp at h
  simp only [Option.bind_eq_bind, Option.bind_eq_some_iff, Option.pure_def] at h
  obtain ⟨innerVif, -, innerNw, -, handle, -, lease, hlease, he⟩ := h
  have hmem := (db.vifLeases.first_spec hlease).1
  exact ⟨lease, _, _, db.vifLeases.find_of_mem hmem, (Option.some.inj he).symm, rfl, rfl⟩

theorem createRoute_spec {request : Lease.RouteRequest} {vif ipHandle : Nat}
    {route : Lease.RouteRow} (hpost : postExternalIp env db vif ipHandle = some request)
    (h : Proc.exec (Lease.createRoute env.services request) db = (.ok route, t)) :
    SameAddresses db t ∧ t.routes.rows = db.routes.rows ++ [route] ∧ route.deleted = false ∧
      (route.outerLeaseId.bind t.vifLeases.find).isSome = true ∧
      (route.innerLeaseId.bind t.vifLeases.find).isSome = true := by
  obtain ⟨lease, i, o, hlease, rfl, hi, ho⟩ := postExternalIp_some hpost
  obtain ⟨inner, outer, hacc, rfl, rfl⟩ := Lease.createRoute_ok h
  have hsides := hacc.sides
  cases hsides
  have hsame : SameAddresses db (Lease.createdDb env.services db
      ⟨none, some lease.id, some (some i, some o)⟩ (some i) (some o)) :=
    ((sameAddresses_attach db _).trans (sameAddresses_attach _ _)).trans ⟨rfl, fun _ => rfl⟩
  refine ⟨hsame, rfl, rfl, ?_, ?_⟩
  · rw [hsame.isSome]
    show (Option.bind (Lease.Db.settles _ _ _ (some o)) db.vifLeases.find).isSome = true
    unfold Lease.Db.settles
    dsimp only
    rw [ho, if_neg Bool.false_ne_true, Option.bind_some, hlease]
    rfl
  · rw [hsame.isSome]
    show (Option.bind (Lease.Db.settles db _ _ (some i)) db.vifLeases.find).isSome = true
    have hfits := hacc.fitsInner i rfl
    rw [hi, if_pos rfl] at hfits
    obtain ⟨v, hv, hne⟩ := hfits
    unfold Lease.Db.settles
    dsimp only
    rw [hi, if_pos rfl, hv, Option.bind_some]
    cases hd : db.ipDataset v.id with
    | nil => exact absurd hd hne
    | cons l ls =>
      have hl : l ∈ db.ipDataset v.id := by
        rw [hd]
        exact List.mem_cons_self
      have hfind : db.vifLeases.find l.id = some l :=
        db.vifLeases.find_of_mem (List.mem_of_mem_filter hl)
      rw [List.head?_cons, Option.map_some, Option.bind_some, hfind]
      rfl

/-! ## Destroying a route -/

theorem sameAddresses_destroyLease (db : Lease.Db) (lease : Lease.VifLeaseRow) :
    SameAddresses db (db.destroyLease lease) :=
  sameAddresses_modify rfl (db.vifLeases.find_modify lease.id
    (fun r => { r with deleted := true }) fun _ => rfl) fun _ => rfl

theorem detachVif_spec {lease : Lease.VifLeaseRow} (h : db.detachVif lease = .ok t) :
    SameAddresses db t ∧ t.routes = db.routes := by
  unfold Lease.Db.detachVif at h
  split at h
  · cases h
  split at h
  · cases h
    have hfind := db.vifLeases.find_modify lease.id (fun r => { r with networkVifId := none })
      fun _ => rfl
    exact ⟨sameAddresses_modify rfl hfind fun _ => rfl, rfl⟩
  · cases h

theorem releaseRouteLease_spec {leaseId : Option Nat} {release : Bool}
    (h : db.releaseRouteLease leaseId release = .ok t) :
    SameAddresses db t ∧ t.routes = db.routes := by
  unfold Lease.Db.releaseRouteLease at h
  split at h
  · cases h
    exact ⟨.refl, rfl⟩
  · split at h
    · cases h
      exact ⟨.refl, rfl⟩
    · split at h
      · unfold Lease.Db.removeIpLease at h
        split at h
        · cases h
          exact ⟨.refl, rfl⟩
        split at h
        · exact detachVif_spec h
        · cases h
          exact ⟨sameAddresses_destroyLease _ _, rfl⟩
      · cases h
        exact ⟨.refl, rfl⟩

theorem destroyRoute_spec {route : Lease.RouteRow} (h : db.destroyRoute route = .ok t) :
    SameAddresses db t ∧ t.routes.rows =
      db.routes.rows.map fun r => if r.id = route.id then { r with deleted := true } else r := by
  obtain ⟨s, hs, h⟩ := bind_ok h
  obtain ⟨u, hu, h⟩ := bind_ok h
  cases h
  obtain ⟨hsame, hroutes⟩ := releaseRouteLease_spec hs
  obtain ⟨hsame', hroutes'⟩ := releaseRouteLease_spec hu
  refine ⟨(hsame.trans hsame').trans ⟨rfl, fun _ => rfl⟩, ?_⟩
  show u.routes.rows.map _ = _
  rw [hroutes', hroutes]
  rfl

/-! ## What every step keeps -/

/-- A route whose flows are still to be added is alive, or its deletion comes later. -/
def Ordered (db : Lease.Db) : List Event → Prop
  | [] => True
  | .created id :: events =>
    (∃ r ∈ db.routes.rows, r.id = id ∧ (r.deleted = false ∨ Event.deleted id ∈ events)) ∧
      Ordered db events
  | .deleted _ :: events => Ordered db events

/-- Each flow is one of a route that is alive or will be taken out, and each address of an
alive route has its flow, or an event that adds it is still to come. -/
structure Kept (env : Env) (s : State) : Prop where
  placed : Placed s.db
  ordered : Ordered s.db s.events
  inbound : ∀ outer inner, Routed env s.db outer inner →
    (∃ inner', inbound env outer inner' ∈ s.table) ∨ ∃ inner', Awaited env s.db s.events outer inner'
  outbound : ∀ outer inner, Routed env s.db outer inner →
    (∃ outer', outbound env outer' inner ∈ s.table) ∨
      ∃ outer', Awaited env s.db s.events outer' inner
  sound : ∀ f ∈ s.table, f.table = env.ovsFlowTable → ∃ r ∈ s.db.routes.rows, ∃ outer inner,
    Between env s.db r outer inner ∧ f ∈ flows env outer inner ∧
      (r.deleted = false ∨ Event.deleted r.id ∈ s.events)

theorem Kept.exact {s : State} (h : Kept env s) (hevents : s.events = []) : Exact env s := by
  have hnone : ∀ o i, ¬ Awaited env s.db s.events o i := by
    rintro o i ⟨r, -, hr, -⟩
    rw [hevents] at hr
    cases hr
  have hsound : ∀ f ∈ s.table, f.table = env.ovsFlowTable → ∃ outer inner,
      Routed env s.db outer inner ∧ f ∈ flows env outer inner := by
    intro f hf hmine
    obtain ⟨r, hr, o, i, hb, hflow, halive | hdeleted⟩ := h.sound f hf hmine
    · exact ⟨o, i, ⟨r, hr, halive, hb⟩, hflow⟩
    · rw [hevents] at hdeleted
      cases hdeleted
  refine ⟨?_, ?_, ?_⟩
  · intro o i hr
    rcases h.inbound o i hr with ⟨i', hf⟩ | ⟨i', hno⟩
    · obtain ⟨o'', i'', hr', hflow⟩ := hsound _ hf rfl
      obtain ⟨rfl, rfl⟩ := inbound_mem_flows hflow
      exact ⟨_, hr', hf⟩
    · exact absurd hno (hnone _ _)
  · intro o i hr
    rcases h.outbound o i hr with ⟨o', hf⟩ | ⟨o', hno⟩
    · obtain ⟨o'', i'', hr', hflow⟩ := hsound _ hf rfl
      obtain ⟨rfl, rfl⟩ := outbound_mem_flows hflow
      exact ⟨_, hr', hf⟩
    · exact absurd hno (hnone _ _)
  · intro f hf hmine
    obtain ⟨o, i, hr, hflow⟩ := hsound f hf hmine
    exact ⟨o, i, hr, mem_flows.mp hflow⟩

theorem kept_restored {s : State} (hplaced : Placed s.db) (hordered : Ordered s.db s.events) :
    Kept env (s.restored env) := by
  obtain ⟨hin, hout, hsound⟩ := restored_spec env s hplaced
  refine ⟨hplaced, hordered, ?_, ?_, ?_⟩
  · intro o i hr
    exact .inl (hin o i hr)
  · intro o i hr
    exact .inl (hout o i hr)
  · intro f hf hmine
    obtain ⟨o, i, ⟨r, hr, halive, hb⟩, hflow⟩ := hsound f hf hmine
    exact ⟨r, hr, o, i, hb, hflow, .inl halive⟩

/-! ### The database changes -/

theorem Ordered.append {e : Event} {events : List Event} (h : Ordered db events)
    (hrows : ∀ r ∈ db.routes.rows, ∃ r' ∈ t.routes.rows, r'.id = r.id ∧
      (r.deleted = false → r'.deleted = false ∨ e = .deleted r.id))
    (he : ∀ id, e = .created id → ∃ r ∈ t.routes.rows, r.id = id ∧ r.deleted = false) :
    Ordered t (events ++ [e]) := by
  induction events with
  | nil =>
    cases e with
    | created id =>
      obtain ⟨r, hr, hid, halive⟩ := he id rfl
      exact ⟨⟨r, hr, hid, .inl halive⟩, trivial⟩
    | deleted id => trivial
  | cons e' events ih =>
    cases e' with
    | created id =>
      obtain ⟨⟨r, hr, rfl, hr'⟩, hrest⟩ := h
      refine ⟨?_, ih hrest⟩
      obtain ⟨r', hmem, hid, halive⟩ := hrows r hr
      refine ⟨r', hmem, hid, ?_⟩
      rcases hr' with hr' | hr'
      · rcases halive hr' with halive | rfl
        · exact .inl halive
        · exact .inr (List.mem_append_right _ List.mem_cons_self)
      · exact .inr (List.mem_append_left _ hr')
    | deleted id => exact ih h

/-- The rows of `db` are there in `t`, alive or with `e` as their deletion, and what is
alive in `t` was so in `db`, or `e` tells of its creation. -/
structure Tells (db t : Lease.Db) (e : Event) : Prop where
  addresses : SameAddresses db t
  placed : Placed t
  old : ∀ r ∈ db.routes.rows, ∃ r' ∈ t.routes.rows, r'.id = r.id ∧
    r'.innerLeaseId = r.innerLeaseId ∧ r'.outerLeaseId = r.outerLeaseId ∧
      (r.deleted = false → r'.deleted = false ∨ e = .deleted r.id)
  alive : ∀ r ∈ t.routes.rows, r.deleted = false → r ∈ db.routes.rows ∨ e = .created r.id
  created : ∀ id, e = .created id → ∃ r ∈ t.routes.rows, r.id = id ∧ r.deleted = false

theorem Tells.awaited {e : Event} (h : Tells db t e) {events : List Event}
    (ha : Awaited env db events outer inner) : Awaited env t (events ++ [e]) outer inner := by
  obtain ⟨r, hr, hcreated, hb⟩ := ha
  obtain ⟨r', hr', hid, hinner, houter, -⟩ := h.old r hr
  refine ⟨r', hr', ?_, (h.addresses.between_iff hinner houter).mpr hb⟩
  rw [hid]
  exact List.mem_append_left _ hcreated

theorem Tells.routed {e : Event} (h : Tells db t e) (events : List Event)
    (hr : Routed env t outer inner) :
    Routed env db outer inner ∨ Awaited env t (events ++ [e]) outer inner := by
  obtain ⟨r, hr, halive, hb⟩ := hr
  rcases h.alive r hr halive with hold | hnew
  · exact .inl ⟨r, hold, halive, (h.addresses.between_iff rfl rfl).mp hb⟩
  · refine .inr ⟨r, hr, ?_, hb⟩
    rw [← hnew]
    exact List.mem_append_right _ List.mem_cons_self

theorem Kept.tells {s : State} {e : Event} (h : Kept env s) (ht : Tells s.db t e) :
    Kept env { s with db := t, events := s.events ++ [e] } := by
  refine ⟨ht.placed, ?_, ?_, ?_, ?_⟩
  · apply h.ordered.append _ ht.created
    intro r hr
    obtain ⟨r', hr', hid, -, -, halive⟩ := ht.old r hr
    exact ⟨r', hr', hid, halive⟩
  · intro o i hr
    rcases ht.routed s.events hr with hr | ha
    · rcases h.inbound o i hr with hf | ⟨i', ha⟩
      · exact .inl hf
      · exact .inr ⟨i', ht.awaited ha⟩
    · exact .inr ⟨i, ha⟩
  · intro o i hr
    rcases ht.routed s.events hr with hr | ha
    · rcases h.outbound o i hr with hf | ⟨o', ha⟩
      · exact .inl hf
      · exact .inr ⟨o', ht.awaited ha⟩
    · exact .inr ⟨o, ha⟩
  · intro f hf hmine
    obtain ⟨r, hr, o, i, hb, hflow, hstate⟩ := h.sound f hf hmine
    obtain ⟨r', hr', hid, hinner, houter, halive⟩ := ht.old r hr
    refine ⟨r', hr', o, i, (ht.addresses.between_iff hinner houter).mpr hb, hflow, ?_⟩
    rw [hid]
    rcases hstate with hstate | hstate
    · rcases halive hstate with halive | rfl
      · exact .inl halive
      · exact .inr (List.mem_append_right _ List.mem_cons_self)
    · exact .inr (List.mem_append_left _ hstate)

theorem Placed.rows (h : Placed db) (hsame : SameAddresses db t)
    (hrows : ∀ r ∈ t.routes.rows, ∃ r' ∈ db.routes.rows, r'.innerLeaseId = r.innerLeaseId ∧
      r'.outerLeaseId = r.outerLeaseId) : Placed t := by
  intro r hr
  obtain ⟨r', hr', hinner, houter⟩ := hrows r hr
  rw [hsame.isSome, hsame.isSome, ← hinner, ← houter]
  exact h r' hr'

theorem tells_created {request : Lease.RouteRequest} {vif ipHandle : Nat} {route : Lease.RouteRow}
    (hplaced : Placed db) (hpost : postExternalIp env db vif ipHandle = some request)
    (h : Proc.exec (Lease.createRoute env.services request) db = (.ok route, t)) :
    Tells db t (.created route.id) := by
  obtain ⟨hsame, hrows, halive, houter, hinner⟩ := createRoute_spec hpost h
  have hmem : ∀ r, r ∈ t.routes.rows ↔ r ∈ db.routes.rows ∨ r = route := by
    intro r
    rw [hrows, List.mem_append, List.mem_singleton]
  refine ⟨hsame, ?_, ?_, ?_, ?_⟩
  · intro r hr
    rcases (hmem r).mp hr with hr | rfl
    · rw [hsame.isSome, hsame.isSome]
      exact hplaced r hr
    · exact ⟨houter, hinner⟩
  · intro r hr
    exact ⟨r, (hmem r).mpr (.inl hr), rfl, rfl, rfl, .inl⟩
  · intro r hr _
    rcases (hmem r).mp hr with hr | rfl
    · exact .inl hr
    · exact .inr rfl
  · rintro id ⟨⟩
    exact ⟨route, (hmem route).mpr (.inr rfl), rfl, halive⟩

theorem tells_destroyed {route : Lease.RouteRow} (hplaced : Placed db)
    (h : db.destroyRoute route = .ok t) : Tells db t (.deleted route.id) := by
  obtain ⟨hsame, hrows⟩ := destroyRoute_spec h
  have hmem : ∀ r ∈ t.routes.rows, ∃ r' ∈ db.routes.rows,
      (if r'.id = route.id then { r' with deleted := true } else r') = r := by
    intro r hr
    rw [hrows] at hr
    exact List.mem_map.mp hr
  refine ⟨hsame, ?_, ?_, ?_, ?_⟩
  · apply hplaced.rows hsame
    intro r hr
    obtain ⟨r', hr', rfl⟩ := hmem r hr
    exact ⟨r', hr', by split <;> rfl, by split <;> rfl⟩
  · intro r hr
    refine ⟨if r.id = route.id then { r with deleted := true } else r, ?_, ?_⟩
    · rw [hrows]
      exact List.mem_map_of_mem hr
    · by_cases hid : r.id = route.id
      · rw [if_pos hid]
        exact ⟨rfl, rfl, rfl, fun _ => .inr (by rw [hid])⟩
      · rw [if_neg hid]
        exact ⟨rfl, rfl, rfl, .inl⟩
  · intro r hr halive
    obtain ⟨r', hr', rfl⟩ := hmem r hr
    by_cases hid : r'.id = route.id
    · rw [if_pos hid] at halive
      cases halive
    · rw [if_neg hid]
      exact .inl hr'
  · intro id hno
    cases hno

/-! ### An event is handled -/

variable {table : List NatFlow} {f : NatFlow} {events : List Event} {id : Nat}

theorem mem_addNat : f ∈ Proc.final (addNat env outer inner) table ↔
    f ∈ flows env outer inner ∨ f ∈ table ∧ ∀ g ∈ flows env outer inner, ¬ f.SamePlace g := by
  rw [final_addNat, FlowTable.mem_addAll]
  have hadded : f ∈ FlowTable.addAll [] (flows env outer inner) ↔ f ∈ flows env outer inner := by
    refine ⟨FlowTable.mem_of_mem_addAll, fun hf => ?_⟩
    obtain ⟨g, hg, hgf⟩ := FlowTable.exists_mem_addAll hf
    have hflow := FlowTable.mem_of_mem_addAll hg
    rcases mem_flows.mp hf with rfl | rfl
    · rwa [inbound_of_samePlace hflow hgf] at hg
    · rwa [outbound_of_samePlace hflow hgf] at hg
  rw [hadded]

theorem inbound_mem_addNat {o i : Nat} (hf : inbound env o i ∈ table) :
    ∃ i', inbound env o i' ∈ Proc.final (addNat env outer inner) table := by
  by_cases ho : o = outer
  · subst ho
    exact ⟨inner, mem_addNat.mpr (.inl (mem_flows.mpr (.inl rfl)))⟩
  · refine ⟨i, mem_addNat.mpr (.inr ⟨hf, fun g hg hp => ho ?_⟩)⟩
    rw [inbound_of_samePlace hg hp.symm] at hg
    exact (inbound_mem_flows hg).1.symm

theorem outbound_mem_addNat {o i : Nat} (hf : outbound env o i ∈ table) :
    ∃ o', outbound env o' i ∈ Proc.final (addNat env outer inner) table := by
  by_cases hi : i = inner
  · subst hi
    exact ⟨outer, mem_addNat.mpr (.inl (mem_flows.mpr (.inr rfl)))⟩
  · refine ⟨o, mem_addNat.mpr (.inr ⟨hf, fun g hg hp => hi ?_⟩)⟩
    rw [outbound_of_samePlace hg hp.symm] at hg
    exact (outbound_mem_flows hg).2.symm

theorem inbound_mem_removeNat {o i : Nat} :
    inbound env o i ∈ Proc.final (removeNat env outer inner) table ↔
      inbound env o i ∈ table ∧ o ≠ outer := by
  rw [mem_removeNat]
  simp [inbound, createFlow]

theorem outbound_mem_removeNat {o i : Nat} :
    outbound env o i ∈ Proc.final (removeNat env outer inner) table ↔
      outbound env o i ∈ table ∧ i ≠ inner := by
  rw [mem_removeNat]
  simp [outbound, createFlow]

theorem not_mem_removeNat (hf : f ∈ flows env outer inner) :
    f ∉ Proc.final (removeNat env outer inner) table := by
  rcases mem_flows.mp hf with rfl | rfl
  · rw [inbound_mem_removeNat]
    exact fun h => h.2 rfl
  · rw [outbound_mem_removeNat]
    exact fun h => h.2 rfl

theorem handleEvent_created :
    handleEvent env db table (.created id) = Proc.final (withRoute env db
      (fun route => addNat env route.outerIpv4 route.innerIpv4) id) table :=
  Proc.final_bind_pure _ _ _

theorem handleEvent_deleted :
    handleEvent env db table (.deleted id) = Proc.final (withRoute env db
      (fun route => removeNat env route.outerIpv4 route.innerIpv4) id) table :=
  Proc.final_bind_pure _ _ _

/-- An event that changes no flow may go if what is to come does not need it. -/
theorem Kept.drop_event {s : State} (h : Kept env s) (hordered : Ordered s.db events)
    (hstill : ∀ o i, Awaited env s.db s.events o i → Awaited env s.db events o i)
    (hrest : ∀ r o i, r ∈ s.db.routes.rows → Between env s.db r o i →
      Event.deleted r.id ∈ s.events → Event.deleted r.id ∈ events) :
    Kept env { s with events } := by
  refine ⟨h.placed, hordered, ?_, ?_, ?_⟩
  · intro o i hroute
    exact (h.inbound o i hroute).imp_right fun ⟨i', ha⟩ => ⟨i', hstill o i' ha⟩
  · intro o i hroute
    exact (h.outbound o i hroute).imp_right fun ⟨o', ha⟩ => ⟨o', hstill o' i ha⟩
  · intro f hf hmine
    obtain ⟨r, hr, o, i, hb, hflow, hstate⟩ := h.sound f hf hmine
    exact ⟨r, hr, o, i, hb, hflow, hstate.imp_right (hrest r o i hr hb)⟩

theorem Kept.handle_created {s : State} (h : Kept env s) (he : s.events = .created id :: events) :
    Kept env { s with table := handleEvent env s.db s.table (.created id), events } := by
  have hordered := h.ordered
  rw [he] at hordered
  obtain ⟨⟨r, hr, hid, hstate⟩, hordered⟩ := hordered
  have honly : ∀ r' ∈ s.db.routes.rows, r'.id = id → r' = r := by
    intro r' hr' he'
    exact s.db.routes.eq_of_pk hr' hr (he'.trans hid.symm)
  have hrest : ∀ r', Event.deleted r' ∈ s.events → Event.deleted r' ∈ events := by
    intro r' hr'
    rw [he] at hr'
    exact List.mem_of_ne_of_mem (by simp) hr'
  -- the route of the event aside, what was awaited still is
  have hawaited : ∀ o i, Awaited env s.db s.events o i →
      Awaited env s.db events o i ∨ Between env s.db r o i := by
    rintro o i ⟨r', hr', hcreated, hb⟩
    rw [he] at hcreated
    rcases List.mem_cons.mp hcreated with heq | hcreated
    · rw [honly r' hr' (Event.created.inj heq)] at hb
      exact .inr hb
    · exact .inl ⟨r', hr', hcreated, hb⟩
  rw [handleEvent_created]
  rcases final_withRoute env s.db s.table
    (fun route => addNat env route.outerIpv4 route.innerIpv4) id with
    ⟨r', hr', hid', outer, inner, hb, hfinal⟩ | ⟨hnone, hfinal⟩
  · rw [honly r' hr' hid'] at hb
    rw [hfinal]
    refine ⟨h.placed, hordered, ?_, ?_, ?_⟩
    · intro o i hroute
      rcases h.inbound o i hroute with ⟨i', hf⟩ | ⟨i', ha⟩
      · exact .inl (inbound_mem_addNat hf)
      · rcases hawaited o i' ha with ha | hb'
        · exact .inr ⟨i', ha⟩
        · obtain ⟨rfl, rfl⟩ := hb.unique hb'
          exact .inl ⟨i', mem_addNat.mpr (.inl (mem_flows.mpr (.inl rfl)))⟩
    · intro o i hroute
      rcases h.outbound o i hroute with ⟨o', hf⟩ | ⟨o', ha⟩
      · exact .inl (outbound_mem_addNat hf)
      · rcases hawaited o' i ha with ha | hb'
        · exact .inr ⟨o', ha⟩
        · obtain ⟨rfl, rfl⟩ := hb.unique hb'
          exact .inl ⟨o', mem_addNat.mpr (.inl (mem_flows.mpr (.inr rfl)))⟩
    · intro f hf hmine
      rcases mem_addNat.mp hf with hflow | ⟨hf, -⟩
      · rw [← hid] at hstate
        exact ⟨r, hr, outer, inner, hb, hflow, hstate⟩
      · obtain ⟨r', hr', o, i, hb', hflow, hstate'⟩ := h.sound f hf hmine
        exact ⟨r', hr', o, i, hb', hflow, hstate'.imp_right (hrest _)⟩
  · rw [hfinal]
    have hstill : ∀ o i, Awaited env s.db s.events o i → Awaited env s.db events o i := by
      intro o i ha
      rcases hawaited o i ha with ha | hb
      · exact ha
      · exact absurd hb (hnone r hr hid o i)
    exact h.drop_event hordered hstill fun r' _ _ _ _ => hrest r'.id

theorem Kept.handle_deleted {s : State} (h : Kept env s) (he : s.events = .deleted id :: events)
    (hspares : Spares env s .handle) :
    Kept env { s with table := handleEvent env s.db s.table (.deleted id), events } := by
  have hordered : Ordered s.db events := by
    have hall := h.ordered
    rwa [he] at hall
  have hstill : ∀ o i, Awaited env s.db s.events o i → Awaited env s.db events o i := by
    rintro o i ⟨r, hr, hcreated, hb⟩
    rw [he] at hcreated
    exact ⟨r, hr, List.mem_of_ne_of_mem (by simp) hcreated, hb⟩
  have hrest : ∀ k, Event.deleted k ∈ s.events → k ≠ id → Event.deleted k ∈ events := by
    intro k hk hne
    rw [he] at hk
    exact List.mem_of_ne_of_mem (fun hev => hne (Event.deleted.inj hev)) hk
  rw [handleEvent_deleted]
  rcases final_withRoute env s.db s.table
    (fun route => removeNat env route.outerIpv4 route.innerIpv4) id with
    ⟨r, hr, rfl, outer, inner, hb, hfinal⟩ | ⟨hnone, hfinal⟩
  · rw [hfinal]
    obtain ⟨hin, hout⟩ := hspares rfl r hr events he outer inner hb
    refine ⟨h.placed, hordered, ?_, ?_, ?_⟩
    · intro o i hroute
      by_cases ho : o = outer
      · subst ho
        exact .inr (hin ⟨i, hroute⟩)
      · rcases h.inbound o i hroute with ⟨i', hf⟩ | ⟨i', ha⟩
        · exact .inl ⟨i', inbound_mem_removeNat.mpr ⟨hf, ho⟩⟩
        · exact .inr ⟨i', hstill o i' ha⟩
    · intro o i hroute
      by_cases hi : i = inner
      · subst hi
        exact .inr (hout ⟨o, hroute⟩)
      · rcases h.outbound o i hroute with ⟨o', hf⟩ | ⟨o', ha⟩
        · exact .inl ⟨o', outbound_mem_removeNat.mpr ⟨hf, hi⟩⟩
        · exact .inr ⟨o', hstill o' i ha⟩
    · intro f hf hmine
      obtain ⟨r', hr', o, i, hb', hflow, hstate⟩ := h.sound f (mem_removeNat.mp hf).1 hmine
      refine ⟨r', hr', o, i, hb', hflow, hstate.imp_right fun hdeleted => hrest _ hdeleted ?_⟩
      intro hid
      rw [s.db.routes.eq_of_pk hr' hr hid] at hb'
      obtain ⟨rfl, rfl⟩ := hb.unique hb'
      exact not_mem_removeNat hflow hf
  · rw [hfinal]
    refine h.drop_event hordered hstill fun r o i hr hb hdeleted => hrest _ hdeleted ?_
    exact fun hid => hnone r hr hid o i hb

/-- The condition cannot be dropped: a deletion that is handled last leaves an exact table
only if no alive route has one of the two addresses. -/
theorem handled_deletion_exact_iff {s : State} (h : Kept env s) (hr : r ∈ s.db.routes.rows)
    (he : s.events = [.deleted r.id]) (hb : Between env s.db r outer inner) :
    Exact env (s.step env .handle) ↔
      (∀ i, ¬ Routed env s.db outer i) ∧ ∀ o, ¬ Routed env s.db o inner := by
  have hstep : s.step env .handle =
      { s with table := handleEvent env s.db s.table (.deleted r.id), events := [] } := by
    unfold State.step
    rw [he]
  rw [hstep]
  constructor
  · intro hexact
    have htable : handleEvent env s.db s.table (.deleted r.id) =
        Proc.final (removeNat env outer inner) s.table := by
      rw [handleEvent_deleted]
      rcases final_withRoute env s.db s.table
        (fun route => removeNat env route.outerIpv4 route.innerIpv4) r.id with
        ⟨r', hr', hid, o, i, hb', hfinal⟩ | ⟨hnone, -⟩
      · rw [s.db.routes.eq_of_pk hr' hr hid] at hb'
        obtain ⟨rfl, rfl⟩ := hb.unique hb'
        exact hfinal
      · exact absurd hb (hnone r hr rfl outer inner)
    constructor
    · intro i hroute
      obtain ⟨i', -, hf⟩ := hexact.inbound outer i hroute
      rw [htable] at hf
      exact (inbound_mem_removeNat.mp hf).2 rfl
    · intro o hroute
      obtain ⟨o', -, hf⟩ := hexact.outbound o inner hroute
      rw [htable] at hf
      exact (outbound_mem_removeNat.mp hf).2 rfl
  · rintro ⟨hin, hout⟩
    apply Kept.exact _ rfl
    apply h.handle_deleted he
    intro _ r' hr' events he' o i hb'
    rw [he] at he'
    have hid : r.id = r'.id := Event.deleted.inj (List.cons.inj he').1
    rw [s.db.routes.eq_of_pk hr' hr hid.symm] at hb'
    obtain ⟨rfl, rfl⟩ := hb.unique hb'
    exact ⟨fun ⟨i', hno⟩ => absurd hno (hin i'), fun ⟨o', hno⟩ => absurd hno (hout o')⟩

/-! ## Runs -/

theorem Kept.step {s : State} {op : Op} (h : Kept env s) (hspares : Spares env s op) :
    Kept env (s.step env op) := by
  cases op with
  | createRoute vif ipHandle =>
    show Kept env (State.step env s _)
    unfold State.step
    dsimp only
    split
    · exact h
    · rename_i request hpost
      split
      · rename_i route t hok
        exact h.tells (tells_created h.placed hpost hok)
      · rename_i e t herror
        rw [Lease.createRoute_error herror]
        exact h
  | destroyRoute id =>
    unfold State.step
    dsimp only
    split
    · exact h
    · rename_i route hroute
      split
      · exact h
      · split
        · rename_i t hok
          have htells := tells_destroyed h.placed hok
          rw [show route.id = id from s.db.routes.pk_of_find hroute] at htells
          exact h.tells htells
        · exact h
  | handle =>
    unfold State.step
    dsimp only
    split
    · exact h
    · rename_i event events he
      cases event with
      | created id => exact h.handle_created he
      | deleted id => exact h.handle_deleted he hspares
  | restore => exact kept_restored h.placed h.ordered

end

/-- Once the box has started, whatever routes are created and destroyed: as long as the
handling of a deletion spares the other routes, the table is exact whenever every event is
handled, and so are the restores. -/
theorem natbox_exact (env : Env) (s : State) (hplaced : Placed s.db) (hevents : s.events = [])
    (ops : List Op) (hspares : Each (State.step env) (Spares env) (s.restored env) ops) :
    Exact env (s.restored env) ∧ Each (State.step env)
      (fun s op => (s.step env op).events = [] → Exact env (s.step env op)) (s.restored env) ops := by
  have hstart : Kept env (s.restored env) := by
    apply kept_restored hplaced
    rw [hevents]
    trivial
  refine ⟨hstart.exact hevents, hspares.of_invariant (Kept env) ?_ hstart⟩
  intro s op h hop
  exact ⟨h.step hop, (h.step hop).exact⟩

/-! ## Two routes with one outer address -/

/-- The vifs 1 and 2 have an address each, and the vif 3 offers the service 7. The lease 3
belongs to a handle. -/
def twoVifs : Lease.Db where
  networks := Lease.addNetwork (Lease.addNetwork .empty 0x0a000000) 0xc0a80000
  dhcpRanges := .empty
  ipLeases := .empty
  vifLeases :=
    Lease.addVifLease
      (Lease.addVifLease (Lease.addVifLease .empty 1 (some 1) 0x0a00000a none false)
        1 (some 2) 0x0a00000b none false)
      2 none 0xc0a8000a (some 1) false
  vifs := Lease.addVif (Lease.addVif (Lease.addVif .empty 1) 1) 2
  ipHandles := Lease.addIpHandle .empty 1
  routes := .empty
  ipPoolDcNetworks := [(1, 1)]

def publicBox : Env where
  innerDcNetworkName := "public".toList
  ovsFlowTable := 0
  ovsFlowPriority := 100
  services := [(3, 7)]
  externalIp := 7
  dcNetworkName _ := some "public".toList
  scan rows := rows
  scan_perm _ := .refl _

theorem twoVifs_placed : Placed twoVifs := by
  intro r hr
  cases hr

/-- One route after the other. -/
theorem natbox_exact_moved :
    Each (State.step publicBox)
      (fun s op => (s.step publicBox op).events = [] → Exact publicBox (s.step publicBox op))
      (State.restored publicBox ⟨twoVifs, [], []⟩)
      [.createRoute 1 1, .handle, .destroyRoute 1, .handle, .createRoute 2 1, .handle] := by
  apply (natbox_exact publicBox ⟨twoVifs, [], []⟩ twoVifs_placed rfl _ _).2
  refine ⟨?_, ?_, ?_, ?_, ?_, ?_, trivial⟩
  · intro hno
    cases hno
  · intro _ r hr events he
    cases he
  · intro hno
    cases hno
  · intro _ r hr events he outer inner hb
    have hdeleted : ∀ r ∈ ([.createRoute 1 1, .handle, .destroyRoute 1].foldl
        (State.step publicBox) (State.restored publicBox ⟨twoVifs, [], []⟩)).db.routes.rows,
        r.deleted = true := by decide
    constructor
    · rintro ⟨i, r', hr', halive, -⟩
      cases (hdeleted r' hr').symm.trans halive
    · rintro ⟨o, r', hr', halive, -⟩
      cases (hdeleted r' hr').symm.trans halive
  · intro hno
    cases hno
  · intro _ r hr events he
    cases he

/-- The second route is alive, but what comes to its outer address is not rewritten any
more. -/
theorem shared_outer_address :
    ¬ ∀ (env : Env) (s : State), Placed s.db → s.events = [] → ∀ ops : List Op,
      Each (State.step env) (fun s op => (s.step env op).events = [] → Exact env (s.step env op))
        (s.restored env) ops := by
  intro h
  obtain ⟨-, -, -, -, -, hlast, -⟩ := h publicBox ⟨twoVifs, [], []⟩ twoVifs_placed rfl
    [.createRoute 1 1, .handle, .createRoute 2 1, .handle, .destroyRoute 1, .handle]
  obtain ⟨i, -, hf⟩ := (hlast rfl).inbound 0xc0a8000a 0x0a00000b
    ⟨⟨2, some 2, some 3, false, false, false⟩, by decide, rfl, rfl, rfl, rfl⟩
  have htable : ∀ f ∈ ([.createRoute 1 1, .handle, .createRoute 2 1, .handle, .destroyRoute 1,
      .handle].foldl (State.step publicBox)
        (State.restored publicBox ⟨twoVifs, [], []⟩)).table, f.pattern.nwDst = none := by decide
  cases htable _ hf

end Natbox

end WakameVdc
