import WakameVdc.Lib.Run
import WakameVdc.LoadBalancer

/-!
# What the published configuration shows

Each request builds the configuration it publishes anew. The rows of the
targets are followed along a run, and at each request the servers the proxy is
given are compared with them. The proxy keeps one server for an address.
-/

namespace WakameVdc

open Lib

namespace LoadBalancer

def Env.address (env : Env) (v : Text) : Option Text :=
  (env.vif v).bind fun vif => vif.directIpLease.head?

/-- The proxy has one server for each registered target, with its stored mode. -/
def ShowsTargets (env : Env) (lb : Lb) (c : Config) : Prop :=
  (c.proxyServers.values.map fun s => (some s.address, s.port, s.backup)).Perm
    (lb.live.map fun t => (env.address t.vif, lb.instancePort, backup t.fallbackMode))

/-- The configuration shows the registered targets and the current settings. -/
structure Shows (env : Env) (lb : Lb) (c : Config) : Prop where
  servers : ShowsTargets env lb c
  instancePort : c.instancePort = lb.instancePort
  balanceAlgorithm : c.balanceAlgorithm = lb.balanceAlgorithm
  cookieName : c.cookieName = lb.cookieName
  ports : c.ports = (configParams lb lb.inbounds []).ports
  protocols : c.protocols = lb.inbounds.map Inbound.protocol
  securePort : c.securePort = connectPort lb.inbounds
  secureProtocol : c.secureProtocol = secureProtocol lb.inbounds

/-! ## When a request publishes what it stores -/

/-- The ports are given as they are stored, and the secure one is not 4433. -/
structure PlainPorts (env : Env) (inbounds : List Inbound) : Prop where
  text : ∀ i ∈ inbounds, ∀ t n, i.port = .text t → env.typecast t = some n → t = Text.ofInt n
  secure : ∀ i, secureInbound inbounds = some i → ∀ t, i.port = .text t → env.typecast t ≠ some 4433

/-- `ip.first` is the lease the other requests publish. -/
def SameAddress (env : Env) (lb : Lb) : Prop :=
  ∀ t ∈ lb.live, ∀ vif, env.vif t.vif = some vif → vif.ip.head? = vif.directIpLease.head?

def Apart (env : Env) (vifs : List Text) : Prop :=
  ∀ v ∈ vifs, ∀ w ∈ vifs, ∀ ip, env.address v = some ip → env.address w = some ip → v = w

/-- An update names all targets and no others, each with one mode, and writes
the mode to the registered row, unless it is the stored one. -/
structure NamesTargets (env : Env) (lb : Lb) (tvs : List (Text × Text)) : Prop where
  sound : ∀ tv ∈ tvs, tv.1 ∈ lb.holdVifs
  complete : ∀ v ∈ lb.holdVifs, ∃ tv ∈ tvs, tv.1 = v
  mode : ∀ tv ∈ tvs, ∀ tv' ∈ tvs, tv.1 = tv'.1 → backup tv.2 = backup tv'.2
  found : ∀ t ∈ lb.live, ∀ tv ∈ tvs, tv.1 = t.vif →
    targetNetwork env lb t.vif = some t.id ∨ backup tv.2 = backup t.fallbackMode

/-- The row found for a registered target has its mode. -/
def FindsModes (env : Env) (lb : Lb) : Prop :=
  ∀ t ∈ lb.live, ∀ tv ∈ lb.targets, targetNetwork env lb t.vif = some tv.id →
    backup tv.fallbackMode = backup t.fallbackMode

/-- The targets a request leaves have addresses of their own, none of them is a backup
when the modes are left out, and an update that publishes nothing leaves the instance port
as it is published. -/
def PublishesStored (env : Env) (s : Sys) : Request → Prop
  | .register vifs => (∃ v ∈ vifs.getD [], v ∉ s.lb.holdVifs) →
    Apart env (vifs.getD [] ++ s.lb.holdVifs) ∧ ∀ t ∈ s.lb.live, backup t.fallbackMode = false
  | .unregister vifs =>
    Apart env (s.lb.holdVifs.filter fun v => v ∉ vifs.getD []) ∧
      ∀ t ∈ s.lb.live, t.vif ∉ vifs.getD [] → backup t.fallbackMode = false
  | .update p =>
    if configUpdatable p then
      Apart env s.lb.holdVifs ∧
      (p.givesInbounds → ∀ inbounds, getInbounds p = some inbounds → PlainPorts env inbounds) ∧
      SameAddress env s.lb ∧
      if p.targetVifs = [] then FindsModes env s.lb else NamesTargets env s.lb p.targetVifs
    else
      s.published = none ∨ blank p.instancePort ∨
        env.typecast (p.instancePort.getD []) = some s.lb.instancePort

/-! ## The rows of the targets -/

/-- Ids are those of a table, and every registered vif is registered once and has a lease. -/
structure Rows (env : Env) (lb : Lb) : Prop where
  ids : (lb.targets.map Target.id).Nodup
  bound : ∀ t ∈ lb.targets, t.id < lb.targets.length
  once : lb.holdVifs.Nodup
  leased : ∀ v ∈ lb.holdVifs, ∃ vif ip, env.vif v = some vif ∧ vif.directIpLease.head? = some ip

variable {env : Env} {lb lb' : Lb} {t : Target} {v : Text}

theorem mem_live : t ∈ lb.live ↔ t ∈ lb.targets ∧ t.deleted = false := by
  simp [Lb.live]

theorem mem_holdVifs : v ∈ lb.holdVifs ↔ ∃ t ∈ lb.live, t.vif = v := by
  simp [Lb.holdVifs]

theorem Rows.eq_of_id (h : Rows env lb) {r : Target} (ht : t ∈ lb.targets) (hr : r ∈ lb.targets)
    (hid : t.id = r.id) : t = r :=
  List.inj_on_of_nodup_map h.ids ht hr hid

@[simp] theorem live_addTarget :
    (lb.addTarget v).live = lb.live ++ [⟨lb.targets.length, v, "off".toList, false⟩] := by
  simp [Lb.live, Lb.addTarget]

theorem rows_addTarget (h : Rows env lb) {vif : Vif} (hv : env.vif v = some vif)
    (hl : vif.directIpLease ≠ []) (hnew : v ∉ lb.holdVifs) : Rows env (lb.addTarget v) := by
  constructor
  · rw [Lb.addTarget, List.map_append, List.nodup_append]
    refine ⟨h.ids, by simp, ?_⟩
    intro a ha b hb
    obtain ⟨t, ht, rfl⟩ := List.mem_map.mp ha
    have hlt := h.bound t ht
    simp only [List.map_cons, List.map_nil, List.mem_singleton] at hb
    omega
  · intro t ht
    simp only [Lb.addTarget, List.mem_append, List.mem_singleton] at ht
    simp only [Lb.addTarget, List.length_append, List.length_singleton]
    rcases ht with ht | rfl
    · have hlt := h.bound t ht
      omega
    · exact Nat.lt_succ_self _
  · rw [Lb.holdVifs, live_addTarget, List.map_append, List.nodup_append]
    refine ⟨h.once, by simp, ?_⟩
    intro a ha b hb he
    simp only [List.map_cons, List.map_nil, List.mem_singleton] at hb
    rw [he, hb] at ha
    exact hnew ha
  · intro w hw
    simp only [Lb.holdVifs, live_addTarget, List.map_append, List.mem_append, List.map_cons,
      List.map_nil, List.mem_singleton] at hw
    rcases hw with hw | rfl
    · exact h.leased w hw
    · obtain ⟨ip, ips, he⟩ := List.exists_cons_of_ne_nil hl
      exact ⟨vif, ip, hv, by simp [he]⟩

theorem live_removeTargets (vifs : List Text) :
    (lb.removeTargets vifs).live = lb.live.filter fun t => t.vif ∉ vifs := by
  simp only [Lb.live, Lb.removeTargets]
  induction lb.targets with
  | nil => rfl
  | cons t ts ih =>
    by_cases ht : t.vif ∈ vifs <;> cases hd : t.deleted <;> simp [ht, hd, ih]

theorem rows_removeTargets (h : Rows env lb) (vifs : List Text) : Rows env (lb.removeTargets vifs) := by
  constructor
  · have he : (lb.removeTargets vifs).targets.map Target.id = lb.targets.map Target.id := by
      simp only [Lb.removeTargets, List.map_map]
      apply List.map_congr_left
      intro t _
      simp only [Function.comp]
      split <;> rfl
    rw [he]
    exact h.ids
  · intro t ht
    obtain ⟨r, hr, rfl⟩ := List.mem_map.mp ht
    have hlt := h.bound r hr
    simp only [Lb.removeTargets, List.length_map]
    split <;> exact hlt
  · rw [Lb.holdVifs, live_removeTargets]
    exact h.once.sublist (List.filter_sublist.map _)
  · intro w hw
    obtain ⟨t, ht, rfl⟩ := mem_holdVifs.mp hw
    rw [live_removeTargets, List.mem_filter] at ht
    exact h.leased _ (mem_holdVifs.mpr ⟨t, ht.1, rfl⟩)

/-! ## The servers of the proxy -/

/-- The server that stands for a target, with its stored mode. -/
def Serves (env : Env) (t : Target) (ipv4 : Text) (b : Bool) : Prop :=
  (∃ vif, env.vif t.vif = some vif ∧ vif.directIpLease.head? = some ipv4) ∧ backup t.fallbackMode = b

/-- The servers are those of the registered targets, however often each is listed. -/
def ListsTargets (env : Env) (lb : Lb) (servers : List Server) : Prop :=
  ∀ ipv4 b, (∃ s ∈ servers, s.ipv4 = ipv4 ∧ s.backup.getD false = b) ↔ ∃ t ∈ lb.live, Serves env t ipv4 b

theorem address_eq_some {ip : Text} : env.address v = some ip ↔
    ∃ vif, env.vif v = some vif ∧ vif.directIpLease.head? = some ip :=
  Option.bind_eq_some_iff

theorem foldl_addServer (port : Int) (servers : List Server) (h : Haproxy.Servers) (ip : Text) :
    let h' := servers.foldl (fun s t => s.addServer t.ipv4 port
      { Haproxy.Options.none with backup := t.backup }) h
    (∀ v, h'.lookup ip = some v → h.lookup ip = some v ∨ v.address = ip ∧ v.port = port ∧
      ∃ s ∈ servers, s.ipv4 = ip ∧ s.backup.getD false = v.backup) ∧
    ((h.lookup ip).isSome ∨ (∃ s ∈ servers, s.ipv4 = ip) → (h'.lookup ip).isSome) := by
  induction servers generalizing h with
  | nil => exact ⟨fun v hv => .inl hv, by simp⟩
  | cons t ts ih =>
    obtain ⟨w, hw, ha, hp, hb⟩ := h.exists_addServer t.ipv4 port t.backup
    simp only [List.foldl_cons]
    rw [hw]
    obtain ⟨h1, h2⟩ := ih (h.insert t.ipv4 w)
    simp only [Hash.lookup_insert] at h1 h2
    refine ⟨fun v hv => ?_, fun hs => h2 ?_⟩
    · rcases h1 v hv with hl | ⟨hva, hvp, s, hs, hip, hsb⟩
      · split at hl
        · rename_i he
          cases hl
          exact .inr ⟨ha.trans he.symm, hp, t, List.mem_cons_self, he.symm, hb.symm⟩
        · exact .inl hl
      · exact .inr ⟨hva, hvp, s, List.mem_cons_of_mem _ hs, hip, hsb⟩
    · by_cases he : ip = t.ipv4
      · exact .inl (by rw [if_pos he]; rfl)
      · rw [if_neg he]
        refine hs.imp id ?_
        rintro ⟨s, hs, hip⟩
        rcases List.mem_cons.mp hs with rfl | hs
        · exact absurd hip.symm he
        · exact ⟨s, hs, hip⟩

theorem lookup_proxyServers {c : Config} {ip : Text} {v : Haproxy.Server}
    (h : c.proxyServers.lookup ip = some v) : v.address = ip ∧ v.port = c.instancePort ∧
      ∃ s ∈ c.servers, s.ipv4 = ip ∧ s.backup.getD false = v.backup := by
  rcases (foldl_addServer c.instancePort c.servers ∅ ip).1 v h with h | h
  · rw [AList.lookup_empty] at h
    cases h
  · exact h

theorem exists_lookup_proxyServers {c : Config} {s : Server} (h : s ∈ c.servers) :
    ∃ v, c.proxyServers.lookup s.ipv4 = some v :=
  Option.isSome_iff_exists.mp
    ((foldl_addServer c.instancePort c.servers ∅ s.ipv4).2 (.inr ⟨s, h, rfl⟩))

/-- Where the addresses are apart, the proxy has a server for each listed target. -/
theorem showsTargets_of_lists {c : Config} (h : ListsTargets env lb c.servers)
    (hp : c.instancePort = lb.instancePort) (hr : Rows env lb) (ha : Apart env lb.holdVifs) :
    ShowsTargets env lb c := by
  have haddress : ∀ t ∈ lb.live, ∃ ip, env.address t.vif = some ip := by
    intro t ht
    obtain ⟨vif, ip, hv, hip⟩ := hr.leased t.vif (mem_holdVifs.mpr ⟨t, ht, rfl⟩)
    exact ⟨ip, address_eq_some.mpr ⟨vif, hv, hip⟩⟩
  have happart : ∀ t ∈ lb.live, ∀ u ∈ lb.live, env.address t.vif = env.address u.vif → t = u := by
    intro t ht u hu he
    obtain ⟨ip, hip⟩ := haddress t ht
    have hv := ha t.vif (mem_holdVifs.mpr ⟨t, ht, rfl⟩) u.vif (mem_holdVifs.mpr ⟨u, hu, rfl⟩) ip
      hip (he.symm.trans hip)
    exact List.inj_on_of_nodup_map hr.once ht hu hv
  unfold ShowsTargets
  refine (List.perm_ext_iff_of_nodup ?_ ?_).mpr ?_
  · refine Hash.nodup_map_values.mpr fun i j v w hv hw he => ?_
    have hvw := Option.some.inj (Prod.mk.inj he).1
    rw [(lookup_proxyServers hv).1, (lookup_proxyServers hw).1] at hvw
    exact hvw
  · refine List.Nodup.map_on (fun t ht u hu he => happart t ht u hu (Prod.mk.inj he).1) ?_
    exact hr.once.of_map _
  rintro ⟨address, port, b⟩
  simp only [List.mem_map, Hash.mem_values, Prod.mk.injEq]
  constructor
  · rintro ⟨v, ⟨ip, hv⟩, rfl, rfl, rfl⟩
    obtain ⟨hva, hvp, s, hs, hsip, hsb⟩ := lookup_proxyServers hv
    obtain ⟨t, ht, hserves, hmode⟩ := (h ip v.backup).mp ⟨s, hs, hsip, hsb⟩
    exact ⟨t, ht, by rw [hva]; exact address_eq_some.mpr hserves, by rw [hvp, hp], hmode⟩
  · rintro ⟨t, ht, rfl, rfl, rfl⟩
    obtain ⟨ip, hip⟩ := haddress t ht
    obtain ⟨s, hs, hsip, -⟩ := (h ip _).mpr ⟨t, ht, address_eq_some.mp hip, rfl⟩
    obtain ⟨v, hv⟩ := exists_lookup_proxyServers hs
    rw [hsip] at hv
    obtain ⟨hva, hvp, s', hs', hsip', hsb'⟩ := lookup_proxyServers hv
    -- the last server added under the address is that of the target as well
    obtain ⟨u, hu, hserves, hmode⟩ := (h ip v.backup).mp ⟨s', hs', hsip', hsb'⟩
    obtain rfl := happart t ht u hu (hip.trans (address_eq_some.mpr hserves).symm)
    exact ⟨v, ⟨ip, hv⟩, by rw [hva, hip], hvp.trans hp, hmode.symm⟩

/-! ## Servers without a mode -/

theorem mem_leasedServers {uuids : List Text} {servers : List Server}
    (h : leasedServers env uuids = some servers) (s : Server) :
    s ∈ servers ↔ ∃ v ∈ uuids, (∃ vif, env.vif v = some vif ∧ vif.directIpLease.head? = some s.ipv4) ∧
      s.backup = none := by
  induction uuids generalizing servers with
  | nil => simp_all [leasedServers]
  | cons uuid uuids ih =>
    simp only [leasedServers, Option.bind_eq_bind, Option.bind_eq_some_iff] at h
    obtain ⟨vif, hv, servers', hs, h⟩ := h
    have ih := ih hs
    cases hl : vif.directIpLease with
    | nil =>
      simp only [hl, Option.pure_def, Option.some.injEq] at h
      subst h
      simp [ih, hv, hl]
    | cons ip ips =>
      simp only [hl, Option.pure_def, Option.some.injEq] at h
      subst h
      simp only [List.mem_cons, exists_eq_or_imp, ih]
      refine or_congr_left ?_
      constructor
      · rintro rfl
        exact ⟨⟨vif, hv, by simp [hl]⟩, rfl⟩
      · rintro ⟨⟨vif', hv', hip⟩, hb⟩
        cases hv.symm.trans hv'
        rw [hl, List.head?_cons, Option.some.injEq] at hip
        cases s
        simp_all

/-- Servers without a mode show targets that are all primary ones. -/
theorem listsTargets_of_off {uuids : List Text} {servers : List Server}
    (h : leasedServers env uuids = some servers) (hoff : ∀ t ∈ lb.live, backup t.fallbackMode = false)
    (hmem : ∀ v vif ip, env.vif v = some vif → vif.directIpLease.head? = some ip →
      (v ∈ uuids ↔ v ∈ lb.holdVifs)) : ListsTargets env lb servers := by
  intro ip b
  constructor
  · rintro ⟨s, hs, rfl, rfl⟩
    obtain ⟨v, hv, ⟨vif, hvif, hip⟩, hb⟩ := (mem_leasedServers h s).mp hs
    obtain ⟨t, ht, rfl⟩ := mem_holdVifs.mp ((hmem v vif _ hvif hip).mp hv)
    refine ⟨t, ht, ⟨vif, hvif, hip⟩, ?_⟩
    rw [hoff t ht, hb]
    rfl
  · rintro ⟨t, ht, ⟨vif, hvif, hip⟩, rfl⟩
    have hv := (hmem t.vif vif ip hvif hip).mpr (mem_holdVifs.mpr ⟨t, ht, rfl⟩)
    refine ⟨⟨ip, none⟩, (mem_leasedServers h _).mpr ⟨t.vif, hv, ⟨vif, hvif, hip⟩, rfl⟩, rfl, ?_⟩
    rw [hoff t ht]
    rfl

/-! ## Register and unregister -/

theorem shows_configParams {servers : List Server} (h : ListsTargets env lb servers)
    (hr : Rows env lb) (ha : Apart env lb.holdVifs) :
    Shows env lb (configParams lb lb.inbounds servers) :=
  ⟨showsTargets_of_lists h rfl hr ha, rfl, rfl, rfl, rfl, rfl, rfl, rfl⟩

theorem registerTargets_spec {uuids : List Text} (h : registerTargets env lb uuids = some lb')
    (hr : Rows env lb) :
    Rows env lb' ∧ lb' = { lb with targets := lb'.targets } ∧
      (∀ t ∈ lb'.live, t ∈ lb.live ∨ t.fallbackMode = "off".toList) ∧
      (∀ v vif ip, env.vif v = some vif → vif.directIpLease.head? = some ip →
        (v ∈ lb'.holdVifs ↔ v ∈ uuids ∨ v ∈ lb.holdVifs)) := by
  induction uuids generalizing lb with
  | nil =>
    simp only [registerTargets, Option.some.injEq] at h
    subst h
    exact ⟨hr, rfl, fun t ht => .inl ht, by simp⟩
  | cons uuid uuids ih =>
    simp only [registerTargets, Option.bind_eq_bind, Option.bind_eq_some_iff] at h
    obtain ⟨vif, hv, h⟩ := h
    split at h
    · rename_i hl
      obtain ⟨h1, h2, h3, h4⟩ := ih h hr
      refine ⟨h1, h2, h3, fun w vif' ip hw hip => ?_⟩
      have hne : w ≠ uuid := by
        rintro rfl
        cases hv.symm.trans hw
        simp [hl] at hip
      simp [h4 w vif' ip hw hip, hne]
    · rename_i hl
      split at h
      · cases h
      · rename_i hnew
        obtain ⟨h1, h2, h3, h4⟩ := ih h (rows_addTarget hr hv hl hnew)
        refine ⟨h1, h2, ?_, fun w vif' ip hw hip => ?_⟩
        · intro t ht
          rcases h3 t ht with h5 | h5
          · simp only [live_addTarget, List.mem_append, List.mem_singleton] at h5
            rcases h5 with h5 | rfl
            · exact .inl h5
            · exact .inr rfl
          · exact .inr h5
        · rw [h4 w vif' ip hw hip]
          simp only [Lb.holdVifs, live_addTarget, List.map_append, List.mem_append, List.map_cons,
            List.map_nil, List.mem_cons]
          tauto

theorem register_spec {vifs : List Text} {c : Option Config} (h : register env lb vifs = some (lb', c))
    (hr : Rows env lb)
    (hp : (∃ v ∈ vifs, v ∉ lb.holdVifs) →
      Apart env (vifs ++ lb.holdVifs) ∧ ∀ t ∈ lb.live, backup t.fallbackMode = false) :
    Rows env lb' ∧ ∃ c', c = some c' ∧ Shows env lb' c' := by
  simp only [register, Option.bind_eq_bind] at h
  split at h
  · cases h
  · rename_i hne
    simp only [Option.bind_eq_some_iff] at h
    obtain ⟨lb₁, h1, servers, hs, h⟩ := h
    split at h
    · cases h
    · simp only [Option.pure_def, Option.some.injEq, Prod.mk.injEq] at h
      obtain ⟨rfl, rfl⟩ := h
      obtain ⟨hr', he, hoff, hmem⟩ := registerTargets_spec h1 hr
      obtain ⟨v, vs, hvs⟩ := List.exists_cons_of_ne_nil hne
      have hv : v ∈ vifs.filter fun uuid => uuid ∉ lb.holdVifs := by
        rw [hvs]
        exact List.mem_cons_self
      simp only [List.mem_filter, decide_eq_true_eq] at hv
      obtain ⟨hapart, hlive⟩ := hp ⟨v, hv⟩
      refine ⟨hr', _, rfl, ?_⟩
      have hc : configParams lb lb.inbounds servers = configParams lb₁ lb₁.inbounds servers := by
        rw [he]
        rfl
      rw [hc]
      refine shows_configParams (listsTargets_of_off hs ?_ ?_) hr' ?_
      · intro t ht
        rcases hoff t ht with h5 | h5
        · exact hlive t h5
        · rw [h5]
          decide
      · intro w vif ip hw hip
        rw [hmem w vif ip hw hip]
        simp only [List.mem_dedup, List.mem_append, List.mem_filter, decide_eq_true_eq]
        tauto
      · -- a vif that is registered now was named or registered before
        have hin : ∀ w ∈ lb₁.holdVifs, w ∈ vifs ++ lb.holdVifs := by
          intro w hw
          obtain ⟨vif, ip, hwv, hip⟩ := hr'.leased w hw
          rw [hmem w vif ip hwv hip] at hw
          simp only [List.mem_append, List.mem_filter] at hw ⊢
          tauto
        exact fun u hu w hw => hapart u (hin u hu) w (hin w hw)

theorem unregister_spec {vifs : List Text} {c : Option Config}
    (h : unregister env lb vifs = some (lb', c)) (hr : Rows env lb)
    (hp : Apart env (lb.holdVifs.filter fun v => v ∉ vifs) ∧
      ∀ t ∈ lb.live, t.vif ∉ vifs → backup t.fallbackMode = false) :
    Rows env lb' ∧ ∃ c', c = some c' ∧ Shows env lb' c' := by
  simp only [unregister, Option.bind_eq_bind] at h
  split at h
  · cases h
  · simp only [Option.bind_eq_some_iff] at h
    obtain ⟨servers, hs, h⟩ := h
    simp only [Option.pure_def, Option.some.injEq, Prod.mk.injEq] at h
    obtain ⟨rfl, rfl⟩ := h
    refine ⟨rows_removeTargets hr _, _, rfl, ?_⟩
    -- a target goes when its vif is named, and only registered vifs are
    have hlive : ∀ t, t ∈ (lb.removeTargets (lb.holdVifs.filter fun u => u ∈ vifs)).live ↔
        t ∈ lb.live ∧ t.vif ∉ vifs := by
      intro t
      rw [live_removeTargets, List.mem_filter]
      simp only [List.mem_filter, decide_eq_true_eq, not_and]
      constructor
      · rintro ⟨ht, h5⟩
        exact ⟨ht, h5 (mem_holdVifs.mpr ⟨t, ht, rfl⟩)⟩
      · rintro ⟨ht, h5⟩
        exact ⟨ht, fun _ => h5⟩
    have hhold : ∀ w, w ∈ (lb.removeTargets (lb.holdVifs.filter fun u => u ∈ vifs)).holdVifs ↔
        w ∈ lb.holdVifs.filter fun v => v ∉ vifs := by
      intro w
      simp only [List.mem_filter, decide_eq_true_eq, mem_holdVifs, hlive]
      constructor
      · rintro ⟨t, ⟨ht, hw⟩, rfl⟩
        exact ⟨⟨t, ht, rfl⟩, hw⟩
      · rintro ⟨⟨t, ht, rfl⟩, hw⟩
        exact ⟨t, ⟨ht, hw⟩, rfl⟩
    have hlist : ListsTargets env (lb.removeTargets (lb.holdVifs.filter fun u => u ∈ vifs)) servers := by
      refine listsTargets_of_off hs ?_ fun w _ _ _ _ => (hhold w).symm
      intro t ht
      exact hp.2 t ((hlive t).mp ht).1 ((hlive t).mp ht).2
    refine shows_configParams hlist (rows_removeTargets hr _) ?_
    exact fun u hu w hw => hp.1 u ((hhold u).mp hu) w ((hhold w).mp hw)

/-! ## Modes of an update -/

def Lb.withModes (lb : Lb) (mode : Target → Text) : Lb :=
  { lb with targets := lb.targets.map fun t => { t with fallbackMode := mode t } }

theorem withModes_self : lb.withModes Target.fallbackMode = lb := by
  simp [Lb.withModes]

theorem setFallbackMode_eq (id : Nat) (m : Text) :
    lb.setFallbackMode id m = lb.withModes fun t => if t.id = id then m else t.fallbackMode := by
  simp only [Lb.setFallbackMode, Lb.withModes, Lb.mk.injEq, true_and]
  apply List.map_congr_left
  intro t _
  split <;> rfl

theorem live_withModes (mode : Target → Text) :
    (lb.withModes mode).live = lb.live.map fun t => { t with fallbackMode := mode t } := by
  simp only [Lb.live, Lb.withModes, List.filter_map]
  rfl

@[simp] theorem holdVifs_withModes (mode : Target → Text) :
    (lb.withModes mode).holdVifs = lb.holdVifs := by
  simp [Lb.holdVifs, live_withModes]

@[simp] theorem targetNetwork_withModes (mode : Target → Text) (v : Text) :
    targetNetwork env (lb.withModes mode) v = targetNetwork env lb v := by
  simp only [targetNetwork, Lb.withModes, List.filter_map, List.map_map]
  rfl

theorem rows_withModes (h : Rows env lb) (mode : Target → Text) : Rows env (lb.withModes mode) := by
  constructor
  · have he : (lb.withModes mode).targets.map Target.id = lb.targets.map Target.id := by
      simp [Lb.withModes]
    rw [he]
    exact h.ids
  · intro t ht
    obtain ⟨r, hr, rfl⟩ := List.mem_map.mp ht
    simpa [Lb.withModes] using h.bound r hr
  · rw [holdVifs_withModes]
    exact h.once
  · intro w hw
    rw [holdVifs_withModes] at hw
    exact h.leased w hw

theorem targetNetwork_vif (hr : Rows env lb) {id : Nat} (h : targetNetwork env lb v = some id)
    (ht : t ∈ lb.targets) (hid : t.id = id) : t.vif = v := by
  obtain ⟨r, hm, rfl⟩ := List.mem_map.mp (env.first_mem _ _ h)
  rw [List.mem_filter] at hm
  rw [hr.eq_of_id ht hm.1 hid]
  simpa using hm.2

/-- A row that is named gets a mode that is given for its vif, and keeps its
own when another row is found for the vif. -/
theorem setModes_spec {tvs : List (Text × Text)} {servers : List Server}
    (h : setModes env lb tvs = some (lb', servers)) (hr : Rows env lb) :
    ∃ mode, lb' = lb.withModes mode ∧
      (∀ t ∈ lb.targets, mode t = t.fallbackMode ∨ (t.vif, mode t) ∈ tvs) ∧
      (∀ t ∈ lb.targets, targetNetwork env lb t.vif = some t.id → (∃ tv ∈ tvs, tv.1 = t.vif) →
        (t.vif, mode t) ∈ tvs) ∧
      ∀ s, s ∈ servers ↔ ∃ tv ∈ tvs,
        (∃ vif, env.vif tv.1 = some vif ∧ vif.ip.head? = some s.ipv4) ∧ s.backup = some (backup tv.2) := by
  induction tvs generalizing lb servers with
  | nil =>
    simp only [setModes, Option.some.injEq, Prod.mk.injEq] at h
    obtain ⟨rfl, rfl⟩ := h
    refine ⟨Target.fallbackMode, withModes_self.symm, fun t _ => .inl rfl, ?_, by simp⟩
    rintro t _ _ ⟨tv, htv, _⟩
    cases htv
  | cons tv tvs ih =>
    simp only [setModes, Option.bind_eq_bind, Option.bind_eq_some_iff] at h
    obtain ⟨id, hf, h⟩ := h
    split at h
    · cases h
    · simp only [Option.bind_eq_some_iff] at h
      obtain ⟨vif, hv, ip, hip, ⟨lb₁, servers'⟩, h1, h⟩ := h
      simp only [Option.pure_def, Option.some.injEq, Prod.mk.injEq] at h
      obtain ⟨rfl, rfl⟩ := h
      rw [setFallbackMode_eq] at h1
      obtain ⟨mode, rfl, hm, hn, hs⟩ := ih h1 (rows_withModes hr _)
      -- the mode of a row after the first pair
      let first : Target → Target := fun t =>
        { t with fallbackMode := if t.id = id then tv.2 else t.fallbackMode }
      refine ⟨fun t => mode (first t), ?_, ?_, ?_, ?_⟩
      · simp only [Lb.withModes, List.map_map]
        rfl
      · intro t ht
        have hmem : first t ∈ (lb.withModes fun t => if t.id = id then tv.2 else t.fallbackMode).targets :=
          List.mem_map_of_mem ht
        rcases hm (first t) hmem with h5 | h5
        · by_cases hid : t.id = id
          · refine .inr ?_
            have hvif := targetNetwork_vif hr hf ht hid
            beta_reduce
            rw [h5]
            simp [first, hid, hvif]
          · refine .inl ?_
            beta_reduce
            rw [h5]
            simp [first, hid]
        · exact .inr (List.mem_cons_of_mem _ h5)
      · intro t ht hown hex
        have hmem : first t ∈ (lb.withModes fun t => if t.id = id then tv.2 else t.fallbackMode).targets :=
          List.mem_map_of_mem ht
        by_cases hrest : ∃ tv ∈ tvs, tv.1 = t.vif
        · exact List.mem_cons_of_mem _ (hn (first t) hmem (by simpa using hown) hrest)
        · obtain ⟨tv', htv', he⟩ := hex
          rcases List.mem_cons.mp htv' with rfl | h6
          · have hid : t.id = id := by
              rw [← he, hf] at hown
              exact (Option.some.inj hown).symm
            rcases hm (first t) hmem with h5 | h5
            · beta_reduce
              rw [h5]
              simp [first, hid, ← he]
            · exact List.mem_cons_of_mem _ h5
          · exact absurd ⟨tv', h6, he⟩ hrest
      · intro s
        simp only [List.mem_cons, exists_eq_or_imp, hs]
        refine or_congr_left ?_
        constructor
        · rintro rfl
          exact ⟨⟨vif, hv, hip⟩, rfl⟩
        · rintro ⟨⟨vif', hv', hip'⟩, hb⟩
          cases hv.symm.trans hv'
          rw [hip, Option.some.injEq] at hip'
          cases s
          simp_all

theorem listsTargets_setModes {tvs : List (Text × Text)} {servers : List Server}
    (h : setModes env lb tvs = some (lb', servers)) (hr : Rows env lb)
    (hn : NamesTargets env lb tvs) (ha : SameAddress env lb) : ListsTargets env lb' servers := by
  obtain ⟨mode, rfl, hm, hf, hs⟩ := setModes_spec h hr
  -- a registered row ends with the mode given for its vif
  have hmode : ∀ t ∈ lb.live, ∀ tv ∈ tvs, tv.1 = t.vif → backup (mode t) = backup tv.2 := by
    intro t ht tv htv he
    have htm := (mem_live.mp ht).1
    rcases hn.found t ht tv htv he with h5 | h5
    · exact hn.mode _ (hf t htm h5 ⟨tv, htv, he⟩) tv htv he.symm
    · rcases hm t htm with h6 | h6
      · rw [h6, h5]
      · exact hn.mode _ h6 tv htv he.symm
  intro ip b
  simp only [live_withModes, List.mem_map, exists_exists_and_eq_and]
  constructor
  · rintro ⟨s, hmem, rfl, rfl⟩
    obtain ⟨tv, htv, ⟨vif, hv, hip⟩, hb⟩ := (hs s).mp hmem
    obtain ⟨t, ht, he⟩ := mem_holdVifs.mp (hn.sound tv htv)
    rw [← he] at hv
    refine ⟨t, ht, ⟨vif, hv, (ha t ht vif hv).symm.trans hip⟩, ?_⟩
    rw [hb, Option.getD_some]
    exact hmode t ht tv htv he.symm
  · rintro ⟨t, ht, ⟨vif, hv, hip⟩, rfl⟩
    obtain ⟨tv, htv, he⟩ := hn.complete t.vif (mem_holdVifs.mpr ⟨t, ht, rfl⟩)
    refine ⟨⟨ip, some (backup tv.2)⟩, (hs _).mpr ⟨tv, htv, ⟨vif, he ▸ hv, ?_⟩, rfl⟩, rfl, ?_⟩
    · exact (ha t ht vif hv).trans hip
    · rw [Option.getD_some]
      exact (hmode t ht tv htv he).symm

/-! ## Servers of all targets -/

theorem mem_listTargets {ts : List Target} {servers : List Server}
    (h : listTargets env lb ts = some servers) (s : Server) :
    s ∈ servers ↔ ∃ t ∈ ts, (∃ vif, env.vif t.vif = some vif ∧ vif.ip.head? = some s.ipv4) ∧
      ∃ tv, (targetNetwork env lb t.vif).bind (fun id => lb.targets.find? fun tv => tv.id == id) = some tv ∧
        s.backup = some (backup tv.fallbackMode) := by
  induction ts generalizing servers with
  | nil => simp_all [listTargets]
  | cons t ts ih =>
    rw [listTargets] at h
    cases hv : env.vif t.vif with
    | none =>
      rw [hv] at h
      simp [ih h, hv]
    | some vif =>
      simp only [hv, Option.bind_eq_bind, Option.bind_eq_some_iff] at h
      obtain ⟨id, hf, tv, htv, ip, hip, servers', hs, h⟩ := h
      simp only [Option.pure_def, Option.some.injEq] at h
      subst h
      simp only [List.mem_cons, exists_eq_or_imp, ih hs]
      refine or_congr_left ?_
      constructor
      · rintro rfl
        exact ⟨⟨vif, hv, hip⟩, tv, by simp [hf, htv], rfl⟩
      · rintro ⟨⟨vif', hv', hip'⟩, tv', htv', hb⟩
        cases hv.symm.trans hv'
        rw [hip, Option.some.injEq] at hip'
        rw [hf, Option.bind_some, htv, Option.some.injEq] at htv'
        cases s
        simp_all

theorem listsTargets_listTargets {servers : List Server}
    (h : listTargets env lb lb.live = some servers) (hm : FindsModes env lb)
    (ha : SameAddress env lb) : ListsTargets env lb servers := by
  -- a row is found for every registered vif, and has the mode of the target
  have hfind : ∀ t ∈ lb.live, ∃ tv,
      (targetNetwork env lb t.vif).bind (fun id => lb.targets.find? fun tv => tv.id == id) = some tv ∧
        backup tv.fallbackMode = backup t.fallbackMode := by
    intro t ht
    have hne : ((lb.targets.filter fun r => r.vif == t.vif).map Target.id) ≠ [] := by
      refine List.ne_nil_of_mem (List.mem_map_of_mem (List.mem_filter.mpr ⟨(mem_live.mp ht).1, ?_⟩))
      exact beq_self_eq_true _
    obtain ⟨id, hid⟩ := Option.isSome_iff_exists.mp (env.first_isSome _ hne)
    obtain ⟨r, hrm, hrid⟩ := List.mem_map.mp (env.first_mem _ _ hid)
    have hrt := (List.mem_filter.mp hrm).1
    have hsome : (lb.targets.find? fun tv => tv.id == id).isSome := by
      rw [List.find?_isSome]
      exact ⟨r, hrt, by simp [hrid]⟩
    obtain ⟨tv, htv⟩ := Option.isSome_iff_exists.mp hsome
    have hf : targetNetwork env lb t.vif = some id := hid
    refine ⟨tv, by rw [hf, Option.bind_some, htv], ?_⟩
    have hk : tv.id = id := by simpa using List.find?_some htv
    exact hm t ht tv (List.mem_of_find?_eq_some htv) (by rw [hf, hk])
  intro ip b
  constructor
  · rintro ⟨s, hs, rfl, rfl⟩
    obtain ⟨t, ht, ⟨vif, hv, hip⟩, tv, htv, hb⟩ := (mem_listTargets h s).mp hs
    obtain ⟨tv', htv', hmode⟩ := hfind t ht
    cases htv.symm.trans htv'
    refine ⟨t, ht, ⟨vif, hv, (ha t ht vif hv).symm.trans hip⟩, ?_⟩
    rw [hb, Option.getD_some, hmode]
  · rintro ⟨t, ht, ⟨vif, hv, hip⟩, rfl⟩
    obtain ⟨tv, htv, hmode⟩ := hfind t ht
    refine ⟨⟨ip, some (backup tv.fallbackMode)⟩, (mem_listTargets h _).mpr
      ⟨t, ht, ⟨vif, hv, (ha t ht vif hv).trans hip⟩, tv, htv, rfl⟩, rfl, hmode⟩

/-! ## Inbounds of an update -/

def storedInbound (r : Text × Int) : Inbound := ⟨r.1, .num r.2⟩

def givenInbound (r : Text × Int) : Inbound := ⟨r.1, .text (Text.ofInt r.2)⟩

theorem getInbounds_text {p : UpdateParams} {inbounds : List Inbound}
    (h : getInbounds p = some inbounds) : ∀ i ∈ inbounds, ∃ t, i.port = .text t := by
  rw [getInbounds] at h
  split at h
  · split at h
    · simp only [Option.some.injEq] at h
      subst h
      intro i hi
      obtain ⟨r, _, rfl⟩ := List.mem_map.mp hi
      exact ⟨r.1, rfl⟩
    · cases h
  · rename_i port protocol _ _
    simp only [Option.some.injEq] at h
    subst h
    intro i hi
    rw [List.mem_singleton.mp hi]
    exact ⟨port, rfl⟩
  · cases h

theorem inbounds_eq_given {inbounds : List Inbound} {rows : List (Text × Int)}
    (h : inbounds.mapM (inboundRow env) = some rows) (ht : ∀ i ∈ inbounds, ∃ t, i.port = .text t)
    (hp : ∀ i ∈ inbounds, ∀ t n, i.port = .text t → env.typecast t = some n → t = Text.ofInt n) :
    inbounds = rows.map givenInbound ∧ ∀ r ∈ rows, env.typecast (Text.ofInt r.2) = some r.2 := by
  induction inbounds generalizing rows with
  | nil =>
    simp only [List.mapM_nil, Option.pure_def, Option.some.injEq] at h
    subst h
    simp
  | cons i is ih =>
    simp only [List.mapM_cons, Option.bind_eq_bind, Option.bind_eq_some_iff, Option.pure_def,
      Option.some.injEq] at h
    obtain ⟨r, hr, rs, hrs, rfl⟩ := h
    obtain ⟨h1, h2⟩ := ih hrs (fun i hi => ht i (List.mem_cons_of_mem _ hi))
      fun i hi => hp i (List.mem_cons_of_mem _ hi)
    obtain ⟨t, hit⟩ := ht i List.mem_cons_self
    simp only [inboundRow, hit, Option.bind_eq_bind, Option.bind_eq_some_iff] at hr
    obtain ⟨n, hn, hr⟩ := hr
    split at hr
    · simp only [Option.pure_def, Option.some.injEq] at hr
      have he := hp i List.mem_cons_self t n hit hn
      subst hr
      constructor
      · rw [List.map_cons, ← h1, givenInbound, ← he, ← hit]
      · intro r hr
        rcases List.mem_cons.mp hr with rfl | hr
        · rw [← he]
          exact hn
        · exact h2 r hr
    · cases hr

def secureRow (rows : List (Text × Int)) : Option (Text × Int) :=
  rows.find? fun r => secureProtocols.contains r.1

theorem secureInbound_map {f : Text × Int → Inbound} (hf : ∀ r, (f r).protocol = r.1)
    (rows : List (Text × Int)) : secureInbound (rows.map f) = (secureRow rows).map f := by
  rw [secureInbound, List.find?_map]
  congr 2
  funext r
  rw [Function.comp, hf]

theorem ports_given (lb : Lb) (rows : List (Text × Int)) :
    (configParams lb (rows.map givenInbound) []).ports =
      (configParams lb (rows.map storedInbound) []).ports := by
  have haccept : ∀ r : Text × Int, (acceptPort (rows.map givenInbound) != some (givenInbound r).port) =
      (acceptPort (rows.map storedInbound) != some (storedInbound r).port) := by
    intro r
    rw [acceptPort, acceptPort, secureInbound_map (fun _ => rfl), secureInbound_map (fun _ => rfl)]
    cases secureRow rows with
    | none => rfl
    | some q =>
      rw [Bool.eq_iff_iff]
      simp [givenInbound, storedInbound, Text.ofInt_injective.eq_iff]
  simp only [configParams, List.map_map, List.filter_map]
  have hfilter : (fun r : Text × Int => acceptPort (rows.map givenInbound) != some (givenInbound r).port) =
      fun r => acceptPort (rows.map storedInbound) != some (storedInbound r).port := funext haccept
  exact congrArg (fun q => (rows.filter q).map fun r => Text.ofInt r.2) hfilter

theorem shows_given {rows : List (Text × Int)} {servers : List Server}
    (h : ListsTargets env lb servers) (hr : Rows env lb) (ha : Apart env lb.holdVifs)
    (hrows : lb.inboundRows = rows)
    (ht : ∀ r ∈ rows, env.typecast (Text.ofInt r.2) = some r.2)
    (hp : PlainPorts env (rows.map givenInbound)) :
    Shows env lb (configParams lb (rows.map givenInbound) servers) := by
  have hst : lb.inbounds = rows.map storedInbound := by
    rw [← hrows]
    rfl
  refine ⟨showsTargets_of_lists h rfl hr ha, rfl, rfl, rfl, ?_, ?_, ?_, ?_⟩
  · rw [hst]
    exact ports_given lb rows
  · rw [hst]
    simp [configParams, givenInbound, storedInbound, Function.comp_def]
  · rw [hst]
    simp only [configParams, connectPort]
    rw [secureInbound_map (fun _ => rfl), secureInbound_map (fun _ => rfl)]
    cases hs : secureRow rows with
    | none => rfl
    | some r =>
      have hg : secureInbound (rows.map givenInbound) = some (givenInbound r) := by
        rw [secureInbound_map (fun _ => rfl), hs]
        rfl
      have hne : r.2 ≠ 4433 := by
        intro he
        have h5 := hp.secure _ hg _ rfl
        rw [ht r (List.mem_of_find?_eq_some hs), he] at h5
        exact h5 rfl
      simp [givenInbound, storedInbound, hne]
  · rw [hst]
    simp only [configParams, secureProtocol]
    rw [secureInbound_map (fun _ => rfl), secureInbound_map (fun _ => rfl)]
    cases secureRow rows <;> rfl

/-! ## Updates -/

theorem setBalanceAlgorithm_eq {p : UpdateParams} (h : setBalanceAlgorithm p lb = some lb') :
    ∃ a, lb' = { lb with balanceAlgorithm := a } ∧ (blank p.balanceAlgorithm → a = lb.balanceAlgorithm) := by
  rw [setBalanceAlgorithm] at h
  split at h
  · cases h
    exact ⟨_, rfl, fun _ => rfl⟩
  · rename_i hb
    simp only at h
    split at h
    · cases h
      exact ⟨_, rfl, fun h5 => absurd h5 hb⟩
    · cases h

theorem setInstancePort_eq {p : UpdateParams} (h : setInstancePort env p lb = some lb') :
    ∃ n, lb' = { lb with instancePort := n } ∧
      (blank p.instancePort ∨ env.typecast (p.instancePort.getD []) = some lb.instancePort →
        n = lb.instancePort) := by
  rw [setInstancePort] at h
  split at h
  · cases h
    exact ⟨_, rfl, fun _ => rfl⟩
  · rename_i hb
    rw [Option.map_eq_some_iff] at h
    obtain ⟨n, hn, rfl⟩ := h
    refine ⟨n, rfl, ?_⟩
    rintro (h5 | h5)
    · exact absurd h5 hb
    · exact Option.some.inj (hn.symm.trans h5)

theorem updateServers_eq {p : UpdateParams} {servers : List Server}
    (h : updateServers env p lb = some (lb', servers)) (hr : Rows env lb) :
    ∃ mode, lb' = lb.withModes mode ∧ (p.targetVifs = [] → lb' = lb) := by
  rw [updateServers] at h
  split at h
  · rename_i hne
    obtain ⟨mode, he, _⟩ := setModes_spec h hr
    exact ⟨mode, he, fun h5 => absurd h5 hne⟩
  · rw [Option.map_eq_some_iff] at h
    obtain ⟨_, _, h5⟩ := h
    cases h5
    exact ⟨_, withModes_self.symm, fun _ => rfl⟩

theorem listsTargets_updateServers {p : UpdateParams} {servers : List Server}
    (h : updateServers env p lb = some (lb', servers)) (hr : Rows env lb) (ha : SameAddress env lb)
    (hn : if p.targetVifs = [] then FindsModes env lb else NamesTargets env lb p.targetVifs) :
    ListsTargets env lb' servers := by
  rw [updateServers] at h
  split at h
  · rename_i hne
    rw [if_neg hne] at hn
    exact listsTargets_setModes h hr hn ha
  · rename_i he
    rw [if_pos (not_not.mp he)] at hn
    rw [Option.map_eq_some_iff] at h
    obtain ⟨_, h5, h6⟩ := h
    cases h6
    exact listsTargets_listTargets h5 hn ha

theorem update_cases {p : UpdateParams} {c : Option Config} (h : update env lb p = some (lb', c)) :
    ∃ inbounds lb₁ lb₂ lb₃ servers rows,
      requestInbounds p lb = some inbounds ∧
      setBalanceAlgorithm p lb = some lb₁ ∧ setInstancePort env p lb₁ = some lb₂ ∧
      updateServers env p lb₂ = some (lb₃, servers) ∧
      saveInbounds env p inbounds (setTexts p lb₃) = some rows ∧ lb' = { setTexts p lb₃ with inboundRows := rows } ∧
      c = if configUpdatable p then some (configParams lb' inbounds servers) else none := by
  simp only [update, Option.bind_eq_bind, Option.bind_eq_some_iff] at h
  obtain ⟨inbounds, hi, h⟩ := h
  split at h
  · cases h
  · simp only [Option.bind_eq_some_iff] at h
    obtain ⟨lb₁, h1, h⟩ := h
    split at h
    · cases h
    · simp only [Option.bind_eq_some_iff] at h
      obtain ⟨lb₂, h2, ⟨lb₃, servers⟩, h3, h⟩ := h
      simp only at h
      split at h
      · cases h
      · simp only [Option.bind_eq_some_iff, Option.pure_def, Option.some.injEq, Prod.mk.injEq] at h
        obtain ⟨rows, hrows, rfl, rfl⟩ := h
        exact ⟨inbounds, lb₁, lb₂, lb₃, servers, rows, hi, h1, h2, h3, hrows, rfl, rfl⟩

theorem inbounds_cases {p : UpdateParams} {inbounds : List Inbound} {rows : List (Text × Int)}
    (hi : requestInbounds p lb = some inbounds) (hrows : saveInbounds env p inbounds lb' = some rows)
    (hsame : lb'.inboundRows = lb.inboundRows)
    (hp : p.givesInbounds → ∀ inbounds, getInbounds p = some inbounds → PlainPorts env inbounds) :
    (inbounds = rows.map storedInbound) ∨
      (inbounds = rows.map givenInbound ∧ PlainPorts env (rows.map givenInbound) ∧
        ∀ r ∈ rows, env.typecast (Text.ofInt r.2) = some r.2) := by
  by_cases hg : p.givesInbounds = true
  · rw [requestInbounds, if_pos hg] at hi
    rw [saveInbounds, if_pos hg] at hrows
    have hplain := hp hg inbounds hi
    obtain ⟨rfl, ht⟩ := inbounds_eq_given hrows (getInbounds_text hi) hplain.text
    exact .inr ⟨rfl, hplain, ht⟩
  · rw [requestInbounds, if_neg hg, Option.some.injEq] at hi
    rw [saveInbounds, if_neg hg, Option.some.injEq] at hrows
    subst hi hrows
    refine .inl ?_
    rw [hsame]
    rfl

theorem update_spec {p : UpdateParams} {c : Option Config} (h : update env lb p = some (lb', c))
    (hr : Rows env lb) {published : Option Config} (hs : ∀ c, published = some c → Shows env lb c)
    (hp : PublishesStored env ⟨lb, published⟩ (.update p)) :
    Rows env lb' ∧ ∀ c', c.or published = some c' → Shows env lb' c' := by
  obtain ⟨inbounds, lb₁, lb₂, lb₃, servers, rows, hi, h1, h2, h3, hrows, rfl, rfl⟩ := update_cases h
  obtain ⟨a, rfl, ha⟩ := setBalanceAlgorithm_eq h1
  obtain ⟨n, rfl, hn⟩ := setInstancePort_eq h2
  have hr₂ : Rows env { lb with balanceAlgorithm := a, instancePort := n } :=
    ⟨hr.ids, hr.bound, hr.once, hr.leased⟩
  obtain ⟨mode, rfl, hkeep⟩ := updateServers_eq h3 hr₂
  have hr₃ := rows_withModes hr₂ mode
  have hr₄ : Rows env { setTexts p (Lb.withModes { lb with balanceAlgorithm := a, instancePort := n } mode)
      with inboundRows := rows } := ⟨hr₃.ids, hr₃.bound, hr₃.once, hr₃.leased⟩
  refine ⟨hr₄, fun c' hc => ?_⟩
  rw [PublishesStored] at hp
  split at hp
  · -- the configuration is published
    rename_i hu
    rw [if_pos hu, Option.some_or, Option.some.injEq] at hc
    subst hc
    obtain ⟨hapart, hplain, haddr, htargets⟩ := hp
    have hlist := listsTargets_updateServers h3 hr₂ haddr (by
      split at htargets
      · rename_i he
        rw [if_pos he]
        exact htargets
      · rename_i he
        rw [if_neg he]
        exact ⟨htargets.sound, htargets.complete, htargets.mode, htargets.found⟩)
    have hapart₄ : Apart env (Lb.holdVifs { setTexts p (Lb.withModes
        { lb with balanceAlgorithm := a, instancePort := n } mode) with inboundRows := rows }) := by
      show Apart env (Lb.withModes { lb with balanceAlgorithm := a, instancePort := n } mode).holdVifs
      rw [holdVifs_withModes]
      exact hapart
    rcases inbounds_cases hi hrows rfl hplain with rfl | ⟨rfl, hpp, ht⟩
    · exact shows_configParams hlist hr₄ hapart₄
    · exact shows_given hlist hr₄ hapart₄ rfl ht hpp
  · -- it is not, and nothing but the instance port may have changed
    rename_i hu
    rw [if_neg hu, Option.none_or] at hc
    simp only [configUpdatable, Bool.or_eq_true, Bool.not_eq_true', not_or, Bool.not_eq_false,
      List.isEmpty_iff] at hu
    obtain ⟨⟨⟨⟨⟨hport, -⟩, hba⟩, hcn⟩, htv⟩, -⟩ := hu
    have hg : ¬ p.givesInbounds = true := by simp [UpdateParams.givesInbounds, hport]
    rw [saveInbounds, if_neg hg, Option.some.injEq] at hrows
    rw [hkeep htv] at hrows ⊢
    obtain rfl := ha hba
    have hsh := hs c' hc
    have hport : n = lb.instancePort := by
      refine hn (hp.resolve_left ?_)
      simp [hc]
    subst hrows hport
    refine ⟨hsh.servers, hsh.instancePort, hsh.balanceAlgorithm, ?_, hsh.ports, hsh.protocols,
      hsh.securePort, hsh.secureProtocol⟩
    rw [hsh.cookieName]
    simp [setTexts, hcn]

/-! ## Runs of requests -/

/-- The rows are those of a table, and what is published shows them. -/
structure Inv (env : Env) (s : Sys) : Prop where
  rows : Rows env s.lb
  shows : ∀ c, s.published = some c → Shows env s.lb c

theorem inv_step {s : Sys} (hi : Inv env s) {req : Request} (hp : PublishesStored env s req) :
    Inv env (step env s req) := by
  obtain ⟨lb, published⟩ := s
  rw [step]
  cases hf : perform env lb req with
  | none => exact hi
  | some r =>
    obtain ⟨lb', c⟩ := r
    cases req with
    | register vifs =>
      obtain ⟨us, rfl, h⟩ := Option.bind_eq_some_iff.mp hf
      obtain ⟨hr, c', rfl, hs⟩ := register_spec h hi.rows hp
      refine ⟨hr, fun c hc => ?_⟩
      cases hc
      exact hs
    | unregister vifs =>
      obtain ⟨us, rfl, h⟩ := Option.bind_eq_some_iff.mp hf
      obtain ⟨hr, c', rfl, hs⟩ := unregister_spec h hi.rows hp
      refine ⟨hr, fun c hc => ?_⟩
      cases hc
      exact hs
    | update p =>
      obtain ⟨hr, hs⟩ := update_spec hf hi.rows hi.shows hp
      exact ⟨hr, hs⟩

/-- A load balancer starts without targets. -/
theorem inv_create (hlb : lb.targets = []) : Inv env ⟨lb, none⟩ := by
  refine ⟨⟨?_, ?_, ?_, ?_⟩, ?_⟩
  · simp [hlb]
  · simp [hlb]
  · simp [Lb.holdVifs, Lb.live, hlb]
  · simp [Lb.holdVifs, Lb.live, hlb]
  · intro c hc
    cases hc

def webVif : Vif := ⟨["10.0.0.2".toList], ["10.0.0.2".toList]⟩

def webEnv : Env where
  vif v := if v = "vif-a".toList then some webVif
    else if v = "vif-b".toList then some ⟨["10.0.0.3".toList], ["10.0.0.3".toList]⟩ else none
  typecast t := if t = "8080".toList then some 8080 else none
  first := List.head?
  first_mem := fun _ _ h => List.mem_of_mem_head? h
  first_isSome := fun ids h => by
    cases ids with
    | nil => exact absurd rfl h
    | cons => rfl
  valid _ := true

def webLb : Lb where
  instanceProtocol := "http".toList
  instancePort := 80
  balanceAlgorithm := "leastconn".toList
  cookieName := none
  httpchkPath := none
  inboundRows := [("http".toList, 80)]
  targets := []

def modesOf (tvs : List (Text × Text)) : UpdateParams where
  port := .absent
  protocol := .absent
  balanceAlgorithm := none
  allowList := none
  instanceProtocol := none
  instancePort := none
  httpchkPath := none
  httpchk := none
  cookieName := none
  targetVifs := tvs

def registerVif (v : Text) : Request := .register (some [v])

def backupVif (v : Text) : Request := .update (modesOf [(v, "on".toList)])

def backupRun : List Request := [registerVif "vif-a".toList, backupVif "vif-a".toList]

end LoadBalancer

end WakameVdc
