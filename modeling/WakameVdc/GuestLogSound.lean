import WakameVdc.GuestLog

/-!
# What the storage has of the guests' logs

The ledger of a host holds what the guests have sent, each entry with the instance that has
the address it comes from, and the hour it is written in. The rows of the storage are those
of the ledger, so that a text log shows what its instance has sent and nothing else.
-/

namespace WakameVdc

open Lib

namespace GuestLog

open TextLog (LogRow Cassandra Log)

/-! ## The ledger -/

structure Entry where
  account : Text
  instanceId : Text
  label : Text
  message : Text

structure Ledger where
  pending : List Entry
  stored : List (Entry × Text)

section
variable {ι τ : Type} [LinearOrder ι] (agent : Agent τ) (assign : Text → Origin)

def sender (ip : Text) : Origin :=
  if ip = agent.hostIp then ⟨systemNodeId, some systemAccountId⟩ else assign ip

def entryOf (o : Origin) (label : Text) (r : LogRecord) : Entry :=
  ⟨o.accountId.getD [], o.instanceId, label, value r messageKey⟩

def Ledger.step (l : Ledger) : Action ι τ → Ledger
  | .directories _ | .connect _ | .disconnect _ => l
  | .message c label entries =>
    { l with pending := l.pending ++ entries.map (entryOf (sender agent assign c.instanceIp) label) }
  | .flush columns =>
    { pending := []
      stored := l.stored ++ (l.pending.zip columns).map fun e => (e.1, agent.localHour e.2.2) }

/-! ## The runs -/

/-- The metadata of the instances give the address to its owner. -/
def Agrees (dirs : List Directory) : Prop :=
  ∀ d ∈ dirs, ∀ m, d.metaData = some m → ∀ ip, m.localIpv4 = some ip →
    assign ip = ⟨d.instanceId, m.accountId⟩

/-- An address stays with one instance, whose metadata are there before it sends messages.
Messages come over the oldest open connection, or one from the same address. The ids of the
columns are increasing, as they are made from the time. -/
def Fits (s : State ι τ) : Action ι τ → Prop
  | .directories dirs => Agrees assign dirs
  | .connect _ | .disconnect _ => True
  | .message c _ entries =>
    (∃ b, s.broker = some b ∧ b.instanceIp = c.instanceIp) ∧
      (c.instanceIp = agent.hostIp ∨
        ∃ d ∈ s.dirs, ∃ m, d.metaData = some m ∧ m.localIpv4 = some c.instanceIp) ∧
      ∀ r ∈ entries, ∃ message, r.lookup messageKey = some (some message)
  | .flush columns =>
    columns.length = s.buffer.length ∧ columns.Pairwise (fun a b => a.1 < b.1) ∧
      ∀ key, ∀ e ∈ (s.storage.cf key).entries, ∀ c ∈ columns, e.1 < c.1

end

/-! ## The relay -/

section
variable {assign : Text → Origin} {dirs : List Directory} {t : Instances}

/-- The table gives each address it has to its owner. -/
def Right (assign : Text → Origin) (t : Instances) : Prop :=
  ∀ ip o, t.lookup (some ip) = some o → o = assign ip

theorem right_addInstance {d : Directory} (hd : ∀ m, d.metaData = some m → ∀ ip, m.localIpv4 = some ip →
    assign ip = ⟨d.instanceId, m.accountId⟩) (ht : Right assign t) : Right assign (addInstance t d) := by
  cases hm : d.metaData with
  | none => exact (addInstance_none hm t).symm ▸ ht
  | some m =>
    intro ip o ho
    rw [lookup_addInstance hm] at ho
    by_cases hip : some ip = m.localIpv4
    · rw [if_pos hip] at ho
      rw [hd m hm ip hip.symm]
      exact (Option.some.inj ho).symm
    · rw [if_neg hip] at ho
      exact ht ip o ho

theorem right_build (hd : Agrees assign dirs) (ht : Right assign t) :
    Right assign (buildInstancesMappingTable dirs t) := by
  unfold buildInstancesMappingTable
  induction dirs generalizing t with
  | nil => exact ht
  | cons d dirs ih =>
    exact ih (fun d' hd' => hd d' (List.mem_cons_of_mem d hd'))
      (right_addInstance (hd d List.mem_cons_self) ht)

theorem isSome_addInstance {d : Directory} {ip : Option Text}
    (h : (∃ m, d.metaData = some m ∧ m.localIpv4 = ip) ∨ (t.lookup ip).isSome) :
    ((addInstance t d).lookup ip).isSome := by
  cases hm : d.metaData with
  | none =>
    rw [addInstance_none hm]
    exact h.resolve_left fun ⟨m, hm', _⟩ => by rw [hm] at hm'; cases hm'
  | some m =>
    rw [lookup_addInstance hm]
    split
    · rfl
    · rename_i hip
      refine h.resolve_left fun ⟨m', hm', hip'⟩ => hip ?_
      rw [hm] at hm'
      cases hm'
      exact hip'.symm

theorem isSome_build {ip : Option Text}
    (h : (∃ d ∈ dirs, ∃ m, d.metaData = some m ∧ m.localIpv4 = ip) ∨ (t.lookup ip).isSome) :
    ((buildInstancesMappingTable dirs t).lookup ip).isSome := by
  unfold buildInstancesMappingTable
  induction dirs generalizing t with
  | nil => simpa using h
  | cons d dirs ih =>
    apply ih
    rcases h with ⟨d', hd', hm⟩ | h
    · rcases List.mem_cons.mp hd' with rfl | hd'
      · exact .inr (isSome_addInstance (.inl hm))
      · exact .inl ⟨d', hd', hm⟩
    · exact .inr (isSome_addInstance (.inr h))

theorem onMessage_eq {agent : Agent τ} {ip : Text} (hd : Agrees assign dirs) (ht : Right assign t)
    (h : ip = agent.hostIp ∨ ∃ d ∈ dirs, ∃ m, d.metaData = some m ∧ m.localIpv4 = some ip) :
    ∃ t', onMessage agent.hostIp dirs t ip = (t', some (sender agent assign ip)) ∧ Right assign t' := by
  unfold onMessage sender
  by_cases hip : ip = agent.hostIp
  · rw [if_pos hip, if_pos hip]
    exact ⟨t, rfl, ht⟩
  · rw [if_neg hip, if_neg hip]
    have hdir := h.resolve_left hip
    dsimp only
    split
    · rename_i hsome
      obtain ⟨o, ho⟩ := Option.isSome_iff_exists.mp hsome
      exact ⟨t, by rw [ho, ht ip o ho], ht⟩
    · obtain ⟨o, ho⟩ := Option.isSome_iff_exists.mp (isSome_build (t := t) (.inl hdir))
      have hr := right_build hd ht
      exact ⟨_, by rw [ho, hr ip o ho], hr⟩

end

/-! ## The records -/

/-- A record of the buffer and the entry it stands for. -/
structure Represents (r : LogRecord) (e : Entry) : Prop where
  instanceId : r.lookup instanceIdKey = some (some e.instanceId)
  account : value r accountIdKey = e.account
  label : r.lookup labelKey = some (some e.label)
  message : r.lookup messageKey = some (some e.message)
  notEmpty : e.instanceId ≠ []

theorem represents_identify {o : Origin} (ho : o.instanceId ≠ []) (label ip : Text) {r : LogRecord}
    (hr : ∃ message, r.lookup messageKey = some (some message)) :
    Represents (format forwardTag (identify o label ip r)) (entryOf o label r) := by
  obtain ⟨message, hm⟩ := hr
  have hlookup : ∀ key, (identify o label ip r).lookup key =
      if key = ipaddrKey then some (some ip)
      else if key = labelKey then some (some label)
      else if key = accountIdKey then some o.accountId
      else if key = instanceIdKey then some (some o.instanceId)
      else r.lookup key := by
    intro key
    unfold identify
    rw [Hash.lookup_insert, Hash.lookup_insert, Hash.lookup_insert, Hash.lookup_insert]
  have hlabel : (identify o label ip r).lookup labelKey = some (some label) := by
    rw [hlookup, if_neg (by decide), if_pos rfl]
  have haccount : (identify o label ip r).lookup accountIdKey = some o.accountId := by
    rw [hlookup, if_neg (by decide), if_neg (by decide), if_pos rfl]
  have hformat : format forwardTag (identify o label ip r) = identify o label ip r := by
    unfold format
    simp [hlabel, haccount]
  rw [hformat]
  refine ⟨?_, ?_, hlabel, ?_, ho⟩
  · rw [hlookup, if_neg (by decide), if_neg (by decide), if_neg (by decide), if_pos rfl]
    rfl
  · unfold value
    rw [haccount]
    rfl
  · rw [hlookup, if_neg (by decide), if_neg (by decide), if_neg (by decide), if_neg (by decide)]
    unfold entryOf value
    rw [hm]
    rfl

def Entry.rowkey (e : Entry) (time : Text) : Text :=
  Cassandra.path e.account e.instanceId e.label ++ TextLog.pathSeparator ++ time

theorem Represents.rowkey_eq {r : LogRecord} {e : Entry} (h : Represents r e) (time : Text) :
    rowkey r time = e.rowkey time := by
  have hi : value r instanceIdKey = e.instanceId := by
    unfold value
    rw [h.instanceId]
    rfl
  have hl : value r labelKey = e.label := by
    unfold value
    rw [h.label]
    rfl
  unfold GuestLog.rowkey
  rw [hi, hl, h.account, if_neg h.notEmpty]
  simp [Entry.rowkey, Cassandra.path, TextLog.pathSeparator, List.intercalate_cons_cons]

/-! ## The rows -/

section
variable {ι τ : Type} [LinearOrder ι] {agent : Agent τ}

def messages (storage : Cassandra ι τ) (key : Text) : List Text := (storage.cf key).entries.map Prod.snd

theorem insertColumn_last {id : ι} (message : Text) {cs : List (ι × Text)} (h : ∀ c ∈ cs, c.1 < id) :
    insertColumn id message cs = cs ++ [(id, message)] := by
  induction cs with
  | nil => rfl
  | cons c cs ih =>
    have hc := h c List.mem_cons_self
    unfold insertColumn
    rw [if_neg hc.not_gt, if_neg hc.ne', ih fun d hd => h d (List.mem_cons_of_mem c hd)]
    rfl

def Newer (storage : Cassandra ι τ) (id : ι) : Prop := ∀ key, ∀ e ∈ (storage.cf key).entries, e.1 < id

section
variable {storage : Cassandra ι τ} {id : ι} (h : Newer storage id) (key message : Text)

include h

theorem entries_insert (k : Text) :
    ((insert storage key id message).cf k).entries =
      (storage.cf k).entries ++ if k = key then [(id, message)] else [] := by
  show (Function.update storage.cf key _ k).entries = _
  by_cases hk : k = key
  · rw [hk, Function.update_self, if_pos rfl]
    exact insertColumn_last message (h key)
  · rw [Function.update_of_ne hk, if_neg hk, List.append_nil]

theorem newer_insert {id' : ι} (hid : id < id') : Newer (insert storage key id message) id' := by
  intro k e he
  rw [entries_insert h] at he
  rcases List.mem_append.mp he with he | he
  · exact (h k e he).trans hid
  · split at he
    · rw [List.mem_singleton.mp he]
      exact hid
    · cases he

end

theorem write_eq {rs : List LogRecord} {es : List Entry} (hes : List.Forall₂ Represents rs es)
    {columns : List (ι × τ)} (hlength : columns.length = rs.length)
    (hids : columns.Pairwise fun a b => a.1 < b.1) {storage : Cassandra ι τ}
    (hnew : ∀ c ∈ columns, Newer storage c.1) :
    ∃ storage', write agent storage (rs.zip columns) = .ok storage' ∧ storage'.hour = storage.hour ∧
      ∀ key, messages storage' key = messages storage key ++
        (((es.zip columns).map fun e => (e.1, agent.localHour e.2.2)).filter fun e =>
          e.1.rowkey e.2 = key).map fun e => e.1.message := by
  induction hes generalizing columns storage with
  | nil => exact ⟨storage, rfl, rfl, fun key => by simp⟩
  | @cons r e rs es hre _ ih =>
    obtain ⟨c, columns, rfl⟩ := List.exists_cons_of_length_pos (by rw [hlength]; exact Nat.succ_pos _)
    have hnewc := hnew c List.mem_cons_self
    obtain ⟨hc, hids⟩ := List.pairwise_cons.mp hids
    obtain ⟨storage', hwrite, hhour, hmessages⟩ := ih (Nat.succ.inj hlength) hids
      fun d hd => newer_insert hnewc (rowkey r (agent.localHour c.2)) e.message (hc d hd)
    refine ⟨storage', ?_, hhour, fun key => ?_⟩
    · show write agent storage ((r, c.1, c.2) :: rs.zip columns) = _
      unfold write
      rw [hre.message]
      exact hwrite
    · have hrow : messages (insert storage (rowkey r (agent.localHour c.2)) c.1 e.message) key =
          messages storage key ++ if e.rowkey (agent.localHour c.2) = key then [e.message] else [] := by
        unfold messages
        rw [entries_insert hnewc, List.map_append, hre.rowkey_eq]
        by_cases hk : e.rowkey (agent.localHour c.2) = key
        · simp [hk]
        · simp [hk, Ne.symm hk]
      rw [hmessages, hrow, List.append_assoc, List.zip_cons_cons, List.map_cons, List.filter_cons]
      by_cases hk : e.rowkey (agent.localHour c.2) = key
      · simp [hk]
      · simp [hk]

end

/-! ## The system follows the ledger -/

section
variable {ι τ : Type} [LinearOrder ι] {agent : Agent τ} {assign : Text → Origin}

structure Holds (assign : Text → Origin) (hour : τ → Text) (s : State ι τ) (l : Ledger) : Prop where
  table : Right assign s.instances
  dirs : Agrees assign s.dirs
  buffer : List.Forall₂ Represents s.buffer l.pending
  rows : ∀ key, messages s.storage key =
    (l.stored.filter fun e => e.1.rowkey e.2 = key).map fun e => e.1.message
  hour : s.storage.hour = hour

/-- The directory of an instance is not without a name. -/
theorem sender_ne_nil {dirs : List Directory} {ip : Text} (hd : Agrees assign dirs)
    (h : ip = agent.hostIp ∨ ∃ d ∈ dirs, ∃ m, d.metaData = some m ∧ m.localIpv4 = some ip) :
    (sender agent assign ip).instanceId ≠ [] := by
  unfold sender
  split
  · decide
  · rename_i hip
    obtain ⟨d, hmem, m, hm, hlocal⟩ := h.resolve_left hip
    rw [hd d hmem m hm ip hlocal]
    intro hnil
    have hprefix := d.matched
    rw [show d.instanceId = [] from hnil] at hprefix
    exact absurd hprefix (by decide)

theorem forall₂_append {α β : Type} {R : α → β → Prop} {as as' : List α} {bs bs' : List β}
    (h : List.Forall₂ R as bs) (h' : List.Forall₂ R as' bs') : List.Forall₂ R (as ++ as') (bs ++ bs') := by
  induction h with
  | nil => exact h'
  | cons hab _ ih => exact .cons hab ih

theorem Holds.step {hour : τ → Text} {s : State ι τ} {l : Ledger} (h : Holds assign hour s l)
    {act : Action ι τ} (hf : Fits agent assign s act) :
    Holds assign hour (s.step agent act) (l.step agent assign act) := by
  cases act with
  | directories dirs => exact { h with dirs := hf }
  | connect c => exact { h with }
  | disconnect c => exact { h with }
  | message c label entries =>
    obtain ⟨⟨b, hb, hbroker⟩, hip, hentries⟩ := hf
    obtain ⟨t', hmessage, ht'⟩ := onMessage_eq h.dirs h.table hip
    have hnew : List.Forall₂ Represents
        (entries.map fun r => format forwardTag
          (identify (sender agent assign c.instanceIp) label c.instanceIp r))
        (entries.map (entryOf (sender agent assign c.instanceIp) label)) := by
      rw [List.forall₂_map_left_iff, List.forall₂_map_right_iff, List.forall₂_same]
      exact fun r hr =>
        represents_identify (sender_ne_nil h.dirs hip) label c.instanceIp (hentries r hr)
    unfold State.step
    dsimp only
    rw [hb]
    dsimp only
    rw [hbroker, hmessage]
    exact { h with table := ht', buffer := forall₂_append h.buffer hnew }
  | flush columns =>
    obtain ⟨hlength, hids, hnew⟩ := hf
    obtain ⟨storage', hwrite, hhour, hrows⟩ := write_eq h.buffer hlength hids
      fun c hc key e he => hnew key e he c hc
    unfold State.step
    dsimp only
    rw [hwrite]
    refine {
      table := h.table
      dirs := h.dirs
      buffer := .nil
      rows := fun key => ?_
      hour := hhour.trans h.hour }
    show messages storage' key = _
    rw [hrows, h.rows]
    simp [Ledger.step]

theorem holds_start {storage : Cassandra ι τ} (h : ∀ key, (storage.cf key).entries = []) :
    Holds assign storage.hour (State.start storage) ⟨[], []⟩ where
  table := fun ip o ho => by cases ho
  dirs := fun d hd => absurd hd List.not_mem_nil
  buffer := .nil
  rows := fun key => by
    show ((storage.cf key).entries).map Prod.snd = _
    rw [h key]
    rfl
  hour := rfl

theorem holds_run {hour : τ → Text} {s : State ι τ} {l : Ledger} (h : Holds assign hour s l)
    {acts : List (Action ι τ)} (hrun : Each (State.step agent) (Fits agent assign) s acts) :
    Holds assign hour (acts.foldl (State.step agent) s) (acts.foldl (Ledger.step agent assign) l) := by
  induction acts generalizing s l with
  | nil => exact h
  | cons act acts ih => exact ih (h.step hrun.1) hrun.2

end

/-! ## The keys of the rows -/

theorem append_colon_inj {a b x y : Text} (ha : ':' ∉ a) (hb : ':' ∉ b) (h : a ++ ':' :: x = b ++ ':' :: y) :
    a = b ∧ x = y := by
  induction a generalizing b with
  | nil =>
    cases b with
    | nil => exact ⟨rfl, (List.cons.inj h).2⟩
    | cons c b => exact absurd (List.cons.inj h).1 fun hc => hb (hc ▸ List.mem_cons_self)
  | cons c a ih =>
    cases b with
    | nil => exact absurd (List.cons.inj h).1 fun hc => ha (hc ▸ List.mem_cons_self)
    | cons d b =>
      obtain ⟨hcd, h⟩ := List.cons.inj h
      obtain ⟨hab, hxy⟩ := ih (fun hm => ha (List.mem_cons_of_mem c hm))
        (fun hm => hb (List.mem_cons_of_mem d hm)) h
      exact ⟨by rw [hcd, hab], hxy⟩

theorem append_colon_inj' {a b x y : Text} (hx : ':' ∉ x) (hy : ':' ∉ y) (h : a ++ ':' :: x = b ++ ':' :: y) :
    a = b ∧ x = y := by
  have hr := congrArg List.reverse h
  rw [List.reverse_append, List.reverse_append, List.reverse_cons, List.reverse_cons, List.append_assoc,
    List.append_assoc] at hr
  obtain ⟨h1, h2⟩ := append_colon_inj (by simpa using hx) (by simpa using hy) hr
  exact ⟨List.reverse_injective h2, List.reverse_injective h1⟩

/-- The label of an entry may hold a colon, what stands around it may not. -/
theorem rowkey_inj {e : Entry} {a i label time time' : Text} (ha : ':' ∉ e.account) (hi : ':' ∉ e.instanceId)
    (ht : ':' ∉ time) (ha' : ':' ∉ a) (hi' : ':' ∉ i) (ht' : ':' ∉ time') :
    e.rowkey time = Cassandra.path a i label ++ TextLog.pathSeparator ++ time' ↔
      e.account = a ∧ e.instanceId = i ∧ e.label = label ∧ time = time' := by
  have hkey : ∀ a i label time : Text, Cassandra.path a i label ++ TextLog.pathSeparator ++ time =
      a ++ ':' :: (i ++ ':' :: (label ++ ':' :: time)) := by
    intro a i label time
    simp [Cassandra.path, TextLog.pathSeparator]
  unfold Entry.rowkey
  rw [hkey, hkey]
  constructor
  · intro h
    obtain ⟨h1, h⟩ := append_colon_inj ha ha' h
    obtain ⟨h2, h⟩ := append_colon_inj hi hi' h
    obtain ⟨h3, h4⟩ := append_colon_inj' ht ht' h
    exact ⟨h1, h2, h3, h4⟩
  · rintro ⟨rfl, rfl, rfl, rfl⟩
    rfl

/-! ## The text logs -/

section
variable {ι τ : Type}

/-- Uuids have no colon. -/
def Plain (assign : Text → Origin) : Prop :=
  ∀ ip, ':' ∉ (assign ip).instanceId ∧ ':' ∉ (assign ip).accountId.getD []

def Entry.Plain (e : Entry) : Prop := ':' ∉ e.account ∧ ':' ∉ e.instanceId

theorem plain_entryOf {assign : Text → Origin} (h : Plain assign) (agent : Agent τ) (ip label : Text)
    (r : LogRecord) : (entryOf (sender agent assign ip) label r).Plain := by
  unfold sender
  split
  · exact ⟨(by decide : ':' ∉ systemAccountId), (by decide : ':' ∉ systemNodeId)⟩
  · exact ⟨(h ip).2, (h ip).1⟩

theorem plain_run {assign : Text → Origin} (h : Plain assign) (agent : Agent τ)
    (acts : List (Action ι τ)) {l : Ledger} (hp : ∀ e ∈ l.pending, e.Plain)
    (hs : ∀ e ∈ l.stored, e.1.Plain ∧ ∃ t, e.2 = agent.localHour t) :
    ∀ e ∈ (acts.foldl (Ledger.step agent assign) l).stored, e.1.Plain ∧ ∃ t, e.2 = agent.localHour t := by
  induction acts generalizing l with
  | nil => exact hs
  | cons act acts ih =>
    cases act with
    | directories dirs => exact ih hp hs
    | connect c => exact ih hp hs
    | disconnect c => exact ih hp hs
    | message c label entries =>
      refine ih (fun e he => ?_) hs
      rcases List.mem_append.mp he with he | he
      · exact hp e he
      · obtain ⟨r, -, rfl⟩ := List.mem_map.mp he
        exact plain_entryOf h agent c.instanceIp label r
    | flush columns =>
      refine ih (fun e he => absurd he List.not_mem_nil) fun e he => ?_
      rcases List.mem_append.mp he with he | he
      · exact hs e he
      · obtain ⟨p, hmem, rfl⟩ := List.mem_map.mp he
        exact ⟨hp p.1 (List.of_mem_zip hmem).1, p.2.2, rfl⟩

/-- A text log shows, in their order, the messages that its instance has sent with its label
and that were written in the hour, whatever a guest puts into its records, as long as no
address goes from one instance to another and no guest sends while an older connection of
another is open. -/
theorem stored_where_sent [LinearOrder ι] (agent : Agent τ) (assign : Text → Origin) (hassign : Plain assign)
    {storage : Cassandra ι τ} (hempty : ∀ key, (storage.cf key).entries = [])
    (hlocal : ∀ t, ':' ∉ agent.localHour t) (hhour : ∀ t, ':' ∉ storage.hour t)
    {acts : List (Action ι τ)}
    (hrun : Each (State.step agent) (Fits agent assign) (State.start storage) acts) :
    let s := acts.foldl (State.step agent) (State.start storage)
    let l := acts.foldl (Ledger.step agent assign) ⟨[], []⟩
    ∀ account instanceId label time, ':' ∉ account → ':' ∉ instanceId →
      ((Log.mk s.storage account instanceId label).row time).entries.map Prod.snd =
        (l.stored.filter fun e => e.1.account = account ∧ e.1.instanceId = instanceId ∧
          e.1.label = label ∧ e.2 = storage.hour time).map fun e => e.1.message := by
  intro s l account instanceId label time ha hi
  have hholds := holds_run (holds_start hempty) hrun
  have hplain := plain_run hassign agent acts (l := ⟨[], []⟩)
    (fun e he => absurd he List.not_mem_nil) fun e he => absurd he List.not_mem_nil
  have hkey : s.storage.timedSlicePath (Cassandra.path account instanceId label) time =
      Cassandra.path account instanceId label ++ TextLog.pathSeparator ++ storage.hour time := by
    unfold Cassandra.timedSlicePath
    rw [hholds.hour]
  show messages s.storage (s.storage.timedSlicePath (Cassandra.path account instanceId label) time) = _
  rw [hkey, hholds.rows]
  congr 1
  refine List.filter_congr fun e he => ?_
  obtain ⟨⟨h1, h2⟩, t, ht⟩ := hplain e he
  rw [decide_eq_decide]
  exact rowkey_inj h1 h2 (ht ▸ hlocal t) ha hi (hhour time)

end

def guestOne : Connection := ⟨1, "10.0.0.5".toList⟩

def guestTwo : Connection := ⟨2, "10.0.0.6".toList⟩

/-- Two guests, one after the other; the second writes the account of the first into its
record. -/
def forging : List (Action Nat Nat) :=
  let record (account message : Text) : LogRecord := AList.insert accountIdKey (some account)
    (AList.insert messageKey (some message) ∅)
  [.directories
      [⟨"i-1".toList, some ⟨some "10.0.0.5".toList, some "a-1".toList⟩, ⟨['1'], rfl⟩⟩,
        ⟨"i-2".toList, some ⟨some "10.0.0.6".toList, some "a-2".toList⟩, ⟨['2'], rfl⟩⟩],
    .connect guestOne, .message guestOne "sys:log".toList [record [] "hello".toList],
    .disconnect guestOne, .connect guestTwo,
    .message guestTwo "sys:log".toList [record "a-1".toList "forged".toList],
    .flush [(1, 0), (2, 0)]]

def owner (ip : Text) : Origin :=
  if ip = "10.0.0.5".toList then ⟨"i-1".toList, some "a-1".toList⟩
  else ⟨"i-2".toList, some "a-2".toList⟩

def noRows : Cassandra Nat Nat := ⟨fun _ => .empty, fun _ => "2015010203".toList, id⟩

def relayAgent : Agent Nat := ⟨"10.0.0.1".toList, fun _ => "2015010203".toList⟩

theorem stored_where_sent_forging :
    let s := forging.foldl (State.step relayAgent) (State.start noRows)
    ((Log.mk s.storage "a-1".toList "i-1".toList "sys:log".toList).row 0).entries.map Prod.snd =
      ["hello".toList] := by
  have hrun : Each (State.step relayAgent) (Fits relayAgent owner) (State.start noRows) forging := by
    refine ⟨?_, trivial, ⟨⟨guestOne, rfl, rfl⟩, .inr ⟨_, List.mem_cons_self, _, rfl, rfl⟩, ?_⟩, trivial,
      trivial, ⟨⟨guestTwo, rfl, rfl⟩, .inr ⟨_, .tail _ List.mem_cons_self, _, rfl, rfl⟩, ?_⟩,
      ⟨rfl, by decide, fun _ _ he => ?_⟩, trivial⟩
    · intro d hd m hm ip hip
      rcases List.mem_cons.mp hd with rfl | hd
      · cases hm
        cases hip
        decide
      · obtain rfl := List.mem_singleton.mp hd
        cases hm
        cases hip
        decide
    · intro r hr
      rw [List.mem_singleton.mp hr]
      exact ⟨"hello".toList, rfl⟩
    · intro r hr
      rw [List.mem_singleton.mp hr]
      exact ⟨"forged".toList, rfl⟩
    · cases he
  have hplain : Plain owner := by
    intro ip
    unfold owner
    split
    · decide
    · decide
  have h := stored_where_sent relayAgent owner hplain
    (fun _ => rfl : ∀ key, (noRows.cf key).entries = [])
    (fun _ => (by decide : ':' ∉ "2015010203".toList)) (fun _ => (by decide : ':' ∉ "2015010203".toList))
    hrun "a-1".toList "i-1".toList "sys:log".toList 0 (by decide) (by decide)
  exact h.trans (by decide)

end GuestLog

end WakameVdc
