import WakameVdc.Lib.FlowTable
import WakameVdc.Lib.Text

/-!
# The way to the metadata server

`install_dnat_entry` of `edge_networking/openflow/switch.rb`, as the packet handler of
`service_metadata.rb` calls it. The classifier sends tcp packets to `169.254.169.254:80` to
the outgoing table and those from the metadata server to the incoming one.
-/

namespace WakameVdc

open Lib

namespace MetadataDnat

def ofppLocal : Nat := 65534
def tableMetadataOutgoing : Nat := 12
def tableMetadataIncoming : Nat := 13
def metadataIp : Text := "169.254.169.254".toList

structure Packet where
  inPort : Nat
  dlSrc : Text
  dlDst : Text
  nwSrc : Text
  nwDst : Text
  tpSrc : Nat
  tpDst : Nat
  deriving DecidableEq

/-- What a peer that is reached over `port` answers. -/
def Packet.answer (port : Nat) (p : Packet) : Packet where
  inPort := port
  dlSrc := p.dlDst
  dlDst := p.dlSrc
  nwSrc := p.nwDst
  nwDst := p.nwSrc
  tpSrc := p.tpDst
  tpDst := p.tpSrc

/-! ## Flows -/

/-- `match_tags`, with the timeout among them. -/
inductive Tag
  | idleTimeout (n : Nat)
  | tcp
  | inPort (n : Nat)
  | dlSrc (mac : Text)
  | dlDst (mac : Text)
  | nwSrc (ip : Text)
  | nwDst (ip : Text)
  | tpSrc (port : Nat)
  | tpDst (port : Nat)
  deriving DecidableEq

/-- `action_tags` -/
inductive Action
  | controller
  | local
  | modDlSrc (mac : Text)
  | modDlDst (mac : Text)
  | modNwSrc (ip : Text)
  | modNwDst (ip : Text)
  | modTpSrc (port : Nat)
  | modTpDst (port : Nat)
  | output (port : Nat)
  deriving DecidableEq

structure Flow where
  table : Nat
  priority : Nat
  tags : List Tag
  actions : List Action

structure Match where
  inPort : Option Nat
  dlSrc : Option Text
  dlDst : Option Text
  nwSrc : Option Text
  nwDst : Option Text
  tpSrc : Option Nat
  tpDst : Option Nat
  deriving DecidableEq

namespace Match

/-- A field that is given has the value in the packet. -/
structure Matches (m : Match) (p : Packet) : Prop where
  inPort : ∀ x ∈ m.inPort, p.inPort = x
  dlSrc : ∀ x ∈ m.dlSrc, p.dlSrc = x
  dlDst : ∀ x ∈ m.dlDst, p.dlDst = x
  nwSrc : ∀ x ∈ m.nwSrc, p.nwSrc = x
  nwDst : ∀ x ∈ m.nwDst, p.nwDst = x
  tpSrc : ∀ x ∈ m.tpSrc, p.tpSrc = x
  tpDst : ∀ x ∈ m.tpDst, p.tpDst = x

/-- Every field that `b` gives, `a` gives as well. -/
structure Within (a b : Match) : Prop where
  inPort : ∀ x ∈ b.inPort, x ∈ a.inPort
  dlSrc : ∀ x ∈ b.dlSrc, x ∈ a.dlSrc
  dlDst : ∀ x ∈ b.dlDst, x ∈ a.dlDst
  nwSrc : ∀ x ∈ b.nwSrc, x ∈ a.nwSrc
  nwDst : ∀ x ∈ b.nwDst, x ∈ a.nwDst
  tpSrc : ∀ x ∈ b.tpSrc, x ∈ a.tpSrc
  tpDst : ∀ x ∈ b.tpDst, x ∈ a.tpDst

instance : Preorder Match where
  le := Within
  le_refl _ := ⟨fun _ h => h, fun _ h => h, fun _ h => h, fun _ h => h, fun _ h => h, fun _ h => h, fun _ h => h⟩
  le_trans _ _ _ h g := ⟨fun x hx => h.1 x (g.1 x hx), fun x hx => h.2 x (g.2 x hx), fun x hx => h.3 x (g.3 x hx),
    fun x hx => h.4 x (g.4 x hx), fun x hx => h.5 x (g.5 x hx), fun x hx => h.6 x (g.6 x hx),
    fun x hx => h.7 x (g.7 x hx)⟩

instance : DecidableLE Match := fun a b =>
  decidable_of_iff ((∀ x ∈ b.inPort, x ∈ a.inPort) ∧ (∀ x ∈ b.dlSrc, x ∈ a.dlSrc) ∧ (∀ x ∈ b.dlDst, x ∈ a.dlDst) ∧
      (∀ x ∈ b.nwSrc, x ∈ a.nwSrc) ∧ (∀ x ∈ b.nwDst, x ∈ a.nwDst) ∧ (∀ x ∈ b.tpSrc, x ∈ a.tpSrc) ∧
      ∀ x ∈ b.tpDst, x ∈ a.tpDst)
    ⟨fun ⟨h1, h2, h3, h4, h5, h6, h7⟩ => ⟨h1, h2, h3, h4, h5, h6, h7⟩,
      fun ⟨h1, h2, h3, h4, h5, h6, h7⟩ => ⟨h1, h2, h3, h4, h5, h6, h7⟩⟩

/-- The match as the switch reads it. `keeps` says whether the network and transport fields
count in a flow that names no protocol; `ovs-ofctl` documents that they do not. -/
def read (keeps : Bool) (tags : List Tag) : Match :=
  let ip := keeps || tags.contains .tcp
  { inPort := tags.findSome? fun | .inPort n => some n | _ => none
    dlSrc := tags.findSome? fun | .dlSrc mac => some mac | _ => none
    dlDst := tags.findSome? fun | .dlDst mac => some mac | _ => none
    nwSrc := if ip then tags.findSome? fun | .nwSrc ip => some ip | _ => none else none
    nwDst := if ip then tags.findSome? fun | .nwDst ip => some ip | _ => none else none
    tpSrc := if ip then tags.findSome? fun | .tpSrc port => some port | _ => none else none
    tpDst := if ip then tags.findSome? fun | .tpDst port => some port | _ => none else none }

end Match

structure Does where
  actions : List Action
  idleTimeout : Option Nat
  deriving DecidableEq

abbrev Table := List (Entry Nat Match Does)

def Flow.entry (keeps : Bool) (f : Flow) : Entry Nat Match Does :=
  ⟨f.table, f.priority, .read keeps f.tags,
    ⟨f.actions, f.tags.findSome? fun | .idleTimeout n => some n | _ => none⟩⟩

/-- What goes out where. A packet is not sent back over the port it came in on. -/
def perform : List Action → Packet → List (Nat × Packet)
  | [], _ => []
  | .controller :: as, p => perform as p
  | .local :: as, p => if ofppLocal = p.inPort then perform as p else (ofppLocal, p) :: perform as p
  | .modDlSrc mac :: as, p => perform as { p with dlSrc := mac }
  | .modDlDst mac :: as, p => perform as { p with dlDst := mac }
  | .modNwSrc ip :: as, p => perform as { p with nwSrc := ip }
  | .modNwDst ip :: as, p => perform as { p with nwDst := ip }
  | .modTpSrc port :: as, p => perform as { p with tpSrc := port }
  | .modTpDst port :: as, p => perform as { p with tpDst := port }
  | .output port :: as, p => if port = p.inPort then perform as p else (port, p) :: perform as p

/-- The entry of the table with the highest priority among those that match sends out so. -/
def Handled (t : Table) (table : Nat) (p : Packet) (out : List (Nat × Packet)) : Prop :=
  ∃ f ∈ t, f.table = table ∧ f.pattern.Matches p ∧
    (∀ g ∈ t, g.table = table → g.pattern.Matches p → g ≠ f → g.priority < f.priority) ∧
      perform f.actions.actions p = out

/-! ## The metadata service -/

structure Metadata where
  ofPort : Nat
  mac : Text
  ip : Text
  listenPort : Nat

structure Network where
  metadata : Metadata
  localHw : Text
  bridgeIpv4 : Text

def matchOutgoing (message : Packet) : List Tag :=
  [.dlSrc message.dlSrc, .dlDst message.dlDst, .nwSrc message.nwSrc, .tpSrc message.tpSrc]

def matchIncoming (message : Packet) (destHw : Text) : List Tag :=
  [.dlSrc destHw, .dlDst message.dlSrc, .nwDst message.nwSrc, .tpDst message.tpSrc]

def prefixOutgoing (message : Packet) : List Tag := [.inPort message.inPort, .idleTimeout 300, .tcp]

def prefixIncoming (destPort : Nat) : List Tag := [.inPort destPort, .idleTimeout 300, .tcp]

def installDnatEntry (message : Packet) (outgoingTable incomingTable destPort : Nat) (destHw destIp : Text)
    (destTp : Nat) : List Flow :=
  let actionOutgoing : List Action := [.modDlDst destHw, .modNwDst destIp, .modTpDst destTp, .output destPort]
  let actionIncoming : List Action :=
    [.modDlSrc message.dlDst, .modNwSrc message.nwDst, .modTpSrc message.tpDst, .output message.inPort]
  [⟨outgoingTable, 3, matchOutgoing message, actionOutgoing⟩,
    ⟨incomingTable, 3, matchIncoming message destHw, actionIncoming⟩]

namespace Network

variable (keeps : Bool) (n : Network)

def destHw : Text := if n.metadata.ip = n.bridgeIpv4 then n.localHw else n.metadata.mac

def isRequest (message : Packet) : Bool := message.nwDst = metadataIp && message.tpDst = 80

def dnatEntry (message : Packet) : List Flow :=
  installDnatEntry message tableMetadataOutgoing tableMetadataIncoming n.metadata.ofPort n.destHw n.metadata.ip
    n.metadata.listenPort

/-- The packet handler, with `add_flows`. -/
def packetIn (t : Table) (message : Packet) : Table :=
  if isRequest message then FlowTable.addAll t ((n.dnatEntry message).map (Flow.entry keeps)) else t

/-- What `install` and `init_eth` put in both tables. -/
def installed (ethPort : Nat) : Table :=
  [Flow.entry keeps ⟨tableMetadataOutgoing, 1, [], [.controller]⟩,
    Flow.entry keeps ⟨tableMetadataIncoming, 2, [.inPort ofppLocal], [.output ethPort]⟩,
    Flow.entry keeps ⟨tableMetadataOutgoing, 4, [.inPort ethPort], [.local]⟩]

def after (ethPort : Nat) (messages : List Packet) : Table :=
  messages.foldl (n.packetIn keeps) (installed keeps ethPort)

/-! ## What the flows are to do -/

/-- A packet of the connection that the request opens. -/
structure Sends (r p : Packet) : Prop where
  inPort : p.inPort = r.inPort
  dlSrc : p.dlSrc = r.dlSrc
  dlDst : p.dlDst = r.dlDst
  nwSrc : p.nwSrc = r.nwSrc
  tpSrc : p.tpSrc = r.tpSrc

/-- A packet of the server to the one who opened the connection. -/
structure Answers (r p : Packet) : Prop where
  inPort : p.inPort = n.metadata.ofPort
  dlSrc : p.dlSrc = n.destHw
  dlDst : p.dlDst = r.dlSrc
  nwDst : p.nwDst = r.nwSrc
  tpDst : p.tpDst = r.tpSrc

def rewritten (r : Packet) : Packet :=
  { r with dlDst := n.destHw, nwDst := n.metadata.ip, tpDst := n.metadata.listenPort }

def reply (r : Packet) : Packet := (n.rewritten r).answer n.metadata.ofPort

structure Promise (r : Packet) : Prop where
  outgoing : ∀ f ∈ n.dnatEntry r, f.table = tableMetadataOutgoing →
    (∀ p, (f.entry keeps).pattern.Matches p → Sends r p) ∧
      perform f.actions r = [(n.metadata.ofPort, n.rewritten r)]
  incoming : ∀ f ∈ n.dnatEntry r, f.table = tableMetadataIncoming →
    (∀ p, (f.entry keeps).pattern.Matches p → n.Answers r p) ∧
      perform f.actions (n.reply r) = [(r.inPort, r.answer n.metadata.ofPort)]
  expires : ∀ f ∈ n.dnatEntry r, (f.entry keeps).actions.idleTimeout ≠ none

/-- The answer to every request comes back as an answer of the address it was sent to. -/
def Returns (ethPort : Nat) (messages : List Packet) : Prop :=
  ∀ r ∈ messages, isRequest r = true → Handled (n.after keeps ethPort messages) tableMetadataIncoming (n.reply r)
    [(r.inPort, r.answer n.metadata.ofPort)]

/-- Requests whose answers the switch does not tell apart. -/
def SameReply (r r' : Packet) : Prop :=
  r'.dlSrc = r.dlSrc ∧ (keeps = true → r'.nwSrc = r.nwSrc ∧ r'.tpSrc = r.tpSrc)

/-! ## The two flows of a request -/

section
variable {keeps} {n} {r r' p : Packet}

def outEntry (keeps : Bool) (n : Network) (r : Packet) : Entry Nat Match Does :=
  ⟨tableMetadataOutgoing, 3, .read keeps (matchOutgoing r),
    ⟨[.modDlDst n.destHw, .modNwDst n.metadata.ip, .modTpDst n.metadata.listenPort,
      .output n.metadata.ofPort], none⟩⟩

def inEntry (keeps : Bool) (n : Network) (r : Packet) : Entry Nat Match Does :=
  ⟨tableMetadataIncoming, 3, .read keeps (matchIncoming r n.destHw),
    ⟨[.modDlSrc r.dlDst, .modNwSrc r.nwDst, .modTpSrc r.tpDst, .output r.inPort], none⟩⟩

theorem map_entry : (n.dnatEntry r).map (Flow.entry keeps) = [outEntry keeps n r, inEntry keeps n r] := rfl

/-- The port is not asked for, so the flow takes a packet of any port. -/
theorem matches_outEntry (port : Nat) : (outEntry keeps n r).pattern.Matches { r with inPort := port } := by
  cases keeps <;> constructor <;> simp [outEntry, Match.read, matchOutgoing]

theorem not_promise : ¬ n.Promise keeps r := by
  intro h
  have hf : (⟨tableMetadataOutgoing, 3, matchOutgoing r, _⟩ : Flow) ∈ n.dnatEntry r := List.mem_cons_self
  have hsends := (h.outgoing _ hf rfl).1 _ (matches_outEntry (r.inPort + 1))
  exact absurd hsends.inPort (Nat.succ_ne_self r.inPort)

/-- With the prefix in front the flows would be told apart by their port. -/
theorem sends_of_prefix (h : (Match.read keeps (prefixOutgoing r ++ matchOutgoing r)).Matches p) : Sends r p := by
  have hread : Match.read keeps (prefixOutgoing r ++ matchOutgoing r) =
      ⟨some r.inPort, some r.dlSrc, some r.dlDst, some r.nwSrc, none, some r.tpSrc, none⟩ := by
    cases keeps <;> rfl
  rw [hread] at h
  exact ⟨h.inPort _ rfl, h.dlSrc _ rfl, h.dlDst _ rfl, h.nwSrc _ rfl, h.tpSrc _ rfl⟩

theorem answers_of_prefix
    (h : (Match.read keeps (prefixIncoming n.metadata.ofPort ++ matchIncoming r n.destHw)).Matches p) :
    n.Answers r p := by
  have hread : Match.read keeps (prefixIncoming n.metadata.ofPort ++ matchIncoming r n.destHw) =
      ⟨some n.metadata.ofPort, some n.destHw, some r.dlSrc, none, some r.nwSrc, none, some r.tpSrc⟩ := by
    cases keeps <;> rfl
  rw [hread] at h
  exact ⟨h.inPort _ rfl, h.dlSrc _ rfl, h.dlDst _ rfl, h.nwDst _ rfl, h.tpDst _ rfl⟩

theorem perform_inEntry : perform (inEntry keeps n r').actions.actions (n.reply r) =
    if r'.inPort = n.metadata.ofPort then []
    else [(r'.inPort,
      { r.answer n.metadata.ofPort with dlSrc := r'.dlDst, nwSrc := r'.nwDst, tpSrc := r'.tpDst })] := by
  simp [inEntry, perform, reply, Packet.answer, rewritten]

theorem read_matchIncoming : Match.read keeps (matchIncoming r n.destHw) =
    ⟨none, some n.destHw, some r.dlSrc, none, if keeps then some r.nwSrc else none, none,
      if keeps then some r.tpSrc else none⟩ := by
  cases keeps <;> rfl

theorem matches_inEntry : (inEntry keeps n r').pattern.Matches (n.reply r) ↔ SameReply keeps r r' := by
  have hread : (inEntry keeps n r').pattern = _ := read_matchIncoming
  rw [hread]
  constructor
  · intro h
    refine ⟨(h.dlDst _ rfl).symm, fun hk => ?_⟩
    subst hk
    exact ⟨(h.nwDst _ rfl).symm, (h.tpDst _ rfl).symm⟩
  · rintro ⟨hmac, hk⟩
    cases keeps with
    | false => constructor <;> simp [reply, rewritten, Packet.answer, hmac]
    | true =>
      obtain ⟨hip, hport⟩ := hk rfl
      constructor <;> simp [reply, rewritten, Packet.answer, hmac, hip, hport]

theorem samePlace_inEntry : (inEntry keeps n r').SamePlace (inEntry keeps n r) ↔ SameReply keeps r r' := by
  have hread : ∀ r, (inEntry keeps n r).pattern = _ := fun _ => read_matchIncoming
  constructor
  · rintro ⟨-, -, hle, -⟩
    rw [hread, hread] at hle
    refine ⟨Option.some.inj (hle.dlDst _ rfl), fun hk => ?_⟩
    subst hk
    exact ⟨Option.some.inj (hle.nwDst _ rfl), Option.some.inj (hle.tpDst _ rfl)⟩
  · rintro ⟨hmac, hk⟩
    have heq : (inEntry keeps n r').pattern = (inEntry keeps n r).pattern := by
      rw [hread, hread, hmac]
      cases keeps with
      | false => rfl
      | true => rw [(hk rfl).1, (hk rfl).2]
    exact ⟨rfl, rfl, heq.le, heq.ge⟩

/-! ## Runs -/

variable {ethPort : Nat} {messages : List Packet} {g : Entry Nat Match Does} {out : List (Nat × Packet)}

theorem after_eq (t : Table) : messages.foldl (n.packetIn keeps) t =
    FlowTable.addAll t ((messages.filter isRequest).flatMap fun r => [outEntry keeps n r, inEntry keeps n r]) := by
  induction messages generalizing t with
  | nil => rfl
  | cons r messages ih =>
    rw [List.foldl_cons, ih]
    by_cases hr : isRequest r = true
    · rw [packetIn, if_pos hr, map_entry, List.filter_cons_of_pos hr, List.flatMap_cons, FlowTable.addAll_append]
    · rw [packetIn, if_neg hr, List.filter_cons_of_neg hr]

theorem unique_after : FlowTable.Unique (n.after keeps ethPort messages) := by
  unfold after
  rw [after_eq]
  refine FlowTable.Unique.addAll fun f hf g hg h => ?_
  have hp := h.2.1
  simp only [installed, List.mem_cons, List.not_mem_nil, or_false] at hf hg
  rcases hf with rfl | rfl | rfl <;> rcases hg with rfl | rfl | rfl <;>
    first | rfl | (exact absurd hp (by simp [Flow.entry]))

theorem tables_ne : tableMetadataOutgoing ≠ tableMetadataIncoming := by decide

/-- The incoming table has the flows of requests, over one for what the host sends. -/
theorem mem_after (hg : g ∈ n.after keeps ethPort messages) (ht : g.table = tableMetadataIncoming) :
    (∃ r ∈ messages, isRequest r = true ∧ g = inEntry keeps n r) ∨ g.priority = 2 := by
  unfold after at hg
  rw [after_eq, FlowTable.mem_addAll] at hg
  rcases hg with hg | ⟨hg, -⟩
  · obtain ⟨r, hr, hg⟩ := List.mem_flatMap.mp (FlowTable.mem_of_mem_addAll hg)
    rw [List.mem_filter] at hr
    rcases List.mem_pair.mp hg with rfl | rfl
    · exact absurd ht tables_ne
    · exact .inl ⟨r, hr.1, hr.2, rfl⟩
  · simp only [installed, List.mem_cons, List.not_mem_nil, or_false] at hg
    rcases hg with rfl | rfl | rfl
    · exact absurd ht tables_ne
    · exact .inr rfl
    · exact absurd ht tables_ne

variable (keeps n ethPort) in
theorem exists_inEntry (hr : r ∈ messages) (hreq : isRequest r = true) : ∃ r' ∈ messages, isRequest r' = true ∧
    inEntry keeps n r' ∈ n.after keeps ethPort messages ∧ SameReply keeps r r' := by
  have hmem : inEntry keeps n r ∈
      (messages.filter isRequest).flatMap fun r => [outEntry keeps n r, inEntry keeps n r] :=
    List.mem_flatMap.mpr ⟨r, List.mem_filter.mpr ⟨hr, hreq⟩, by simp⟩
  obtain ⟨g, hg, hsame⟩ := FlowTable.exists_mem_addAll hmem
  have hafter : g ∈ n.after keeps ethPort messages := by
    unfold after
    rw [after_eq, FlowTable.mem_addAll]
    exact .inl hg
  rcases mem_after hafter hsame.1 with ⟨r', hr', hreq', rfl⟩ | hp
  · exact ⟨r', hr', hreq', hafter, samePlace_inEntry.mp hsame⟩
  · have htwo : 2 = 3 := hp.symm.trans hsame.2.1
    exact absurd htwo (by decide)

/-- The answer to a request is handled by the flow that stands in its place. -/
theorem handled_iff (hr : r ∈ messages) (hreq : isRequest r = true) :
    Handled (n.after keeps ethPort messages) tableMetadataIncoming (n.reply r) out ↔
      ∃ r' ∈ messages, isRequest r' = true ∧ inEntry keeps n r' ∈ n.after keeps ethPort messages ∧
        SameReply keeps r r' ∧ perform (inEntry keeps n r').actions.actions (n.reply r) = out := by
  obtain ⟨r₁, hr₁, hreq₁, hmem₁, hsame₁⟩ := exists_inEntry keeps n ethPort hr hreq
  constructor
  · rintro ⟨f, hf, htable, hmatch, hbest, hout⟩
    rcases mem_after hf htable with ⟨r', hr', hreq', rfl⟩ | hp
    · exact ⟨r', hr', hreq', hf, matches_inEntry.mp hmatch, hout⟩
    · have hlt := hbest _ hmem₁ rfl (matches_inEntry.mpr hsame₁) fun he => by
        rw [← he] at hp
        exact absurd hp (by simp [inEntry])
      rw [hp] at hlt
      exact absurd hlt (by simp [inEntry])
  · rintro ⟨r', hr', hreq', hmem, hsame, hout⟩
    refine ⟨_, hmem, rfl, matches_inEntry.mpr hsame, fun g hg htable hmatch hne => ?_, hout⟩
    rcases mem_after hg htable with ⟨r₂, hr₂, hreq₂, rfl⟩ | hp
    · -- both stand in the place of the request's own flow
      have hplace := (samePlace_inEntry (n := n)).mpr (matches_inEntry.mp hmatch)
      exact absurd (unique_after _ hg _ hmem (hplace.trans (samePlace_inEntry.mpr hsame).symm)) hne
    · rw [hp]
      exact Nat.lt_succ_self 2

theorem perform_inEntry_iff (hr : isRequest r = true) (hr' : isRequest r' = true) :
    perform (inEntry keeps n r').actions.actions (n.reply r) = [(r.inPort, r.answer n.metadata.ofPort)] ↔
      r.inPort ≠ n.metadata.ofPort ∧ r'.inPort = r.inPort ∧ r'.dlDst = r.dlDst := by
  simp only [isRequest, Bool.and_eq_true, decide_eq_true_eq] at hr hr'
  rw [perform_inEntry]
  by_cases hport : r'.inPort = n.metadata.ofPort
  · rw [if_pos hport]
    refine iff_of_false (List.cons_ne_nil _ _).symm ?_
    rintro ⟨hne, heq, -⟩
    exact hne (heq ▸ hport)
  · rw [if_neg hport]
    constructor
    · intro h
      have hpair := (List.cons.inj h).1
      have hin : r'.inPort = r.inPort := congrArg Prod.fst hpair
      have hmac : r'.dlDst = r.dlDst := congrArg (fun q => q.2.dlSrc) hpair
      exact ⟨hin ▸ hport, hin, hmac⟩
    · rintro ⟨-, hin, hmac⟩
      simp [Packet.answer, hin, hmac, hr.1, hr.2, hr'.1, hr'.2]

/-- The two rewritings undo each other, but for a request from the port of the server. -/
theorem rewritings_inverse (hr : isRequest r = true) (hport : r.inPort ≠ n.metadata.ofPort) :
    perform (outEntry keeps n r).actions.actions r = [(n.metadata.ofPort, n.rewritten r)] ∧
      perform (inEntry keeps n r).actions.actions (n.reply r) = [(r.inPort, r.answer n.metadata.ofPort)] := by
  refine ⟨?_, (perform_inEntry_iff hr hr).mpr ⟨hport, rfl, rfl⟩⟩
  simp [outEntry, perform, hport.symm, rewritten]

/-- Every answer comes back just when no other request stands in the same place, from
another port or to another mac address, and none comes from the port of the server. -/
theorem returns_iff_apart : n.Returns keeps ethPort messages ↔
    ∀ r ∈ messages, isRequest r = true → r.inPort ≠ n.metadata.ofPort ∧
      ∀ r' ∈ messages, isRequest r' = true → SameReply keeps r r' → r'.inPort = r.inPort ∧ r'.dlDst = r.dlDst := by
  constructor
  · intro h r hr hreq
    obtain ⟨r₁, hr₁, hreq₁, hmem₁, hsame₁, hout₁⟩ := (handled_iff hr hreq).mp (h r hr hreq)
    obtain ⟨hport, hin₁, hmac₁⟩ := (perform_inEntry_iff hreq hreq₁).mp hout₁
    refine ⟨hport, fun r' hr' hreq' hsame => ?_⟩
    obtain ⟨r₂, hr₂, hreq₂, hmem₂, hsame₂, hout₂⟩ := (handled_iff hr' hreq').mp (h r' hr' hreq')
    obtain ⟨-, hin₂, hmac₂⟩ := (perform_inEntry_iff hreq' hreq₂).mp hout₂
    have hplace := ((samePlace_inEntry (n := n)).mpr hsame₂).trans
      ((samePlace_inEntry.mpr hsame).trans (samePlace_inEntry.mpr hsame₁).symm)
    have hactions := congrArg (fun g => g.actions.actions) (unique_after _ hmem₂ _ hmem₁ hplace)
    simp only [inEntry, List.cons.injEq, Action.modDlSrc.injEq, Action.output.injEq, and_true] at hactions
    exact ⟨hin₂.symm.trans (hactions.2.2.2.trans hin₁), hmac₂.symm.trans (hactions.1.trans hmac₁)⟩
  · intro h r hr hreq
    obtain ⟨r', hr', hreq', hmem, hsame⟩ := exists_inEntry keeps n ethPort hr hreq
    obtain ⟨hport, hall⟩ := h r hr hreq
    have hout : perform (inEntry keeps n r').actions.actions (n.reply r) =
        [(r.inPort, r.answer n.metadata.ofPort)] :=
      (perform_inEntry_iff hreq hreq').mpr ⟨hport, hall r' hr' hreq' hsame⟩
    exact (handled_iff hr hreq).mpr ⟨r', hr', hreq', hmem, hsame, hout⟩

/-- What is promised of the flows holds just when there are none; the answers come back
under a condition of their own. -/
theorem requests_promised_iff (keeps : Bool) (n : Network) (ethPort : Nat) (messages : List Packet) :
    ((∀ r ∈ messages, isRequest r = true → n.Promise keeps r) ∧ n.Returns keeps ethPort messages ↔
      ∀ r ∈ messages, isRequest r = false) ∧
    (n.Returns keeps ethPort messages ↔ ∀ r ∈ messages, isRequest r = true → r.inPort ≠ n.metadata.ofPort ∧
      ∀ r' ∈ messages, isRequest r' = true → SameReply keeps r r' →
        r'.inPort = r.inPort ∧ r'.dlDst = r.dlDst) := by
  refine ⟨?_, returns_iff_apart⟩
  constructor
  · rintro ⟨h, -⟩ r hr
    by_contra hreq
    exact not_promise (h r hr (Bool.not_eq_false _ ▸ hreq))
  · intro h
    refine ⟨fun r hr hreq => ?_, fun r hr hreq => ?_⟩
    · rw [h r hr] at hreq
      cases hreq
    · rw [h r hr] at hreq
      cases hreq

/-- A server at eth port 1, and two instances that use the same addresses in turn. -/
def network : Network := ⟨⟨1, "52:54:00:00:00:01".toList, "10.0.0.1".toList, 9002⟩, "52:54:00:00:00:02".toList,
  "10.0.0.2".toList⟩

def requestFrom (port : Nat) : Packet :=
  ⟨port, "52:54:00:00:00:03".toList, "52:54:00:00:00:04".toList, "10.0.0.3".toList, metadataIp, 40000, 80⟩

/-- The flow of the first one takes the packets of the other port as well, and does not expire. -/
theorem not_promised_two : ¬ ((∀ r ∈ [requestFrom 2, requestFrom 3], isRequest r = true → network.Promise true r) ∧
    network.Returns true 1 [requestFrom 2, requestFrom 3]) ∧
    (outEntry true network (requestFrom 2)).pattern.Matches (requestFrom 3) ∧
    (outEntry true network (requestFrom 2)).actions.idleTimeout = none := by
  refine ⟨fun h => ?_, matches_outEntry 3, rfl⟩
  exact not_promise (h.1 _ List.mem_cons_self (by decide))

end

end Network

end MetadataDnat

end WakameVdc
