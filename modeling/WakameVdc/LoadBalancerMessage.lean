import WakameVdc.LoadBalancerPorts
import WakameVdc.LoadBalancerSound
import WakameVdc.Lib.Script
import WakameVdc.SecurityGroupText

/-!
# The messages to the machine of a load balancer

`messaging.rb` and `messaging/load_balancer.rb` encode the name and the text of a
configuration into one message, and the script `update_haproxy.sh` on the machine takes it
apart line by line, writes the files of the proxies and starts or reloads them.
-/

namespace WakameVdc

open Lib
open Lib.Text (Bytes utf8)
open SecurityGroup (chomp chomp_append)

namespace LoadBalancer

/-! ## Messages -/

/-- `Base64.encode64(..).chomp` -/
def encoded (b : Bytes) : Text := chomp (Base64.encode64 b)

def messageBoundary : Text := ['\n', ' ', '\n']

def message (name contents : Bytes) : Text := encoded name ++ messageBoundary ++ encoded contents

structure Publication where
  name : Text
  contents : Bytes

/-- `Messaging.publish` -/
def Publication.wire (p : Publication) : Text := message (utf8 p.name) p.contents

/-- The keys of a load balancer, and `stud.cfg` as it is rendered. -/
structure SslProxy where
  privateKey : Bytes
  publicKey : Bytes
  studConfig : Bytes

def updateSslProxyConfig (name : Text) (ssl : SslProxy) : List Publication :=
  [⟨"write:keys".toList, ssl.privateKey ++ Script.newline :: ssl.publicKey⟩, ⟨name, ssl.studConfig⟩]

/-- `protocol` is `values[:protocol]`, a key that no request gives. -/
def updateLoadBalancerConfig (name : Text) (protocol : Option Text) (haproxyConfig : Bytes) : List Publication :=
  if protocol = some "http".toList ∨ protocol = some "tcp".toList then
    [⟨"stop:stud".toList, []⟩, ⟨name, haproxyConfig⟩]
  else [⟨name, haproxyConfig⟩]

/-! ## The machine -/

/-- The files the script writes, and what the two proxies have read of them. -/
structure Machine where
  studKeys : Option Bytes
  studConf : Option Bytes
  haproxyConf : Option Bytes
  stud : Option (Option Bytes × Option Bytes)
  haproxy : Option (Option Bytes)
  chkconfig : Bool
  deriving DecidableEq, Repr

namespace Machine

variable (m : Machine)

/-- `start stud`, which does nothing while the job runs. -/
def startStud : Machine := { m with stud := m.stud.or (some (m.studKeys, m.studConf)) }

def restartStud : Machine := { m with stud := some (m.studKeys, m.studConf) }

def startHaproxy : Machine := { m with haproxy := m.haproxy.or (some m.haproxyConf) }

def reloadHaproxy : Machine := { m with haproxy := some m.haproxyConf }

/-- The commands of `update_haproxy.sh`. -/
def perform (head body : Bytes) : Machine :=
  if head = utf8 "write:keys".toList then { m with studKeys := some (Script.echo body) }
  else if head = utf8 "start:stud".toList then
    if m.studKeys.isSome then startStud { m with studConf := some (Script.echo body) } else m
  else if head = utf8 "reload:stud".toList then
    let m := { m with studConf := some (Script.echo body) }
    if m.stud.isNone then m.startStud else m.restartStud
  else if head = utf8 "stop:stud".toList then { m with stud := none }
  else if head = utf8 "start:haproxy".toList then
    { startHaproxy { m with haproxyConf := some (Script.echo body) } with chkconfig := true }
  else if head = utf8 "reload:haproxy".toList then
    let m := { m with haproxyConf := some (Script.echo body) }
    { (if m.haproxy.isNone then m.startHaproxy else m.reloadHaproxy) with chkconfig := true }
  else m

/-- What `openssl enc -d -base64` makes of its input, in `$(..)`. It looks for a line break
before it decodes anything. -/
def decoded (t : Text) : Bytes :=
  if '\n' ∈ t then Script.substituted ((Base64.decode t).getD []) else []

/-- The expression `/^ $/`. -/
def isBlank (l : Text) : Bool := l == [' '] || l == [' ', '\n']

def receive (wire : Text) : Machine :=
  m.perform (decoded (Script.printFirst isBlank (Script.lines wire)).flatten)
    (decoded (Script.deleteFirst isBlank (Script.lines wire)).flatten)

end Machine

/-! ## Taking a message apart -/

theorem filter_encoded (b : Bytes) : (encoded b).filter (fun c => !Text.isSpace c) =
    (Base64.encode64 b).filter fun c => !Text.isSpace c := by
  obtain ⟨u, hu, hs⟩ := chomp_append (Base64.encode64 b)
  have hnil : u.filter (fun c => !Text.isSpace c) = [] := by
    rw [List.filter_eq_nil_iff]
    intro c hc
    simp [hs c hc]
  conv_rhs => rw [hu]
  rw [List.filter_append, hnil, List.append_nil]
  rfl

theorem not_mem_encoded (b : Bytes) : ' ' ∉ encoded b := by
  intro h
  obtain ⟨u, hu, _⟩ := chomp_append (Base64.encode64 b)
  have hmem : ' ' ∈ Base64.encode64 b := by
    rw [hu]
    exact List.mem_append_left _ h
  rcases Base64.mem_encode64 hmem with hw | hn
  · cases hw
  · cases hn

theorem not_isBlank_encoded (b : Bytes) :
    ∀ l ∈ Script.lines (encoded b ++ ['\n']), Machine.isBlank l = false := by
  intro l hl
  have hspace : ' ' ∉ l := by
    intro h
    rcases List.mem_append.mp (Script.subset_of_mem_lines hl h) with h | h
    · exact not_mem_encoded b h
    · exact absurd (List.mem_singleton.mp h) (by decide)
  rw [Machine.isBlank, Bool.or_eq_false_iff, beq_eq_false_iff_ne, beq_eq_false_iff_ne]
  constructor
  · rintro rfl
    exact hspace List.mem_cons_self
  · rintro rfl
    exact hspace List.mem_cons_self

theorem mem_encoded {b : Bytes} (h : 45 < b.length) : '\n' ∈ encoded b := by
  have hlength : 60 < (Base64.encode b).length := by
    rw [Base64.length_encode]
    omega
  obtain ⟨u, hu, -⟩ := chomp_append (Base64.encode64 b)
  change Base64.encode64 b = encoded b ++ u at hu
  unfold Base64.encode64 at hu
  rw [Base64.wrap_of_le (by decide) (by omega)] at hu
  by_contra hnot
  -- otherwise what is left of the lines is part of the first
  have hle : (encoded b).length ≤ 60 := by
    rcases List.append_eq_append_iff.mp hu with ⟨v, hv, hrest⟩ | ⟨v, hv, -⟩
    · cases v with
      | nil =>
        rw [List.append_nil] at hv
        rw [hv, List.length_take]
        omega
      | cons c v =>
        rw [← (List.cons.inj hrest).1] at hv
        exact absurd (hv ▸ List.mem_append_right _ List.mem_cons_self) hnot
    · have hlen := congrArg List.length hv
      rw [List.length_take, List.length_append] at hlen
      omega
  have hfilter : (encoded b).filter (fun c => !Text.isSpace c) = Base64.encode b := by
    rw [filter_encoded, Base64.encode64, Base64.filter_wrap (Base64.not_isSpace_encode b)]
  have hcount := List.length_filter_le (fun c => !Text.isSpace c) (encoded b)
  rw [hfilter] at hcount
  omega

theorem decoded_of_filter {t : Text} {b : Bytes} (hn : '\n' ∈ t)
    (h : t.filter (fun c => !Text.isSpace c) = (encoded b).filter fun c => !Text.isSpace c) :
    Machine.decoded t = Script.substituted b := by
  have hd : Base64.decode t = some b := by
    apply Base64.decode_of_filter
    rw [h, filter_encoded]
  unfold Machine.decoded
  rw [if_pos hn, hd]
  rfl

/-- The contents are not lost on a line without a break. -/
def Carried (contents : Bytes) : Prop := contents = [] ∨ 45 < contents.length

section
variable (name : Text) {contents : Bytes} (hc : Carried contents)

theorem wire_eq : Publication.wire ⟨name, contents⟩ =
    encoded (utf8 name) ++ '\n' :: ([' '] ++ '\n' :: encoded contents) := by
  unfold Publication.wire message messageBoundary
  simp

include hc

theorem receive_wire (m : Machine) : m.receive (Publication.wire ⟨name, contents⟩) =
    m.perform (Script.substituted (utf8 name)) (Script.substituted contents) := by
  have hblank := not_isBlank_encoded (utf8 name)
  have hhead : Machine.decoded (Script.printFirst Machine.isBlank
      (Script.lines (Publication.wire ⟨name, contents⟩))).flatten = Script.substituted (utf8 name) := by
    rw [wire_eq, Script.printFirst_lines hblank (by decide) (by rfl)]
    apply decoded_of_filter (List.mem_append_right _ List.mem_cons_self)
    rw [List.filter_append]
    exact List.append_nil _
  have hbody : Machine.decoded (Script.deleteFirst Machine.isBlank
      (Script.lines (Publication.wire ⟨name, contents⟩))).flatten = Script.substituted contents := by
    rw [wire_eq, Script.deleteFirst_lines hblank (by decide) (by rfl)]
    rcases hc with rfl | hlong
    · rfl
    · exact decoded_of_filter (mem_encoded hlong) rfl
  unfold Machine.receive
  rw [hhead, hbody]

end

/-! ## What each message does -/

def written (b : Bytes) : Bytes := Script.echo (Script.substituted b)

/-- A configuration that ends in one line break is written as it was rendered. -/
theorem written_line {b : Bytes} (hz : (0 : UInt8) ∉ b) (hn : b.getLast? ≠ some Script.newline)
    (ho : Script.isOption b = false) : written (b ++ [Script.newline]) = b ++ [Script.newline] :=
  Script.echo_substituted hz hn ho

section
variable (m : Machine) {b : Bytes} (hb : Carried b)
include hb

theorem receive_writeKeys : m.receive (Publication.wire ⟨"write:keys".toList, b⟩) =
    { m with studKeys := some (written b) } := by
  rw [receive_wire _ hb, Machine.perform, if_pos (by decide)]
  rfl

theorem receive_startStud (hk : m.studKeys.isSome = true) (hs : m.stud = none) :
    m.receive (Publication.wire ⟨"start:stud".toList, b⟩) =
      { m with studConf := some (written b), stud := some (m.studKeys, some (written b)) } := by
  rw [receive_wire _ hb, Machine.perform, if_neg (by decide), if_pos (by decide), if_pos hk]
  unfold Machine.startStud
  rw [hs]
  rfl

theorem receive_reloadStud : m.receive (Publication.wire ⟨"reload:stud".toList, b⟩) =
    { m with studConf := some (written b), stud := some (m.studKeys, some (written b)) } := by
  rw [receive_wire _ hb, Machine.perform, if_neg (by decide), if_neg (by decide), if_pos (by decide)]
  cases hs : m.stud with
  | none =>
    show Machine.startStud _ = _
    unfold Machine.startStud
    rfl
  | some run => rfl

theorem receive_startHaproxy (hh : m.haproxy = none) :
    m.receive (Publication.wire ⟨"start:haproxy".toList, b⟩) =
      { m with haproxyConf := some (written b), haproxy := some (some (written b)), chkconfig := true } := by
  rw [receive_wire _ hb, Machine.perform, if_neg (by decide), if_neg (by decide), if_neg (by decide),
    if_neg (by decide), if_pos (by decide)]
  unfold Machine.startHaproxy
  rw [hh]
  rfl

theorem receive_reloadHaproxy : m.receive (Publication.wire ⟨"reload:haproxy".toList, b⟩) =
    { m with haproxyConf := some (written b), haproxy := some (some (written b)), chkconfig := true } := by
  rw [receive_wire _ hb, Machine.perform, if_neg (by decide), if_neg (by decide), if_neg (by decide),
    if_neg (by decide), if_neg (by decide), if_pos (by decide)]
  cases hh : m.haproxy with
  | none =>
    show ({ Machine.startHaproxy _ with chkconfig := true } : Machine) = _
    unfold Machine.startHaproxy
    rfl
  | some run => rfl

end

/-! ## Requests and messages -/

/-- What a request publishes on the queue of the machine after its commit. -/
structure Outgoing where
  ssl : Option SslProxy
  config : Option Config

section
variable (render : Config → Bytes)

def Outgoing.publications (o : Outgoing) (studName haproxyName : Text) : List Publication :=
  o.ssl.elim [] (updateSslProxyConfig studName) ++
    o.config.elim [] fun c => updateLoadBalancerConfig haproxyName none (render c)

def Outgoing.start (o : Outgoing) : List Publication :=
  o.publications render "start:stud".toList "start:haproxy".toList

def Outgoing.reload (o : Outgoing) : List Publication :=
  o.publications render "reload:stud".toList "reload:haproxy".toList

/-- A load balancer with its machine, and the messages on their way to it; `ssl` is what was
published last of the keys. -/
structure Site where
  sys : Sys
  ssl : Option SslProxy
  queue : List Text
  machine : Machine

/-- `refresh` is the event hook, which publishes a configuration when an instance is gone. The
keys of a request are those of the row, if it has any; only an update sends them. -/
inductive SiteStep
  | request (req : Request) (ssl : Option SslProxy)
  | refresh (config : Config)
  | deliver

def outgoing (req : Request) (ssl : Option SslProxy) (config : Option Config) : Outgoing :=
  match req with
  | .register _ | .unregister _ => ⟨none, config⟩
  | .update _ => ⟨ssl, config⟩

def Site.publish (s : Site) (lb : Lb) (o : Outgoing) : Site where
  sys := ⟨lb, o.config.or s.sys.published⟩
  ssl := o.ssl.or s.ssl
  queue := s.queue ++ (o.reload render).map Publication.wire
  machine := s.machine

def Site.step (env : Env) (s : Site) : SiteStep → Site
  | .request req ssl =>
    match perform env s.sys.lb req with
    | none => s
    | some (lb, config) => s.publish render lb (outgoing req ssl config)
  | .refresh config => s.publish render s.sys.lb ⟨none, some config⟩
  | .deliver =>
    match s.queue with
    | [] => s
    | wire :: queue => { s with queue := queue, machine := s.machine.receive wire }

def Machine.fresh : Machine := ⟨none, none, none, none, none, false⟩

def Site.create (lb : Lb) (inbounds : List Inbound) (ssl : Option SslProxy) : Site where
  sys := ⟨lb, some (configParams lb inbounds [])⟩
  ssl := ssl
  queue := (Outgoing.start render ⟨ssl, some (configParams lb inbounds [])⟩).map Publication.wire
  machine := .fresh

/-! ## The files are those published last -/

def SslProxy.keys (ssl : SslProxy) : Bytes := ssl.privateKey ++ Script.newline :: ssl.publicKey

def SslProxy.Carried (ssl : SslProxy) : Prop :=
  LoadBalancer.Carried ssl.keys ∧ LoadBalancer.Carried ssl.studConfig

/-- The keys that are sent with a request are carried. -/
def SiteStep.Carried : SiteStep → Prop
  | .request _ ssl => ∀ x ∈ ssl, x.Carried
  | .refresh _ | .deliver => True

/-- The files of the machine are what was published last, and the proxies run with them. -/
structure Shown (ssl : Option SslProxy) (config : Option Config) (m : Machine) : Prop where
  haproxyConf : m.haproxyConf = config.map fun c => written (render c)
  haproxy : m.haproxy = config.map fun c => some (written (render c))
  chkconfig : m.chkconfig = config.isSome
  studKeys : m.studKeys = ssl.map fun x => written x.keys
  studConf : m.studConf = ssl.map fun x => written x.studConfig
  stud : m.stud = ssl.map fun x => (some (written x.keys), some (written x.studConfig))

variable {render}

theorem deliver_ssl (m : Machine) (name : Text) (x : SslProxy) :
    ((updateSslProxyConfig name x).map Publication.wire).foldl Machine.receive m =
      (m.receive (Publication.wire ⟨"write:keys".toList, x.keys⟩)).receive
        (Publication.wire ⟨name, x.studConfig⟩) := by
  simp only [updateSslProxyConfig, SslProxy.keys, List.map_cons, List.map_nil, List.foldl_cons, List.foldl_nil]

theorem deliver_config (m : Machine) (name : Text) (b : Bytes) :
    ((updateLoadBalancerConfig name none b).map Publication.wire).foldl Machine.receive m =
      m.receive (Publication.wire ⟨name, b⟩) := by
  simp [updateLoadBalancerConfig]

section
variable (hrender : ∀ c, Carried (render c))
include hrender

theorem shown_start {o : Outgoing} (ho : ∀ x ∈ o.ssl, x.Carried) :
    Shown render o.ssl o.config (((o.start render).map Publication.wire).foldl Machine.receive .fresh) := by
  obtain ⟨ssl, config⟩ := o
  unfold Outgoing.start Outgoing.publications
  rw [List.map_append, List.foldl_append]
  have hssl : Shown render ssl none (((ssl.elim [] (updateSslProxyConfig "start:stud".toList)).map
      Publication.wire).foldl Machine.receive .fresh) := by
    cases ssl with
    | none => exact ⟨rfl, rfl, rfl, rfl, rfl, rfl⟩
    | some x =>
      obtain ⟨hkeys, hconf⟩ := ho x rfl
      rw [Option.elim_some, deliver_ssl, receive_writeKeys _ hkeys, receive_startStud _ hconf rfl rfl]
      exact ⟨rfl, rfl, rfl, rfl, rfl, rfl⟩
  cases config with
  | none => exact hssl
  | some c =>
    rw [Option.elim_some, deliver_config, receive_startHaproxy _ (hrender c) hssl.haproxy]
    exact ⟨rfl, rfl, rfl, hssl.studKeys, hssl.studConf, hssl.stud⟩

theorem shown_reload {ssl : Option SslProxy} {config : Option Config} {m : Machine}
    (h : Shown render ssl config m) {o : Outgoing} (ho : ∀ x ∈ o.ssl, x.Carried) :
    Shown render (o.ssl.or ssl) (o.config.or config)
      (((o.reload render).map Publication.wire).foldl Machine.receive m) := by
  obtain ⟨ssl', config'⟩ := o
  unfold Outgoing.reload Outgoing.publications
  rw [List.map_append, List.foldl_append]
  have hssl : Shown render (ssl'.or ssl) config (((ssl'.elim [] (updateSslProxyConfig "reload:stud".toList)).map
      Publication.wire).foldl Machine.receive m) := by
    cases ssl' with
    | none => exact h
    | some x =>
      obtain ⟨hkeys, hconf⟩ := ho x rfl
      rw [Option.elim_some, deliver_ssl, receive_writeKeys _ hkeys, receive_reloadStud _ hconf]
      exact ⟨h.haproxyConf, h.haproxy, h.chkconfig, rfl, rfl, rfl⟩
  cases config' with
  | none => exact hssl
  | some c =>
    rw [Option.elim_some, deliver_config, receive_reloadHaproxy _ (hrender c)]
    exact ⟨rfl, rfl, rfl, hssl.studKeys, hssl.studConf, hssl.stud⟩

/-- The machine once it has all messages that are on their way. -/
def Site.drained (s : Site) : Machine := s.queue.foldl Machine.receive s.machine

theorem shown_publish {s : Site} (h : Shown render s.ssl s.sys.published s.drained) (lb : Lb)
    {o : Outgoing} (ho : ∀ x ∈ o.ssl, x.Carried) :
    Shown render (s.publish render lb o).ssl (s.publish render lb o).sys.published
      (s.publish render lb o).drained := by
  unfold Site.drained Site.publish
  rw [List.foldl_append]
  exact shown_reload hrender h ho

theorem shown_step {env : Env} {s : Site} (h : Shown render s.ssl s.sys.published s.drained)
    {a : SiteStep} (ha : a.Carried) :
    Shown render (s.step render env a).ssl (s.step render env a).sys.published (s.step render env a).drained := by
  cases a with
  | request req ssl =>
    simp only [Site.step]
    cases perform env s.sys.lb req with
    | none => exact h
    | some r =>
      apply shown_publish hrender h r.1
      intro x hx
      cases req with
      | update data => exact ha x hx
      | register _ => cases hx
      | unregister _ => cases hx
  | refresh config => exact shown_publish hrender h s.sys.lb fun x hx => nomatch hx
  | deliver =>
    obtain ⟨sys, ssl, queue, machine⟩ := s
    cases queue with
    | nil => exact h
    | cons wire queue => exact h

/-- Whatever requests a load balancer gets, and however late its messages arrive: when none is on
its way the files of the machine are those published last, and the proxies run with them. No file
has one to forty-five bytes, as the machine decodes no line without a break. -/
theorem machine_shows_published (env : Env) (lb : Lb) (inbounds : List Inbound) (ssl : Option SslProxy)
    (hssl : ∀ x ∈ ssl, x.Carried) (steps : List SiteStep) (hsteps : ∀ a ∈ steps, a.Carried) :
    let s := steps.foldl (Site.step render env) (Site.create render lb inbounds ssl)
    s.queue = [] → Shown render s.ssl s.sys.published s.machine := by
  intro s hq
  have hstart := shown_start hrender (o := ⟨ssl, some (configParams lb inbounds [])⟩) hssl
  have hinv : Shown render s.ssl s.sys.published s.drained :=
    Each.invariant (fun s : Site => Shown render s.ssl s.sys.published s.drained)
      (fun _ _ h ha => shown_step hrender h ha) (each_forall.mpr hsteps) hstart
  unfold Site.drained at hinv
  rw [hq] at hinv
  exact hinv

end

def serverLines (c : Config) : Bytes :=
  utf8 "global\n  log 127.0.0.1 local0\n  maxconn 4096\ndefaults\n".toList ++
    c.servers.flatMap fun s => utf8 s.ipv4 ++ [Script.newline]

theorem carried_serverLines (c : Config) : Carried (serverLines c) := by
  right
  rw [serverLines, List.length_append]
  have hhead : 45 < (utf8 "global\n  log 127.0.0.1 local0\n  maxconn 4096\ndefaults\n".toList).length := by
    decide
  omega

def webKeys : SslProxy where
  privateKey := List.replicate 40 49
  publicKey := List.replicate 40 50
  studConfig := List.replicate 50 51 ++ [Script.newline]

def webSite : Site :=
  [.deliver, .request (registerVif "vif-a".toList) none, .deliver, .deliver, .deliver].foldl
    (Site.step serverLines webEnv) (Site.create serverLines webLb [httpOn (.num 80)] (some webKeys))

theorem machine_shows_published_web :
    Shown serverLines (some webKeys) webSite.sys.published webSite.machine ∧
      webSite.sys.published.map (fun c => c.servers.map Server.ipv4) = some ["10.0.0.2".toList] := by
  refine ⟨machine_shows_published carried_serverLines webEnv webLb [httpOn (.num 80)] (some webKeys)
    ?_ [.deliver, .request (registerVif "vif-a".toList) none, .deliver, .deliver, .deliver] ?_ rfl,
    by decide⟩
  · rintro x ⟨⟩
    exact ⟨.inr (by decide), .inr (by decide)⟩
  · intro a ha
    simp only [List.mem_cons, List.not_mem_nil, or_false] at ha
    rcases ha with rfl | rfl | rfl | rfl | rfl
    · trivial
    · intro x hx
      cases hx
    · trivial
    · trivial
    · trivial

end

end LoadBalancer

end WakameVdc
