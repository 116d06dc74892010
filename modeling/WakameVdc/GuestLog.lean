import WakameVdc.Lib.Hash
import WakameVdc.Lib.Run
import WakameVdc.TextLog

/-!
# The logs of the guests on their way to the storage

The input plugin `wakame_vdc_guest_relay` tells from the address of a connection which
instance a batch of records comes from, and writes that into each record. The connection it
looks at is the oldest one that is open. The output plugin
`wakame_vdc_logstore` buffers the records and writes a chunk of them to the rows that the
text log is read from.
-/

namespace WakameVdc

open Lib

namespace GuestLog

open TextLog (LogRow Cassandra Log)

/-! ## The relay -/

/-- `metadata.yml` of an instance; a key that it lacks is `nil`. -/
structure MetaData where
  localIpv4 : Option Text
  accountId : Option Text

/-- A directory `i-*` below the path of the instances. The file may be missing. -/
structure Directory where
  instanceId : Text
  metaData : Option MetaData
  matched : "i-".toList <+: instanceId

structure Origin where
  instanceId : Text
  accountId : Option Text
  deriving DecidableEq

abbrev Instances := Hash (Option Text) Origin

abbrev LogRecord := Hash Text (Option Text)

def systemAccountId : Text := "a-00000000".toList

def systemNodeId : Text := "none".toList

def prefixKey : Text := "x_wakame_".toList

def instanceIdKey : Text := prefixKey ++ "instance_id".toList

def accountIdKey : Text := prefixKey ++ "account_id".toList

def labelKey : Text := prefixKey ++ "label".toList

def ipaddrKey : Text := prefixKey ++ "ipaddr".toList

def messageKey : Text := "message".toList

def addInstance (instances : Instances) (d : Directory) : Instances :=
  match d.metaData with
  | none => instances
  | some m => AList.insert m.localIpv4 ⟨d.instanceId, m.accountId⟩ instances

def buildInstancesMappingTable (dirs : List Directory) (instances : Instances) : Instances :=
  dirs.foldl addInstance instances

theorem addInstance_none {d : Directory} (h : d.metaData = none) (t : Instances) : addInstance t d = t := by
  unfold addInstance
  rw [h]

theorem lookup_addInstance {d : Directory} {m : MetaData} (h : d.metaData = some m) (t : Instances)
    (ip : Option Text) :
    (addInstance t d).lookup ip =
      if ip = m.localIpv4 then some ⟨d.instanceId, m.accountId⟩ else t.lookup ip := by
  unfold addInstance
  rw [h]
  exact Hash.lookup_insert _ _ t ip

/-- `e[1].merge(send_data)`: what the guest has under these keys is overwritten. -/
def identify (o : Origin) (label ip : Text) (r : LogRecord) : LogRecord :=
  AList.insert ipaddrKey (some ip)
    (AList.insert labelKey (some label)
      (AList.insert accountIdKey o.accountId
        (AList.insert instanceIdKey (some o.instanceId) r)))

/-- The table after a message, and where the message comes from. An address that is not in
the table raises. -/
def onMessage (hostIp : Text) (dirs : List Directory) (instances : Instances) (ip : Text) :
    Instances × Option Origin :=
  if ip = hostIp then (instances, some ⟨systemNodeId, some systemAccountId⟩)
  else
    let instances :=
      if (instances.lookup (some ip)).isSome then instances
      else buildInstancesMappingTable dirs instances
    (instances, instances.lookup (some ip))

/-! ## The store -/

def forwardTag : Text := "wakame-logger".toList

def format (tag : Text) (r : LogRecord) : LogRecord :=
  let r := if (r.lookup labelKey).isSome then r else AList.insert labelKey (some tag) r
  if (r.lookup accountIdKey).isSome then r else AList.insert accountIdKey (some systemAccountId) r

def value (r : LogRecord) (key : Text) : Text := ((r.lookup key).getD (some [])).getD []

/-- A record without an instance is one of the system. -/
def rowkey (r : LogRecord) (time : Text) : Text :=
  let instanceId := if value r instanceIdKey = [] then systemNodeId else value r instanceIdKey
  [':'].intercalate [value r accountIdKey, instanceId, value r labelKey, time]

section
variable {ι τ : Type} [LinearOrder ι]

/-- A column of a row that is new, in its place by its id, or one that is written again. -/
def insertColumn (id : ι) (message : Text) : List (ι × Text) → List (ι × Text)
  | [] => [(id, message)]
  | c :: cs =>
    if id < c.1 then (id, message) :: c :: cs
    else if id = c.1 then (id, message) :: cs
    else c :: insertColumn id message cs

theorem mem_insertColumn {id : ι} {message : Text} {cs : List (ι × Text)} {c : ι × Text}
    (h : c ∈ insertColumn id message cs) : c = (id, message) ∨ c ∈ cs := by
  induction cs with
  | nil => exact .inl (List.mem_singleton.mp h)
  | cons d cs ih =>
    unfold insertColumn at h
    split at h
    · exact List.mem_cons.mp h
    · split at h
      · exact (List.mem_cons.mp h).imp_right (List.mem_cons_of_mem d)
      · rcases List.mem_cons.mp h with rfl | h
        · exact .inr List.mem_cons_self
        · exact (ih h).imp_right (List.mem_cons_of_mem d)

theorem sorted_insertColumn (id : ι) (message : Text) {cs : List (ι × Text)}
    (h : cs.Pairwise fun a b => a.1 < b.1) :
    (insertColumn id message cs).Pairwise fun a b => a.1 < b.1 := by
  induction cs with
  | nil => exact List.pairwise_singleton _ _
  | cons d cs ih =>
    obtain ⟨hd, hcs⟩ := List.pairwise_cons.mp h
    unfold insertColumn
    split
    · rename_i hlt
      refine List.pairwise_cons.mpr ⟨fun c hc => ?_, h⟩
      rcases List.mem_cons.mp hc with rfl | hc
      · exact hlt
      · exact hlt.trans (hd c hc)
    · split
      · rename_i he
        exact List.pairwise_cons.mpr ⟨fun c hc => he ▸ hd c hc, hcs⟩
      · rename_i hlt hne
        refine List.pairwise_cons.mpr ⟨fun c hc => ?_, ih hcs⟩
        rcases mem_insertColumn hc with rfl | hc
        · exact lt_of_le_of_ne (not_lt.mp hlt) fun he => hne he.symm
        · exact hd c hc

def insertRow (row : LogRow ι) (id : ι) (message : Text) : LogRow ι :=
  ⟨insertColumn id message row.entries, sorted_insertColumn id message row.sorted⟩

def insert (storage : Cassandra ι τ) (key : Text) (id : ι) (message : Text) : Cassandra ι τ :=
  { storage with cf := Function.update storage.cf key (insertRow (storage.cf key) id message) }

/-- The address of the host, and how the agent writes the hour of a time (`%Y%m%d%H`), which
it does in its own time zone. -/
structure Agent (τ : Type) where
  hostIp : Text
  localHour : τ → Text

/-- A chunk is written record by record, each with the id and the time that are read for it.
A record without a message raises, and leaves what has been written before. -/
def write (agent : Agent τ) :
    Cassandra ι τ → List (LogRecord × ι × τ) → Except (Cassandra ι τ) (Cassandra ι τ)
  | storage, [] => .ok storage
  | storage, (r, id, now) :: chunk =>
    match r.lookup messageKey with
    | some (some message) => write agent (insert storage (rowkey r (agent.localHour now)) id message) chunk
    | some none | none => .error storage

/-! ## The system -/

/-- A connection of a guest, with the address at its other end. -/
structure Connection where
  id : Nat
  instanceIp : Text
  deriving DecidableEq

/-- The connections are those that are open, the oldest first. -/
structure State (ι τ : Type) [LinearOrder ι] where
  dirs : List Directory
  connections : List Connection
  instances : Instances
  buffer : List LogRecord
  storage : Cassandra ι τ

inductive Action (ι τ : Type)
  /-- Instances come and go on the host. -/
  | directories (dirs : List Directory)
  | connect (c : Connection)
  | disconnect (c : Connection)
  | message (c : Connection) (label : Text) (entries : List LogRecord)
  | flush (columns : List (ι × τ))

namespace State

variable (agent : Agent τ)

def start (storage : Cassandra ι τ) : State ι τ := ⟨[], [], ∅, [], storage⟩

/-- `watchers.keys[2]`; the two before it are those of the plugin itself. -/
def broker (s : State ι τ) : Option Connection := s.connections.head?

def step (s : State ι τ) : Action ι τ → State ι τ
  | .directories dirs => { s with dirs := dirs }
  | .connect c => { s with connections := s.connections ++ [c] }
  | .disconnect c => { s with connections := s.connections.erase c }
  | .message _ label entries =>
    match s.broker with
    | none => s
    | some b =>
      match onMessage agent.hostIp s.dirs s.instances b.instanceIp with
      | (instances, none) => { s with instances := instances }
      | (instances, some o) => { s with
          instances := instances
          buffer := s.buffer ++
            entries.map fun r => format forwardTag (identify o label b.instanceIp r) }
  | .flush columns =>
    match write agent s.storage (s.buffer.zip columns) with
    | .ok storage => { s with buffer := [], storage := storage }
    | .error storage => { s with storage := storage }

end State

end

end GuestLog

end WakameVdc
