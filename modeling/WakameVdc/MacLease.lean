import WakameVdc.Lib.Hex
import WakameVdc.Lib.Proc
import WakameVdc.Lib.Table

/-!
# MAC addresses

`models/mac_lease.rb`, `models/mac_range.rb`, the schedulers of
`scheduler/mac_address`, and what `models/network_vif.rb` does with the address
of a vif when the vif is saved and when it is destroyed.
-/

namespace WakameVdc

open Lib

namespace Mac

/-! ## Tables -/

structure MacLeaseRow where
  id : Nat
  macAddr : Nat
  deriving DecidableEq, Repr

/-- The columns are `mediumint unsigned`. -/
structure MacRangeRow where
  id : Nat
  vendorId : BitVec 24
  rangeBegin : BitVec 24
  rangeEnd : BitVec 24
  deriving DecidableEq, Repr

instance : Row MacLeaseRow := ⟨MacLeaseRow.id⟩
instance : Row MacRangeRow := ⟨MacRangeRow.id⟩

/-- The tables, and the numbers `rand` is going to draw. `mac_leases` has a
unique index on its address. -/
structure Db where
  leases : Table MacLeaseRow
  ranges : Table MacRangeRow
  draws : List Nat
  unique : (leases.rows.map MacLeaseRow.macAddr).Nodup

structure MacTemplate where
  index : Int
  macAddr : Option Text
  deriving DecidableEq, Repr

/-- A new vif, with the host groups of its instance's host node and the `vifs`
parameter of its instance. -/
structure MacVif where
  deviceIndex : Int
  hostGroups : List Nat
  requestVifs : Option (List MacTemplate)
  macAddr : Text
  deriving DecidableEq, Repr

inductive VifInvalid
  | invalidSyntax | notOnLeaseDatabase
  deriving DecidableEq, Repr

inductive MacError
  | argumentError
  | noMethodError
  | nameError
  | runtimeError
  | outOfRange
  | uniqueConstraint
  | noEntryForIndex (index : Int)
  | alreadyLeased (addr : Text)
  | notInAnyRange (addr : Int)
  | noRanges
  | rangeNotFound
  | noMacsLeft (range : Nat)
  | validationFailed (errors : List VifInvalid)
  /-- No call raises this: `rand` has not drawn a free address yet. -/
  | stillDrawing
  deriving DecidableEq, Repr

/-- The configuration, with how the database compares its numbers with a text. -/
structure Conf where
  macAddressVendorId : Text
  pairs : Option (Nat → Option Nat)
  default : Nat
  equalsText : Nat → Text → Bool

abbrev MacM := Proc MacError Db

/-! ## Leases -/

def Db.isLeased (db : Db) (macAddr : Int) : Bool :=
  db.leases.rows.any fun l => (l.macAddr : Int) == macAddr

def Db.insertLease (db : Db) (macAddr : Nat)
    (h : macAddr ∉ db.leases.rows.map MacLeaseRow.macAddr) : Db :=
  { db with
    leases := db.leases.create (fun id => ⟨id, macAddr⟩) fun _ => rfl
    unique := by
      show (List.map _ (_ ++ [_])).Nodup
      rw [List.map_append]
      exact db.unique.append (List.nodup_singleton _) (by simpa using h) }

/-- `MacLease.create` -/
def createLease (macAddr : Int) : MacM Unit := do
  let db ← get
  if macAddr < 0 then throw .outOfRange
  else if h : macAddr.toNat ∉ db.leases.rows.map MacLeaseRow.macAddr then
    set (db.insertLease macAddr.toNat h)
  else throw .uniqueConstraint

/-- `%02x` -/
def hex2 (n : Nat) : Text := (Text.toS16 n).leftpad 2 '0'

/-- The loop of `MacLease.lease`: three numbers are drawn for each turn. -/
def drawDevice (conf : Conf) (db : Db) (vendorId : Text) : List Nat → Option (Text × List Nat)
  | a :: b :: c :: draws =>
    let macAddr := vendorId ++ (hex2 (a % 0xff) ++ hex2 (b % 0xff) ++ hex2 (c % 0xff))
    if db.leases.rows.any fun l => conf.equalsText l.macAddr macAddr then
      drawDevice conf db vendorId draws
    else some (macAddr, draws)
  | _ => none

namespace MacLease

def lease (conf : Conf) (macAddr : Text) : MacM Unit :=
  if macAddr.length = 12 then createLease macAddr.hex
  else if macAddr.length = 6 then do
    let db ← get
    match drawDevice conf db macAddr db.draws with
    | none => throw .stillDrawing
    | some (macAddr, draws) => do
      set { db with draws := draws }
      createLease macAddr.hex
  else throw .argumentError

def stringToInts (conf : Conf) (addrStr : Text) : Option (Int × Int) :=
  if addrStr.length = 6 then some (conf.macAddressVendorId.hex, addrStr.hex)
  else if addrStr.length = 12 then
    some (Text.hex (addrStr.take 6), Text.hex ((addrStr.drop 6).take 12))
  else none

/-- `scan(/.{2}|.+/).join(delim)` -/
def joinPairs (delim : Char) : Text → Text
  | a :: b :: c :: t => a :: b :: delim :: joinPairs delim (c :: t)
  | t => t

def prettyMacAddr (l : MacLeaseRow) (delim : Char) : Text :=
  joinPairs delim ((Text.toS16 l.macAddr).leftpad 12 '0')

end MacLease

/-! ## Ranges -/

namespace MacRangeRow

def concatBegin (r : MacRangeRow) : Nat := r.vendorId.toNat * 0x1000000 + r.rangeBegin.toNat

def concatEnd (r : MacRangeRow) : Nat := r.vendorId.toNat * 0x1000000 + r.rangeEnd.toNat

end MacRangeRow

namespace Db

def amountOfAvailableMacs (db : Db) (r : MacRangeRow) : Int :=
  let leasedCount := db.leases.rows.countP fun l =>
    r.concatBegin ≤ l.macAddr && l.macAddr ≤ r.concatEnd
  (r.concatEnd : Int) - r.concatBegin - leasedCount

def availableMacsLeft (db : Db) (r : MacRangeRow) : Bool := db.amountOfAvailableMacs r > 0

def existsInAnyRange (db : Db) (vendorId addr : Int) : Bool :=
  db.ranges.rows.any fun r =>
    (r.vendorId.toNat : Int) == vendorId && (r.rangeBegin.toNat : Int) ≤ addr &&
      addr ≤ (r.rangeEnd.toNat : Int)

/-- The loop of `get_random_available_mac`: what is drawn until an address that
is not leased. -/
def drawMac (db : Db) (r : MacRangeRow) : List Nat → Option (Nat × List Nat)
  | [] => none
  | d :: draws =>
    let macAddr := r.concatBegin + d % (r.concatEnd - r.concatBegin + 1)
    if db.isLeased macAddr then db.drawMac r draws else some (macAddr, draws)

end Db

def getRandomAvailableMac (r : MacRangeRow) : MacM (Option Nat) := do
  let db ← get
  if !db.availableMacsLeft r then pure none
  else
    match db.drawMac r db.draws with
    | none => throw .stillDrawing
    | some (macAddr, draws) => do
      set { db with draws := draws }
      pure (some macAddr)

/-! ## Schedulers -/

def assignMac (conf : Conf) (vif : MacVif) (mac : Nat) : MacM MacVif := do
  MacLease.lease conf (Text.toS16 mac)
  pure { vif with macAddr := Text.toS16 mac }

namespace Default

def pick : MacM Nat := do
  let db ← get
  match db.ranges.rows.head? with
  | none => throw .noRanges
  | some range => do
    let mac ← getRandomAvailableMac range
    match mac with
    | none => throw (.noMacsLeft range.id)
    | some mac => pure mac

def schedule (conf : Conf) (vif : MacVif) : MacM MacVif := do
  let mac ← pick
  assignMac conf vif mac

end Default

namespace ByHostNodeGroup

/-- The loop over the host groups; the last one with a usable range decides. -/
def tryGroups (conf : Conf) : List Nat → Option Nat → MacM (Option Nat)
  | [], mac => pure mac
  | hid :: hids, mac => do
    match conf.pairs with
    | none => throw .noMethodError
    | some pairs => do
      let db ← get
      match (pairs hid).bind db.ranges.find with
      | none => tryGroups conf hids mac
      | some range =>
        if !db.availableMacsLeft range then tryGroups conf hids mac
        else do
          let mac ← getRandomAvailableMac range
          match mac with
          | none => throw (.noMacsLeft range.id)
          | some mac => tryGroups conf hids (some mac)

def pick (conf : Conf) (vif : MacVif) : MacM Nat := do
  let mac ← tryGroups conf vif.hostGroups none
  match mac with
  | some mac => pure mac
  | none => do
    let db ← get
    match db.ranges.find conf.default with
    | none => throw .rangeNotFound
    | some range => do
      let mac ← getRandomAvailableMac range
      match mac with
      | none => throw (.noMacsLeft range.id)
      | some mac => pure mac

def schedule (conf : Conf) (vif : MacVif) : MacM MacVif := do
  let mac ← pick conf vif
  assignMac conf vif mac

end ByHostNodeGroup

namespace SpecifyMacAddress

/-- `(addr_len == 6 || addr_len == 12) && addr_str =~ /^[0-9a-fA-F]{1,len}$/`;
one line of the string is enough. -/
def validSyntax (addrStr : Text) : Bool :=
  (addrStr.length == 6 || addrStr.length == 12) &&
    (addrStr.splitOn '\n').any fun l => !l.isEmpty && l.all Text.isHex

/-- The message of the first error names a variable that does not exist. -/
def pick (conf : Conf) (vif : MacVif) : MacM Nat := do
  let db ← get
  match vif.requestVifs with
  | none => throw .noMethodError
  | some vifs =>
    match vifs.find? fun temp => temp.index == vif.deviceIndex with
    | none => throw (.noEntryForIndex vif.deviceIndex)
    | some template =>
      match template.macAddr with
      | none => throw .noMethodError
      | some addrStr =>
        if !validSyntax addrStr then throw .nameError
        else
          match MacLease.stringToInts conf addrStr with
          | none => throw .noMethodError
          | some (vendorId, addr) =>
            let fullAddr := vendorId * 0x1000000 + addr
            if db.isLeased fullAddr then throw (.alreadyLeased addrStr)
            else if !db.existsInAnyRange vendorId addr then throw (.notInAnyRange fullAddr)
            else pure fullAddr.toNat

def schedule (conf : Conf) (vif : MacVif) : MacM MacVif := do
  let mac ← pick conf vif
  assignMac conf vif mac

end SpecifyMacAddress

inductive MacScheduler
  | default | byHostNodeGroup | specifyMacAddress
  deriving DecidableEq, Repr

namespace MacScheduler

def pick (conf : Conf) (vif : MacVif) : MacScheduler → MacM Nat
  | default => Default.pick
  | byHostNodeGroup => ByHostNodeGroup.pick conf vif
  | specifyMacAddress => SpecifyMacAddress.pick conf vif

def schedule (conf : Conf) (vif : MacVif) : MacScheduler → MacM MacVif
  | default => Default.schedule conf vif
  | byHostNodeGroup => ByHostNodeGroup.schedule conf vif
  | specifyMacAddress => SpecifyMacAddress.schedule conf vif

end MacScheduler

/-! ## Vifs -/

namespace NetworkVif

def normalizeMacAddr (str : Text) : Except MacError Text :=
  let str := (str.map Char.toLower).filter Text.isLowerHex
  if str.length > 12 then .error .runtimeError else .ok str

def validate (db : Db) (macAddr : Text) : List VifInvalid :=
  (if macAddr.length = 12 ∧ macAddr.all Text.isLowerHex then [] else [.invalidSyntax]) ++
    if db.isLeased macAddr.hex then [] else [.notOnLeaseDatabase]

/-- `save` of a new vif, as far as its address goes. -/
def save (vif : MacVif) : MacM MacVif := do
  let db ← get
  match normalizeMacAddr vif.macAddr with
  | .error e => throw e
  | .ok macAddr =>
    match validate db macAddr with
    | [] => pure { vif with macAddr := macAddr }
    | errors => throw (.validationFailed errors)

/-- `before_destroy` looks the lease up by the address of the vif. -/
def beforeDestroy (db : Db) (vif : MacVif) : Db :=
  match db.leases.first fun l => (l.macAddr : Int) == vif.macAddr.hex with
  | none => db
  | some maclease =>
    { db with
      leases := db.leases.delete fun l => l.id == maclease.id
      unique := db.unique.sublist (List.filter_sublist.map _) }

end NetworkVif

end Mac

end WakameVdc
