import WakameVdc.Lib.Table
import WakameVdc.Taggable

/-!
# Monitors of network interfaces

The routes under `/network_vifs/:vif_id/monitors/:monitor_id` of
`endpoints/12.03/network_vifs.rb`. The interface of the path is looked up before
each of them, the monitor then in the whole table. The database tells uuids apart by the
weights of its collation.
-/

namespace WakameVdc

open Lib

namespace Monitor

structure VifRow where
  id : Nat
  uuid : Text
  accountId : Text
  deriving DecidableEq, Repr

structure MonitorRow where
  id : Nat
  uuid : Text
  networkVifId : Nat
  enabled : Bool
  title : String
  params : String
  deleted : Bool
  deriving DecidableEq, Repr

instance : Row VifRow := ⟨VifRow.id⟩
instance : Row MonitorRow := ⟨MonitorRow.id⟩

structure Db (collate : Text → List Nat) where
  vifs : Table VifRow
  monitors : Table MonitorRow
  /-- The unique index of the table. -/
  uuids : (monitors.rows.map fun m => collate m.uuid).Nodup

inductive Verb
  | get | put | delete
  deriving DecidableEq, Repr

/-- `account` is the requester's; a parameter that is not given is `none`. -/
structure Request where
  verb : Verb
  account : Option Text
  vifId : Text
  monitorId : Text
  serviceType : Option String
  enabled : Option String
  title : Option String
  params : Option String
  deriving DecidableEq, Repr

inductive ApiError
  | invalidParameter
  | unknownUuidResource (uuid : Text)
  | invalidUuid (uuid : Text)
  | noMethodError
  deriving DecidableEq, Repr

inductive Response
  | monitor (row : MonitorRow)
  | deleted (uuids : List Text)
  deriving DecidableEq, Repr

def vifPrefix : Text := "vif".toList

def monitorPrefix : Text := "nwm".toList

def MonitorRow.update (m : MonitorRow) (r : Request) : MonitorRow :=
  { m with
    enabled := (r.enabled.map (· == "true")).getD m.enabled
    title := r.title.getD m.title
    params := r.params.getD m.params }

def MonitorRow.canonicalUuid (m : MonitorRow) : Text := Taggable.canonicalUuid monitorPrefix m.uuid

variable {collate : Text → List Nat}

namespace Db

/-- `find_by_uuid(:NetworkVif, params[:vif_id])`; interfaces have no service
type to compare with. -/
def findVif (db : Db collate) (r : Request) : Except ApiError VifRow :=
  if !Taggable.validUuidSyntax vifPrefix r.vifId then .error .invalidParameter
  else
    match Taggable.trimUuid vifPrefix r.vifId with
    | none => .error (.invalidUuid r.vifId)
    | some uuid =>
      match db.vifs.first fun v => collate v.uuid == collate uuid with
      | none => .error (.unknownUuidResource r.vifId)
      | some vif =>
        if r.account.any fun a => vif.accountId != a then .error (.unknownUuidResource r.vifId)
        else if r.serviceType.isSome then .error .noMethodError
        else .ok vif

/-- `M::NetworkVifMonitor[params[:monitor_id]] || raise(..)` -/
def findMonitor (db : Db collate) (monitorId : Text) : Except ApiError MonitorRow :=
  match Taggable.trimUuid monitorPrefix monitorId with
  | none => .error (.invalidUuid monitorId)
  | some uuid =>
    match db.monitors.first fun m => collate m.uuid == collate uuid with
    | none => .error (.unknownUuidResource monitorId)
    | some m => .ok m

def modifyMonitor (db : Db collate) (id : Nat) (f : MonitorRow → MonitorRow) (hid : ∀ m, (f m).id = m.id)
    (huuid : ∀ m, (f m).uuid = m.uuid) : Db collate where
  vifs := db.vifs
  monitors := db.monitors.modify id f hid
  uuids := by
    have h : ((db.monitors.modify id f hid).rows.map fun m => collate m.uuid) =
        db.monitors.rows.map fun m => collate m.uuid := by
      simp only [Table.modify, Table.update, List.map_map]
      refine List.map_congr_left fun m _ => ?_
      by_cases hm : Row.pk m = id <;> simp [hm, huuid]
    rw [h]
    exact db.uuids

def destroyMonitor (db : Db collate) (m : MonitorRow) : Db collate :=
  db.modifyMonitor m.id (fun m => { m with deleted := true }) (fun _ => rfl) fun _ => rfl

def saveMonitor (db : Db collate) (m : MonitorRow) (r : Request) : Db collate :=
  db.modifyMonitor m.id (fun m => m.update r) (fun _ => rfl) fun _ => rfl

end Db

def Db.route (db : Db collate) (r : Request) (m : MonitorRow) : Response × Db collate :=
  match r.verb with
  | .get => (.monitor m, db)
  | .delete => (.deleted [m.canonicalUuid], db.destroyMonitor m)
  | .put => (.monitor (m.update r), db.saveMonitor m r)

def Db.serve (db : Db collate) (r : Request) : Except ApiError Response × Db collate :=
  match db.findVif r with
  | .error e => (.error e, db)
  | .ok _ =>
    match db.findMonitor r.monitorId with
    | .error e => (.error e, db)
    | .ok m => (.ok (db.route r m).1, (db.route r m).2)

/-! ## Isolation -/

def Response.Reads (m : MonitorRow) : Response → Prop
  | .monitor row => row.id = m.id
  | .deleted uuids => m.canonicalUuid ∈ uuids

def ApiError.IsNotFound (e : ApiError) : Prop := ∃ uuid, e = .unknownUuidResource uuid

def Db.Permits (db : Db collate) (r : Request) (m : MonitorRow) : Prop :=
  ∃ vif, db.findVif r = .ok vif ∧ m.networkVifId = vif.id ∧ ∀ a ∈ r.account, vif.accountId = a

structure Db.Isolates (db : Db collate) (r : Request) : Prop where
  read : ∀ m ∈ db.monitors.rows, ∀ res, (db.serve r).1 = .ok res → res.Reads m → db.Permits r m
  written : ∀ m ∈ db.monitors.rows, (db.serve r).2.monitors.find m.id ≠ some m → db.Permits r m
  other : ∀ vif m, db.findVif r = .ok vif → db.findMonitor r.monitorId = .ok m →
    m.networkVifId ≠ vif.id → ∃ e, (db.serve r).1 = .error e ∧ e.IsNotFound

variable {db : Db collate} {r : Request}

theorem Db.account_of_findVif {vif : VifRow} (h : db.findVif r = .ok vif) :
    ∀ a ∈ r.account, vif.accountId = a := by
  intro a ha
  unfold findVif at h
  split at h
  · cases h
  · split at h
    · cases h
    · split at h
      · cases h
      · split at h
        · cases h
        · rename_i hacc
          split at h
          · cases h
          · cases h
            rw [Option.mem_def.mp ha] at hacc
            simpa using hacc

theorem Db.mem_of_findMonitor {id : Text} {m : MonitorRow} (h : db.findMonitor id = .ok m) :
    m ∈ db.monitors.rows := by
  unfold findMonitor at h
  split at h
  · cases h
  · split at h
    · cases h
    · rename_i hf
      cases h
      exact (Table.first_spec _ hf).1

theorem Db.serve_ok {res : Response} (h : (db.serve r).1 = .ok res) :
    ∃ vif m, db.findVif r = .ok vif ∧ db.findMonitor r.monitorId = .ok m ∧
      res = (db.route r m).1 := by
  unfold serve at h
  cases hv : db.findVif r with
  | error e => simp [hv] at h
  | ok vif =>
    cases hm : db.findMonitor r.monitorId with
    | error e => simp [hv, hm] at h
    | ok m => exact ⟨vif, m, rfl, rfl, by simpa [hv, hm] using h.symm⟩

theorem Db.serve_of_found {vif : VifRow} {m : MonitorRow} (hv : db.findVif r = .ok vif)
    (hm : db.findMonitor r.monitorId = .ok m) :
    db.serve r = (.ok (db.route r m).1, (db.route r m).2) := by
  simp [serve, hv, hm]

theorem Db.eq_of_reads {m found : MonitorRow} (hm : m ∈ db.monitors.rows)
    (hfound : found ∈ db.monitors.rows) (h : (db.route r found).1.Reads m) : m = found := by
  have byId : found.id = m.id → m = found := fun hid =>
    db.monitors.eq_of_pk hm hfound hid.symm
  cases hverb : r.verb with
  | get => exact byId (by simpa [route, hverb, Response.Reads] using h)
  | put => exact byId (by simpa [route, hverb, Response.Reads, MonitorRow.update] using h)
  | delete =>
    have huuid : m.uuid = found.uuid := by
      simpa [route, hverb, Response.Reads, MonitorRow.canonicalUuid, Taggable.canonicalUuid] using h
    exact List.inj_on_of_nodup_map db.uuids hm hfound (congrArg collate huuid)

theorem Db.find_modifyMonitor_ne {id k : Nat} {f : MonitorRow → MonitorRow}
    {hid : ∀ m, (f m).id = m.id} {huuid : ∀ m, (f m).uuid = m.uuid} (h : k ≠ id) :
    (db.modifyMonitor id f hid huuid).monitors.find k = db.monitors.find k := by
  rw [modifyMonitor, Table.find_modify, if_neg h]

theorem Db.find_route_ne {m : MonitorRow} {k : Nat} (h : k ≠ m.id) :
    (db.route r m).2.monitors.find k = db.monitors.find k := by
  cases hverb : r.verb with
  | get => simp [route, hverb]
  | put =>
    simp only [route, hverb, saveMonitor]
    exact find_modifyMonitor_ne h
  | delete =>
    simp only [route, hverb, destroyMonitor]
    exact find_modifyMonitor_ne h

/-- A request keeps to the interface of its path just when the monitor its other
id finds is one of that interface. -/
theorem isolates_iff (db : Db collate) (r : Request) :
    db.Isolates r ↔ ∀ vif m, db.findVif r = .ok vif → db.findMonitor r.monitorId = .ok m →
      m.networkVifId = vif.id := by
  constructor
  · intro h vif m hv hm
    by_contra hne
    obtain ⟨e, he, -⟩ := h.other vif m hv hm hne
    rw [Db.serve_of_found hv hm] at he
    cases he
  · intro h
    have permits : ∀ vif m, db.findVif r = .ok vif → db.findMonitor r.monitorId = .ok m →
        db.Permits r m := fun vif m hv hm => ⟨vif, hv, h vif m hv hm, Db.account_of_findVif hv⟩
    refine ⟨?_, ?_, ?_⟩
    · intro m hm res hres hread
      obtain ⟨vif, found, hv, hf, rfl⟩ := Db.serve_ok hres
      rw [Db.eq_of_reads hm (Db.mem_of_findMonitor hf) hread]
      exact permits vif found hv hf
    · intro m hm hw
      have hstored : db.monitors.find m.id = some m := db.monitors.find_of_mem hm
      cases hv : db.findVif r with
      | error e => simp [Db.serve, hv, hstored] at hw
      | ok vif =>
        cases hf : db.findMonitor r.monitorId with
        | error e => simp [Db.serve, hv, hf, hstored] at hw
        | ok found =>
          rw [Db.serve_of_found hv hf] at hw
          by_cases hid : m.id = found.id
          · rw [db.monitors.eq_of_pk hm (Db.mem_of_findMonitor hf) hid]
            exact permits vif found hv hf
          · exact absurd ((Db.find_route_ne hid).trans hstored) hw
    · intro vif m hv hm hne
      exact absurd (h vif m hv hm) hne

def caseless (t : Text) : List Nat := t.map fun c => c.toUpper.toNat

def twoAccounts : Db caseless where
  vifs := ⟨[⟨1, "a".toList, "a-one".toList⟩, ⟨2, "b".toList, "a-two".toList⟩], 3,
    by simp [Row.pk], by simp [Row.pk]⟩
  monitors := ⟨[⟨1, "m".toList, 1, true, "mine", "", false⟩,
    ⟨2, "n".toList, 2, true, "yours", "", false⟩], 3, by simp [Row.pk], by simp [Row.pk]⟩
  uuids := by decide

def deleteOther : Request where
  verb := .delete
  account := some "a-one".toList
  vifId := "vif-a".toList
  monitorId := "nwm-n".toList
  serviceType := none
  enabled := none
  title := none
  params := none

theorem not_isolates : ¬ ∀ (collate : Text → List Nat) (db : Db collate) (r : Request), db.Isolates r := by
  intro h
  have hv : twoAccounts.findVif deleteOther = .ok ⟨1, "a".toList, "a-one".toList⟩ := by decide +kernel
  have hm : twoAccounts.findMonitor deleteOther.monitorId =
      .ok ⟨2, "n".toList, 2, true, "yours", "", false⟩ := by decide +kernel
  obtain ⟨e, he, -⟩ := (h caseless twoAccounts deleteOther).other _ _ hv hm (by decide)
  rw [Db.serve_of_found hv hm] at he
  cases he

end Monitor

end WakameVdc
