import Mathlib.Data.List.Nodup
import Mathlib.Data.List.Sort
import WakameVdc.Lib.Scan

/-!
# PCI slots of a Kvm instance

`build_qemu_options` gives each virtio drive a PCI slot by the letters of its
device name and each NIC one by its device index. The drive with the metadata
gets the successor of the boot device's name.
-/

namespace WakameVdc

open Lib

namespace Kvm

/-! ## Device names -/

/-- `validate_volume_model`: one line of the name is a device name. -/
def validateVolumeModel (guestDeviceName : Text) : Bool :=
  ["sd", "hd", "vd"].any fun kind =>
    (guestDeviceName.map Char.toLower |>.splitOn '\n').any fun line =>
      kind.toList.isPrefixOf line && line.length > 2 && (line.drop 2).all Char.isLower

/-- `LINUX_DEVICE_INDEX_MAP` -/
def linuxDeviceIndex (c : Char) : Nat := c.toNat - 'a'.toNat

/-- The drive index of a device name; `none` if no pattern matches. -/
def driveIndex (deviceName : Text) : Option Nat :=
  let name := deviceName.map Char.toLower
  let letters := ["sd", "vd", "xvd", "hd"].firstM fun kind =>
    Text.scan kind.toList Char.isLower name
  letters.map fun w => w.foldl (fun r c => r + linuxDeviceIndex c) 0

structure VolumeHash where
  uuid : Text
  guestDeviceName : Text
  deriving DecidableEq, Repr

structure VifHash where
  uuid : Text
  macAddr : Text
  deviceIndex : Option Int
  deriving DecidableEq, Repr

/-- What `hc.inst` has of the instance, in the order of its hashes. -/
structure InstHash where
  bootVolumeId : Text
  virtio : Bool
  volumes : List VolumeHash
  vifs : List VifHash
  deriving DecidableEq, Repr

/-- The `-device` option of a drive. -/
structure DriveOptions where
  deviceModel : String
  uuid : Text
  bootindex : Bool
  addr : Option Nat
  deriving DecidableEq, Repr

/-- The `-net nic` option of a vif. -/
structure NicOptions where
  vlan : Int
  macaddr : Text
  model : String
  addr : Int
  ifname : Text
  deriving DecidableEq, Repr

structure QemuOptions where
  drives : List DriveOptions
  nics : List NicOptions
  deriving DecidableEq, Repr

def kvmNicPciAddrOffset : Int := 0x10

def qemuDriveDeviceOptions (inst : InstHash) (volume : VolumeHash) : Option DriveOptions := do
  let driveIdx ← driveIndex volume.guestDeviceName
  some
    { deviceModel := if inst.virtio then "virtio-blk-pci" else "ide-drive"
      uuid := volume.uuid
      bootindex := inst.bootVolumeId == volume.uuid
      addr := if inst.virtio then some (driveIdx + 4) else none }

def VifHash.nicOptions (inst : InstHash) (vif : VifHash) : NicOptions :=
  { vlan := vif.deviceIndex.getD 0
    macaddr := vif.macAddr
    model := if inst.virtio then "virtio" else "e1000"
    addr := kvmNicPciAddrOffset + vif.deviceIndex.getD 0
    ifname := vif.uuid }

/-- The volumes a drive is made for: with the boot volume comes the metadata.
`succ` stands for `String#succ`; nothing here depends on how it counts. -/
def InstHash.driveVolumes (succ : Text → Text) (inst : InstHash) : List VolumeHash :=
  inst.volumes.flatMap fun v =>
    if inst.bootVolumeId = v.uuid then [v, ⟨"metadata".toList, succ v.guestDeviceName⟩] else [v]

/-- The drives and NICs `build_qemu_options` puts on the command line; `none` if it
raises. A vif without an index cannot be sorted among others. -/
def buildQemuOptions (succ : Text → Text) (inst : InstHash) : Option QemuOptions := do
  let drives ← (inst.driveVolumes succ).mapM (qemuDriveDeviceOptions inst)
  if (inst.vifs.any (·.deviceIndex.isNone) && inst.vifs.any (·.deviceIndex.isSome)) then none
  else
    let vifs := inst.vifs.insertionSort fun a b => a.deviceIndex.getD 0 ≤ b.deviceIndex.getD 0
    some ⟨drives, vifs.map (VifHash.nicOptions inst)⟩

/-- The slots in use: those of the drives, the metadata drive included, and of the
NICs. -/
def QemuOptions.slots (o : QemuOptions) : List Int :=
  (o.drives.filterMap DriveOptions.addr).map Int.ofNat ++ o.nics.map NicOptions.addr

/-! ## The slots by name and index -/

section
variable {succ : Text → Text} {inst : InstHash} {o : QemuOptions}

/-- The drive indexes of the device names, the successor of the boot device's among
them. -/
def InstHash.driveIndexes (succ : Text → Text) (inst : InstHash) : List Nat :=
  (inst.driveVolumes succ).filterMap fun v => driveIndex v.guestDeviceName

theorem addrs_of_mapM (hv : inst.virtio = true) {volumes : List VolumeHash}
    {drives : List DriveOptions}
    (h : volumes.mapM (qemuDriveDeviceOptions inst) = some drives) :
    drives.filterMap DriveOptions.addr =
      (volumes.filterMap fun v => driveIndex v.guestDeviceName).map (· + 4) := by
  induction volumes generalizing drives with
  | nil =>
    cases h
    rfl
  | cons v volumes ih =>
    rw [List.mapM_cons] at h
    cases hd : driveIndex v.guestDeviceName with
    | none => simp [qemuDriveDeviceOptions, hd] at h
    | some k =>
      cases hm : volumes.mapM (qemuDriveDeviceOptions inst) with
      | none => simp [hm] at h
      | some ds =>
        simp only [qemuDriveDeviceOptions, hd, hm, hv, if_true, Option.bind_eq_bind,
          Option.bind_some, Option.pure_def, Option.some.injEq] at h
        subst h
        simp [hd, ih hm]

theorem slots_perm (hv : inst.virtio = true) (h : buildQemuOptions succ inst = some o) :
    o.slots.Perm ((inst.driveIndexes succ).map (fun k : Nat => (k : Int) + 4) ++
      inst.vifs.map fun v => 0x10 + v.deviceIndex.getD 0) := by
  unfold buildQemuOptions at h
  cases hm : (inst.driveVolumes succ).mapM (qemuDriveDeviceOptions inst) with
  | none => simp [hm] at h
  | some drives =>
    rw [hm] at h
    simp only [Option.bind_eq_bind, Option.bind_some] at h
    split at h
    · cases h
    · cases h
      unfold QemuOptions.slots
      dsimp only
      rw [addrs_of_mapM hv hm, List.map_map, List.map_map]
      exact List.Perm.append (List.Perm.refl _) ((List.perm_insertionSort _ _).map _)

/-- A vif without an index is alone. -/
theorem nodup_indexes (h : buildQemuOptions succ inst = some o)
    (hd : (inst.vifs.map VifHash.deviceIndex).Nodup) :
    (inst.vifs.map fun v => v.deviceIndex.getD 0).Nodup := by
  have hmixed : ∀ v ∈ inst.vifs, ∀ w ∈ inst.vifs, v.deviceIndex = none → w.deviceIndex = none := by
    intro v hv w hw hn
    by_contra hs
    unfold buildQemuOptions at h
    cases hm : (inst.driveVolumes succ).mapM (qemuDriveDeviceOptions inst) with
    | none => simp [hm] at h
    | some drives =>
      have hany : (inst.vifs.any (·.deviceIndex.isNone) &&
          inst.vifs.any (·.deviceIndex.isSome)) = true := by
        rw [Bool.and_eq_true, List.any_eq_true, List.any_eq_true]
        exact ⟨⟨v, hv, by simp [hn]⟩, ⟨w, hw, Option.isSome_iff_ne_none.mpr hs⟩⟩
      rw [hm] at h
      simp [hany] at h
  rw [show (fun v : VifHash => v.deviceIndex.getD 0) = (·.getD 0) ∘ VifHash.deviceIndex from rfl,
    ← List.map_map]
  refine hd.map_on fun a ha b hb hab => ?_
  obtain ⟨v, hv, rfl⟩ := List.mem_map.mp ha
  obtain ⟨w, hw, rfl⟩ := List.mem_map.mp hb
  cases hv' : v.deviceIndex with
  | none => rw [hmixed v hv w hw hv']
  | some i =>
    cases hw' : w.deviceIndex with
    | none =>
      rw [hmixed w hw v hv hw'] at hv'
      cases hv'
    | some j =>
      rw [hv', hw'] at hab
      exact congrArg some hab

/-- What keeps the slots apart and in range, by device names and indexes. -/
structure Apart (succ : Text → Text) (inst : InstHash) : Prop where
  names : (inst.driveIndexes succ).Nodup
  low : ∀ k ∈ inst.driveIndexes succ, k ≤ 27
  indexes : ∀ v ∈ inst.vifs, v.deviceIndex.getD 0 ≤ 15
  mixed : ∀ k ∈ inst.driveIndexes succ, ∀ v ∈ inst.vifs, (k : Int) ≠ 12 + v.deviceIndex.getD 0

structure QemuOptions.Distinct (o : QemuOptions) : Prop where
  nodup : o.slots.Nodup
  le : ∀ s ∈ o.slots, s ≤ 0x1f

theorem distinct_of_apart (ha : Apart succ inst) (hv : inst.virtio = true)
    (hd : (inst.vifs.map VifHash.deviceIndex).Nodup) (h : buildQemuOptions succ inst = some o) :
    o.Distinct where
  nodup := by
    rw [(slots_perm hv h).nodup_iff, List.nodup_append]
    refine ⟨ha.names.map fun a b hab => by omega, ?_, ?_⟩
    · rw [show (fun v : VifHash => (0x10 : Int) + v.deviceIndex.getD 0) =
        (fun i : Int => 0x10 + i) ∘ fun v => v.deviceIndex.getD 0 from rfl, ← List.map_map]
      exact (nodup_indexes h hd).map fun a b hab => Int.add_left_cancel hab
    · intro a hka b hvb hab
      obtain ⟨k, hk, rfl⟩ := List.mem_map.mp hka
      obtain ⟨v, hv, rfl⟩ := List.mem_map.mp hvb
      exact ha.mixed k hk v hv (by omega)
  le s hs := by
    rw [(slots_perm hv h).mem_iff] at hs
    rcases List.mem_append.mp hs with hs | hs
    · obtain ⟨k, hk, rfl⟩ := List.mem_map.mp hs
      have := ha.low k hk
      omega
    · obtain ⟨v, hv, rfl⟩ := List.mem_map.mp hs
      have := ha.indexes v hv
      omega

theorem apart_of_distinct (hv : inst.virtio = true) (h : buildQemuOptions succ inst = some o)
    (ho : o.Distinct) : Apart succ inst := by
  have hp := slots_perm hv h
  have hn := ho.nodup
  rw [hp.nodup_iff, List.nodup_append] at hn
  have hle : ∀ s : Int, s ∈ (inst.driveIndexes succ).map (fun k : Nat => (k : Int) + 4) ∨
      s ∈ inst.vifs.map (fun v => 0x10 + v.deviceIndex.getD 0) → s ≤ 0x1f := fun s hs =>
    ho.le s (hp.mem_iff.mpr (List.mem_append.mpr hs))
  refine ⟨hn.1.of_map _, fun k hk => ?_, fun v hv => ?_, fun k hk v hv he => ?_⟩
  · have := hle _ (.inl (List.mem_map_of_mem hk))
    omega
  · have := hle _ (.inr (List.mem_map_of_mem hv))
    omega
  · exact hn.2.2 _ (List.mem_map_of_mem hk) _ (List.mem_map_of_mem hv) (by omega)

end

/-- The slots are distinct and in range exactly when the device names, the successor
of the boot device's among them, have distinct drive indexes up to 27, none of them
twelve more than a device index, and the device indexes are at most 15. -/
theorem slots_distinct_iff (succ : Text → Text) (inst : InstHash) (o : QemuOptions)
    (hv : inst.virtio = true) (hd : (inst.vifs.map VifHash.deviceIndex).Nodup)
    (h : buildQemuOptions succ inst = some o) : o.Distinct ↔ Apart succ inst :=
  ⟨apart_of_distinct hv h, fun ha => distinct_of_apart ha hv hd h⟩

def sample (names : List String) : InstHash :=
  { bootVolumeId := "vol-1".toList
    virtio := true
    volumes := (names.zipIdx 1).map fun n => ⟨"vol-".toList ++ Text.ofNat n.2, n.1.toList⟩
    vifs := [⟨"vif-1".toList, "525400000001".toList, some 0⟩] }

def sampleOptions : QemuOptions :=
  let drive (uuid : String) (boot : Bool) (addr : Nat) : DriveOptions :=
    ⟨"virtio-blk-pci", uuid.toList, boot, some addr⟩
  { drives := [drive "vol-1" true 4, drive "metadata" false 5, drive "vol-2" false 6]
    nics := [⟨0, "525400000001".toList, "virtio", 16, "vif-1".toList⟩] }

theorem slots_distinct_sample : sampleOptions.Distinct :=
  (slots_distinct_iff Text.succ (sample ["vda", "vdc"]) sampleOptions rfl (by decide)
    (by decide +kernel)).mpr ⟨by decide +kernel, by decide +kernel, by decide, by decide +kernel⟩

theorem slots_clash : (buildQemuOptions Text.succ (sample ["vda", "vdm"])).map QemuOptions.slots =
    some [4, 5, 16, 16] := by decide +kernel

/-- The thirteenth letter meets the first NIC. -/
theorem not_slots_distinct :
    ["vda", "vdm"].all (fun n => validateVolumeModel n.toList) = true ∧
    ¬ ∀ o, buildQemuOptions Text.succ (sample ["vda", "vdm"]) = some o → o.Distinct := by
  refine ⟨by decide, fun h => ?_⟩
  obtain ⟨o, ho, hs⟩ := Option.map_eq_some_iff.mp slots_clash
  have := (h o ho).nodup
  rw [hs] at this
  exact absurd this (by decide)

end Kvm
end WakameVdc
