import WakameVdc.Lib.Hash

/-!
# Files that are unlinked while they are written

The names of a directory and the files they stand for. A process that has opened a
file goes on writing to it after its name is gone, and a name that comes again stands
for another file.
-/

namespace Lib

structure File (α : Type) where
  inode : Nat
  content : α
  mtime : Nat

structure Dir (κ α : Type) [DecidableEq κ] where
  files : Hash κ (File α)
  next : Nat
  allocated : ∀ name f, files.lookup name = some f → f.inode < next

namespace Dir

variable {κ α : Type} [DecidableEq κ]

def find (d : Dir κ α) (name : κ) : Option (File α) := d.files.lookup name

def count (d : Dir κ α) : Nat := d.files.entries.length

def empty : Dir κ α where
  files := ∅
  next := 0
  allocated := by
    intro name f h
    rw [AList.lookup_empty] at h
    cases h

def unlink (d : Dir κ α) (name : κ) : Dir κ α where
  files := d.files.erase name
  next := d.next
  allocated := by
    intro x f h
    rw [Hash.lookup_erase] at h
    split at h
    · cases h
    · exact d.allocated x f h

def opened (d : Dir κ α) (name : κ) : Nat := ((d.find name).map File.inode).getD d.next

theorem opened_le (d : Dir κ α) (name : κ) : d.opened name ≤ d.next := by
  unfold opened find
  cases h : d.files.lookup name with
  | none => exact Nat.le_refl _
  | some f => exact Nat.le_of_lt (d.allocated name f h)

def create (d : Dir κ α) (name : κ) (content : α) (now : Nat) : Dir κ α where
  files := d.files.insert name ⟨d.opened name, content, now⟩
  next := d.next + 1
  allocated := by
    intro x f h
    rw [Hash.lookup_insert] at h
    split at h
    · cases h
      exact Nat.lt_succ_of_le (d.opened_le name)
    · exact Nat.lt_succ_of_lt (d.allocated x f h)

def rewrite (inode : Nat) (content : α) (now : Nat) (f : File α) : File α :=
  if f.inode = inode then { f with content, mtime := now } else f

theorem inode_rewrite (inode : Nat) (content : α) (now : Nat) (f : File α) :
    (rewrite inode content now f).inode = f.inode := by
  unfold rewrite
  split
  · rfl
  · rfl

def write (d : Dir κ α) (name : κ) (inode : Nat) (content : α) (now : Nat) : Dir κ α where
  files := Hash.modify name (rewrite inode content now) d.files
  next := d.next
  allocated := by
    intro x f h
    rw [Hash.lookup_modify] at h
    split at h
    · obtain ⟨f', hf', he⟩ := Option.map_eq_some_iff.mp h
      rw [← he, inode_rewrite]
      exact d.allocated x f' hf'
    · exact d.allocated x f h

section
variable (d : Dir κ α) (name x : κ) (inode now : Nat) (content : α)

@[simp] theorem find_unlink : (d.unlink name).find x = if x = name then none else d.find x :=
  Hash.lookup_erase ..

@[simp] theorem find_create : (d.create name content now).find x =
    if x = name then some ⟨d.opened name, content, now⟩ else d.find x :=
  Hash.lookup_insert ..

@[simp] theorem find_write : (d.write name inode content now).find x =
    if x = name then (d.find x).map (rewrite inode content now) else d.find x :=
  Hash.lookup_modify ..

@[simp] theorem next_unlink : (d.unlink name).next = d.next := rfl

@[simp] theorem next_create : (d.create name content now).next = d.next + 1 := rfl

@[simp] theorem next_write : (d.write name inode content now).next = d.next := rfl

theorem opened_of_none {d : Dir κ α} {name : κ} (h : d.find name = none) : d.opened name = d.next := by
  unfold opened
  rw [h]
  rfl

theorem find_of_unlink {d : Dir κ α} {name x : κ} {f : File α} (h : (d.unlink name).find x = some f) :
    d.find x = some f := by
  rw [find_unlink] at h
  split at h
  · cases h
  · exact h

@[simp] theorem count_write : (d.write name inode content now).count = d.count := List.length_map ..

theorem count_create_le : (d.create name content now).count ≤ d.count + 1 := by
  unfold count create
  rw [Hash.length_insert]
  split
  · exact Nat.le_refl _
  · exact Nat.le_succ _

theorem count_unlink {d : Dir κ α} {name : κ} {f : File α} (h : d.find name = some f) :
    (d.unlink name).count + 1 = d.count := by
  have hlen : ∀ h : Hash κ (File α), h.entries.length = h.keys.length := fun h => (List.length_map ..).symm
  have hmem : name ∈ d.files.keys := AList.lookup_isSome.mp (Option.isSome_of_eq_some h)
  have hpos := List.length_pos_of_mem hmem
  unfold count unlink
  rw [hlen, hlen, AList.keys_erase, List.length_erase_of_mem hmem]
  omega

theorem count_unlink_le : (d.unlink name).count ≤ d.count := (List.kerase_sublist ..).length_le

end

end Dir

end Lib
