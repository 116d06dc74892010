import WakameVdc.Lib.Text

/-!
# Uuids with a prefix

`Taggable` of `models/base_new.rb`: a resource is named by the prefix of its
model, a dash and its `uuid` column. The patterns are anchored to the start of
any line of the text.
-/

namespace WakameVdc

open Lib

namespace Taggable

def uuidHead (uuidPrefix : Text) : Text := uuidPrefix ++ ['-']

def canonicalUuid (uuidPrefix uuid : Text) : Text := uuidHead uuidPrefix ++ uuid

def lineStarts : Bool → Text → List Text
  | start, [] => if start then [[]] else []
  | start, c :: t => (if start then [c :: t] else []) ++ lineStarts (c == '\n') t

def validUuidSyntax (uuidPrefix uuid : Text) : Bool :=
  (lineStarts true uuid).any fun t =>
    (uuidHead uuidPrefix).isPrefixOf t &&
      (t.drop (uuidHead uuidPrefix).length).head?.any Text.isWord

/-- The text without the head at the first start of a line that has it. -/
def trimAt (head : Text) : Bool → Text → Option Text
  | _, [] => none
  | start, c :: t =>
    if start && head.isPrefixOf (c :: t) then some ((c :: t).drop head.length)
    else (trimAt head (c == '\n') t).map (c :: ·)

/-- A text without the prefix raises `InvalidUUIDError`. -/
def trimUuid (uuidPrefix uuid : Text) : Option Text := trimAt (uuidHead uuidPrefix) true uuid

theorem trimUuid_canonicalUuid (uuidPrefix uuid : Text) :
    trimUuid uuidPrefix (canonicalUuid uuidPrefix uuid) = some uuid := by
  unfold trimUuid canonicalUuid
  cases h : uuidHead uuidPrefix with
  | nil => simp [uuidHead] at h
  | cons c t =>
    have hp : (c :: t).isPrefixOf (c :: (t ++ uuid)) = true := by
      rw [List.isPrefixOf_iff_prefix]
      exact ⟨uuid, rfl⟩
    simp [trimAt, hp]

end Taggable

end WakameVdc
