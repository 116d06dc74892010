import Mathlib.Data.List.Nodup
import WakameVdc.Lib.Shell

/-!
# Metadata as shell assignments

`shell_dump` of `endpoints/metadata.rb`: an instance sources the document that is served
as `metadata.sh`. Each value is put between single quotes as it is.
-/

namespace WakameVdc

open Lib

namespace Metadata

/-- `to_s.upcase` of a key. -/
def upcase (k : Text) : Text := k.map Char.toUpper

/-- A document with values that are strings. Its keys are those of a provider: names that
differ in more than the case. -/
structure MetadataHash where
  entries : List (Text × Text)
  names : ∀ e ∈ entries, Shell.IsName (upcase e.1)
  distinct : (entries.map fun e => upcase e.1).Nodup

def shellDump (hash : List (Text × Text)) : Text :=
  List.intercalate ['\n'] (hash.map fun e => upcase e.1 ++ "='".toList ++ e.2 ++ "'".toList)

namespace MetadataHash

variable (hash : MetadataHash)

def assignments : List Shell.Assignment := hash.entries.map fun e => (upcase e.1, e.2)

/-- The shell finds the assignments of the document and nothing else, and after them every variable
has the value the document has for it. -/
structure Restores : Prop where
  evaluated : Shell.evaluate (shellDump hash.entries) = some hash.assignments
  values : ∀ env, ∀ e ∈ hash.entries, Shell.assign env hash.assignments (upcase e.1) = some e.2

def Quotable (v : Text) : Prop := Shell.singleQuote ∉ v ∧ '\x00' ∉ v

theorem shellDump_eq :
    shellDump hash.entries = List.intercalate ['\n'] (hash.assignments.map Shell.quoted) := by
  unfold shellDump assignments
  rw [List.map_map]
  congr 2
  funext e
  simp [Shell.quoted]

theorem distinct_assignments : (hash.assignments.map Prod.fst).Nodup := by
  unfold assignments
  rw [List.map_map]
  exact hash.distinct

theorem name_assignments {a : Shell.Assignment} (h : a ∈ hash.assignments) : Shell.IsName a.1 := by
  obtain ⟨e, he, rfl⟩ := List.mem_map.mp h
  exact hash.names e he

theorem mem_assignments {e : Text × Text} (h : e ∈ hash.entries) :
    (upcase e.1, e.2) ∈ hash.assignments := List.mem_map_of_mem (f := fun e => (upcase e.1, e.2)) h

/-- The text is too short for a value with a single quote to be among its assignments. -/
theorem quotable_of_restores (h : hash.Restores) : ∀ e ∈ hash.entries, Quotable e.2 := by
  have heval := h.evaluated
  intro e he
  have hmem := hash.mem_assignments he
  rw [shellDump_eq] at heval
  refine ⟨fun hquote => ?_, fun hnul => ?_⟩
  · have hextra : Shell.extra hash.assignments = 1 := by
      refine if_pos (List.any_eq_true.mpr ⟨_, hmem, ?_⟩)
      exact List.contains_iff_mem.mpr hquote
    have hne : hash.assignments ≠ [] := List.ne_nil_of_mem hmem
    have hlines := Shell.plainLength_lines hne fun a ha => (hash.name_assignments ha).singleQuote_notMem
    have hbound := Shell.total_evaluate heval
    omega
  · exact Shell.not_nul_of_evaluate heval (Shell.mem_lines hmem hnul)

/-- The document is restored just when no value has a single quote or a null character. -/
theorem shellDump_restores_iff : hash.Restores ↔ ∀ e ∈ hash.entries, Quotable e.2 := by
  constructor
  · exact hash.quotable_of_restores
  · intro h
    constructor
    · rw [shellDump_eq]
      refine Shell.evaluate_lines fun a ha => ?_
      obtain ⟨e, he, rfl⟩ := List.mem_map.mp ha
      exact ⟨hash.names e he, h e he⟩
    · intro env e he
      exact Shell.assign_of_mem hash.distinct_assignments (hash.mem_assignments he) env

def ofUserData (v : Text) : MetadataHash where
  entries := [("user_data".toList, v)]
  names := by
    intro e he
    rw [List.mem_singleton.mp he]
    exact ⟨'U', "SER_DATA".toList, rfl, rfl, List.all_eq_true.mp (by decide)⟩
  distinct := List.nodup_singleton _

/-- The shell that reads the document is told to reboot. -/
theorem command_in_user_data : ¬ (ofUserData "x'; reboot '".toList).Restores := by
  rintro ⟨heval, -⟩
  have hnone : Shell.evaluate (shellDump (ofUserData "x'; reboot '".toList).entries) = none := by decide
  rw [hnone] at heval
  cases heval

end MetadataHash

end Metadata

end WakameVdc
