import ScriptTags.Proofs.Run.Build
import ScriptTags.Proofs.Tag.Batches
import Mathlib.Data.List.Flatten

/-!
Looking for variables too. The rules do not see each other and sorting commutes with leaving
entries out, so a run that looks for fewer kinds has the same entries in the same order, less those
of the kinds it does not look for.
-/

namespace ScriptTags

namespace Scan

variable {kind : Kind} {kinds : List Kind} {path : String} {text : Bytes} {e : Entry}

theorem kind_of_mem_entries (h : e ∈ entries kind path text) : e.kind = kind := by
  rw [entries_eq_map_hits] at h
  obtain ⟨hit, -, rfl⟩ := List.mem_map.mp h
  rfl

theorem filter_entries (p : Kind → Bool) (kind : Kind) (path : String) (text : Bytes) :
    (entries kind path text).filter (p ·.kind) = if p kind then entries kind path text else [] := by
  split
  next h => exact List.filter_eq_self.mpr fun e he => (kind_of_mem_entries he).symm ▸ h
  next h =>
    refine List.filter_eq_nil_iff.mpr fun e he => ?_
    rwa [kind_of_mem_entries he]

theorem extract_filter (p : Kind → Bool) (path : String) (text : Bytes) (kinds : List Kind) :
    extract path text (kinds.filter p) = (extract path text kinds).filter (p ·.kind) := by
  rw [extract, extract, List.filter_flatMap]
  induction kinds with
  | nil => rfl
  | cons kind kinds ih =>
      rw [List.filter_cons, List.flatMap_cons, filter_entries, ← ih]
      split
      · exact List.flatMap_cons
      · exact (List.nil_append _).symm

end Scan

namespace Index

variable {i j : Index} {p : Entry → Bool}

theorem lines_sublist (h : i.entries = j.entries.filter p) : i.lines.Sublist j.lines := by
  have hsorted : i.sorted = j.sorted.filter p := by
    rw [← sorted_filter, ← h]
  rw [lines, lines, hsorted]
  exact (List.Sublist.refl _).append (List.filter_sublist.map _)

theorem splitOn_render_sublist (h : i.lines.Sublist j.lines) :
    (i.render.toList.splitOn '\n').Sublist (j.render.toList.splitOn '\n') := by
  rw [splitOn_render_eq_flatMap, splitOn_render_eq_flatMap]
  exact (h.map _).flatMap _

end Index

namespace Run

variable {t : FileTree} {c : Config} {kinds : List Kind} {files : List Bytes} {i : Index}

theorem entriesOf_filter (p : Kind → Bool) (kinds : List Kind) (scripts : List (Bytes × Bytes)) :
    entriesOf (kinds.filter p) scripts = (entriesOf kinds scripts).filter (p ·.kind) := by
  rw [entriesOf, entriesOf, List.filter_flatMap]
  exact congrArg scripts.flatMap (funext fun script => Scan.extract_filter p _ _ kinds)

theorem Indexes.filter (p : Kind → Bool) (h : Indexes t (kinds.filter p) files i) :
    ∃ j, Indexes t kinds files j ∧ i.entries = j.entries.filter (p ·.kind) := by
  obtain ⟨texts, hreads, rfl⟩ := h
  exact ⟨_, ⟨texts, hreads, rfl⟩, entriesOf_filter p kinds _⟩

theorem kinds_without_variables (c : Config) :
    { c with includeVariables := false }.kinds =
      { c with includeVariables := true }.kinds.filter (· ≠ Kind.variable) :=
  rfl

inductive OnlyAdds : Except RunError Index → Except RunError Index → Prop
  | failed (e : RunError) : OnlyAdds (.error e) (.error e)
  | indexed {i j : Index} :
      i.entries = j.entries.filter (·.kind ≠ .variable) →
      i.lines.Sublist j.lines →
      (i.render.toList.splitOn '\n').Sublist (j.render.toList.splitOn '\n') →
      OnlyAdds (.ok i) (.ok j)

theorem variables_only_add (c : Config) (t : FileTree) (files : List Bytes) :
    OnlyAdds (build { c with includeVariables := false } t files).1
      (build { c with includeVariables := true } t files).1 := by
  cases hbuild : (build { c with includeVariables := false } t files).1 with
  | error e =>
      have hfirst := build_eq_error_iff.mp hbuild
      rw [build_eq_error_iff.mpr hfirst]
      exact .failed e
  | ok i =>
      have hi := build_eq_ok_iff.mp hbuild
      rw [kinds_without_variables] at hi
      obtain ⟨j, hj, hentries⟩ := hi.filter
      rw [build_eq_ok_iff.mpr hj]
      have hlines := Index.lines_sublist hentries
      exact .indexed hentries hlines (Index.splitOn_render_sublist hlines)

end Run

end ScriptTags
