import ScriptTags.Proofs.Tag.Extracted
import ScriptTags.Run.Generate
import Mathlib.Data.List.Forall2

namespace ScriptTags

namespace FileTree

def Reads (t : FileTree) (files texts : List Bytes) : Prop :=
  List.Forall₂ (fun path text => t.read path = .ok text) files texts

def FirstUnreadable (t : FileTree) (files : List Bytes) (path : Bytes) (e : FileError) : Prop :=
  ∃ before after, files = before ++ path :: after ∧ (∃ texts, t.Reads before texts) ∧
    t.read path = .error e

variable {t : FileTree} {files : List Bytes} {path p text : Bytes} {e e' : FileError}

theorem not_firstUnreadable_nil : ¬t.FirstUnreadable [] path e := by
  rintro ⟨before, after, hfiles, -, -⟩
  cases before <;> cases hfiles

theorem firstUnreadable_cons_of_error (h : t.read p = .error e') :
    t.FirstUnreadable (p :: files) path e ↔ path = p ∧ e = e' := by
  constructor
  · rintro ⟨before, after, hfiles, ⟨texts, hreads⟩, hpath⟩
    rcases hreads with - | ⟨hread, -⟩
    · cases hfiles
      exact ⟨rfl, Except.error.inj (hpath.symm.trans h)⟩
    · cases hfiles
      cases h.symm.trans hread
  · rintro ⟨rfl, rfl⟩
    exact ⟨[], files, rfl, ⟨[], .nil⟩, h⟩

theorem firstUnreadable_cons_of_ok (h : t.read p = .ok text) :
    t.FirstUnreadable (p :: files) path e ↔ t.FirstUnreadable files path e := by
  constructor
  · rintro ⟨before, after, hfiles, ⟨texts, hreads⟩, hpath⟩
    rcases hreads with - | ⟨-, hrest⟩
    · cases hfiles
      cases h.symm.trans hpath
    · cases hfiles
      exact ⟨_, after, rfl, ⟨_, hrest⟩, hpath⟩
  · rintro ⟨before, after, rfl, ⟨texts, hreads⟩, hpath⟩
    exact ⟨p :: before, after, rfl, ⟨text :: texts, .cons h hreads⟩, hpath⟩

theorem Reads.congr {t' : FileTree} {texts : List Bytes} (h : t.Reads files texts)
    (heq : ∀ p ∈ files, t'.read p = t.read p) : t'.Reads files texts := by
  induction h with
  | nil => exact .nil
  | cons hread _ ih =>
      obtain ⟨hhere, hrest⟩ := List.forall_mem_cons.mp heq
      exact .cons (hhere.trans hread) (ih hrest)

end FileTree

namespace Run

def entriesOf (kinds : List Kind) (scripts : List (Bytes × Bytes)) : List Entry :=
  scripts.flatMap fun (path, text) => Scan.extract (Utf8.decode path) text kinds

def Indexes (t : FileTree) (kinds : List Kind) (files : List Bytes) (i : Index) : Prop :=
  ∃ texts, t.Reads files texts ∧ i = ⟨entriesOf kinds (files.zip texts)⟩

def EntryOf (t : FileTree) (kinds : List Kind) (path : Bytes) (e : Entry) : Prop :=
  ∃ text, t.read path = .ok text ∧ e ∈ Scan.extract (Utf8.decode path) text kinds

variable {t : FileTree} {kinds : List Kind} {c : Config} {i j : Index} {e : RunError}
  {files : List Bytes}

theorem mem_entriesOf_iff {texts : List Bytes} {entry : Entry} (h : t.Reads files texts) :
    entry ∈ entriesOf kinds (files.zip texts) ↔ ∃ path ∈ files, EntryOf t kinds path entry := by
  induction h with
  | nil => simp [entriesOf]
  | @cons path text files texts hread _ ih =>
      have hhere : entry ∈ Scan.extract (Utf8.decode path) text kinds ↔
          EntryOf t kinds path entry := by
        simp [EntryOf, hread]
      have hcons : entriesOf kinds ((path :: files).zip (text :: texts)) =
          Scan.extract (Utf8.decode path) text kinds ++ entriesOf kinds (files.zip texts) := rfl
      rw [hcons, List.mem_append, hhere, ih]
      simp only [List.mem_cons, or_and_right, exists_or, exists_eq_left]

theorem Indexes.mem_entries_iff {entry : Entry} (h : Indexes t kinds files i) :
    entry ∈ i.entries ↔ ∃ path ∈ files, EntryOf t kinds path entry := by
  obtain ⟨texts, hreads, rfl⟩ := h
  exact mem_entriesOf_iff hreads

theorem EntryOf.extracted {path : Bytes} {entry : Entry} (h : EntryOf t kinds path entry) :
    Scan.Extracted entry := by
  obtain ⟨text, -, hentry⟩ := h
  exact ⟨_, text, kinds, hentry⟩

theorem EntryOf.file_eq {path : Bytes} {entry : Entry} (h : EntryOf t kinds path entry) :
    entry.file = Entry.label (Utf8.decode path) := by
  obtain ⟨text, -, hentry⟩ := h
  exact Scan.file_of_mem_extract hentry

theorem buildFrom_eq_ok_iff :
    (buildFrom t kinds i files).1 = .ok j ↔
      ∃ texts, t.Reads files texts ∧ j = i.append (entriesOf kinds (files.zip texts)) := by
  induction files generalizing i with
  | nil => simp [buildFrom, FileTree.Reads, entriesOf, Index.append, eq_comm]
  | cons path files ih =>
      rw [buildFrom]
      cases hread : t.read path with
      | error e => simp [FileTree.Reads, List.forall₂_cons_left_iff, hread]
      | ok text =>
          dsimp only
          rw [ih]
          simp [FileTree.Reads, List.forall₂_cons_left_iff, hread, entriesOf, Index.append]

theorem buildFrom_eq_error_iff :
    (buildFrom t kinds i files).1 = .error e ↔
      ∃ path cause, t.FirstUnreadable files path cause ∧ e = .read path cause := by
  induction files generalizing i with
  | nil => simp [buildFrom, FileTree.not_firstUnreadable_nil]
  | cons path files ih =>
      rw [buildFrom]
      cases hread : t.read path with
      | error cause => simp [FileTree.firstUnreadable_cons_of_error hread, eq_comm]
      | ok text => simp [FileTree.firstUnreadable_cons_of_ok hread, ih]

theorem build_eq_ok_iff : (build c t files).1 = .ok i ↔ Indexes t c.kinds files i := by
  rw [build, buildFrom_eq_ok_iff, Indexes]
  rfl

theorem build_eq_error_iff :
    (build c t files).1 = .error e ↔
      ∃ path cause, t.FirstUnreadable files path cause ∧ e = .read path cause :=
  buildFrom_eq_error_iff

end Run

end ScriptTags
