import ScriptTags.Proofs.Run.Build
import Mathlib.Algebra.Order.BigOperators.Ring.List

namespace ScriptTags.Run

def batchesOf (kinds : List Kind) (files texts : List Bytes) : List (List Entry) :=
  List.zipWith (fun path text => Scan.extract (Utf8.decode path) text kinds) files texts

def taggedAll (files : List Bytes) (batches : List (List Entry)) : List Event :=
  List.zipWith tagged files (batches.map List.length)

/-- Two results one after the other, where the second is of no account behind a failure. -/
def andThen : Except RunError Index × List Event → Except RunError Index × List Event →
    Except RunError Index × List Event
  | (.error e, log), _ => (.error e, log)
  | (.ok _, log), (.error e, log') => (.error e, log ++ log')
  | (.ok i, log), (.ok j, log') => (.ok (i.append j.entries), log ++ log')

variable {c : Config} {t : FileTree} {kinds : List Kind} {i : Index} {e : RunError}
  {path text : Bytes} {cause : FileError} {files before after texts : List Bytes} {log : List Event}

theorem length_batchesOf (h : t.Reads files texts) (kinds : List Kind) :
    (batchesOf kinds files texts).length = files.length := by
  rw [batchesOf, List.length_zipWith, ← h.length_eq, Nat.min_self]

theorem length_taggedAll {batches : List (List Entry)} (h : batches.length = files.length) :
    (taggedAll files batches).length = files.length := by
  rw [taggedAll, List.length_zipWith, List.length_map, h, Nat.min_self]

theorem buildFrom_cons_of_read (h : t.read path = .ok text) (kinds : List Kind) (i : Index)
    (files : List Bytes) :
    let found := Scan.extract (Utf8.decode path) text kinds
    buildFrom t kinds i (path :: files) =
      ((buildFrom t kinds (i.append found) files).1,
        tagged path found.length :: (buildFrom t kinds (i.append found) files).2) := by
  intro found
  rw [buildFrom, h]

theorem buildFrom_cons_of_error (h : t.read path = .error cause) (kinds : List Kind) (i : Index)
    (files : List Bytes) :
    buildFrom t kinds i (path :: files) = (.error (.read path cause), []) := by
  rw [buildFrom, h]

theorem buildFrom_append_of_reads (h : t.Reads before texts) (kinds : List Kind) (i : Index)
    (after : List Bytes) :
    let batches := batchesOf kinds before texts
    buildFrom t kinds i (before ++ after) =
      ((buildFrom t kinds (i.append batches.flatten) after).1,
        taggedAll before batches ++ (buildFrom t kinds (i.append batches.flatten) after).2) := by
  intro batches
  induction h generalizing i with
  | nil => simp [batches, batchesOf, taggedAll, Index.append]
  | @cons path text before texts hread _ ih =>
      have happend : i.append batches.flatten =
          (i.append (Scan.extract (Utf8.decode path) text kinds)).append
            (batchesOf kinds before texts).flatten := by
        simp [batches, batchesOf, Index.append]
      rw [List.cons_append, buildFrom_cons_of_read hread, ih, happend]
      rfl

theorem buildFrom_of_reads (h : t.Reads files texts) (kinds : List Kind) (i : Index) :
    let batches := batchesOf kinds files texts
    buildFrom t kinds i files = (.ok (i.append batches.flatten), taggedAll files batches) := by
  have hbuild := buildFrom_append_of_reads h kinds i []
  simpa only [List.append_nil, buildFrom] using hbuild

theorem buildFrom_of_unreadable (h : t.Reads before texts) (hpath : t.read path = .error cause)
    (kinds : List Kind) (i : Index) (after : List Bytes) :
    buildFrom t kinds i (before ++ path :: after) =
      (.error (.read path cause), taggedAll before (batchesOf kinds before texts)) := by
  rw [buildFrom_append_of_reads h, buildFrom_cons_of_error hpath, List.append_nil]

theorem reads_or_firstUnreadable (t : FileTree) (files : List Bytes) :
    (∃ texts, t.Reads files texts) ∨ ∃ path cause, t.FirstUnreadable files path cause := by
  cases hbuild : (build {} t files).1 with
  | ok i =>
      obtain ⟨texts, hreads, -⟩ := build_eq_ok_iff.mp hbuild
      exact Or.inl ⟨texts, hreads⟩
  | error e =>
      obtain ⟨path, cause, hfirst, -⟩ := build_eq_error_iff.mp hbuild
      exact Or.inr ⟨path, cause, hfirst⟩

theorem build_append (c : Config) (t : FileTree) (before after : List Bytes) :
    build c t (before ++ after) = andThen (build c t before) (build c t after) := by
  rw [build, build, build]
  rcases reads_or_firstUnreadable t before with ⟨texts, hbefore⟩ | ⟨path, cause, hfirst⟩
  · rw [buildFrom_append_of_reads hbefore, buildFrom_of_reads hbefore]
    rcases reads_or_firstUnreadable t after with ⟨texts', hafter⟩ | ⟨path, cause, hfirst⟩
    · rw [buildFrom_of_reads hafter, buildFrom_of_reads hafter]
      simp [andThen, Index.append]
    · obtain ⟨first, rest, rfl, ⟨texts', hreads⟩, hpath⟩ := hfirst
      rw [buildFrom_of_unreadable hreads hpath, buildFrom_of_unreadable hreads hpath]
      rfl
  · obtain ⟨first, rest, rfl, ⟨texts, hreads⟩, hpath⟩ := hfirst
    rw [List.append_assoc, List.cons_append, buildFrom_of_unreadable hreads hpath,
      buildFrom_of_unreadable hreads hpath]
    rfl

theorem build_eq_ok_iff_reads :
    build c t files = (.ok i, log) ↔
      ∃ texts, t.Reads files texts ∧ i.entries = (batchesOf c.kinds files texts).flatten ∧
        log = taggedAll files (batchesOf c.kinds files texts) := by
  constructor
  · intro h
    obtain ⟨texts, hreads, -⟩ := build_eq_ok_iff.mp (congrArg Prod.fst h)
    rw [build, buildFrom_of_reads hreads] at h
    cases h
    exact ⟨texts, hreads, rfl, rfl⟩
  · rintro ⟨texts, hreads, hentries, rfl⟩
    obtain ⟨entries⟩ := i
    rw [build, buildFrom_of_reads hreads, ← hentries]
    rfl

theorem build_eq_error_iff_reads :
    build c t files = (.error e, log) ↔
      ∃ before path after texts cause, files = before ++ path :: after ∧ t.Reads before texts ∧
        t.read path = .error cause ∧ e = .read path cause ∧
        log = taggedAll before (batchesOf c.kinds before texts) := by
  constructor
  · intro h
    obtain ⟨path, cause, ⟨before, after, rfl, ⟨texts, hreads⟩, hpath⟩, -⟩ :=
      build_eq_error_iff.mp (congrArg Prod.fst h)
    rw [build, buildFrom_of_unreadable hreads hpath] at h
    cases h
    exact ⟨before, path, after, texts, cause, rfl, hreads, hpath, rfl, rfl⟩
  · rintro ⟨before, path, after, texts, cause, rfl, hreads, hpath, rfl, rfl⟩
    exact buildFrom_of_unreadable hreads hpath c.kinds {} after

theorem build_is_fold_with_first_failure (c : Config) (t : FileTree) :
    (∀ before after,
      build c t (before ++ after) = andThen (build c t before) (build c t after)) ∧
    (∀ files i log, build c t files = (.ok i, log) ↔
      ∃ texts, t.Reads files texts ∧
        let batches := batchesOf c.kinds files texts
        i.entries = batches.flatten ∧ log = taggedAll files batches ∧
          batches.length = files.length ∧ (batches.map List.length).sum = i.size) ∧
    ∀ files e log, build c t files = (.error e, log) ↔
      ∃ before path after texts cause, files = before ++ path :: after ∧ t.Reads before texts ∧
        t.read path = .error cause ∧ e = .read path cause ∧
        log = taggedAll before (batchesOf c.kinds before texts) ∧ log.length = before.length := by
  refine ⟨build_append c t, fun files i log => ?_, fun files e log => ?_⟩
  · rw [build_eq_ok_iff_reads]
    constructor
    · rintro ⟨texts, hreads, hentries, hlog⟩
      refine ⟨texts, hreads, hentries, hlog, length_batchesOf hreads c.kinds, ?_⟩
      rw [Index.size, hentries, List.length_flatten]
    · rintro ⟨texts, hreads, hentries, hlog, -⟩
      exact ⟨texts, hreads, hentries, hlog⟩
  · rw [build_eq_error_iff_reads]
    constructor
    · rintro ⟨before, path, after, texts, cause, hfiles, hreads, hpath, he, rfl⟩
      exact ⟨before, path, after, texts, cause, hfiles, hreads, hpath, he, rfl,
        length_taggedAll (length_batchesOf hreads c.kinds)⟩
    · rintro ⟨before, path, after, texts, cause, hfiles, hreads, hpath, he, hlog, -⟩
      exact ⟨before, path, after, texts, cause, hfiles, hreads, hpath, he, hlog⟩

end ScriptTags.Run
