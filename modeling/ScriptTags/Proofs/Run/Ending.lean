import ScriptTags.Proofs.FileTree.Overwrite
import ScriptTags.Proofs.Output.Delivery
import ScriptTags.Proofs.Run.Build

namespace ScriptTags

namespace Index

variable {i : Index}

theorem isEmpty_iff : i.isEmpty = true ↔ i = {} := by
  cases i
  simp [isEmpty]

theorem isEmpty_eq_false_iff : i.isEmpty = false ↔ 0 < i.size := by
  simp [isEmpty, size, List.length_pos_iff]

end Index

namespace Run

/-- The result of a run with the tree and the standard output it leaves, by what the scripts are
in the tree before it. -/
inductive Ending (c : Config) (files : List Bytes) (t : FileTree) (out : Sink) :
    Except RunError Outcome → FileTree → Sink → Prop
  | unreadable {path : Bytes} {e : FileError} :
      t.FirstUnreadable files path e → Ending c files t out (.error (.read path e)) t out
  | skipped :
      Indexes t c.kinds files {} → Ending c files t out (.ok .skipped) t out
  | unwritten {i : Index} {path : Bytes} {e : FileError} :
      Indexes t c.kinds files i → 0 < i.size → c.destination = .file path →
      t.write path (Bytes.ofString i.render) = .error e →
      Ending c files t out (.error (.write path e)) t out
  | wrote {i : Index} {path : Bytes} {t' : FileTree} :
      Indexes t c.kinds files i → 0 < i.size → c.destination = .file path →
      t.write path (Bytes.ofString i.render) = .ok t' →
      t.Writes path (Bytes.ofString i.render) t' →
      t'.read path = .ok (Bytes.ofString i.render) →
      Ending c files t out (.ok (.wrote path i.size)) t' out
  | unprinted {i : Index} {e : SystemError} {part : Bytes} {out' : Sink} :
      Indexes t c.kinds files i → 0 < i.size → c.destination = .stdout →
      i.print out = (.error e, out') →
      part <+: Bytes.ofString i.render ++ [Byte.lineFeed] → out'.written = out.written ++ part →
      Ending c files t out (.error (.stdout e)) t out'
  | printed {i : Index} {out' : Sink} :
      Indexes t c.kinds files i → 0 < i.size → c.destination = .stdout →
      i.print out = (.ok (), out') →
      out'.written = out.written ++ (Bytes.ofString i.render ++ [Byte.lineFeed]) →
      Ending c files t out (.ok (.printed i.size)) t out'

variable {c : Config} {root : Bytes} {s : Session} {files : List Bytes} {i : Index} {e : RunError}
  {result : Except RunError Outcome} {t : FileTree} {out : Sink}

theorem exists_generate_of_indexes (h : Indexes s.tree c.kinds (collect c s.tree root).1 i) :
    ∃ events, generate c root s = deliver i c.destination (s.record events) := by
  refine ⟨(collect c s.tree root).2 ++ (build c s.tree (collect c s.tree root).1).2, ?_⟩
  simp only [generate, build_eq_ok_iff.mpr h]

theorem exists_generate_of_firstUnreadable {path : Bytes} {cause : FileError}
    (h : s.tree.FirstUnreadable (collect c s.tree root).1 path cause) :
    ∃ events, generate c root s = (.error (.read path cause), s.record events) := by
  refine ⟨(collect c s.tree root).2 ++ (build c s.tree (collect c s.tree root).1).2, ?_⟩
  simp only [generate, build_eq_error_iff.mpr ⟨_, _, h, rfl⟩]

theorem ending_deliver (hi : Indexes s.tree c.kinds files i) :
    Ending c files s.tree s.stdout (deliver i c.destination s).1
      (deliver i c.destination s).2.tree (deliver i c.destination s).2.stdout := by
  rw [deliver.eq_def]
  split
  next hempty => exact .skipped (Index.isEmpty_iff.mp hempty ▸ hi)
  next hfull =>
    have hsize := Index.isEmpty_eq_false_iff.mp (Bool.eq_false_iff.mpr hfull)
    split
    next hdestination =>
      have hdelivers := Sink.delivers_print i s.stdout
      split
      next e out' hprint =>
        rw [hprint] at hdelivers
        obtain ⟨part, hpart, hwritten⟩ := hdelivers.part
        exact .unprinted hi hsize hdestination hprint hpart hwritten
      next out' hprint =>
        rw [hprint] at hdelivers
        exact .printed hi hsize hdestination hprint (hdelivers.whole rfl)
    next path hdestination =>
      split
      next e hwrite => exact .unwritten hi hsize hdestination hwrite
      next t' hwrite =>
        have hwrites := FileTree.writes_of_write hwrite
        exact .wrote hi hsize hdestination hwrite hwrites hwrites.read

theorem ending_generate (c : Config) (root : Bytes) (s : Session) :
    Ending c (collect c s.tree root).1 s.tree s.stdout (generate c root s).1
      (generate c root s).2.tree (generate c root s).2.stdout := by
  cases hbuild : (build c s.tree (collect c s.tree root).1).1 with
  | error e =>
      obtain ⟨path, cause, hfirst, rfl⟩ := build_eq_error_iff.mp hbuild
      obtain ⟨events, hgenerate⟩ := exists_generate_of_firstUnreadable hfirst
      rw [hgenerate]
      exact .unreadable hfirst
  | ok i =>
      have hi := build_eq_ok_iff.mp hbuild
      obtain ⟨events, hgenerate⟩ := exists_generate_of_indexes hi
      rw [hgenerate]
      exact ending_deliver (s := s.record events) hi

theorem Ending.eq_generate
    (h : Ending c (collect c s.tree root).1 s.tree s.stdout result t out) :
    result = (generate c root s).1 ∧ t = (generate c root s).2.tree ∧
      out = (generate c root s).2.stdout := by
  cases h with
  | unreadable hfirst =>
      obtain ⟨events, hgenerate⟩ := exists_generate_of_firstUnreadable hfirst
      rw [hgenerate]
      exact ⟨rfl, rfl, rfl⟩
  | skipped hi =>
      obtain ⟨events, hgenerate⟩ := exists_generate_of_indexes hi
      rw [hgenerate]
      exact ⟨rfl, rfl, rfl⟩
  | unwritten hi hsize hdestination hwrite =>
      obtain ⟨events, hgenerate⟩ := exists_generate_of_indexes hi
      rw [hgenerate, hdestination]
      simp [deliver, Index.isEmpty_eq_false_iff.mpr hsize, Session.record, hwrite]
  | wrote hi hsize hdestination hwrite =>
      obtain ⟨events, hgenerate⟩ := exists_generate_of_indexes hi
      rw [hgenerate, hdestination]
      simp [deliver, Index.isEmpty_eq_false_iff.mpr hsize, Session.record, hwrite]
  | unprinted hi hsize hdestination hprint =>
      obtain ⟨events, hgenerate⟩ := exists_generate_of_indexes hi
      rw [hgenerate, hdestination]
      simp [deliver, Index.isEmpty_eq_false_iff.mpr hsize, Session.record, hprint]
  | printed hi hsize hdestination hprint =>
      obtain ⟨events, hgenerate⟩ := exists_generate_of_indexes hi
      rw [hgenerate, hdestination]
      simp [deliver, Index.isEmpty_eq_false_iff.mpr hsize, Session.record, hprint]

theorem run_all_or_nothing (c : Config) (root : Bytes) (s : Session)
    (result : Except RunError Outcome) (t : FileTree) (out : Sink) :
    Ending c (collect c s.tree root).1 s.tree s.stdout result t out ↔
      result = (generate c root s).1 ∧ t = (generate c root s).2.tree ∧
        out = (generate c root s).2.stdout := by
  constructor
  · exact Ending.eq_generate
  · rintro ⟨rfl, rfl, rfl⟩
    exact ending_generate c root s

namespace Aliased

def script : Name := ⟨[97, 46, 97, 104, 107], by decide⟩

def tags : Name := ⟨[116], by decide⟩

def tree : FileTree where
  nodes := [([script], .file [97, 58, 10]), ([tags], .link script.bytes)]

end Aliased

example :
    let c : Config := { files := [Aliased.script.bytes], destination := .file Aliased.tags.bytes }
    let (result, s) := generate c [Byte.dot] { tree := Aliased.tree }
    result = .ok (.wrote Aliased.tags.bytes 1) ∧
      s.tree.node? [Aliased.tags] = some (.link Aliased.script.bytes) := by
  decide +kernel

end Run

end ScriptTags
