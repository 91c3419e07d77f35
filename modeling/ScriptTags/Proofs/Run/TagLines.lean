import ScriptTags.Proofs.Run.Ending
import ScriptTags.Proofs.Tag.Lines
import ScriptTags.Proofs.Text.Utf8

namespace ScriptTags

theorem Entry.mem_label_iff {path : String} {c : Char} (hdot : c ≠ '.') (hslash : c ≠ '/') :
    c ∈ (Entry.label path).toList ↔ c ∈ path.toList := by
  rw [Entry.label]
  split
  next rest hpath => simp [hpath, hdot, hslash]
  next => exact Iff.rfl

namespace Run

variable {t : FileTree} {c : Config} {kinds : List Kind} {root p : Bytes} {s : Session} {e : Entry}
  {files : List Bytes} {i : Index} {outcome : Outcome}

theorem EntryOf.separator_not_mem_file_iff (h : EntryOf t kinds p e) :
    '\t' ∉ e.file.toList ∧ '\n' ∉ e.file.toList ↔ Byte.tab ∉ p ∧ Byte.lineFeed ∉ p := by
  have htab : '\t' ∈ (Utf8.decode p).toList ↔ Byte.tab ∈ p :=
    Utf8.mem_decode_iff (b := Byte.tab) ⟨by decide, by decide⟩
  have hline : '\n' ∈ (Utf8.decode p).toList ↔ Byte.lineFeed ∈ p :=
    Utf8.mem_decode_iff (b := Byte.lineFeed) ⟨by decide, by decide⟩
  rw [h.file_eq, Entry.mem_label_iff (by decide) (by decide),
    Entry.mem_label_iff (by decide) (by decide), htab, hline]

def PlainPaths (t : FileTree) (kinds : List Kind) (files : List Bytes) : Prop :=
  ∀ p ∈ files, (∃ e, EntryOf t kinds p e) → Byte.tab ∉ p ∧ Byte.lineFeed ∉ p

theorem Indexes.oneLineEach_iff (h : Indexes t kinds files i) :
    i.OneLineEach ↔ PlainPaths t kinds files := by
  have hwell : ∀ e ∈ i.entries, e.WellFormed := by
    intro e he
    obtain ⟨p, -, hentry⟩ := h.mem_entries_iff.mp he
    exact hentry.extracted.wellFormed
  rw [Index.oneLineEach_iff hwell]
  constructor
  · rintro hfiles p hp ⟨e, hentry⟩
    exact hentry.separator_not_mem_file_iff.mp (hfiles e (h.mem_entries_iff.mpr ⟨p, hp, hentry⟩))
  · intro hpaths e he
    obtain ⟨p, hp, hentry⟩ := h.mem_entries_iff.mp he
    exact hentry.separator_not_mem_file_iff.mpr (hpaths p hp ⟨e, hentry⟩)

def Delivered (i : Index) (s s' : Session) : Outcome → Prop
  | .skipped => i.size = 0
  | .wrote path n => n = i.size ∧ s'.tree.read path = .ok (Bytes.ofString i.render)
  | .printed n =>
      n = i.size ∧
        s'.stdout.written = s.stdout.written ++ (Bytes.ofString i.render ++ [Byte.lineFeed])

theorem exists_delivered (h : (generate c root s).1 = .ok outcome) :
    ∃ i, Indexes s.tree c.kinds (collect c s.tree root).1 i ∧
      Delivered i s (generate c root s).2 outcome := by
  have hending := ending_generate c root s
  rw [h] at hending
  generalize htree : (generate c root s).2.tree = t, hout : (generate c root s).2.stdout = out
    at hending
  cases hending with
  | skipped hi => exact ⟨_, hi, rfl⟩
  | wrote hi _ _ _ _ hread => exact ⟨_, hi, rfl, htree ▸ hread⟩
  | printed hi _ _ _ hwritten => exact ⟨_, hi, rfl, hout ▸ hwritten⟩

theorem one_line_each_iff_plain_paths (c : Config) (root : Bytes) (s : Session) (outcome : Outcome)
    (h : (generate c root s).1 = .ok outcome) :
    ∃ i, (build c s.tree (collect c s.tree root).1).1 = .ok i ∧
      Delivered i s (generate c root s).2 outcome ∧
      (i.OneLineEach ↔ PlainPaths s.tree c.kinds (collect c s.tree root).1) := by
  obtain ⟨i, hi, hdelivered⟩ := exists_delivered h
  exact ⟨i, build_eq_ok_iff.mpr hi, hdelivered, hi.oneLineEach_iff⟩

namespace TabInName

def tabbed : Name := ⟨Bytes.ofString "a\tb.ahk", by decide⟩

def plain : Name := ⟨Bytes.ofString "plain.ahk", by decide⟩

def session (tabbedText plainText : String) : Session where
  tree := { nodes := [([tabbed], .file (Bytes.ofString tabbedText)),
    ([plain], .file (Bytes.ofString plainText))] }

def output : Bytes :=
  Bytes.ofString "tags"

def config : Config where
  recursive := true
  destination := .file output

def base : Bytes :=
  Bytes.ofString "."

def tabbedPath : Bytes :=
  Bytes.ofString "./a\tb.ahk"

def plainPath : Bytes :=
  Bytes.ofString "./plain.ahk"

end TabInName

open TabInName in
theorem one_line_for_plain_script :
    (generate config base (session "" "Go:")).1 = .ok (.wrote output 1) ∧
      ∃ i, Delivered i (session "" "Go:") (generate config base (session "" "Go:")).2 (.wrote output 1) ∧
        i.OneLineEach := by
  have hends : (generate config base (session "" "Go:")).1 = .ok (.wrote output 1) := by decide +kernel
  have hcollect : (collect config (session "" "Go:").tree base).1 = [tabbedPath, plainPath] := by
    decide +kernel
  obtain ⟨i, -, hdelivered, hlines⟩ := one_line_each_iff_plain_paths _ _ _ _ hends
  refine ⟨hends, i, hdelivered, hlines.mpr ?_⟩
  rw [hcollect]
  intro p hp hentry
  rcases List.mem_pair.mp hp with rfl | rfl
  · obtain ⟨e, text, hread, he⟩ := hentry
    have htext : (session "" "Go:").tree.read tabbedPath = .ok [] := by decide +kernel
    have hnone : Scan.extract (Utf8.decode tabbedPath) [] config.kinds = [] := by decide +kernel
    obtain rfl := Except.ok.inj (hread.symm.trans htext)
    rw [hnone] at he
    exact absurd he List.not_mem_nil
  · decide +kernel

open TabInName in
theorem not_one_line_for_tabbed_script :
    ¬∀ (c : Config) (root : Bytes) (s : Session) (n : Nat) (i : Index),
      ((generate c root s).1 = .ok (.printed n) ∨
        ∃ path, (generate c root s).1 = .ok (.wrote path n)) →
      (build c s.tree (collect c s.tree root).1).1 = .ok i → i.OneLineEach := by
  intro h
  have hends : (generate config base (session "Go:" "")).1 = .ok (.wrote output 1) := by decide +kernel
  have hentry : EntryOf (session "Go:" "").tree config.kinds tabbedPath
      ⟨"Go", "a\tb.ahk", "/^Go:$/", .label, 1⟩ :=
    ⟨Bytes.ofString "Go:", by decide +kernel, by decide +kernel⟩
  obtain ⟨i, hi, -⟩ := exists_delivered hends
  have hlines := h _ _ _ _ _ (.inr ⟨_, hends⟩) (build_eq_ok_iff.mpr hi)
  have hplain := hi.oneLineEach_iff.mp hlines tabbedPath (by decide +kernel) ⟨_, hentry⟩
  exact absurd hplain.1 (by decide +kernel)

end Run

end ScriptTags
