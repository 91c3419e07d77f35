import ScriptTags.Proofs.FileTree.LeadsTo
import ScriptTags.Proofs.Run.Build
import ScriptTags.Proofs.Text.Utf8

/-!
Where the file field of an entry leads. A leading `./` can go wherever what comes after it is a
relative path; a slash after it makes the field an absolute path, which leads where the script's
path would lead from the root.
-/

namespace ScriptTags

open ScriptTags.Path

namespace Entry

variable {path : String} {rest : List Char}

theorem label_of_toList_eq (h : path.toList = '.' :: '/' :: rest) :
    label path = String.ofList rest := by
  rw [label, h]
  rfl

theorem label_of_toList_ne (h : ∀ rest, path.toList ≠ '.' :: '/' :: rest) : label path = path := by
  rw [label]
  split
  next rest hpath => exact absurd hpath (h rest)
  next => rfl

end Entry

namespace FileTree

variable {t : FileTree} {path rest text : Bytes} {l : Location} {node : Node}

/-- A path after `./`: its segments are taken from the working directory, also where it begins
with a slash. -/
theorem leadsTo_here_iff :
    t.LeadsTo (Byte.dot :: Byte.slash :: rest) l ↔
      Byte.nul ∉ rest ∧ t.node? t.cwd = some .dir ∧
        ∃ segments, segments? rest = some segments ∧
          Follows t linkLimit t.cwd segments (.taken l) := by
  have hsegments : segments? (Byte.dot :: Byte.slash :: rest) =
      (segments? rest).map (Segment.here :: ·) :=
    segments?_append_slash [Byte.dot] rest
  constructor
  · rintro ⟨hnul, -, segments, hsome, hfollows⟩
    rw [hsegments] at hsome
    obtain ⟨segments, hrest, rfl⟩ := Option.map_eq_some_iff.mp hsome
    cases hfollows with
    | here hdir hfollows =>
        simp only [List.mem_cons, not_or] at hnul
        exact ⟨hnul.2.2, hdir, segments, hrest, hfollows⟩
  · rintro ⟨hnul, hdir, segments, hrest, hfollows⟩
    have hpath : Byte.nul ∉ Byte.dot :: Byte.slash :: rest :=
      List.not_mem_cons_of_ne_of_not_mem (by decide)
        (List.not_mem_cons_of_ne_of_not_mem (by decide) hnul)
    refine ⟨hpath, List.cons_ne_nil _ _, .here :: segments, ?_, .here hdir hfollows⟩
    rw [hsegments, hrest]
    rfl

theorem ne_nil_of_leadsTo_here (h : t.LeadsTo (Byte.dot :: Byte.slash :: rest) l)
    (hfile : t.node? l = some (.file text)) : rest ≠ [] := by
  rintro rfl
  obtain ⟨-, hdir, segments, hsegments, hfollows⟩ := leadsTo_here_iff.mp h
  obtain rfl : [Segment.empty] = segments := Option.some.inj hsegments
  cases hfollows with
  | empty _ hfollows =>
      cases hfollows
      cases hdir.symm.trans hfile

theorem LeadsTo.of_here (h : t.LeadsTo (Byte.dot :: Byte.slash :: rest) l) (hne : rest ≠ [])
    (hrelative : isAbsolute rest = false) : t.LeadsTo rest l := by
  obtain ⟨hnul, -, segments, hsegments, hfollows⟩ := leadsTo_here_iff.mp h
  refine ⟨hnul, hne, segments, hsegments, ?_⟩
  rwa [origin, hrelative]

theorem node?_atRoot (t : FileTree) (l : Location) :
    ({ t with cwd := [] } : FileTree).node? l = t.node? l := by
  cases l <;> rfl

theorem leadsTo_absolute_iff :
    t.LeadsTo (Byte.slash :: rest) l ↔
      ({ t with cwd := [] } : FileTree).LeadsTo (Byte.dot :: Byte.slash :: Byte.slash :: rest) l := by
  have horigin : origin (Byte.slash :: rest) t.cwd = [] := rfl
  rw [leadsTo_here_iff]
  constructor
  · rintro ⟨hnul, -, segments, hsegments, hfollows⟩
    rw [horigin] at hfollows
    exact ⟨hnul, rfl, segments, hsegments, hfollows.congr (node?_atRoot t)⟩
  · rintro ⟨hnul, -, segments, hsegments, hfollows⟩
    refine ⟨hnul, List.cons_ne_nil _ _, segments, hsegments, ?_⟩
    rw [horigin]
    exact hfollows.congr fun l => (node?_atRoot t l).symm

def SameFile (t : FileTree) (path path' : Bytes) : Prop :=
  ∃ l text, t.lookup path = .ok (l, .file text) ∧ t.lookup path' = .ok (l, .file text)

theorem SameFile.read_eq {path' : Bytes} (h : t.SameFile path path') :
    t.read path = t.read path' := by
  obtain ⟨l, text, hpath, hpath'⟩ := h
  rw [read_eq_ok_iff.mpr ⟨l, hpath⟩, read_eq_ok_iff.mpr ⟨l, hpath'⟩]

variable {name : String}

theorem ofString_of_toList_eq {rest : List Char} (h : name.toList = '.' :: '/' :: rest) :
    Bytes.ofString name = Byte.dot :: Byte.slash :: Bytes.ofString (String.ofList rest) := by
  rw [Bytes.ofString, Bytes.ofString, h, String.toList_ofList]
  rfl

theorem lookup_label (h : t.lookup (Bytes.ofString name) = .ok (l, .file text))
    (hplain : ¬['.', '/', '/'] <+: name.toList) :
    t.lookup (Bytes.ofString (Entry.label name)) = .ok (l, .file text) := by
  by_cases hhere : ∃ rest, name.toList = '.' :: '/' :: rest
  · obtain ⟨rest, hname⟩ := hhere
    obtain ⟨hshort, hleads, hfile⟩ := lookup_eq_ok_iff.mp h
    have hpath := ofString_of_toList_eq hname
    rw [hpath] at hshort hleads
    have hrelative : isAbsolute (Bytes.ofString (String.ofList rest)) = false := by
      rw [isAbsolute, beq_eq_false_iff_ne]
      intro habsolute
      obtain ⟨r, hr⟩ := List.head?_eq_some_iff.mp habsolute
      have hslash := Utf8.head?_toList_of_ofString (by decide) hr
      rw [String.toList_ofList] at hslash
      obtain ⟨rest', hrest⟩ := List.head?_eq_some_iff.mp hslash
      exact hplain ⟨rest', by rw [hname, hrest]; rfl⟩
    rw [Entry.label_of_toList_eq hname]
    refine lookup_eq_ok_iff.mpr ⟨?_, ?_, hfile⟩
    · exact not_overlong_of_length_le hshort (Nat.le_add_right _ 2)
    · exact hleads.of_here (ne_nil_of_leadsTo_here hleads hfile) hrelative
  · rwa [Entry.label_of_toList_ne fun rest hname => hhere ⟨rest, hname⟩]

theorem lookup_label_iff {place : Location × Node} (hshort : t.overlong (Bytes.ofString name) = false)
    (h : ['.', '/', '/'] <+: name.toList) :
    t.lookup (Bytes.ofString (Entry.label name)) = .ok place ↔
      ({ t with cwd := [] } : FileTree).lookup (Bytes.ofString name) = .ok place := by
  obtain ⟨rest, hrest⟩ := h
  have hname : name.toList = '.' :: '/' :: '/' :: rest := hrest.symm
  have hpath := ofString_of_toList_eq hname
  have hlabel : Bytes.ofString (String.ofList ('/' :: rest)) =
      Byte.slash :: Bytes.ofString (String.ofList rest) := by
    rw [Bytes.ofString, Bytes.ofString, String.toList_ofList, String.toList_ofList]
    rfl
  rw [hpath, hlabel] at hshort ⊢
  obtain ⟨l, node⟩ := place
  rw [Entry.label_of_toList_eq hname, hlabel, lookup_eq_ok_iff, lookup_eq_ok_iff,
    ← leadsTo_absolute_iff, node?_atRoot, not_overlong_of_length_le hshort (Nat.le_add_right _ 2)]
  have hshort' : ({ t with cwd := [] } : FileTree).overlong
      (Byte.dot :: Byte.slash :: Byte.slash :: Bytes.ofString (String.ofList rest)) = false := hshort
  rw [hshort']

end FileTree

namespace Run

variable {t : FileTree} {kinds : List Kind} {e : Entry}

theorem EntryOf.exists_lookup {path : Bytes} (h : EntryOf t kinds path e) :
    ∃ l text, t.lookup path = .ok (l, .file text) := by
  obtain ⟨text, hread, -⟩ := h
  obtain ⟨l, hlookup⟩ := FileTree.read_eq_ok_iff.mp hread
  exact ⟨l, text, hlookup⟩

theorem file_field_leads_to_script (t : FileTree) (c : Config) (names : List String) (i : Index)
    (h : (build c t (names.map Bytes.ofString)).1 = .ok i) :
    (∀ e ∈ i.entries, ∃ name ∈ names, EntryOf t c.kinds (Bytes.ofString name) e) ∧
      ∀ name ∈ names, ∀ e, EntryOf t c.kinds (Bytes.ofString name) e →
        (¬['.', '/', '/'] <+: name.toList →
          t.SameFile (Bytes.ofString e.file) (Bytes.ofString name) ∧
            t.read (Bytes.ofString e.file) = t.read (Bytes.ofString name)) ∧
        (['.', '/', '/'] <+: name.toList → ∀ place,
          t.lookup (Bytes.ofString e.file) = .ok place ↔
            ({ t with cwd := [] } : FileTree).lookup (Bytes.ofString name) = .ok place) := by
  constructor
  · intro e he
    obtain ⟨path, hpath, hentry⟩ := (build_eq_ok_iff.mp h).mem_entries_iff.mp he
    obtain ⟨name, hname, rfl⟩ := List.mem_map.mp hpath
    exact ⟨name, hname, hentry⟩
  · intro name _ e hentry
    obtain ⟨l, text, hlookup⟩ := hentry.exists_lookup
    rw [hentry.file_eq, Utf8.decode_ofString]
    refine ⟨fun hplain => ?_, fun hslashes place => ?_⟩
    · have hsame : t.SameFile (Bytes.ofString (Entry.label name)) (Bytes.ofString name) :=
        ⟨l, text, FileTree.lookup_label hlookup hplain, hlookup⟩
      exact ⟨hsame, hsame.read_eq⟩
    · exact FileTree.lookup_label_iff (FileTree.not_overlong_of_lookup hlookup) hslashes

-- A script in the working directory `w`, and another of the same name at the root.
namespace Namesakes

def work : Name := ⟨Bytes.ofString "w", by decide⟩

def script : Name := ⟨Bytes.ofString "a.ahk", by decide⟩

def tree : FileTree where
  nodes := [([work], .dir), ([script, work], .file (Bytes.ofString "Go:")),
    ([script], .file (Bytes.ofString "Halt:"))]
  cwd := [work]

def entry (file : String) : Entry :=
  ⟨"Go", file, "/^Go:$/", .label, 1⟩

theorem build_eq : (build {} tree (["././/a.ahk", ".//a.ahk"].map Bytes.ofString)).1 =
    .ok ⟨[entry ".//a.ahk", entry "/a.ahk"]⟩ := by
  decide +kernel

theorem entryOf_relative : EntryOf tree (Config.kinds {}) (Bytes.ofString "././/a.ahk")
    (entry ".//a.ahk") :=
  ⟨Bytes.ofString "Go:", by decide +kernel, by decide +kernel⟩

theorem entryOf_slashes : EntryOf tree (Config.kinds {}) (Bytes.ofString ".//a.ahk")
    (entry "/a.ahk") :=
  ⟨Bytes.ofString "Go:", by decide +kernel, by decide +kernel⟩

end Namesakes

theorem file_field_leads_to_namesake :
    (build {} Namesakes.tree (["././/a.ahk", ".//a.ahk"].map Bytes.ofString)).1 =
        .ok ⟨[Namesakes.entry ".//a.ahk", Namesakes.entry "/a.ahk"]⟩ ∧
      Namesakes.tree.SameFile (Bytes.ofString ".//a.ahk") (Bytes.ofString "././/a.ahk") ∧
      Namesakes.tree.lookup (Bytes.ofString "/a.ahk") =
        .ok ([Namesakes.script], .file (Bytes.ofString "Halt:")) := by
  obtain ⟨-, hfields⟩ := file_field_leads_to_script _ _ _ _ Namesakes.build_eq
  have hrelative := (hfields _ (by decide) _ Namesakes.entryOf_relative).1 (by decide)
  have hslashes := (hfields _ (by decide) _ Namesakes.entryOf_slashes).2 (by decide)
  exact ⟨Namesakes.build_eq, hrelative.1, (hslashes _).mpr (by decide +kernel)⟩

theorem file_field_loses_script :
    ¬∀ (t : FileTree) (c : Config) (names : List String) (i : Index),
      (build c t (names.map Bytes.ofString)).1 = .ok i →
        ∀ name ∈ names, ∀ e, EntryOf t c.kinds (Bytes.ofString name) e →
          t.read (Bytes.ofString e.file) = t.read (Bytes.ofString name) := by
  intro h
  have hread := h _ _ _ _ Namesakes.build_eq _ (by decide) _ Namesakes.entryOf_slashes
  exact absurd hread (by decide +kernel)

end Run

end ScriptTags
