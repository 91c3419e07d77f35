import ScriptTags.Proofs.Run.Fold
import ScriptTags.Proofs.Run.TagLines
import ScriptTags.Proofs.Script.Hits

/-!
A tag file read as a script. Its headers begin with no name, and in the line of an entry a tab
stands behind the name, so only an assignment could be found there, and only where the file field
begins like one.
-/

namespace ScriptTags

namespace Bytes

theorem ofString_append (s r : String) : ofString (s ++ r) = ofString s ++ ofString r := by
  rw [ofString, String.toList_append, List.flatMap_append]
  rfl

theorem ofString_intercalate (sep : String) (lines : List String) :
    ofString (sep.intercalate lines) = (ofString sep).intercalate (lines.map ofString) := by
  induction lines with
  | nil => simp [ofString]
  | cons line rest ih =>
      cases rest with
      | nil => simp
      | cons next rest =>
          rw [String.intercalate_cons_cons, ofString_append, ofString_append, ih, List.map_cons,
            List.map_cons, List.map_cons, List.intercalate_cons_cons]

theorem intercalate_concat_nil (sep : Bytes) {lines : List Bytes} (h : lines ≠ []) :
    sep.intercalate (lines ++ [[]]) = sep.intercalate lines ++ sep := by
  induction lines with
  | nil => exact absurd rfl h
  | cons line rest ih =>
      cases rest with
      | nil => simp
      | cons next rest =>
          have hrest := ih (List.cons_ne_nil next rest)
          rw [List.cons_append] at hrest
          rw [List.cons_append, List.cons_append, List.intercalate_cons_cons,
            List.intercalate_cons_cons, hrest, List.append_assoc, List.append_assoc,
            List.append_assoc]

theorem lineFeed_mem_ofString_iff {s : String} : Byte.lineFeed ∈ ofString s ↔ '\n' ∈ s.toList := by
  have hmem : '\n' ∈ (Utf8.decode (ofString s)).toList ↔ Byte.lineFeed ∈ ofString s :=
    Utf8.mem_decode_iff (b := Byte.lineFeed) ⟨by decide, by decide⟩
  rw [Utf8.decode_ofString] at hmem
  exact hmem.symm

end Bytes

namespace Rule

variable {kind : Kind} {s r w : Bytes} {b : UInt8}

def OpensValue (s : Bytes) : Prop :=
  [Byte.equals] <+: skipSpace s ∨ [Byte.colon, Byte.equals] <+: skipSpace s

instance : Decidable (OpensValue s) :=
  inferInstanceAs (Decidable (_ ∨ _))

theorem isSome_afterEquals?_iff : (afterEquals? s).isSome = true ↔ [Byte.equals] <+: s := by
  cases s with
  | nil => simp [afterEquals?]
  | cons b s =>
      rw [afterEquals?, List.cons_prefix_cons]
      split
      next h => simp [h]
      next h => simp [Ne.symm h]

theorem isSome_afterVariableName?_iff : (afterVariableName? s).isSome = true ↔ OpensValue s := by
  have hother : Byte.equals ≠ Byte.colon := by decide
  rw [afterVariableName?, OpensValue]
  cases skipSpace s with
  | nil => simp
  | cons b r =>
      simp only
      rw [List.cons_prefix_cons, List.cons_prefix_cons]
      split
      next h => simp [isSome_afterEquals?_iff, h, hother]
      next h => simp [isSome_afterEquals?_iff, Ne.symm h]

theorem opensValue_append_iff :
    OpensValue (s ++ Byte.tab :: Byte.slash :: r) ↔ OpensValue s := by
  have hcolon : Byte.colon ≠ Byte.slash := by decide
  have hslash : Byte.equals ≠ Byte.slash := by decide
  have htab : Byte.equals ≠ Byte.tab := by decide
  -- White space is skipped up to the slash at most, which begins no assignment.
  have htail : skipSpace (Byte.tab :: Byte.slash :: r) = Byte.slash :: r := rfl
  have happend : skipSpace (s ++ Byte.tab :: Byte.slash :: r) =
      if (skipSpace s).isEmpty then Byte.slash :: r
      else skipSpace s ++ Byte.tab :: Byte.slash :: r := by
    rw [skipSpace, List.dropWhile_append, ← skipSpace, ← skipSpace, htail]
  rw [OpensValue, OpensValue, happend]
  cases skipSpace s with
  | nil => simp [hcolon, hslash]
  | cons b t =>
      cases t with
      | nil => simp [htab]
      | cons x t => simp

theorem match?_of_not_isWord (hblank : Byte.isBlank b = false) (hword : Byte.isWord b = false) :
    match? kind (b :: s) = none := by
  have hhead : head? (b :: s) = none := by simp [head?, hblank, hword]
  rw [match?, hhead]
  rfl

theorem isSome_afterName?_tab_iff : ∀ kind,
    (afterName? kind (Byte.tab :: r)).isSome = true ↔ kind = .variable ∧ OpensValue r
  -- Parenthesis and colon have to follow the name at once; only the assignment skips the tab.
  | .function => by
      have hparen : Byte.tab ≠ Byte.openParen := by decide
      simp [afterName?, afterFunctionName?, hparen]
  | .label => by
      have hcolon : Byte.tab ≠ Byte.colon := by decide
      simp [afterName?, afterLabelName?, hcolon]
  | .variable => by
      have hskip : OpensValue (Byte.tab :: r) ↔ OpensValue r := Iff.rfl
      rw [afterName?, isSome_afterVariableName?_iff, hskip]
      exact (and_iff_right rfl).symm

theorem isSome_match?_tab_iff (hw : w ≠ []) (hword : ∀ b ∈ w, Byte.isWord b = true) :
    (match? kind (w ++ Byte.tab :: r)).isSome = true ↔ kind = .variable ∧ OpensValue r := by
  have hend : ∀ b, (Byte.tab :: r).head? = some b → Byte.isWord b = false := by
    rintro b ⟨rfl⟩
    rfl
  have hhead : head? (w ++ Byte.tab :: r) = some ⟨w, Byte.tab :: r⟩ :=
    head?_of_append (List.forall_mem_nil _) hw hword hend
  rw [match?, hhead, Option.bind_some, Option.isSome_map, isSome_afterName?_tab_iff]

end Rule

theorem Header.match?_render (h : Header) (kind : Kind) (r : Bytes) :
    Rule.match? kind (Bytes.ofString h.render ++ r) = none := by
  have hmark : Bytes.ofString "!" = [33] := by decide
  simp only [Header.render, Bytes.ofString_append, List.append_assoc, hmark]
  exact Rule.match?_of_not_isWord (by decide) (by decide)

namespace Entry

variable {e : Entry}

theorem WellFormed.exists_ofString_render (h : e.WellFormed) :
    ∃ w rest, w ≠ [] ∧ (∀ b ∈ w, Byte.isWord b = true) ∧
      Bytes.ofString e.render =
        w ++ Byte.tab :: (Bytes.ofString e.file ++ Byte.tab :: Byte.slash :: rest) := by
  obtain ⟨w, hne, hword, hname⟩ := h.name
  obtain ⟨line, haddress⟩ := h.address
  have hwritten : Bytes.ofString e.name = w := by
    rw [hname]
    exact Bytes.ofString_toAscii fun b hb => Byte.isWord_lt (hword b hb)
  have htab : Bytes.ofString "\t" = [Byte.tab] := by decide
  have hopen : Bytes.ofString "/^" = [Byte.slash, 94] := by decide
  refine ⟨w, 94 :: Bytes.ofString (Address.escape line ++ "$/" ++ ";\"\t" ++ e.kind.text ++
    "\tline:" ++ toString e.line), hne, hword, ?_⟩
  simp only [render, haddress, Address.ofLine, Bytes.ofString_append, hwritten, htab, hopen,
    List.append_assoc, List.cons_append, List.nil_append]

theorem WellFormed.match?_render_iff (h : e.WellFormed) (kind : Kind) (r : Bytes) :
    Rule.match? kind (Bytes.ofString e.render ++ r) = none ↔
      kind = .variable → ¬Rule.OpensValue (Bytes.ofString e.file) := by
  obtain ⟨w, rest, hne, hword, hrender⟩ := h.exists_ofString_render
  have htext : Bytes.ofString e.render ++ r =
      w ++ Byte.tab :: (Bytes.ofString e.file ++ Byte.tab :: Byte.slash :: (rest ++ r)) := by
    rw [hrender]
    simp
  rw [htext, ← Option.not_isSome_iff_eq_none, Rule.isSome_match?_tab_iff hne hword,
    Rule.opensValue_append_iff, not_and]

end Entry

namespace Scan

variable {kind : Kind} {line text : Bytes} {lines : List Bytes}

/-- A line where a definition begins or does not, whatever the lines behind it are. -/
def StandsAlone (kind : Kind) (line : Bytes) : Prop :=
  Byte.lineFeed ∉ line ∧
    ∀ r, Rule.match? kind (line ++ Byte.lineFeed :: r) = none ↔ Rule.match? kind line = none

theorem next_append (h : Byte.lineFeed ∉ line) (r : Bytes) :
    Line.next (line ++ r) = Line.next r := by
  have hline : ∀ b ∈ line, (b != Byte.lineFeed) = true := by
    intro b hb
    simpa using ne_of_mem_of_not_mem hb h
  rw [Line.next, Line.tail, List.dropWhile_append_of_pos hline]
  rfl

theorem find?_line_eq_none_iff (h : Byte.lineFeed ∉ line) :
    find? kind line = none ↔ Rule.match? kind line = none := by
  constructor
  · intro hfind
    cases hmatch : Rule.match? kind line with
    | none => rfl
    | some m => cases hfind.symm.trans (find?_of_match?_eq_some hmatch)
  · intro hmatch
    have hnext : Line.next line = [] := by
      rw [← List.append_nil line, next_append h]
      rfl
    by_cases hline : line = []
    · rw [hline, find?_nil]
    · rw [find?_of_match?_eq_none hline hmatch, hnext, find?_nil]

theorem find?_append_eq_none_iff (h : StandsAlone kind line) (r : Bytes) :
    find? kind (line ++ Byte.lineFeed :: r) = none ↔
      Rule.match? kind line = none ∧ find? kind r = none := by
  have hnext : Line.next (line ++ Byte.lineFeed :: r) = r := by
    rw [next_append h.1]
    rfl
  rw [← h.2 r]
  cases hmatch : Rule.match? kind (line ++ Byte.lineFeed :: r) with
  | none => simp [find?_of_match?_eq_none _ hmatch, hnext]
  | some m => simp [find?_of_match?_eq_some hmatch]

theorem find?_intercalate_eq_none_iff (h : ∀ line ∈ lines, StandsAlone kind line) :
    find? kind ([Byte.lineFeed].intercalate lines) = none ↔
      ∀ line ∈ lines, Rule.match? kind line = none := by
  induction lines with
  | nil => simp [find?_nil]
  | cons line lines ih =>
      obtain ⟨hline, hlines⟩ := List.forall_mem_cons.mp h
      cases lines with
      | nil =>
          rw [List.intercalate_singleton, find?_line_eq_none_iff hline.1,
            List.forall_mem_singleton]
      | cons next lines =>
          rw [List.intercalate_cons_cons, List.append_assoc, List.singleton_append,
            find?_append_eq_none_iff hline, ih hlines, List.forall_mem_cons (l := next :: lines)]

theorem entries_eq_nil_iff (path : String) (text : Bytes) :
    entries kind path text = [] ↔ find? kind text = none := by
  rw [entries_eq_map_occurrences, List.map_eq_nil_iff]
  cases hfind : find? kind text with
  | none => simp [occurrences_of_none hfind]
  | some o => simp [occurrences_of_some hfind]

theorem standsAlone_nil : StandsAlone kind [] :=
  ⟨List.not_mem_nil, fun _ => Iff.rfl⟩

theorem standsAlone_of_iff {p : Prop} (hfeed : Byte.lineFeed ∉ line)
    (h : ∀ r, Rule.match? kind (line ++ r) = none ↔ p) :
    StandsAlone kind line ∧ (Rule.match? kind line = none ↔ p) := by
  have hline : Rule.match? kind line = none ↔ p := by
    have hnil := h []
    rwa [List.append_nil] at hnil
  exact ⟨⟨hfeed, fun r => (h _).trans hline.symm⟩, hline⟩

theorem standsAlone_header {h : Header} (hmem : h ∈ Header.all) :
    StandsAlone kind (Bytes.ofString h.render) ∧
      Rule.match? kind (Bytes.ofString h.render) = none := by
  have hfeed : Byte.lineFeed ∉ Bytes.ofString h.render := fun hb =>
    Header.lineFeed_not_mem_render h hmem (Bytes.lineFeed_mem_ofString_iff.mp hb)
  obtain ⟨halone, hnone⟩ :=
    standsAlone_of_iff hfeed fun r => iff_true_intro (h.match?_render kind r)
  exact ⟨halone, hnone.mpr trivial⟩

theorem standsAlone_entry {e : Entry} (h : e.WellFormed) (hfile : '\n' ∉ e.file.toList) :
    StandsAlone kind (Bytes.ofString e.render) ∧
      (Rule.match? kind (Bytes.ofString e.render) = none ↔
        (kind = .variable → ¬Rule.OpensValue (Bytes.ofString e.file))) := by
  have hfeed : Byte.lineFeed ∉ Bytes.ofString e.render := fun hb =>
    Entry.lineFeed_not_mem_render h hfile (Bytes.lineFeed_mem_ofString_iff.mp hb)
  exact standsAlone_of_iff hfeed (h.match?_render_iff kind)

def Silent (text : Bytes) : Prop :=
  ∀ kind path, entries kind path text = []

theorem Silent.extract (h : Silent text) (path : String) (kinds : List Kind) :
    extract path text kinds = [] :=
  List.flatMap_eq_nil_iff.mpr fun kind _ => h kind path

end Scan

namespace Index

variable {i : Index} {kind : Kind}

theorem ofString_render (i : Index) :
    Bytes.ofString i.render = [Byte.lineFeed].intercalate (i.lines.map Bytes.ofString) := by
  rw [render, Bytes.ofString_intercalate]
  rfl

theorem ofString_render_append_lineFeed (i : Index) :
    Bytes.ofString i.render ++ [Byte.lineFeed] =
      [Byte.lineFeed].intercalate (i.lines.map Bytes.ofString ++ [[]]) := by
  have hlines : i.lines.map Bytes.ofString ≠ [] := by simp [lines, Header.all]
  rw [ofString_render, Bytes.intercalate_concat_nil _ hlines]

theorem standsAlone_lines (h : ∀ e ∈ i.entries, e.WellFormed ∧ '\n' ∉ e.file.toList) :
    ∀ line ∈ i.lines.map Bytes.ofString, Scan.StandsAlone kind line := by
  rw [lines, List.map_append, List.forall_mem_append, List.forall_mem_map, List.forall_mem_map,
    List.forall_mem_map, List.forall_mem_map]
  refine ⟨fun header hmem => (Scan.standsAlone_header hmem).1, fun e he => ?_⟩
  obtain ⟨hwell, hfile⟩ := h e (mem_sorted.mp he)
  exact (Scan.standsAlone_entry hwell hfile).1

theorem match?_lines_iff (h : ∀ e ∈ i.entries, e.WellFormed ∧ '\n' ∉ e.file.toList) :
    (∀ line ∈ i.lines.map Bytes.ofString, Rule.match? kind line = none) ↔
      (kind = .variable → ∀ e ∈ i.entries, ¬Rule.OpensValue (Bytes.ofString e.file)) := by
  rw [lines, List.map_append, List.forall_mem_append, List.forall_mem_map, List.forall_mem_map,
    List.forall_mem_map, List.forall_mem_map]
  constructor
  · rintro ⟨-, hentries⟩ hkind e he
    obtain ⟨hwell, hfile⟩ := h e he
    exact (Scan.standsAlone_entry hwell hfile).2.mp (hentries e (mem_sorted.mpr he)) hkind
  · intro hfiles
    refine ⟨fun header hmem => (Scan.standsAlone_header hmem).2, fun e he => ?_⟩
    have hmem := mem_sorted.mp he
    obtain ⟨hwell, hfile⟩ := h e hmem
    exact (Scan.standsAlone_entry hwell hfile).2.mpr fun hkind => hfiles hkind e hmem

def WrittenAs (i : Index) (text : Bytes) : Prop :=
  text = Bytes.ofString i.render ∨ text = Bytes.ofString i.render ++ [Byte.lineFeed]

theorem WrittenAs.find?_eq_none_iff {text : Bytes} (ht : i.WrittenAs text)
    (h : ∀ e ∈ i.entries, e.WellFormed ∧ '\n' ∉ e.file.toList) :
    Scan.find? kind text = none ↔
      (kind = .variable → ∀ e ∈ i.entries, ¬Rule.OpensValue (Bytes.ofString e.file)) := by
  rw [← match?_lines_iff h]
  rcases ht with rfl | rfl
  · rw [ofString_render, Scan.find?_intercalate_eq_none_iff (standsAlone_lines h)]
  · have hlines : ∀ line ∈ i.lines.map Bytes.ofString ++ [[]], Scan.StandsAlone kind line :=
      List.forall_mem_append.mpr
        ⟨standsAlone_lines h, List.forall_mem_singleton.mpr Scan.standsAlone_nil⟩
    rw [ofString_render_append_lineFeed, Scan.find?_intercalate_eq_none_iff hlines,
      List.forall_mem_append, List.forall_mem_singleton]
    exact and_iff_left Rule.match?_nil

theorem WrittenAs.silent_iff {text : Bytes} (ht : i.WrittenAs text)
    (h : ∀ e ∈ i.entries, e.WellFormed ∧ '\n' ∉ e.file.toList) :
    Scan.Silent text ↔ ∀ e ∈ i.entries, ¬Rule.OpensValue (Bytes.ofString e.file) := by
  constructor
  · intro hsilent
    have hnone := (Scan.entries_eq_nil_iff "" text).mp (hsilent .variable "")
    exact (ht.find?_eq_none_iff h).mp hnone rfl
  · intro hfiles kind path
    exact (Scan.entries_eq_nil_iff path text).mpr ((ht.find?_eq_none_iff h).mpr fun _ => hfiles)

end Index

namespace Run

variable {c : Config} {t : FileTree} {i : Index} {path text root dest : Bytes} {s : Session}
  {n : Nat}

theorem andThen_fst {x y z : Except RunError Index × List Event} (h : y.1 = z.1) :
    (andThen x y).1 = (andThen x z).1 := by
  obtain ⟨result, log⟩ := x
  obtain ⟨y, log'⟩ := y
  obtain ⟨z, log''⟩ := z
  obtain rfl : y = z := h
  cases result with
  | error e => rfl
  | ok i => cases y <;> rfl

theorem build_cons_of_silent (hread : t.read path = .ok text) (h : Scan.Silent text) (c : Config)
    (files : List Bytes) : (build c t (path :: files)).1 = (build c t files).1 := by
  rw [build, buildFrom_cons_of_read hread, h.extract]
  rfl

theorem build_insert_of_silent (hread : t.read path = .ok text) (h : Scan.Silent text) (c : Config)
    (before after : List Bytes) :
    (build c t (before ++ path :: after)).1 = (build c t (before ++ after)).1 := by
  rw [build_append, build_append]
  exact andThen_fst (build_cons_of_silent hread h c after)

theorem writtenAs_of_generate (hbuild : (build c s.tree (collect c s.tree root).1).1 = .ok i)
    (h : (generate c root s).1 = .ok (.wrote dest n)) :
    ∃ text, i.WrittenAs text ∧ (generate c root s).2.tree.read dest = .ok text := by
  obtain ⟨j, hj, -, hread⟩ := exists_delivered h
  obtain rfl := Except.ok.inj (hbuild.symm.trans (build_eq_ok_iff.mpr hj))
  exact ⟨_, .inl rfl, hread⟩

theorem tag_file_tags_nothing (i : Index)
    (h : ∀ e ∈ i.entries, Scan.Extracted e ∧ '\n' ∉ e.file.toList) :
    (∀ text, i.WrittenAs text →
      (Scan.Silent text ↔ ∀ e ∈ i.entries, ¬Rule.OpensValue (Bytes.ofString e.file))) ∧
    ((∀ e ∈ i.entries, ¬Rule.OpensValue (Bytes.ofString e.file)) →
      ∀ t path text, i.WrittenAs text → t.read path = .ok text → ∀ c before after,
        (build c t (before ++ path :: after)).1 = (build c t (before ++ after)).1) ∧
    ∀ c root s dest n, (build c s.tree (collect c s.tree root).1).1 = .ok i →
      (generate c root s).1 = .ok (.wrote dest n) →
      ∃ text, i.WrittenAs text ∧ (generate c root s).2.tree.read dest = .ok text := by
  have hwell : ∀ e ∈ i.entries, e.WellFormed ∧ '\n' ∉ e.file.toList :=
    fun e he => ⟨(h e he).1.wellFormed, (h e he).2⟩
  refine ⟨fun text ht => ht.silent_iff hwell, ?_, fun c root s dest n => writtenAs_of_generate⟩
  intro hfiles t path text ht hread
  exact build_insert_of_silent hread ((ht.silent_iff hwell).mpr hfiles)

-- A script whose path begins with a colon, next to the tag file of a recursive run.
namespace ColonInName

def script : Name := ⟨Bytes.ofString ":b.ahk", by decide⟩

def session : Session where
  tree := { nodes := [([script], .file (Bytes.ofString "x = 1"))] }

def output : Bytes :=
  Bytes.ofString "out.ahk"

def config : Config where
  recursive := true
  includeVariables := true
  destination := .file output

def base : Bytes :=
  Bytes.ofString "."

def scriptPath : Bytes :=
  Bytes.ofString "./:b.ahk"

def outputPath : Bytes :=
  Bytes.ofString "./out.ahk"

def assignment (file : String) : Entry :=
  ⟨"x", file, "/^x = 1$/", .variable, 1⟩

end ColonInName

open ColonInName in
theorem tag_file_of_colon_script_tags_nothing :
    let t := (generate config base session).2.tree
    (generate config base session).1 = .ok (.wrote output 1) ∧
      (collect config t base).1 = [scriptPath, outputPath] ∧
      (build config t [scriptPath, outputPath]).1 = .ok ⟨[assignment ":b.ahk"]⟩ ∧
      Scan.Silent (Bytes.ofString (Index.render ⟨[assignment ":b.ahk"]⟩)) ∧
      ¬Scan.Silent (Bytes.ofString (Index.render ⟨[assignment ":=b.ahk"]⟩)) := by
  intro t
  have hcolon : ∀ e ∈ [assignment ":b.ahk"], Scan.Extracted e ∧ '\n' ∉ e.file.toList := by
    rw [List.forall_mem_singleton]
    exact ⟨⟨":b.ahk", Bytes.ofString "x = 1", [.variable], by decide +kernel⟩, by decide⟩
  have hassign : ∀ e ∈ [assignment ":=b.ahk"], Scan.Extracted e ∧ '\n' ∉ e.file.toList := by
    rw [List.forall_mem_singleton]
    exact ⟨⟨":=b.ahk", Bytes.ofString "x = 1", [.variable], by decide +kernel⟩, by decide⟩
  have hbuilt : (build config session.tree (collect config session.tree base).1).1 =
      .ok ⟨[assignment ":b.ahk"]⟩ := by decide +kernel
  have hends : (generate config base session).1 = .ok (.wrote output 1) := by decide +kernel
  have hcollect : (collect config t base).1 = [scriptPath, outputPath] := by decide +kernel
  have hplace : t.resolve false outputPath = t.resolve false output := by decide +kernel
  have hlookup : t.lookup outputPath = t.lookup output := by
    rw [FileTree.lookup, FileTree.lookup, hplace]
  have hagain : (build config t [scriptPath]).1 = .ok ⟨[assignment ":b.ahk"]⟩ := by decide +kernel
  have hlabels : ∀ e ∈ [assignment ":b.ahk"], ¬Rule.OpensValue (Bytes.ofString e.file) := by decide
  obtain ⟨hsilent, hbuild, hwritten⟩ := tag_file_tags_nothing ⟨[assignment ":b.ahk"]⟩ hcolon
  obtain ⟨text, htext, hread⟩ := hwritten _ _ _ _ _ hbuilt hends
  have hfile : t.read outputPath = .ok text := by
    rw [FileTree.read_eq_ok_iff, hlookup, ← FileTree.read_eq_ok_iff]
    exact hread
  have hskip := hbuild hlabels t outputPath text htext hfile config [scriptPath] []
  have hfound := (tag_file_tags_nothing ⟨[assignment ":=b.ahk"]⟩ hassign).1 _ (.inl rfl)
  refine ⟨hends, hcollect, hskip.trans hagain, (hsilent _ (.inl rfl)).mpr hlabels, fun h => ?_⟩
  exact hfound.mp h _ List.mem_cons_self (by decide)

end Run

end ScriptTags
