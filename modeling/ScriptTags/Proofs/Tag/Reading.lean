import ScriptTags.Proofs.Tag.Extracted
import Mathlib.Data.List.Basic

/-!
Reading a tag file back. The name ends at the first tab and the last three fields are taken from
the right, so tabs in a file field do no harm, and separators within an address are never looked
at.
-/

namespace ScriptTags

def Kind.ofText? (s : String) : Option Kind :=
  Kind.all.find? (·.text = s)

@[simp]
theorem Kind.ofText?_text (k : Kind) : Kind.ofText? k.text = some k := by
  cases k <;> decide

namespace Entry

def addressEnd : List Char := [';', '"']

def lineMark : List Char := ['l', 'i', 'n', 'e', ':']

def decimal? (digits : List Char) : Option Nat :=
  if digits.all Char.isDigit then some (Nat.ofDigitChars 10 digits 0) else none

def ofFields? (name : List Char) (file : List (List Char)) (address kind position : List Char) :
    Option Entry := do
  let address ← address.dropSuffix? addressEnd
  let kind ← Kind.ofText? (String.ofList kind)
  let line ← (← position.dropPrefix? lineMark) |> decimal?
  return {
    name := String.ofList name
    file := String.ofList (['\t'].intercalate file)
    address := String.ofList address
    kind, line }

def parse? (line : String) : Option Entry :=
  match line.toList.splitOn '\t' with
  | [] => none
  | name :: fields =>
      match fields.reverse with
      | position :: kind :: address :: file => ofFields? name file.reverse address kind position
      | _ => none

end Entry

def Index.parse? (text : String) : Option (List Entry) :=
  let lines := (text.toList.splitOn '\n').map String.ofList
  if lines.take Header.all.length = Header.all.map Header.render then
    (lines.drop Header.all.length).mapM Entry.parse?
  else none

namespace Entry

variable {e f : Entry}

theorem decimal?_toDigits (n : Nat) : decimal? (Nat.toDigits 10 n) = some n := by
  have hdigits : (Nat.toDigits 10 n).all Char.isDigit = true :=
    List.all_eq_true.mpr fun c hc => Nat.isDigit_of_mem_toDigits (by decide) (by decide) hc
  rw [decimal?, if_pos hdigits, Nat.ofDigitChars_ten_toDigits]

theorem ofFields?_fields (e : Entry) :
    ofFields? e.name.toList (e.file.toList.splitOn '\t') (e.address.toList ++ addressEnd)
      e.kind.text.toList (lineMark ++ Nat.toDigits 10 e.line) = some e := by
  have haddress : (e.address.toList ++ addressEnd).dropSuffix? addressEnd =
      some e.address.toList :=
    List.dropSuffix?_eq_some_iff.mpr ⟨_, rfl, BEq.rfl⟩
  have hposition : (lineMark ++ Nat.toDigits 10 e.line).dropPrefix? lineMark =
      some (Nat.toDigits 10 e.line) :=
    List.dropPrefix?_append_of_beq _ BEq.rfl
  simp [ofFields?, haddress, hposition, decimal?_toDigits, List.intercalate_splitOn]

theorem toList_render (e : Entry) :
    e.render.toList =
      e.name.toList ++ '\t' :: (e.file.toList ++ '\t' :: ((e.address.toList ++ addressEnd) ++
        '\t' :: (e.kind.text.toList ++ '\t' :: (lineMark ++ Nat.toDigits 10 e.line)))) := by
  simp [render, addressEnd, lineMark]

theorem splitOn_render (h : e.WellFormed) :
    e.render.toList.splitOn '\t' =
      e.name.toList :: (e.file.toList.splitOn '\t' ++
        [e.address.toList ++ addressEnd, e.kind.text.toList,
          lineMark ++ Nat.toDigits 10 e.line]) := by
  have hname := h.printable_name.not_mem (c := '\t') (by decide)
  have haddress := h.printable_address.not_mem (c := '\t') (by decide)
  have hkind := (Printable.kind e.kind).not_mem (c := '\t') (by decide)
  have hline := (Printable.decimal e.line).not_mem (c := '\t') (by decide)
  rw [Nat.toString_eq_repr, Nat.toList_repr] at hline
  have hpattern : '\t' ∉ e.address.toList ++ addressEnd := by simp [haddress, addressEnd]
  have hposition : '\t' ∉ lineMark ++ Nat.toDigits 10 e.line := by simp [hline, lineMark]
  rw [toList_render, List.splitOn_append_cons_self_of_not_mem hname,
    List.splitOn_append_cons_self, List.splitOn_append_cons_self_of_not_mem hpattern,
    List.splitOn_append_cons_self_of_not_mem hkind, List.splitOn_eq_singleton hposition]

theorem parse?_render (h : e.WellFormed) : parse? e.render = some e := by
  rw [parse?, splitOn_render h]
  simp [ofFields?_fields]

theorem render_inj (he : e.WellFormed) (hf : f.WellFormed) : e.render = f.render ↔ e = f := by
  constructor
  · intro h
    have hread := parse?_render he
    rw [h, parse?_render hf, Option.some.injEq] at hread
    exact hread.symm
  · rintro rfl
    rfl

theorem lineFeed_not_mem_render (h : e.WellFormed) (hfile : '\n' ∉ e.file.toList) :
    '\n' ∉ e.render.toList := by
  have hname := h.printable_name.not_mem (c := '\n') (by decide)
  have haddress := h.printable_address.not_mem (c := '\n') (by decide)
  have hkind := (Printable.kind e.kind).not_mem (c := '\n') (by decide)
  have hline := (Printable.decimal e.line).not_mem (c := '\n') (by decide)
  rw [Nat.toString_eq_repr, Nat.toList_repr] at hline
  simp [toList_render, hname, hfile, haddress, hkind, hline, addressEnd, lineMark]

end Entry

namespace Header

theorem toList_render (h : Header) :
    h.render.toList =
      '!' :: h.name.toList ++ '\t' :: (h.value.toList ++ '\t' :: '/' :: (h.comment.toList ++ ['/'])) := by
  simp [render]

theorem lineFeed_not_mem_render : ∀ h ∈ all, '\n' ∉ h.render.toList := by
  have hparts : ∀ h ∈ all, '\n' ∉ h.name.toList ∧ '\n' ∉ h.value.toList ∧ '\n' ∉ h.comment.toList := by
    decide +kernel
  intro h hmem
  obtain ⟨hname, hvalue, hcomment⟩ := hparts h hmem
  simp [toList_render, hname, hvalue, hcomment]

end Header

namespace Index

variable {i : Index}

theorem lineFeed_not_mem_lines (h : ∀ e ∈ i.entries, e.WellFormed ∧ '\n' ∉ e.file.toList) :
    ∀ line ∈ i.lines, '\n' ∉ line.toList := by
  intro line hline
  rcases List.mem_append.mp hline with hheader | hentry
  · obtain ⟨header, hmem, rfl⟩ := List.mem_map.mp hheader
    exact Header.lineFeed_not_mem_render header hmem
  · obtain ⟨e, he, rfl⟩ := List.mem_map.mp hentry
    obtain ⟨hwell, hfile⟩ := h e (List.mem_mergeSort.mp he)
    exact Entry.lineFeed_not_mem_render hwell hfile

theorem splitOn_render (h : ∀ e ∈ i.entries, e.WellFormed ∧ '\n' ∉ e.file.toList) :
    (i.render.toList.splitOn '\n').map String.ofList = i.lines := by
  have hnil : i.lines.map String.toList ≠ [] := by simp [lines, Header.all]
  have hlines : ∀ line ∈ i.lines.map String.toList, '\n' ∉ line := by
    simpa using lineFeed_not_mem_lines h
  rw [render, String.toList_intercalate, show "\n".toList = ['\n'] from rfl,
    List.splitOn_intercalate '\n' hlines hnil, List.map_map]
  simp

theorem mapM_parse?_render {es : List Entry} (h : ∀ e ∈ es, e.WellFormed) :
    (es.map Entry.render).mapM Entry.parse? = some es := by
  induction es with
  | nil => rfl
  | cons e es ih =>
      have he := Entry.parse?_render (h e List.mem_cons_self)
      have hrest := ih fun x hx => h x (List.mem_cons_of_mem e hx)
      simp only [List.map_cons, List.mapM_cons, he, hrest]
      rfl

theorem parse?_render (h : ∀ e ∈ i.entries, e.WellFormed ∧ '\n' ∉ e.file.toList) :
    parse? i.render = some i.sorted := by
  have hsorted : ∀ e ∈ i.sorted, e.WellFormed := fun e he => (h e (List.mem_mergeSort.mp he)).1
  have hlength : Header.all.length = (Header.all.map Header.render).length :=
    (List.length_map _).symm
  rw [parse?, splitOn_render h, lines, hlength, List.take_left, if_pos rfl, List.drop_left,
    mapM_parse?_render hsorted]

end Index

namespace Scan

theorem tag_file_determines_entries :
    (∀ i : Index, (∀ e ∈ i.entries, Extracted e ∧ '\n' ∉ e.file.toList) →
      Index.parse? i.render = some i.sorted) ∧
    ∀ e f, Extracted e → Extracted f → (e.render = f.render ↔ e = f) := by
  constructor
  · intro i h
    exact Index.parse?_render fun e he => ⟨(h e he).1.wellFormed, (h e he).2⟩
  · intro e f he hf
    exact Entry.render_inj he.wellFormed hf.wellFormed

def lookalike (file : String) : Entry :=
  ⟨"a", file, "/^a = $/;\"\\tlabel\\tline:7$/", .variable, 2⟩

theorem reading_tells_lookalikes_apart :
    Extracted (lookalike "x\tline:9") ∧ Extracted (lookalike "x") ∧ '\n' ∉ "x\tline:9".toList ∧
      Index.parse? (Index.render ⟨[lookalike "x\tline:9"]⟩) = some [lookalike "x\tline:9"] ∧
      (lookalike "x\tline:9").render ≠ (lookalike "x").render := by
  have htab : Extracted (lookalike "x\tline:9") :=
    ⟨"./x\tline:9", Bytes.ofString "\na = $/;\"\tlabel\tline:7", [.variable], by decide +kernel⟩
  have hplain : Extracted (lookalike "x") :=
    ⟨"x", Bytes.ofString "\na = $/;\"\tlabel\tline:7", [.variable], by decide +kernel⟩
  refine ⟨htab, hplain, by decide, ?_, fun h => ?_⟩
  · have hread := tag_file_determines_entries.1 ⟨[lookalike "x\tline:9"]⟩ fun e he => by
      obtain rfl := List.mem_singleton.mp he
      exact ⟨htab, by decide⟩
    rwa [Index.sorted, List.mergeSort_singleton] at hread
  · exact absurd ((tag_file_determines_entries.2 _ _ htab hplain).mp h) (by decide)

end Scan

end ScriptTags
