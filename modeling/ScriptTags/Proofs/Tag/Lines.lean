import ScriptTags.Proofs.Tag.Reading
import Mathlib.Data.List.Forall2

namespace ScriptTags

section Split

variable {sep : Char} {text : List Char} {texts : List (List Char)}

theorem splitOn_intercalate_eq_flatMap (h : texts ≠ []) :
    ([sep].intercalate texts).splitOn sep = texts.flatMap (·.splitOn sep) := by
  induction texts with
  | nil => exact absurd rfl h
  | cons text rest ih =>
      cases rest with
      | nil => simp
      | cons next rest =>
          rw [List.intercalate_cons_cons, List.append_assoc, List.singleton_append,
            List.splitOn_append_cons_self, ih (List.cons_ne_nil _ _)]
          rfl

theorem length_splitOn_pos (sep : Char) (text : List Char) : 0 < (text.splitOn sep).length :=
  List.length_pos_iff.mpr (List.splitOn_ne_nil sep text)

theorem length_splitOn_eq_one_iff : (text.splitOn sep).length = 1 ↔ sep ∉ text := by
  constructor
  · intro h hmem
    obtain ⟨before, after, rfl⟩ := List.append_of_mem hmem
    have hbefore := length_splitOn_pos sep before
    have hafter := length_splitOn_pos sep after
    rw [List.splitOn_append_cons_self, List.length_append] at h
    omega
  · intro h
    rw [List.splitOn_eq_singleton h, List.length_singleton]

theorem length_le_flatMap_splitOn (sep : Char) (texts : List (List Char)) :
    texts.length ≤ (texts.flatMap (·.splitOn sep)).length := by
  induction texts with
  | nil => exact Nat.le_refl _
  | cons text texts ih =>
      have hpos := length_splitOn_pos sep text
      rw [List.flatMap_cons, List.length_append, List.length_cons]
      omega

theorem length_flatMap_splitOn_eq_iff :
    (texts.flatMap (·.splitOn sep)).length = texts.length ↔ ∀ text ∈ texts, sep ∉ text := by
  induction texts with
  | nil => simp
  | cons text texts ih =>
      have hpos := length_splitOn_pos sep text
      have hrest := length_le_flatMap_splitOn sep texts
      rw [List.forall_mem_cons, ← length_splitOn_eq_one_iff, List.flatMap_cons,
        List.length_append, List.length_cons]
      constructor
      · intro h
        exact ⟨by omega, ih.mp (by omega)⟩
      · rintro ⟨hone, hall⟩
        have hlength := ih.mpr hall
        omega

end Split

namespace Entry

variable {e : Entry}

/-- Five fields that tell an entry: a word, the file field, an address between its marks, the kind,
and the line number in decimal digits. -/
inductive Fields (e : Entry) : List (List Char) → Prop
  | five {name address digits : List Char} :
      name = e.name.toList → name ≠ [] → (∀ c ∈ name, c.isAlphanum = true ∨ c = '_') →
      ['/', '^'] <+: address → ['$', '/', ';', '"'] <:+ address →
      digits = Nat.toDigits 10 e.line → (∀ c ∈ digits, c.isDigit = true) →
      Fields e [name, e.file.toList, address, e.kind.text.toList, lineMark ++ digits]

theorem WellFormed.isAlphanum_name (h : e.WellFormed) :
    e.name.toList ≠ [] ∧ ∀ c ∈ e.name.toList, c.isAlphanum = true ∨ c = '_' := by
  have hoctet : ∀ n : Fin 256, Byte.isWord (UInt8.ofFin n) = true →
      (Char.ofNat n.val).isAlphanum = true ∨ Char.ofNat n.val = '_' := by decide +kernel
  obtain ⟨w, hne, hword, hname⟩ := h.name
  rw [hname, Bytes.toAscii, String.toList_ofList]
  refine ⟨by simpa using hne, fun c hc => ?_⟩
  obtain ⟨b, hb, rfl⟩ := List.mem_map.mp hc
  exact hoctet b.toFin (hword b hb)

theorem WellFormed.address_marks (h : e.WellFormed) :
    ['/', '^'] <+: e.address.toList ++ addressEnd ∧
      ['$', '/', ';', '"'] <:+ e.address.toList ++ addressEnd := by
  obtain ⟨line, haddress⟩ := h.address
  have htext : e.address.toList = ['/', '^'] ++ (Address.escape line).toList ++ ['$', '/'] := by
    rw [haddress, Address.ofLine, String.toList_append, String.toList_append]
    rfl
  rw [htext]
  constructor
  · rw [List.append_assoc, List.append_assoc]
    exact List.prefix_append _ _
  · rw [List.append_assoc]
    exact List.suffix_append _ _

theorem WellFormed.fields_splitOn_render_iff (h : e.WellFormed) :
    e.Fields (e.render.toList.splitOn '\t') ↔ '\t' ∉ e.file.toList := by
  rw [splitOn_render h]
  constructor
  · intro hfields
    rw [← length_splitOn_eq_one_iff]
    generalize hall : e.name.toList :: (e.file.toList.splitOn '\t' ++ _) = fields at hfields
    cases hfields
    have hlength := congrArg List.length hall
    simpa using hlength
  · intro htab
    obtain ⟨hne, hword⟩ := h.isAlphanum_name
    obtain ⟨hopen, hclose⟩ := h.address_marks
    have hdigits : ∀ c ∈ Nat.toDigits 10 e.line, c.isDigit = true :=
      fun c hc => Nat.isDigit_of_mem_toDigits (by decide) (by decide) hc
    rw [List.splitOn_eq_singleton htab]
    exact .five rfl hne hword hopen hclose rfl hdigits

theorem WellFormed.lineFeed_not_mem_render_iff (h : e.WellFormed) :
    '\n' ∉ e.render.toList ↔ '\n' ∉ e.file.toList := by
  refine ⟨fun hrender hfile => hrender ?_, lineFeed_not_mem_render h⟩
  rw [toList_render]
  simp [hfile]

end Entry

namespace Index

variable {i : Index}

def OneLineEach (i : Index) : Prop :=
  let lines := i.render.toList.splitOn '\n'
  lines.length = 6 + i.size ∧ lines.take 6 = Header.all.map (·.render.toList) ∧
    List.Forall₂ (fun e line => e.Fields (line.splitOn '\t')) i.sorted (lines.drop 6)

theorem mem_sorted {e : Entry} : e ∈ i.sorted ↔ e ∈ i.entries :=
  List.mem_mergeSort

theorem length_lines (i : Index) : i.lines.length = 6 + i.size := by
  rw [lines, List.length_append, List.length_map, List.length_map, sorted, List.length_mergeSort]
  rfl

theorem splitOn_render_eq_append (h : ∀ e ∈ i.entries, e.WellFormed ∧ '\n' ∉ e.file.toList) :
    i.render.toList.splitOn '\n' =
      Header.all.map (·.render.toList) ++ i.sorted.map (·.render.toList) := by
  have hinverse : String.toList ∘ String.ofList = id := funext fun _ => String.toList_ofList
  have hlines := congrArg (List.map String.toList) (splitOn_render h)
  rw [List.map_map, hinverse, List.map_id, lines, List.map_append, List.map_map,
    List.map_map] at hlines
  exact hlines

theorem splitOn_render_eq_flatMap (i : Index) :
    i.render.toList.splitOn '\n' = (i.lines.map String.toList).flatMap (·.splitOn '\n') := by
  have hne : i.lines.map String.toList ≠ [] := by simp [lines, Header.all]
  rw [render, String.toList_intercalate, show "\n".toList = ['\n'] from rfl,
    splitOn_intercalate_eq_flatMap hne]

theorem length_splitOn_render_iff (h : ∀ e ∈ i.entries, e.WellFormed) :
    (i.render.toList.splitOn '\n').length = 6 + i.size ↔
      ∀ e ∈ i.entries, '\n' ∉ e.file.toList := by
  rw [splitOn_render_eq_flatMap, ← length_lines, ← List.length_map String.toList,
    length_flatMap_splitOn_eq_iff, List.forall_mem_map, lines, List.forall_mem_append,
    List.forall_mem_map, List.forall_mem_map]
  constructor
  · rintro ⟨-, hentries⟩ e he
    exact (h e he).lineFeed_not_mem_render_iff.mp (hentries e (mem_sorted.mpr he))
  · intro hfiles
    refine ⟨Header.lineFeed_not_mem_render, fun e he => ?_⟩
    have hmem := mem_sorted.mp he
    exact (h e hmem).lineFeed_not_mem_render_iff.mpr (hfiles e hmem)

theorem oneLineEach_iff (h : ∀ e ∈ i.entries, e.WellFormed) :
    i.OneLineEach ↔ ∀ e ∈ i.entries, '\t' ∉ e.file.toList ∧ '\n' ∉ e.file.toList := by
  have hlines : (∀ e ∈ i.entries, '\n' ∉ e.file.toList) →
      i.render.toList.splitOn '\n' =
        Header.all.map (·.render.toList) ++ i.sorted.map (·.render.toList) :=
    fun hfiles => splitOn_render_eq_append fun e he => ⟨h e he, hfiles e he⟩
  have hfields : List.Forall₂ (fun e line => e.Fields (line.splitOn '\t')) i.sorted
      (i.sorted.map (·.render.toList)) ↔ ∀ e ∈ i.entries, '\t' ∉ e.file.toList := by
    rw [List.forall₂_map_right_iff, List.forall₂_same]
    constructor
    · intro hall e he
      exact (h e he).fields_splitOn_render_iff.mp (hall e (mem_sorted.mpr he))
    · intro hall e he
      have hmem := mem_sorted.mp he
      exact (h e hmem).fields_splitOn_render_iff.mpr (hall e hmem)
  constructor
  · rintro ⟨hlength, -, hall⟩
    have hfiles := (length_splitOn_render_iff h).mp hlength
    rw [hlines hfiles] at hall
    have htabs := hfields.mp hall
    exact fun e he => ⟨htabs e he, hfiles e he⟩
  · intro hfiles
    have hbreaks : ∀ e ∈ i.entries, '\n' ∉ e.file.toList := fun e he => (hfiles e he).2
    refine ⟨(length_splitOn_render_iff h).mpr hbreaks, ?_, ?_⟩
    · rw [hlines hbreaks]
      rfl
    · rw [hlines hbreaks]
      exact hfields.mpr fun e he => (hfiles e he).1

end Index

end ScriptTags
