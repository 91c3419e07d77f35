import ScriptTags.Proofs.Tag.Lines

namespace ScriptTags

namespace Index

variable {a b : Entry}

theorem nameLE_iff : nameLE a b = true ↔ Bytes.ofString a.name ≤ Bytes.ofString b.name :=
  decide_eq_true_iff

theorem nameLE_trans (a b c : Entry) (hab : nameLE a b = true) (hbc : nameLE b c = true) :
    nameLE a c = true :=
  nameLE_iff.mpr (List.le_trans (nameLE_iff.mp hab) (nameLE_iff.mp hbc))

theorem nameLE_total (a b : Entry) : (nameLE a b || nameLE b a) = true := by
  rw [Bool.or_eq_true, nameLE_iff, nameLE_iff]
  exact List.le_total _ _

theorem pairwise_sorted (i : Index) :
    i.sorted.Pairwise fun a b => Bytes.ofString a.name ≤ Bytes.ofString b.name :=
  (List.pairwise_mergeSort nameLE_trans nameLE_total i.entries).imp nameLE_iff.mp

theorem sorted_perm (i : Index) : i.sorted.Perm i.entries :=
  List.mergeSort_perm i.entries nameLE

theorem filter_sorted (i : Index) (name : String) :
    i.sorted.filter (·.name = name) = i.entries.filter (·.name = name) := by
  have hequal : (i.entries.filter (·.name = name)).Pairwise fun a b => nameLE a b = true := by
    refine List.pairwise_of_forall_mem_list fun a ha b hb => ?_
    have hname := of_decide_eq_true (List.mem_filter.mp ha).2
    have hname' := of_decide_eq_true (List.mem_filter.mp hb).2
    rw [nameLE_iff, hname, hname']
    exact List.le_refl _
  have hsub : (i.entries.filter (·.name = name)).Sublist i.sorted :=
    List.sublist_mergeSort nameLE_trans nameLE_total hequal List.filter_sublist
  have hkept := hsub.filter (·.name = name)
  rw [List.filter_filter] at hkept
  simp only [Bool.and_self] at hkept
  have hlength := ((sorted_perm i).filter (·.name = name)).length_eq
  exact (hkept.eq_of_length_le hlength.le).symm

theorem entries_foldl_append (i : Index) (batches : List (List Entry)) :
    (batches.foldl append i).entries = i.entries ++ batches.flatten := by
  induction batches generalizing i with
  | nil => simp
  | cons found batches ih =>
      rw [List.foldl_cons, ih, List.flatten_cons, append, List.append_assoc]

end Index

/-- What an editor compares a line by: the text before its first tab. -/
def firstField (line : List Char) : Bytes :=
  Bytes.ofString (String.ofList ((line.splitOn '\t').head (List.splitOn_ne_nil '\t' line)))

theorem firstField_append {field rest : List Char} (h : '\t' ∉ field) :
    firstField (field ++ '\t' :: rest) = Bytes.ofString (String.ofList field) := by
  simp only [firstField, List.splitOn_append_cons_self_of_not_mem h, List.head_cons]

namespace Header

def mark : UInt8 := 33

theorem mark_lt_of_isWord {b : UInt8} (h : Byte.isWord b = true) : mark < b := by
  have hoctet : ∀ n : Fin 256, Byte.isWord (UInt8.ofFin n) = true → mark < UInt8.ofFin n := by
    decide +kernel
  exact hoctet b.toFin h

theorem firstField_render {h : Header} (hmem : h ∈ all) :
    firstField h.render.toList = mark :: Bytes.ofString h.name := by
  have hname : ∀ h ∈ all, '\t' ∉ '!' :: h.name.toList := by decide +kernel
  rw [toList_render, firstField_append (hname h hmem), Bytes.ofString, String.toList_ofList]
  rfl

theorem pairwise_firstField :
    (all.map (·.render.toList)).Pairwise fun l l' => firstField l ≤ firstField l' := by
  have hnames : all.Pairwise fun h h' => mark :: Bytes.ofString h.name ≤ mark :: Bytes.ofString h'.name := by
    decide +kernel
  refine List.pairwise_map.mpr (hnames.imp_of_mem fun {h h'} hmem hmem' hle => ?_)
  rwa [firstField_render hmem, firstField_render hmem']

end Header

namespace Entry.WellFormed

variable {e : Entry}

theorem firstField_render (h : e.WellFormed) :
    firstField e.render.toList = Bytes.ofString e.name := by
  rw [toList_render, firstField_append (h.printable_name.not_mem (by decide)),
    String.ofList_toList]

theorem exists_ofString_name (h : e.WellFormed) :
    ∃ b w, Bytes.ofString e.name = b :: w ∧ Byte.isWord b = true := by
  obtain ⟨w, hne, hword, hname⟩ := h.name
  obtain ⟨b, rest, rfl⟩ := List.exists_cons_of_ne_nil hne
  refine ⟨b, rest, ?_, hword b List.mem_cons_self⟩
  rw [hname, Bytes.ofString_toAscii fun b hb => Byte.isWord_lt (hword b hb)]

theorem header_le (h : e.WellFormed) {header : Header} (hmem : header ∈ Header.all) :
    firstField header.render.toList ≤ firstField e.render.toList := by
  obtain ⟨b, w, hname, hword⟩ := h.exists_ofString_name
  rw [Header.firstField_render hmem, h.firstField_render, hname, List.cons_le_cons_iff]
  exact Or.inl (Header.mark_lt_of_isWord hword)

end Entry.WellFormed

namespace Index

variable {i : Index}

theorem pairwise_firstField (h : ∀ e ∈ i.entries, e.WellFormed) :
    (Header.all.map (·.render.toList) ++ i.sorted.map (·.render.toList)).Pairwise
      fun l l' => firstField l ≤ firstField l' := by
  have hwell : ∀ e ∈ i.sorted, e.WellFormed := fun e he => h e (mem_sorted.mp he)
  refine List.pairwise_append.mpr ⟨Header.pairwise_firstField, ?_, ?_⟩
  · refine List.pairwise_map.mpr (i.pairwise_sorted.imp_of_mem fun {a b} ha hb hab => ?_)
    rwa [(hwell a ha).firstField_render, (hwell b hb).firstField_render]
  · intro line hline line' hline'
    obtain ⟨header, hheader, rfl⟩ := List.mem_map.mp hline
    obtain ⟨e, he, rfl⟩ := List.mem_map.mp hline'
    exact (hwell e he).header_le hheader

end Index

namespace Scan

theorem tag_file_sorted_by_first_field (batches : List (List Entry))
    (h : ∀ found ∈ batches, ∀ e ∈ found, Extracted e ∧ '\n' ∉ e.file.toList) :
    let i := batches.foldl Index.append {}
    let lines := i.render.toList.splitOn '\n'
    (lines.Pairwise fun l l' => firstField l ≤ firstField l') ∧
      lines = Header.all.map (·.render.toList) ++ i.sorted.map (·.render.toList) ∧
      i.sorted.Perm batches.flatten ∧
      ∀ name, i.sorted.filter (·.name = name) = batches.flatten.filter (·.name = name) := by
  intro i lines
  have hentries : i.entries = batches.flatten := Index.entries_foldl_append {} batches
  have hwell : ∀ e ∈ i.entries, e.WellFormed ∧ '\n' ∉ e.file.toList := by
    intro e he
    rw [hentries] at he
    obtain ⟨found, hfound, hmem⟩ := List.mem_flatten.mp he
    obtain ⟨hextracted, hfile⟩ := h found hfound e hmem
    exact ⟨hextracted.wellFormed, hfile⟩
  have hlines : lines = Header.all.map (·.render.toList) ++ i.sorted.map (·.render.toList) :=
    Index.splitOn_render_eq_append hwell
  refine ⟨?_, hlines, hentries ▸ i.sorted_perm, fun name => hentries ▸ i.filter_sorted name⟩
  rw [hlines]
  exact Index.pairwise_firstField fun e he => (hwell e he).1

def sharedLabel : List (List Entry) :=
  [extract "x\ty.ahk" (Bytes.ofString "b:\na:") [.label],
    extract "c.ahk" (Bytes.ofString "a:") [.label]]

theorem tag_file_sorted_with_shared_label :
    (∀ found ∈ sharedLabel, ∀ e ∈ found, Extracted e ∧ '\n' ∉ e.file.toList) ∧
      let i := sharedLabel.foldl Index.append {}
      ((i.render.toList.splitOn '\n').Pairwise fun l l' => firstField l ≤ firstField l') ∧
        i.sorted.length = 3 ∧
        i.sorted.filter (·.name = "a") =
          [⟨"a", "x\ty.ahk", "/^a:$/", .label, 2⟩, ⟨"a", "c.ahk", "/^a:$/", .label, 1⟩] := by
  have hextracted : ∀ found ∈ sharedLabel, ∀ e ∈ found, Extracted e ∧ '\n' ∉ e.file.toList := by
    intro found hfound e he
    rcases List.mem_pair.mp hfound with rfl | rfl
    · rw [file_of_mem_extract he]
      exact ⟨⟨_, _, _, he⟩, by decide⟩
    · rw [file_of_mem_extract he]
      exact ⟨⟨_, _, _, he⟩, by decide⟩
  obtain ⟨hsorted, -, hperm, hkept⟩ := tag_file_sorted_by_first_field sharedLabel hextracted
  refine ⟨hextracted, hsorted, ?_, ?_⟩
  · rw [hperm.length_eq]
    decide +kernel
  · rw [hkept]
    decide +kernel

end Scan

end ScriptTags
