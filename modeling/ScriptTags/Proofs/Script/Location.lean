import ScriptTags.Proofs.Script.Hits
import ScriptTags.Proofs.Text.Utf8

namespace ScriptTags

namespace Bytes

theorem utf8EncodeChar_ofNat {b : UInt8} (h : b < 128) :
    String.utf8EncodeChar (Char.ofNat b.toNat) = [b] := by
  have hb : b.toNat < 128 := UInt8.lt_iff_toNat_lt.mp h
  have hval : (Char.ofNat b.toNat).val.toNat = b.toNat := Utf8.toNat_ofNat h
  simp only [String.utf8EncodeChar, hval]
  rw [if_pos (by omega), UInt8.ofNat_toNat]

theorem ofString_toAscii {w : Bytes} (h : ∀ b ∈ w, b < 128) : ofString (toAscii w) = w := by
  rw [ofString, toAscii, String.toList_ofList, List.flatMap_map]
  induction w with
  | nil => rfl
  | cons b w ih =>
      have hb := h b List.mem_cons_self
      have hw := ih fun x hx => h x (List.mem_cons_of_mem b hx)
      rw [List.flatMap_cons, utf8EncodeChar_ofNat hb, hw]
      rfl

end Bytes

namespace Scan

open Line Rule Bytes

def NamedLine (line name : Bytes) : Prop :=
  ∃ blanks rest, line = blanks ++ name ++ rest ∧ (∀ b ∈ blanks, Byte.isBlank b = true) ∧
    name ≠ [] ∧ (∀ b ∈ name, Byte.isWord b = true) ∧
    ∀ b, rest.head? = some b → Byte.isWord b = false

variable {kind : Kind} {text : Bytes} {p q : Nat} {w : Bytes}

theorem not_isBreak_of_isBlank {b : UInt8} (h : Byte.isBlank b = true) : isBreak b = false := by
  simp only [Byte.isBlank, Bool.or_eq_true, beq_iff_eq] at h
  rcases h with rfl | rfl
  · rfl
  · rfl

theorem not_isBreak_of_isWord {b : UInt8} (h : Byte.isWord b = true) : isBreak b = false := by
  simp only [isBreak, Bool.or_eq_false_iff, beq_eq_false_iff_ne]
  constructor
  · exact Byte.ne_of_class h rfl
  · exact Byte.ne_of_class h rfl

theorem first_append_of_not_isBreak {a : Bytes} (h : ∀ b ∈ a, isBreak b = false) (s : Bytes) :
    first (a ++ s) = a ++ first s :=
  List.takeWhile_append_of_pos fun b hb => by simp [h b hb]

theorem head?_first {s : Bytes} {b : UInt8} (h : (first s).head? = some b) : s.head? = some b := by
  obtain ⟨t, ht⟩ := List.head?_eq_some_iff.mp h
  obtain ⟨r, hr⟩ := List.takeWhile_prefix (l := s) (!isBreak ·)
  rw [← hr, show s.takeWhile (!isBreak ·) = b :: t from ht]
  rfl

theorem word_of_foundAt (h : FoundAt kind text p w q) : ∀ b ∈ w, Byte.isWord b = true := by
  obtain ⟨i, j, hname, rfl, -⟩ := foundAt_iff.mp h
  exact fun b hb => hname.word.mem_slice hb

theorem namedLine_of_foundAt (h : FoundAt kind text p w q) :
    NamedLine (Line.first (text.drop p)) w := by
  obtain ⟨i, j, hname, rfl, -, hafter⟩ := foundAt_iff.mp h
  refine ⟨slice text p i, first (text.drop j), ?_, fun b hb => hname.blanks.mem_slice hb,
    hname.word.slice_ne_nil hname.nonempty, fun b hb => hname.word.mem_slice hb, fun b hb => ?_⟩
  · rw [← slice_append_drop hname.blanks.1, ← slice_append_drop hname.word.1,
      first_append_of_not_isBreak fun b hb => not_isBreak_of_isBlank (hname.blanks.mem_slice hb),
      first_append_of_not_isBreak fun b hb => not_isBreak_of_isWord (hname.word.mem_slice hb),
      List.append_assoc]
  · exact not_isWord_of_afterName? hafter b (head?_first hb)

theorem entries_point_at_lines (kind : Kind) (path : String) (text : Bytes) :
    (∀ e ∈ entries kind path text, ∃ line,
      1 ≤ e.line ∧ (Line.split text)[e.line - 1]? = some line ∧
        e.address = Address.ofLine line ∧ NamedLine line (Bytes.ofString e.name)) ∧
    (entries kind path text).Pairwise fun e f => e.line < f.line := by
  rw [entries_eq_map_hits]
  constructor
  · intro e he
    obtain ⟨h, hh, rfl⟩ := List.mem_map.mp he
    have hfound := foundAt_of_mem_hits hh
    have hascii := ofString_toAscii fun b hb => Byte.isWord_lt (word_of_foundAt hfound b hb)
    refine ⟨first (text.drop h.start), Nat.le_add_right 1 _, ?_, rfl, ?_⟩
    · rw [Hit.entry, Nat.add_sub_cancel_left]
      exact getElem?_split_of_start hfound.1
    · rw [Hit.entry, hascii]
      exact namedLine_of_foundAt hfound
  · refine List.pairwise_map.mpr (pairwise_hits.imp_of_mem fun hg hh hlt => ?_)
    have hfg := foundAt_of_mem_hits hg
    have hfh := foundAt_of_mem_hits hh
    have hbreaks := breaks_take_lt hfg.1 hfh.1 (hfg.lt.trans_le hlt)
    simp only [Hit.entry]
    omega

theorem label_points_at_second_line :
    ∃ line, (Line.split [97, 58, 13, 10, 9, 84, 119, 111, 58, 32, 59, 13, 122])[1]? = some line ∧
      Address.ofLine line = "/^\\tTwo: ;$/" ∧ NamedLine line (Bytes.ofString "Two") := by
  obtain ⟨line, -, hline, haddress, hname⟩ :=
    (entries_point_at_lines .label "./s.ahk"
      [97, 58, 13, 10, 9, 84, 119, 111, 58, 32, 59, 13, 122]).1
      ⟨"Two", "s.ahk", "/^\\tTwo: ;$/", .label, 2⟩ (by decide +kernel)
  exact ⟨line, hline, haddress.symm, hname⟩

end Scan

end ScriptTags
