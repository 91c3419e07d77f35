import ScriptTags.Proofs.Script.Location
import ScriptTags.Tag.Index

namespace ScriptTags

def Printable (s : String) : Prop :=
  ∀ c ∈ s.toList, 32 ≤ c.toNat ∧ c.toNat ≤ 126

namespace Printable

variable {s r : String}

theorem of_all (h : (s.toList.all fun c => 32 ≤ c.toNat && c.toNat ≤ 126) = true) :
    Printable s := by
  simpa [Printable] using h

theorem append (hs : Printable s) (hr : Printable r) : Printable (s ++ r) := by
  intro c hc
  rw [String.toList_append, List.mem_append] at hc
  exact hc.elim (hs c) (hr c)

theorem not_mem (h : Printable s) {c : Char} (hc : c.toNat < 32) : c ∉ s.toList := by
  intro hmem
  have hge := (h c hmem).1
  omega

theorem kind (k : Kind) : Printable k.text := by
  cases k <;> exact of_all (by decide)

theorem decimal (n : Nat) : Printable (toString n) := by
  intro c hc
  rw [Nat.toString_eq_repr, Nat.toList_repr] at hc
  have hdigit := Nat.isDigit_of_mem_toDigits (by decide) (by decide) hc
  simp only [Char.isDigit, Bool.and_eq_true, decide_eq_true_eq] at hdigit
  have hlow : 48 ≤ c.toNat := UInt32.le_iff_toNat_le.mp hdigit.1
  have hhigh : c.toNat ≤ 57 := UInt32.le_iff_toNat_le.mp hdigit.2
  omega

end Printable

theorem Bytes.printable_toAscii {w : Bytes} (h : ∀ b ∈ w, Byte.isPrintable b = true) :
    Printable (toAscii w) := by
  have hoctet : ∀ n : Fin 256, Byte.isPrintable (UInt8.ofFin n) = true →
      32 ≤ (Char.ofNat n.val).toNat ∧ (Char.ofNat n.val).toNat ≤ 126 := by decide +kernel
  intro c hc
  rw [toAscii, String.toList_ofList] at hc
  obtain ⟨b, hb, rfl⟩ := List.mem_map.mp hc
  exact hoctet b.toFin (h b hb)

theorem Byte.isPrintable_of_isWord {b : UInt8} (h : Byte.isWord b = true) :
    Byte.isPrintable b = true := by
  have hoctet : ∀ n : Fin 256, Byte.isWord (UInt8.ofFin n) = true →
      Byte.isPrintable (UInt8.ofFin n) = true := by decide +kernel
  exact hoctet b.toFin h

theorem Address.printable_escape (line : Bytes) : Printable (Address.escape line) := by
  have hoctet : ∀ n : Fin 256, ((Address.escapeByte (UInt8.ofFin n)).all fun c =>
      32 ≤ c.toNat && c.toNat ≤ 126) = true := by decide +kernel
  refine Printable.of_all ?_
  rw [Address.escape, String.toList_ofList, List.all_flatMap]
  exact List.all_eq_true.mpr fun b _ => hoctet b.toFin

theorem Address.printable_ofLine (line : Bytes) : Printable (Address.ofLine line) := by
  have hopen : Printable "/^" := Printable.of_all (by decide)
  have hclose : Printable "$/" := Printable.of_all (by decide)
  exact (hopen.append (Address.printable_escape line)).append hclose

structure Entry.WellFormed (e : Entry) : Prop where
  name : ∃ w : Bytes, w ≠ [] ∧ (∀ b ∈ w, Byte.isWord b = true) ∧ e.name = Bytes.toAscii w
  address : ∃ line, e.address = Address.ofLine line

namespace Entry.WellFormed

variable {e : Entry}

theorem printable_name (h : e.WellFormed) : Printable e.name := by
  obtain ⟨w, -, hw, hname⟩ := h.name
  exact hname ▸ Bytes.printable_toAscii fun b hb => Byte.isPrintable_of_isWord (hw b hb)

theorem printable_address (h : e.WellFormed) : Printable e.address := by
  obtain ⟨line, haddress⟩ := h.address
  exact haddress ▸ Address.printable_ofLine line

end Entry.WellFormed

namespace Scan

def Extracted (e : Entry) : Prop :=
  ∃ path text kinds, e ∈ extract path text kinds

theorem Extracted.wellFormed {e : Entry} (h : Extracted e) : e.WellFormed := by
  obtain ⟨path, text, kinds, he⟩ := h
  obtain ⟨kind, -, he⟩ := List.mem_flatMap.mp he
  rw [entries_eq_map_hits] at he
  obtain ⟨hit, hhit, rfl⟩ := List.mem_map.mp he
  have hfound := foundAt_of_mem_hits hhit
  obtain ⟨-, -, -, -, hne, hword, -⟩ := namedLine_of_foundAt hfound
  exact ⟨⟨hit.name, hne, hword, rfl⟩, ⟨_, rfl⟩⟩

theorem file_of_mem_extract {path : String} {text : Bytes} {kinds : List Kind} {e : Entry}
    (h : e ∈ extract path text kinds) : e.file = Entry.label path := by
  obtain ⟨kind, -, he⟩ := List.mem_flatMap.mp h
  rw [entries_eq_map_hits] at he
  obtain ⟨hit, -, rfl⟩ := List.mem_map.mp he
  rfl

end Scan

end ScriptTags
