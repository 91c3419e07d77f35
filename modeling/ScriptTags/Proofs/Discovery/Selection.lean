import ScriptTags.Discovery.Walk

namespace ScriptTags

def Name.Hidden (name : Name) : Prop :=
  name.bytes.head? = some Byte.dot ∧ Utf8.isValid name.bytes = true

namespace Extension

def Extends (name extension : Bytes) : Prop :=
  ∃ stem, stem ≠ [] ∧ name = stem ++ Byte.dot :: extension ∧ Byte.dot ∉ extension

variable {name stem extension : Bytes}

theorem splitLastDot?_of_not_mem (h : Byte.dot ∉ extension) : splitLastDot? extension = none := by
  induction extension with
  | nil => rfl
  | cons b r ih =>
      have hb : b ≠ Byte.dot := fun hb => h (hb ▸ List.mem_cons_self)
      rw [splitLastDot?, ih fun hr => h (List.mem_cons_of_mem b hr)]
      exact if_neg hb

theorem splitLastDot?_append (stem : Bytes) (h : Byte.dot ∉ extension) :
    splitLastDot? (stem ++ Byte.dot :: extension) = some (stem, extension) := by
  induction stem with
  | nil =>
      rw [List.nil_append, splitLastDot?, splitLastDot?_of_not_mem h]
      exact if_pos rfl
  | cons b stem ih => rw [List.cons_append, splitLastDot?, ih]

theorem not_mem_of_splitLastDot? (h : splitLastDot? name = none) : Byte.dot ∉ name := by
  induction name with
  | nil => exact List.not_mem_nil
  | cons b r ih =>
      rw [splitLastDot?] at h
      split at h
      · cases h
      next hr =>
        have hb : b ≠ Byte.dot := by simpa using h
        rw [List.mem_cons]
        exact not_or.mpr ⟨hb.symm, ih hr⟩

theorem eq_of_splitLastDot? (h : splitLastDot? name = some (stem, extension)) :
    name = stem ++ Byte.dot :: extension ∧ Byte.dot ∉ extension := by
  induction name generalizing stem with
  | nil => cases h
  | cons b r ih =>
      rw [splitLastDot?] at h
      split at h
      next stem' extension' hr =>
        cases h
        obtain ⟨rfl, hdot⟩ := ih hr
        exact ⟨rfl, hdot⟩
      next hr =>
        rw [Option.ite_none_right_eq_some, Option.some.injEq, Prod.mk.injEq] at h
        obtain ⟨rfl, rfl, rfl⟩ := h
        exact ⟨rfl, not_mem_of_splitLastDot? hr⟩

theorem ofName?_eq_some_iff : ofName? name = some extension ↔ Extends name extension := by
  constructor
  · intro h
    rw [ofName?] at h
    split at h
    next b stem extension' hsplit =>
      cases h
      exact ⟨b :: stem, List.cons_ne_nil b stem, eq_of_splitLastDot? hsplit⟩
    · cases h
  · rintro ⟨stem, hstem, rfl, hdot⟩
    obtain ⟨b, stem, rfl⟩ := List.exists_cons_of_ne_nil hstem
    rw [ofName?, splitLastDot?_append _ hdot]

theorem isAmong_iff {extensions : List String} :
    isAmong name extensions = true ↔
      ∃ extension, Extends name extension ∧ ∃ w ∈ extensions,
        wanted w = Lowercase.lower (Utf8.decode extension) := by
  simp only [← ofName?_eq_some_iff]
  rw [isAmong]
  cases ofName? name with
  | none => simp
  | some extension => simp

end Extension

structure Walk.Options.Selects (o : Walk.Options) (names : List Name) (name : Name) : Prop where
  visible : o.skipHidden = true → ∀ n ∈ names ++ [name], ¬n.Hidden
  extension : ∃ extension, Extension.Extends name.bytes extension ∧ ∃ w ∈ o.extensions,
    Extension.wanted w = Lowercase.lower (Utf8.decode extension)

namespace Walk.Options

variable {o : Options} {name : Name} {names : List Name}

theorem hides_eq_false_iff :
    o.hides name = false ↔ (o.skipHidden = true → ¬name.Hidden) := by
  simp [hides, Name.Hidden]

theorem selects_nil_iff : o.Selects [] name ↔ o.wants name = true := by
  rw [wants, Bool.and_eq_true, Bool.not_eq_true', hides_eq_false_iff, Extension.isAmong_iff]
  constructor
  · intro h
    exact ⟨fun hskip => h.visible hskip name List.mem_cons_self, h.extension⟩
  · rintro ⟨hvisible, hextension⟩
    refine ⟨fun hskip n hn => ?_, hextension⟩
    obtain rfl := List.mem_singleton.mp hn
    exact hvisible hskip

theorem selects_cons_iff {n : Name} :
    o.Selects (n :: names) name ↔ o.hides n = false ∧ o.Selects names name := by
  rw [hides_eq_false_iff]
  constructor
  · intro h
    refine ⟨fun hskip => h.visible hskip n List.mem_cons_self, fun hskip m hm => ?_, h.extension⟩
    exact h.visible hskip m (List.mem_cons_of_mem n hm)
  · rintro ⟨hn, hvisible, hextension⟩
    refine ⟨fun hskip m hm => ?_, hextension⟩
    rcases List.mem_cons.mp hm with rfl | hm
    · exact hn hskip
    · exact hvisible hskip m hm

end Walk.Options

end ScriptTags
