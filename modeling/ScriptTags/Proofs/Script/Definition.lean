import ScriptTags.Script.Rule
import ScriptTags.Proofs.Script.Breaks
import ScriptTags.Proofs.Script.Span
import Mathlib.Data.List.TakeWhile

namespace ScriptTags

namespace Byte

variable {b : UInt8}

theorem isSpace_of_isBlank (h : isBlank b = true) : isSpace b = true := by
  simp only [isBlank, isSpace, Bool.or_eq_true, beq_iff_eq] at h ⊢
  rcases h with rfl | rfl
  · exact Or.inl rfl
  · exact Or.inr rfl

theorem isSpace_of_isWord (h : isWord b = true) : isSpace b = false := by
  simp only [isWord, isSpace, Bool.or_eq_true, Bool.and_eq_true, beq_iff_eq, decide_eq_true_eq,
    Bool.or_eq_false_iff, beq_eq_false_iff_ne, Bool.and_eq_false_iff,
    decide_eq_false_iff_not] at h ⊢
  grind

theorem isBlank_of_isWord (h : isWord b = true) : isBlank b = false := by
  cases hb : isBlank b with
  | false => rfl
  | true =>
      have hs := isSpace_of_isBlank hb
      rw [isSpace_of_isWord h] at hs
      exact absurd hs Bool.false_ne_true

theorem isWord_lt (h : isWord b = true) : b < 128 := by
  simp only [isWord, Bool.or_eq_true, Bool.and_eq_true, beq_iff_eq, decide_eq_true_eq] at h
  grind

theorem ne_of_class {c : UInt8 → Bool} {x : UInt8} (hb : c b = true) (hx : c x = false) :
    b ≠ x := by
  rintro rfl
  rw [hb] at hx
  cases hx

end Byte

theorem Line.Start.not_spans {text : Bytes} {p i j : Nat} {c : UInt8 → Bool}
    (hstart : Line.Start text p) (hi : i < p) (hj : p ≤ j) (hspans : Bytes.Spans c text i j) :
    c Byte.lineFeed = true := by
  rcases hstart with rfl | ⟨-, hfeed⟩
  · exact absurd hi (Nat.not_lt_zero i)
  · obtain ⟨b, hb, hc⟩ := hspans.2 (p - 1) (by omega) (by omega)
    rw [hfeed, Option.some.injEq] at hb
    exact hb ▸ hc

namespace Rule

open Bytes

variable {kind : Kind} {text s r t w blanks : Bytes} {b : UInt8} {p i j m q : Nat}

theorem skipSpace_of_not_isSpace (h : Byte.isSpace b = false) : skipSpace (b :: r) = b :: r :=
  List.dropWhile_cons_of_neg (by simp [h])

theorem head?_tail (h : (Line.tail s).head? = some b) : b = Byte.lineFeed := by
  have hnot := List.head?_dropWhile_not (· != Byte.lineFeed) s
  rw [Line.tail] at h
  simpa [h] using hnot

theorem head?_lastLineFeed? (h : lastLineFeed? s = some r) : r.head? = some Byte.lineFeed := by
  induction s with
  | nil => simp [lastLineFeed?] at h
  | cons x t ih =>
      simp only [lastLineFeed?] at h
      split at h
      · rcases Option.or_eq_some_iff.mp h with h | ⟨_, h⟩
        · exact ih h
        · split at h
          next hx =>
            simp only [Option.some.injEq] at h
            rw [← h, hx, List.head?_cons]
          next => simp at h
      · simp at h

theorem head?_afterParameters? (h : afterParameters? s = some r) (hb : r.head? = some b) :
    b = Byte.lineFeed := by
  unfold afterParameters? at h
  split at h
  · simp at h
  next x t ht =>
    split at h
    · simp only [Option.some.injEq] at h
      exact head?_tail (h ▸ hb)
    · simp at h

theorem head?_afterOpen? (h : afterOpen? s = some r) (hb : r.head? = some b) :
    b = Byte.lineFeed := by
  induction s with
  | nil => simp [afterOpen?] at h
  | cons x t ih =>
      simp only [afterOpen?] at h
      split at h
      · simp at h
      · rcases Option.or_eq_some_iff.mp h with h | ⟨_, h⟩
        · exact ih h
        · split at h
          · exact head?_afterParameters? h hb
          · simp at h

theorem head?_afterColon? (h : afterColon? s = some r) (hb : r.head? = some b) :
    b = Byte.lineFeed := by
  unfold afterColon? at h
  split at h
  · simp only [Option.some.injEq] at h
    simp [← h] at hb
  next x t ht =>
    split at h
    · simp only [Option.some.injEq] at h
      exact head?_tail (h ▸ hb)
    · rw [head?_lastLineFeed? h] at hb
      exact (Option.some.inj hb).symm

theorem head?_afterEquals? (h : afterEquals? s = some r) (hb : r.head? = some b) :
    b = Byte.lineFeed := by
  cases s with
  | nil => simp [afterEquals?] at h
  | cons x t =>
      simp only [afterEquals?] at h
      split at h
      · simp only [Option.some.injEq] at h
        exact head?_tail (h ▸ hb)
      · simp at h

theorem head?_afterName? (h : afterName? kind s = some r) (hb : r.head? = some b) :
    b = Byte.lineFeed := by
  match kind, s with
  | .function, [] => simp [afterName?, afterFunctionName?] at h
  | .function, x :: t =>
      simp only [afterName?, afterFunctionName?] at h
      split at h
      · exact head?_afterOpen? h hb
      · simp at h
  | .label, [] => simp [afterName?, afterLabelName?] at h
  | .label, x :: t =>
      simp only [afterName?, afterLabelName?] at h
      split at h
      · exact head?_afterColon? h hb
      · simp at h
  | .variable, s =>
      simp only [afterName?, afterVariableName?] at h
      split at h
      · simp at h
      · split at h
        · exact head?_afterEquals? h hb
        · exact head?_afterEquals? h hb

theorem afterName?_of_isWord (h : Byte.isWord b = true) : afterName? kind (b :: r) = none := by
  match kind with
  | .function =>
      have hb : b ≠ Byte.openParen := Byte.ne_of_class h rfl
      simp [afterName?, afterFunctionName?, hb]
  | .label =>
      have hb : b ≠ Byte.colon := Byte.ne_of_class h rfl
      simp [afterName?, afterLabelName?, hb]
  | .variable =>
      have hcolon : b ≠ Byte.colon := Byte.ne_of_class h rfl
      have hequals : b ≠ Byte.equals := Byte.ne_of_class h rfl
      simp [afterName?, afterVariableName?, skipSpace_of_not_isSpace (Byte.isSpace_of_isWord h),
        afterEquals?, hcolon, hequals]

theorem not_isWord_of_afterName? (h : afterName? kind s = some r) :
    ∀ b, s.head? = some b → Byte.isWord b = false := by
  intro b hb
  obtain ⟨t, rfl⟩ := List.head?_eq_some_iff.mp hb
  cases hword : Byte.isWord b with
  | false => rfl
  | true =>
      rw [afterName?_of_isWord hword] at h
      simp at h

theorem match?_nil : match? kind [] = none := rfl

theorem match?_lineFeed : match? kind (Byte.lineFeed :: r) = none := rfl

theorem match?_eq_some_iff {m : Match} :
    match? kind s = some m ↔
      ∃ t, head? s = some ⟨m.name, t⟩ ∧ afterName? kind t = some m.rest := by
  constructor
  · intro h
    obtain ⟨⟨n, t⟩, hn, hm⟩ := Option.bind_eq_some_iff.mp h
    obtain ⟨r, hr, rfl⟩ := Option.map_eq_some_iff.mp hm
    exact ⟨t, hn, hr⟩
  · rintro ⟨t, ht, hr⟩
    simp [match?, ht, hr]

theorem head?_match? {m : Match} (h : match? kind s = some m) (hb : m.rest.head? = some b) :
    b = Byte.lineFeed := by
  obtain ⟨t, -, ht⟩ := match?_eq_some_iff.mp h
  exact head?_afterName? ht hb

/-- At a line start, blanks up to `i` and a word from there up to `j`. -/
structure NameAt (text : Bytes) (p i j : Nat) : Prop where
  start : Line.Start text p
  blanks : Spans Byte.isBlank text p i
  word : Spans Byte.isWord text i j
  nonempty : i < j

theorem head?_of_append (hblanks : ∀ b ∈ blanks, Byte.isBlank b = true) (hne : w ≠ [])
    (hw : ∀ b ∈ w, Byte.isWord b = true) (ht : ∀ b, t.head? = some b → Byte.isWord b = false) :
    head? (blanks ++ w ++ t) = some ⟨w, t⟩ := by
  have hblank : (w ++ t).dropWhile Byte.isBlank = w ++ t := by
    cases w with
    | nil => exact absurd rfl hne
    | cons b w =>
        have hb := Byte.isBlank_of_isWord (hw b List.mem_cons_self)
        exact List.dropWhile_cons_of_neg (by simp [hb])
  have hword : t.takeWhile Byte.isWord = [] ∧ t.dropWhile Byte.isWord = t := by
    cases t with
    | nil => exact ⟨rfl, rfl⟩
    | cons b t =>
        have hb := ht b rfl
        simp [hb]
  rw [head?, List.append_assoc, List.dropWhile_append_of_pos hblanks, hblank,
    List.takeWhile_append_of_pos hw, List.dropWhile_append_of_pos hw, hword.1, hword.2,
    List.append_nil]
  cases w with
  | nil => exact absurd rfl hne
  | cons b w => rfl

theorem exists_of_head? (h : head? s = some ⟨w, t⟩) :
    ∃ blanks, s = blanks ++ w ++ t ∧ (∀ b ∈ blanks, Byte.isBlank b = true) ∧ w ≠ [] ∧
      (∀ b ∈ w, Byte.isWord b = true) ∧ ∀ b, t.head? = some b → Byte.isWord b = false := by
  rw [head?] at h
  split at h
  next => cases h
  next hne =>
    simp only [Option.some.injEq, Match.mk.injEq] at h
    obtain ⟨rfl, rfl⟩ := h
    refine ⟨s.takeWhile Byte.isBlank, ?_, fun b hb => List.mem_takeWhile_imp hb, hne,
      fun b hb => List.mem_takeWhile_imp hb, fun b hb => ?_⟩
    · rw [List.append_assoc, List.takeWhile_append_dropWhile, List.takeWhile_append_dropWhile]
    · have hnot := List.head?_dropWhile_not Byte.isWord (s.dropWhile Byte.isBlank)
      simpa [hb] using hnot

theorem head?_drop_iff :
    head? (text.drop p) = some ⟨w, r⟩ ↔
      ∃ i j, Spans Byte.isBlank text p i ∧ Spans Byte.isWord text i j ∧ i < j ∧
        (∀ b, text[j]? = some b → Byte.isWord b = false) ∧
        w = slice text i j ∧ r = text.drop j := by
  constructor
  · intro h
    obtain ⟨blanks, happend, hblanks, hne, hw, hend⟩ := exists_of_head? h
    rw [List.append_assoc] at happend
    obtain ⟨hblank, hdrop⟩ := spans_of_drop_eq_append happend hblanks
    obtain ⟨hword, hrest⟩ := spans_of_drop_eq_append hdrop.symm hw
    have hpos := List.length_pos_iff.mpr hne
    refine ⟨_, _, hblank, hword, Nat.lt_add_of_pos_right hpos, ?_, ?_, hrest⟩
    · intro b hb
      exact hend b (by rw [hrest, List.head?_drop, hb])
    · rw [slice, ← hdrop, Nat.add_sub_cancel_left, List.take_left]
  · rintro ⟨i, j, hblank, hword, hij, hend, rfl, rfl⟩
    rw [← slice_append_drop hblank.1, ← slice_append_drop hword.1, ← List.append_assoc]
    apply head?_of_append
    · exact fun b hb => hblank.mem_slice hb
    · exact hword.slice_ne_nil hij
    · exact fun b hb => hword.mem_slice hb
    · intro b hb
      exact hend b (by rw [← List.head?_drop, hb])

/-- Behind the white space at `m`, the search goes on at the end of a line. -/
def Resumes (text : Bytes) (m q : Nat) : Prop :=
  ∃ e, RunsTo Byte.isSpace text m e ∧ RunsTo (· != Byte.lineFeed) text e q

theorem resumes_iff (hm : m ≤ text.length) :
    Resumes text m q ↔
      q ≤ text.length ∧ Line.tail (skipSpace (text.drop m)) = text.drop q := by
  constructor
  · rintro ⟨e, he, hq⟩
    rw [skipSpace, ((runsTo_iff hm).mp he).2, Line.tail]
    exact (runsTo_iff he.2.1).mp hq
  · rintro ⟨hq, htail⟩
    obtain ⟨e, he⟩ := exists_runsTo Byte.isSpace hm
    rw [skipSpace, ((runsTo_iff hm).mp he).2] at htail
    exact ⟨e, he, (runsTo_iff he.2.1).mpr ⟨hq, htail⟩⟩

theorem exists_resumes (hm : m ≤ text.length) : ∃ q, Resumes text m q := by
  obtain ⟨e, he⟩ := exists_runsTo Byte.isSpace hm
  obtain ⟨q, hq⟩ := exists_runsTo (· != Byte.lineFeed) he.2.1
  exact ⟨q, e, he, hq⟩

def FoundAt (kind : Kind) (text : Bytes) (p : Nat) (w : Bytes) (q : Nat) : Prop :=
  Line.Start text p ∧ q ≤ text.length ∧ match? kind (text.drop p) = some ⟨w, text.drop q⟩

theorem foundAt_iff :
    FoundAt kind text p w q ↔
      ∃ i j, NameAt text p i j ∧ w = slice text i j ∧ q ≤ text.length ∧
        afterName? kind (text.drop j) = some (text.drop q) := by
  constructor
  · rintro ⟨hp, hq, hm⟩
    obtain ⟨t, hhead, hafter⟩ := match?_eq_some_iff.mp hm
    obtain ⟨i, j, hblank, hword, hij, -, hw, rfl⟩ := head?_drop_iff.mp hhead
    exact ⟨i, j, ⟨hp, hblank, hword, hij⟩, hw, hq, hafter⟩
  · rintro ⟨i, j, hname, hw, hq, hafter⟩
    have hend : ∀ b, text[j]? = some b → Byte.isWord b = false := by
      rw [← List.head?_drop]
      exact not_isWord_of_afterName? hafter
    have hhead : head? (text.drop p) = some ⟨w, text.drop j⟩ :=
      head?_drop_iff.mpr ⟨i, j, hname.blanks, hname.word, hname.nonempty, hend, hw, rfl⟩
    exact ⟨hname.start, hq, match?_eq_some_iff.mpr ⟨text.drop j, hhead, hafter⟩⟩

theorem foundAt_iff_resumes {ends : Nat → Nat → Prop} (hle : ∀ j m, ends j m → m ≤ text.length)
    (hends : ∀ j r, afterName? kind (text.drop j) = some r ↔
      ∃ m, ends j m ∧ r = Line.tail (skipSpace (text.drop m))) :
    FoundAt kind text p w q ↔
      ∃ i j m, NameAt text p i j ∧ w = slice text i j ∧ ends j m ∧ Resumes text m q := by
  rw [foundAt_iff]
  constructor
  · rintro ⟨i, j, hname, hw, hq, hafter⟩
    obtain ⟨m, hm, htail⟩ := (hends j _).mp hafter
    exact ⟨i, j, m, hname, hw, hm, (resumes_iff (hle j m hm)).mpr ⟨hq, htail.symm⟩⟩
  · rintro ⟨i, j, m, hname, hw, hm, hresumes⟩
    obtain ⟨hq, htail⟩ := (resumes_iff (hle j m hm)).mp hresumes
    exact ⟨i, j, hname, hw, hq, (hends j _).mpr ⟨m, hm, htail.symm⟩⟩

theorem FoundAt.unique {w' : Bytes} {q' : Nat} (h : FoundAt kind text p w q)
    (h' : FoundAt kind text p w' q') : w = w' ∧ q = q' := by
  obtain ⟨-, hq, hm⟩ := h
  obtain ⟨-, hq', hm'⟩ := h'
  rw [hm, Option.some.injEq, Match.mk.injEq] at hm'
  exact ⟨hm'.1, drop_inj hq hq' hm'.2⟩

theorem FoundAt.stop (h : FoundAt kind text p w q) :
    q = text.length ∨ text[q]? = some Byte.lineFeed := by
  obtain ⟨-, hq, hm⟩ := h
  by_cases hlt : q < text.length
  · have hb : text[q]? = some text[q] := List.getElem?_eq_getElem hlt
    have hfeed : text[q] = Byte.lineFeed := head?_match? hm (by rw [List.head?_drop, hb])
    exact Or.inr (hfeed ▸ hb)
  · exact Or.inl (by omega)

theorem FoundAt.lt (h : FoundAt kind text p w q) : p < q := by
  obtain ⟨i, j, hname, -, hq, hafter⟩ := foundAt_iff.mp h
  have hlen := (afterName?_suffix hafter).length_le
  have hp := hname.blanks.1
  have hj := hname.word.le_length hname.nonempty
  have hij := hname.nonempty
  simp only [List.length_drop] at hlen
  omega

end Rule

end ScriptTags
