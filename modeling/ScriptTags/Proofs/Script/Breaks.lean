import ScriptTags.Script.Line
import Mathlib.Data.List.Basic

namespace ScriptTags.Line

def split : Bytes → List Bytes
  | [] => [[]]
  | b :: r =>
      if b = Byte.carriageReturn ∧ r.head? = some Byte.lineFeed then split r
      else if isBreak b then [] :: split r
      else (split r).modifyHead (b :: ·)

example : split [97, 13, 10, 98, 13, 99, 10] = [[97], [98], [99], []] := by decide

def Whole (s : Bytes) : Prop :=
  s = [] ∨ s.getLast? = some Byte.lineFeed

def Start (text : Bytes) (p : Nat) : Prop :=
  p = 0 ∨ 0 < p ∧ text[p - 1]? = some Byte.lineFeed

def WithinBreak (text : Bytes) (p : Nat) : Prop :=
  0 < p ∧ text[p - 1]? = some Byte.carriageReturn ∧ text[p]? = some Byte.lineFeed

instance (text : Bytes) (p : Nat) : Decidable (WithinBreak text p) :=
  inferInstanceAs (Decidable (_ ∧ _ ∧ _))

theorem isBreakBefore_iff (b : UInt8) (r : Bytes) :
    isBreakBefore b r = true ↔
      isBreak b = true ∧ ¬(b = Byte.carriageReturn ∧ r.head? = some Byte.lineFeed) := by
  have hne : Byte.lineFeed ≠ Byte.carriageReturn := by decide
  simp only [isBreakBefore, isBreak, Bool.or_eq_true, Bool.and_eq_true, beq_iff_eq, bne_iff_ne]
  constructor
  · rintro (rfl | ⟨rfl, hr⟩)
    · exact ⟨Or.inr rfl, fun h => hne h.1⟩
    · exact ⟨Or.inl rfl, fun h => hr h.2⟩
  · rintro ⟨rfl | rfl, hr⟩
    · exact Or.inr ⟨rfl, fun h => hr ⟨rfl, h⟩⟩
    · exact Or.inl rfl

theorem isBreakBefore_append (b : UInt8) {r : Bytes} (hr : r ≠ []) (s : Bytes) :
    isBreakBefore b (r ++ s) = isBreakBefore b r := by
  cases r with
  | nil => exact absurd rfl hr
  | cons a r => rfl

theorem breaks_lineFeed (r : Bytes) : breaks (Byte.lineFeed :: r) = breaks r + 1 := by
  have hbreak : isBreakBefore Byte.lineFeed r = true := rfl
  rw [breaks_cons, if_pos hbreak, Nat.add_comm]

theorem breaks_carriageReturn {r : Bytes} (h : r.head? ≠ some Byte.lineFeed) :
    breaks (Byte.carriageReturn :: r) = breaks r + 1 := by
  have hbreak := (isBreakBefore_iff Byte.carriageReturn r).mpr ⟨rfl, fun hr => h hr.2⟩
  rw [breaks_cons, if_pos hbreak, Nat.add_comm]

theorem breaks_both (r : Bytes) :
    breaks (Byte.carriageReturn :: Byte.lineFeed :: r) = breaks r + 1 := by
  have hbreak : isBreakBefore Byte.carriageReturn (Byte.lineFeed :: r) ≠ true := by
    rw [Ne, isBreakBefore_iff]
    exact fun h => h.2 ⟨rfl, rfl⟩
  rw [breaks_cons, if_neg hbreak, Nat.zero_add, breaks_lineFeed]

theorem breaks_other {b : UInt8} (h : isBreak b = false) (r : Bytes) :
    breaks (b :: r) = breaks r := by
  have hbreak : isBreakBefore b r ≠ true := by
    rw [Ne, isBreakBefore_iff, h]
    exact fun hb => Bool.false_ne_true hb.1
  rw [breaks_cons, if_neg hbreak, Nat.zero_add]

theorem breaks_le_of_suffix {r s : Bytes} (h : r <:+ s) : breaks r ≤ breaks s := by
  obtain ⟨front, rfl⟩ := h
  induction front with
  | nil => exact Nat.le_refl _
  | cons b front ih =>
      rw [List.cons_append, breaks_cons]
      exact Nat.le_add_left_of_le ih

theorem breaks_append (a b : Bytes) :
    breaks (a ++ b) +
        (if a.getLast? = some Byte.carriageReturn ∧ b.head? = some Byte.lineFeed then 1 else 0) =
      breaks a + breaks b := by
  -- only behind the last octet of `a` can a break lie across the cut
  induction a with
  | nil => simp [breaks, breaksFrom]
  | cons x r ih =>
      cases r with
      | nil =>
          have hne : Byte.carriageReturn ≠ Byte.lineFeed := by decide
          have hnil : breaks [] = 0 := rfl
          rw [List.singleton_append, breaks_cons, breaks_cons, hnil]
          by_cases hx : x = Byte.carriageReturn
          · subst hx
            by_cases hb : b.head? = some Byte.lineFeed
            · simp [isBreakBefore, hb, hne, Nat.add_comm]
            · simp [isBreakBefore, hb, hne]
          · simp [isBreakBefore, hx]
      | cons y r =>
          have hlast : (x :: y :: r).getLast? = (y :: r).getLast? := List.getLast?_cons_cons
          rw [hlast, List.cons_append, breaks_cons, breaks_cons,
            isBreakBefore_append x (List.cons_ne_nil y r)]
          omega

theorem breaks_append_of_whole {a : Bytes} (h : Whole a) (b : Bytes) :
    breaks (a ++ b) = breaks a + breaks b := by
  have hcut : ¬(a.getLast? = some Byte.carriageReturn ∧ b.head? = some Byte.lineFeed) := by
    rintro ⟨ha, -⟩
    rcases h with rfl | h
    · simp at ha
    · rw [h] at ha
      exact absurd ha (by decide)
  have hsum := breaks_append a b
  rwa [if_neg hcut, Nat.add_zero] at hsum

theorem Whole.of_cons {x y : UInt8} {r : Bytes} (h : Whole (x :: y :: r)) : Whole (y :: r) := by
  rcases h with h | h
  · simp at h
  · exact Or.inr (List.getLast?_cons_cons ▸ h)

theorem breaks_pos_of_whole {a : Bytes} (h : Whole a) (hne : a ≠ []) : 0 < breaks a := by
  induction a with
  | nil => exact absurd rfl hne
  | cons x r ih =>
      rw [breaks_cons]
      cases r with
      | nil =>
          have hx : x = Byte.lineFeed := by simpa [Whole] using h
          have hbreak : isBreakBefore x [] = true := hx ▸ rfl
          rw [if_pos hbreak]
          omega
      | cons y r =>
          have hr := ih h.of_cons (List.cons_ne_nil y r)
          omega

theorem first_append {s : Bytes} (h : ∀ b, s.head? = some b → isBreak b = true) (r : Bytes) :
    first (r ++ s) = first r := by
  have hs : s.takeWhile (!isBreak ·) = [] := by
    cases s with
    | nil => rfl
    | cons b s => exact List.takeWhile_cons_of_neg (by simp [h b rfl])
  rw [first, first, List.takeWhile_append, hs, List.append_nil]
  split
  next hall => exact ((List.takeWhile_prefix _).eq_of_length hall).symm
  next => rfl

theorem getElem?_zero_split (s : Bytes) : (split s)[0]? = some (first s) := by
  induction s with
  | nil => rfl
  | cons b r ih =>
      simp only [split]
      split
      next hb =>
        obtain ⟨rfl, hr⟩ := hb
        obtain ⟨t, rfl⟩ := List.head?_eq_some_iff.mp hr
        rw [ih]
        rfl
      next hb =>
        split
        next h => simp [first, h]
        next h =>
          rw [List.getElem?_modifyHead_zero, ih]
          simp [first, h]

theorem getElem?_split_append {a : Bytes} (h : Whole a) (b : Bytes) :
    (split (a ++ b))[breaks a]? = some (first b) := by
  induction a with
  | nil => exact getElem?_zero_split b
  | cons x r ih =>
      cases r with
      | nil =>
          have hx : x = Byte.lineFeed := by simpa [Whole] using h
          subst hx
          exact getElem?_zero_split b
      | cons y r =>
          have hr := ih h.of_cons
          have hpos := breaks_pos_of_whole h.of_cons (List.cons_ne_nil y r)
          have hhead : (y :: r ++ b).head? = (y :: r).head? := rfl
          rw [List.cons_append, breaks_cons]
          simp only [split, isBreakBefore_iff, hhead]
          split
          next hx => simpa [hx] using hr
          next hx =>
            split
            next hbreak =>
              rw [if_pos ⟨hbreak, hx⟩, Nat.add_comm, List.getElem?_cons_succ]
              exact hr
            next hbreak =>
              rw [if_neg (fun h => hbreak h.1), Nat.zero_add, List.getElem?_modifyHead,
                if_neg (Nat.ne_of_gt hpos)]
              exact hr

theorem start_succ {text : Bytes} {p : Nat} (h : text[p]? = some Byte.lineFeed) :
    Start text (p + 1) :=
  Or.inr ⟨Nat.succ_pos p, h⟩

theorem Start.le_length {text : Bytes} {p : Nat} (h : Start text p) : p ≤ text.length := by
  rcases h with rfl | ⟨hp, h⟩
  · exact Nat.zero_le _
  · obtain ⟨hlt, -⟩ := List.getElem?_eq_some_iff.mp h
    omega

theorem Start.whole_take {text : Bytes} {p : Nat} (h : Start text p) : Whole (text.take p) := by
  rcases h with rfl | ⟨hp, h⟩
  · exact Or.inl rfl
  · right
    rw [List.getLast?_take, if_neg (Nat.ne_of_gt hp), h, Option.some_or]

theorem Start.whole_between {text : Bytes} {p q : Nat} (hq : Start text q) :
    Whole ((text.take q).drop p) := by
  rcases hq.whole_take with h | h
  · exact Or.inl (by rw [h, List.drop_nil])
  · by_cases hp : p < (text.take q).length
    · right
      rw [List.getLast?_drop, if_neg (Nat.not_le.mpr hp), h]
    · exact Or.inl (List.drop_eq_nil_of_le (Nat.not_lt.mp hp))

theorem Start.not_withinBreak {text : Bytes} {p : Nat} (h : Start text p) :
    ¬WithinBreak text p := by
  rintro ⟨hpos, hreturn, -⟩
  rcases h with rfl | ⟨-, hfeed⟩
  · exact Nat.lt_irrefl 0 hpos
  · rw [hfeed] at hreturn
    exact absurd hreturn (by decide)

theorem withinBreak_iff {text : Bytes} {p q : Nat} (hpq : p < q) :
    WithinBreak text p ↔ (text.take p).getLast? = some Byte.carriageReturn ∧
      ((text.take q).drop p).head? = some Byte.lineFeed := by
  rw [List.head?_drop, List.getElem?_take_of_lt hpq, List.getLast?_take]
  by_cases hp : p = 0
  · simp [WithinBreak, hp]
  · rw [if_neg hp, WithinBreak, and_iff_right (Nat.pos_of_ne_zero hp)]
    refine and_congr_left fun hfeed => ?_
    obtain ⟨hlt, -⟩ := List.getElem?_eq_some_iff.mp hfeed
    rw [List.getElem?_eq_getElem (Nat.lt_of_le_of_lt (Nat.sub_le p 1) hlt), Option.some_or]

theorem breaks_take_add (text : Bytes) {p q : Nat} (hpq : p < q) :
    breaks (text.take q) + (if WithinBreak text p then 1 else 0) =
      breaks (text.take p) + breaks ((text.take q).drop p) := by
  have hsplit : text.take q = text.take p ++ (text.take q).drop p := by
    have hmin : (text.take q).take p = text.take p := by
      rw [List.take_take, Nat.min_eq_left (Nat.le_of_lt hpq)]
    rw [← hmin, List.take_append_drop]
  have hsum := breaks_append (text.take p) ((text.take q).drop p)
  rw [← hsplit] at hsum
  simp only [withinBreak_iff hpq]
  exact hsum

theorem breaks_take_eq_add {text : Bytes} {p q : Nat} (hp : ¬WithinBreak text p) (hpq : p ≤ q) :
    breaks (text.take q) = breaks (text.take p) + breaks ((text.take q).drop p) := by
  rcases Nat.eq_or_lt_of_le hpq with rfl | hlt
  · rw [List.drop_eq_nil_of_le (List.length_take_le p text)]
    rfl
  · have hsum := breaks_take_add text hlt
    rwa [if_neg hp] at hsum

theorem breaks_take_lt {text : Bytes} {p q : Nat} (hp : Start text p) (hq : Start text q)
    (hpq : p < q) : breaks (text.take p) < breaks (text.take q) := by
  have hne : (text.take q).drop p ≠ [] := by
    intro hnil
    have hlen := List.drop_eq_nil_iff.mp hnil
    rw [List.length_take, Nat.min_eq_left hq.le_length] at hlen
    omega
  have hpos := breaks_pos_of_whole (hq.whole_between (p := p)) hne
  rw [breaks_take_eq_add hp.not_withinBreak (Nat.le_of_lt hpq)]
  omega

theorem getElem?_split_of_start {text : Bytes} {p : Nat} (h : Start text p) :
    (split text)[breaks (text.take p)]? = some (first (text.drop p)) := by
  have hsplit := getElem?_split_append h.whole_take (text.drop p)
  rwa [List.take_append_drop] at hsplit

theorem Counter.advance_offset (c : Counter) (text : Bytes) (p : Nat) :
    (c.advance text p).offset = max c.offset p := by
  rw [Counter.advance]
  split
  next hlt => exact (Nat.max_eq_right (Nat.le_of_lt hlt)).symm
  next hle => exact (Nat.max_eq_left (Nat.not_lt.mp hle)).symm

theorem Counter.advance_line (c : Counter) (text : Bytes) (p : Nat) :
    (c.advance text p).line + breaks (text.take c.offset) =
      c.line + breaks (text.take (max c.offset p)) +
        (if c.offset < p ∧ WithinBreak text c.offset then 1 else 0) := by
  rw [Counter.advance]
  by_cases hlt : c.offset < p
  · have hsum := breaks_take_add text hlt
    simp only [hlt, true_and, if_true, Nat.max_eq_right (Nat.le_of_lt hlt)]
    omega
  · simp [hlt, Nat.max_eq_left (Nat.not_lt.mp hlt)]

theorem Counter.advance_eq {c : Counter} {text : Bytes} {p : Nat}
    (hwhole : ¬WithinBreak text c.offset) (hle : c.offset ≤ p)
    (hline : c.line = 1 + breaks (text.take c.offset)) :
    c.advance text p = ⟨p, 1 + breaks (text.take p)⟩ := by
  have hoffset := c.advance_offset text p
  have hcount := c.advance_line text p
  rw [Nat.max_eq_right hle] at hoffset hcount
  rw [if_neg fun h => hwhole h.2] at hcount
  generalize c.advance text p = c' at hoffset hcount ⊢
  obtain ⟨offset, line⟩ := c'
  simp only [Counter.mk.injEq] at hoffset hcount ⊢
  omega

end ScriptTags.Line
