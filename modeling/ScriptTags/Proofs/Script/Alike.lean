import ScriptTags.Proofs.Script.RulePattern

/-!
Texts that read alike. A carriage return more before a line feed, or a comment line behind the end,
is read over by every rule, so the definitions of the one text are found in the other as well.
-/

namespace ScriptTags

open Line Rule

def Closing (e : Bytes) : Prop :=
  e = [] ∨ ∃ u, e = Byte.lineFeed :: Byte.semicolon :: u

/-- The second text is the first with carriage returns before some of its line feeds and with `e`
behind it. A line feed that has its carriage return gets no second one. -/
inductive Alike (e : Bytes) : Bytes → Bytes → Prop
  | nil : Alike e [] e
  | cons {b : UInt8} {s t : Bytes} :
      (b = Byte.carriageReturn → s.head? = some Byte.lineFeed → t.head? = some Byte.lineFeed) →
      Alike e s t → Alike e (b :: s) (b :: t)
  | feed {s t : Bytes} : Alike e s t →
      Alike e (Byte.lineFeed :: s) (Byte.carriageReturn :: Byte.lineFeed :: t)

def Leaves (e r r' : Bytes) : Prop :=
  Alike e r r' ∨ r = [] ∧ r' = Line.tail (skipSpace e)

variable {e s t r r' : Bytes} {b : UInt8} {kind : Kind}

theorem Line.tail_cons_of_ne (hb : b ≠ Byte.lineFeed) (s : Bytes) :
    Line.tail (b :: s) = Line.tail s :=
  List.dropWhile_cons_of_pos (by simpa using hb)

theorem Closing.dropWhile {c : UInt8 → Bool} (he : Closing e) (hc : c Byte.lineFeed = false) :
    e.takeWhile c = [] ∧ e.dropWhile c = e := by
  rcases he with rfl | ⟨u, rfl⟩
  · exact ⟨rfl, rfl⟩
  · simp [hc]

theorem Closing.skipSpace_cases (he : Closing e) :
    skipSpace e = [] ∨ ∃ u, skipSpace e = Byte.semicolon :: u := by
  rcases he with rfl | ⟨u, rfl⟩
  · exact Or.inl rfl
  · exact Or.inr ⟨u, rfl⟩

namespace Alike

theorem eq_of_nil (h : Alike e [] t) : t = e := by
  cases h
  rfl

theorem takeWhile {c : UInt8 → Bool} (h : Alike e s t) (he : Closing e)
    (hfeed : c Byte.lineFeed = false) (hreturn : c Byte.carriageReturn = false) :
    s.takeWhile c = t.takeWhile c ∧ Alike e (s.dropWhile c) (t.dropWhile c) := by
  induction h with
  | nil =>
      obtain ⟨htake, hdrop⟩ := he.dropWhile hfeed
      rw [htake, hdrop]
      exact ⟨rfl, .nil⟩
  | @cons b s t hb h ih =>
      cases hc : c b with
      | true =>
          rw [List.takeWhile_cons_of_pos hc, List.takeWhile_cons_of_pos hc, ih.1,
            List.dropWhile_cons_of_pos hc, List.dropWhile_cons_of_pos hc]
          exact ⟨rfl, ih.2⟩
      | false => simpa [hc] using Alike.cons hb h
  | feed h _ => simpa [hfeed, hreturn] using h.feed

theorem skipSpace_cases (h : Alike e s t) :
    skipSpace s = [] ∧ skipSpace t = skipSpace e ∨
      ∃ b s' t', skipSpace s = b :: s' ∧ skipSpace t = b :: t' ∧ Alike e (b :: s') (b :: t') ∧
        Alike e s' t' := by
  induction h with
  | nil => exact Or.inl ⟨rfl, rfl⟩
  | @cons b s t hb h ih =>
      cases hspace : Byte.isSpace b with
      | true =>
          rw [skipSpace, skipSpace, List.dropWhile_cons_of_pos hspace,
            List.dropWhile_cons_of_pos hspace]
          exact ih
      | false =>
          exact Or.inr ⟨b, s, t, skipSpace_of_not_isSpace hspace, skipSpace_of_not_isSpace hspace,
            h.cons hb, h⟩
  | feed _ ih => exact ih

theorem tail (h : Alike e s t) (he : Closing e) : Alike e (Line.tail s) (Line.tail t) := by
  induction h with
  | nil =>
      rw [Line.tail, Line.tail, (he.dropWhile (c := (· != Byte.lineFeed)) rfl).2]
      exact .nil
  | @cons b s t hb h ih =>
      by_cases hfeed : b = Byte.lineFeed
      · subst hfeed
        exact h.cons hb
      · rw [tail_cons_of_ne hfeed, tail_cons_of_ne hfeed]
        exact ih
  | feed h _ => exact h.cons fun hb => absurd hb (by decide)

theorem leaves_tail_skipSpace (h : Alike e s t) (he : Closing e) :
    Leaves e (Line.tail (skipSpace s)) (Line.tail (skipSpace t)) := by
  rcases h.skipSpace_cases with ⟨hs, ht⟩ | ⟨b, s', t', hs, ht, h', -⟩
  · rw [hs, ht]
    exact Or.inr ⟨rfl, rfl⟩
  · rw [hs, ht]
    exact Or.inl (h'.tail he)

end Alike

section Rel

variable {α β γ δ : Type} {R : α → β → Prop} {S : γ → δ → Prop} {x y : Option α} {x' y' : Option β}

theorem eq_none_of_rel (h : Option.Rel R none x') : x' = none := by
  cases h
  rfl

theorem exists_of_rel {a : α} (h : Option.Rel R (some a) x') : ∃ b, x' = some b ∧ R a b := by
  cases h with
  | some h => exact ⟨_, rfl, h⟩

theorem rel_or (h : Option.Rel R x x') (h' : Option.Rel R y y') :
    Option.Rel R (x.or y) (x'.or y') := by
  cases h with
  | none => exact h'
  | some h => exact .some h

theorem rel_ite (p : Prop) [Decidable p] (h : Option.Rel R x x') :
    Option.Rel R (if p then x else none) (if p then x' else none) := by
  split
  · exact h
  · exact .none

theorem rel_bind {f : α → Option γ} {g : β → Option δ} (h : Option.Rel R x x')
    (hfg : ∀ a b, R a b → Option.Rel S (f a) (g b)) : Option.Rel S (x.bind f) (x'.bind g) := by
  cases h with
  | none => exact .none
  | some h => exact hfg _ _ h

theorem rel_map {f : α → γ} {g : β → δ} (h : Option.Rel R x x')
    (hfg : ∀ a b, R a b → S (f a) (g b)) : Option.Rel S (x.map f) (x'.map g) := by
  cases h with
  | none => exact .none
  | some h => exact .some (hfg _ _ h)

end Rel

namespace Alike

theorem rel_octetThen {R : Bytes → Bytes → Prop} {g : Bytes → Option Bytes} {x : UInt8}
    (h : Alike e s t) (he : Closing e) (hx : isBreak x = false)
    (hg : ∀ s t, Alike e s t → Option.Rel R (g s) (g t)) :
    Option.Rel R (Pattern.octetThen (.literal x) g s) (Pattern.octetThen (.literal x) g t) := by
  have hfeed : Byte.lineFeed ≠ x := Byte.ne_of_class (c := isBreak) rfl hx
  have hreturn : Byte.carriageReturn ≠ x := Byte.ne_of_class (c := isBreak) rfl hx
  cases h with
  | nil =>
      rcases he with rfl | ⟨u, rfl⟩
      · exact .none
      · rw [Pattern.octetThen_literal, if_neg hfeed]
        exact .none
  | cons _ h =>
      rw [Pattern.octetThen_literal, Pattern.octetThen_literal]
      exact rel_ite _ (hg _ _ h)
  | feed _ =>
      rw [Pattern.octetThen_literal, Pattern.octetThen_literal, if_neg hfeed, if_neg hreturn]
      exact .none

theorem rel_afterParameters? (h : Alike e s t) (he : Closing e) :
    Option.Rel (Leaves e) (afterParameters? s) (afterParameters? t) := by
  rw [afterParameters?, afterParameters?]
  rcases h.skipSpace_cases with ⟨hs, ht⟩ | ⟨b, s', t', hs, ht, -, h'⟩
  · rw [hs, ht]
    rcases he.skipSpace_cases with hnil | ⟨u, hu⟩
    · rw [hnil]
      exact .none
    · rw [hu]
      exact .none
  · rw [hs, ht]
    exact rel_ite _ (.some (h'.leaves_tail_skipSpace he))

theorem rel_afterOpen? (h : Alike e s t) (he : Closing e) :
    Option.Rel (Leaves e) (afterOpen? s) (afterOpen? t) := by
  induction h with
  | nil =>
      rcases he with rfl | ⟨u, rfl⟩
      · exact .none
      · exact .none
  | @cons b s t _ h ih =>
      rw [afterOpen?, afterOpen?]
      split
      next => exact .none
      next => exact rel_or ih (rel_ite _ (h.rel_afterParameters? he))
  | feed _ _ => exact .none

theorem rel_lastLineFeed? (h : Alike e s t) (hs : skipSpace s ≠ []) :
    Option.Rel (Leaves e) (lastLineFeed? s) (lastLineFeed? t) := by
  induction h with
  | nil => exact absurd rfl hs
  | @cons b s t hb h ih =>
      rw [lastLineFeed?, lastLineFeed?]
      split
      next hspace =>
        have hskip : skipSpace (b :: s) = skipSpace s := List.dropWhile_cons_of_pos hspace
        exact rel_or (ih (hskip ▸ hs)) (rel_ite _ (.some (Or.inl (h.cons hb))))
      next => exact .none
  | @feed s t h ih =>
      have hfeed : Alike e (Byte.lineFeed :: s) (Byte.lineFeed :: t) :=
        h.cons fun hb => absurd hb (by decide)
      have hreturn : lastLineFeed? (Byte.carriageReturn :: Byte.lineFeed :: t) =
          lastLineFeed? (Byte.lineFeed :: t) := Option.or_none
      rw [hreturn]
      exact rel_or (ih hs) (.some (Or.inl hfeed))

theorem rel_afterColon? (h : Alike e s t) (he : Closing e) :
    Option.Rel (Leaves e) (afterColon? s) (afterColon? t) := by
  rw [afterColon?, afterColon?]
  rcases h.skipSpace_cases with ⟨hs, ht⟩ | ⟨b, s', t', hs, ht, h', -⟩
  · rw [hs, ht]
    rcases he.skipSpace_cases with hnil | ⟨u, hu⟩
    · rw [hnil]
      exact .some (Or.inr ⟨rfl, by rw [hnil]; rfl⟩)
    · rw [hu]
      exact .some (Or.inr ⟨rfl, by rw [hu]⟩)
  · have hne : skipSpace s ≠ [] := by simp [hs]
    rw [hs, ht]
    simp only
    split
    next => exact .some (Or.inl (h'.tail he))
    next => exact h.rel_lastLineFeed? hne

theorem rel_afterEquals? (h : Alike e s t) (he : Closing e) :
    Option.Rel (Leaves e) (afterEquals? s) (afterEquals? t) := by
  rw [Pattern.afterEquals?_eq, Pattern.afterEquals?_eq]
  exact h.rel_octetThen he rfl fun s t h => .some (h.leaves_tail_skipSpace he)

theorem rel_afterVariableName? (h : Alike e s t) (he : Closing e) :
    Option.Rel (Leaves e) (afterVariableName? s) (afterVariableName? t) := by
  rw [afterVariableName?, afterVariableName?]
  rcases h.skipSpace_cases with ⟨hs, ht⟩ | ⟨b, s', t', hs, ht, h', hrest⟩
  · rw [hs, ht]
    rcases he.skipSpace_cases with hnil | ⟨u, hu⟩
    · rw [hnil]
      exact .none
    · rw [hu]
      exact .none
  · rw [hs, ht]
    simp only
    split
    next => exact hrest.rel_afterEquals? he
    next => exact h'.rel_afterEquals? he

theorem rel_afterName? (h : Alike e s t) (he : Closing e) (kind : Kind) :
    Option.Rel (Leaves e) (afterName? kind s) (afterName? kind t) := by
  match kind with
  | .function =>
      simp only [afterName?, Pattern.afterFunctionName?_eq]
      exact h.rel_octetThen he rfl fun s t h => h.rel_afterOpen? he
  | .label =>
      simp only [afterName?, Pattern.afterLabelName?_eq]
      exact h.rel_octetThen he rfl fun s t h => h.rel_afterColon? he
  | .variable => exact h.rel_afterVariableName? he

theorem rel_head? (h : Alike e s t) (he : Closing e) :
    Option.Rel (fun m m' => m.name = m'.name ∧ Alike e m.rest m'.rest) (head? s) (head? t) := by
  have hblank := (h.takeWhile (c := Byte.isBlank) he rfl rfl).2
  obtain ⟨hname, hrest⟩ := hblank.takeWhile (c := Byte.isWord) he rfl rfl
  rw [head?, head?, hname]
  split
  next => exact .none
  next => exact .some ⟨rfl, hrest⟩

theorem rel_match? (h : Alike e s t) (he : Closing e) (kind : Kind) :
    Option.Rel (fun m m' => m.name = m'.name ∧ Leaves e m.rest m'.rest)
      (match? kind s) (match? kind t) := by
  apply rel_bind (h.rel_head? he)
  rintro m m' ⟨hname, hrest⟩
  apply rel_map (hrest.rel_afterName? he kind)
  intro r r' hleaves
  exact ⟨hname, hleaves⟩

theorem first_eq (h : Alike e s t) (he : Closing e) : Line.first s = Line.first t :=
  (h.takeWhile he rfl rfl).1

theorem head?_lineFeed_iff (h : Alike e s t) (hs : s ≠ [])
    (hreturn : s.head? = some Byte.lineFeed → t.head? = some Byte.lineFeed) :
    s.head? = some Byte.lineFeed ↔ t.head? = some Byte.lineFeed := by
  refine ⟨hreturn, fun ht => ?_⟩
  cases h with
  | nil => exact absurd rfl hs
  | cons _ _ => exact ht
  | feed _ => rfl

theorem isBreakBefore_eq (h : Alike e s t) (hs : s ≠ [])
    (hb : b = Byte.carriageReturn → s.head? = some Byte.lineFeed → t.head? = some Byte.lineFeed) :
    isBreakBefore b s = isBreakBefore b t := by
  rw [Bool.eq_iff_iff, isBreakBefore_iff, isBreakBefore_iff]
  by_cases hreturn : b = Byte.carriageReturn
  · rw [h.head?_lineFeed_iff hs (hb hreturn)]
  · simp [hreturn]

theorem breaks_add (h : Alike e s t) :
    breaks t + (if s.getLast? = some Byte.carriageReturn ∧ e.head? = some Byte.lineFeed
      then 1 else 0) = breaks s + breaks e := by
  -- only a return at the very end of `s` can meet the feed of `e`
  induction h with
  | nil => simp [breaks, breaksFrom]
  | @cons b s t hb h ih =>
      cases s with
      | nil =>
          rw [h.eq_of_nil, ← breaks_append, List.singleton_append]
      | cons x s =>
          rw [List.getLast?_cons_cons, breaks_cons, breaks_cons,
            h.isBreakBefore_eq (List.cons_ne_nil x s) hb]
          omega
  | @feed s t h ih =>
      rw [breaks_both, breaks_lineFeed]
      cases s with
      | nil =>
          rw [h.eq_of_nil, if_neg fun hlast => absurd hlast.1 (by decide)]
          exact Nat.add_comm (breaks e) 1
      | cons x s =>
          rw [List.getLast?_cons_cons]
          omega

end Alike

end ScriptTags
