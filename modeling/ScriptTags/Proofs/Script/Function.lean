import ScriptTags.Proofs.Script.RulePattern

namespace ScriptTags

namespace Rule

open Bytes

variable {text r w : Bytes} {x : UInt8} {p o c b j k m q : Nat}

/-- On the line read from `o`, a closing parenthesis at `c`, and behind its white space the brace
at `b`. -/
structure Closes (text : Bytes) (o c b : Nat) : Prop where
  line : Spans (· != Byte.lineFeed) text o c
  paren : text[c]? = some Byte.closeParen
  space : Spans Byte.isSpace text (c + 1) b
  brace : text[b]? = some Byte.openBrace

def LastCloses (text : Bytes) (o c b : Nat) : Prop :=
  Closes text o c b ∧ ∀ c' b', Closes text o c' b' → c' ≤ c

theorem afterParameters?_drop_iff :
    afterParameters? (text.drop k) = some r ↔
      ∃ b, Spans Byte.isSpace text k b ∧ text[b]? = some Byte.openBrace ∧
        r = Line.tail (skipSpace (text.drop (b + 1))) := by
  constructor
  · intro h
    by_cases hk : k ≤ text.length
    · obtain ⟨b, hb⟩ := exists_runsTo Byte.isSpace hk
      rw [afterParameters?, skipSpace, ((runsTo_iff hk).mp hb).2] at h
      cases hd : text.drop b with
      | nil => simp [hd] at h
      | cons x t =>
          obtain ⟨hx, ht⟩ := drop_succ_of_drop_eq_cons hd
          simp only [hd, Option.ite_none_right_eq_some, Option.some.injEq] at h
          obtain ⟨rfl, rfl⟩ := h
          exact ⟨b, hb.1, hx, by rw [ht]⟩
    · rw [List.drop_eq_nil_of_le (by omega)] at h
      simp [afterParameters?, skipSpace] at h
  · rintro ⟨b, hspace, hbrace, rfl⟩
    rw [afterParameters?, skipSpace, hspace.dropWhile_eq_cons hbrace rfl]
    rfl

theorem spans_space_unique {b' : Nat} (h : Spans Byte.isSpace text k b)
    (hb : text[b]? = some Byte.openBrace) (h' : Spans Byte.isSpace text k b')
    (hb' : text[b']? = some Byte.openBrace) : b = b' := by
  obtain ⟨hlt, -⟩ := List.getElem?_eq_some_iff.mp hb
  obtain ⟨hlt', -⟩ := List.getElem?_eq_some_iff.mp hb'
  apply drop_inj hlt.le hlt'.le
  rw [getElem?_eq_some_iff_drop.mp hb, getElem?_eq_some_iff_drop.mp hb',
    ← h.dropWhile_eq_cons hb rfl, ← h'.dropWhile_eq_cons hb' rfl]

theorem not_closes_of_drop_eq_nil (h : text.drop o = []) : ¬Closes text o c b := by
  intro hc
  have hnil := List.drop_eq_nil_iff.mp h
  obtain ⟨hlt, -⟩ := List.getElem?_eq_some_iff.mp hc.paren
  have hle := hc.line.1
  omega

theorem not_closes_of_lineFeed (h : text[o]? = some Byte.lineFeed) : ¬Closes text o c b := by
  intro hc
  rcases Nat.eq_or_lt_of_le hc.line.1 with rfl | hlt
  · have hparen := hc.paren
    rw [h, Option.some.injEq] at hparen
    exact absurd hparen (by decide)
  · obtain ⟨x, hx, hne⟩ := hc.line.2 o (Nat.le_refl o) hlt
    rw [h, Option.some.injEq] at hx
    simp [← hx] at hne

theorem closes_iff (hx : text[o]? = some x) (hfeed : x ≠ Byte.lineFeed) :
    Closes text o c b ↔
      Closes text (o + 1) c b ∨
        c = o ∧ x = Byte.closeParen ∧ Spans Byte.isSpace text (o + 1) b ∧
          text[b]? = some Byte.openBrace := by
  constructor
  · intro hc
    rcases Nat.eq_or_lt_of_le hc.line.1 with rfl | hlt
    · have hparen := hc.paren
      rw [hx, Option.some.injEq] at hparen
      exact Or.inr ⟨rfl, hparen, hc.space, hc.brace⟩
    · have hline : Spans (· != Byte.lineFeed) text (o + 1) c :=
        ⟨hlt, fun n hn hnc => hc.line.2 n (Nat.le_of_succ_le hn) hnc⟩
      exact Or.inl ⟨hline, hc.paren, hc.space, hc.brace⟩
  · rintro (hc | ⟨rfl, rfl, hspace, hbrace⟩)
    · have hne : (x != Byte.lineFeed) = true := by simpa using hfeed
      exact ⟨hc.line.cons hx hne, hc.paren, hc.space, hc.brace⟩
    · exact ⟨Spans.refl _ text c, hx, hspace, hbrace⟩

theorem isSome_afterOpen? (h : Closes text o c b) : (afterOpen? (text.drop o)).isSome = true := by
  induction hs : text.drop o generalizing o with
  | nil => exact absurd h (not_closes_of_drop_eq_nil hs)
  | cons x s ih =>
      obtain ⟨hx, ht⟩ := drop_succ_of_drop_eq_cons hs
      by_cases hfeed : x = Byte.lineFeed
      · exact absurd h (not_closes_of_lineFeed (hfeed ▸ hx))
      · rw [afterOpen?, if_neg hfeed, Option.isSome_or]
        rcases (closes_iff hx hfeed).mp h with h | ⟨-, rfl, hspace, hbrace⟩
        · rw [ih h ht, Bool.true_or]
        · have hparameters := afterParameters?_drop_iff.mpr ⟨b, hspace, hbrace, rfl⟩
          rw [ht] at hparameters
          rw [if_pos rfl, hparameters, Option.isSome_some, Bool.or_true]

theorem exists_lastCloses (h : afterOpen? (text.drop o) = some r) :
    ∃ c b, LastCloses text o c b ∧ r = Line.tail (skipSpace (text.drop (b + 1))) := by
  induction hs : text.drop o generalizing o with
  | nil =>
      rw [hs] at h
      cases h
  | cons x s ih =>
      obtain ⟨hx, ht⟩ := drop_succ_of_drop_eq_cons hs
      rw [hs, afterOpen?] at h
      split at h
      next => cases h
      next hfeed =>
        rcases Option.or_eq_some_iff.mp h with hsome | ⟨hnone, hparameters⟩
        · obtain ⟨c, b, ⟨hc, hlast⟩, hr⟩ := ih (ht ▸ hsome) ht
          refine ⟨c, b, ⟨(closes_iff hx hfeed).mpr (Or.inl hc), fun c' b' hc' => ?_⟩, hr⟩
          rcases (closes_iff hx hfeed).mp hc' with hc' | ⟨rfl, -⟩
          · exact hlast c' b' hc'
          · exact Nat.le_of_succ_le hc.line.1
        · rw [Option.ite_none_right_eq_some, ← ht] at hparameters
          obtain ⟨hparen, hparameters⟩ := hparameters
          obtain ⟨b, hspace, hbrace, hr⟩ := afterParameters?_drop_iff.mp hparameters
          refine ⟨o, b, ⟨(closes_iff hx hfeed).mpr (Or.inr ⟨rfl, hparen, hspace, hbrace⟩),
            fun c' b' hc' => ?_⟩, hr⟩
          rcases (closes_iff hx hfeed).mp hc' with hc' | ⟨rfl, -⟩
          · have hsome := isSome_afterOpen? hc'
            rw [ht, hnone] at hsome
            cases hsome
          · exact Nat.le_refl _

theorem LastCloses.unique {c' b' : Nat} (h : LastCloses text o c b)
    (h' : LastCloses text o c' b') : c = c' ∧ b = b' := by
  have hc : c = c' := Nat.le_antisymm (h'.2 c b h.1) (h.2 c' b' h'.1)
  subst hc
  exact ⟨rfl, spans_space_unique h.1.space h.1.brace h'.1.space h'.1.brace⟩

theorem afterOpen?_drop_iff :
    afterOpen? (text.drop o) = some r ↔
      ∃ c b, LastCloses text o c b ∧ r = Line.tail (skipSpace (text.drop (b + 1))) := by
  constructor
  · exact exists_lastCloses
  · rintro ⟨c, b, hlast, rfl⟩
    obtain ⟨r, hr⟩ := Option.isSome_iff_exists.mp (isSome_afterOpen? hlast.1)
    obtain ⟨c', b', hlast', rfl⟩ := exists_lastCloses hr
    obtain ⟨rfl, rfl⟩ := hlast.unique hlast'
    exact hr

/-- The parenthesis at `j` opens parameters, and the brace behind their end is before `m`. -/
def OpensBody (text : Bytes) (j m : Nat) : Prop :=
  ∃ c b, text[j]? = some Byte.openParen ∧ LastCloses text (j + 1) c b ∧ m = b + 1

theorem OpensBody.le_length (h : OpensBody text j m) : m ≤ text.length := by
  obtain ⟨c, b, -, hlast, rfl⟩ := h
  obtain ⟨hlt, -⟩ := List.getElem?_eq_some_iff.mp hlast.1.brace
  exact hlt

theorem afterFunctionName?_drop_iff :
    afterFunctionName? (text.drop j) = some r ↔
      ∃ m, OpensBody text j m ∧ r = Line.tail (skipSpace (text.drop m)) := by
  rw [Pattern.afterFunctionName?_eq, Pattern.octetThen_drop_iff, afterOpen?_drop_iff]
  constructor
  · rintro ⟨hparen, c, b, hlast, hr⟩
    exact ⟨b + 1, ⟨c, b, hparen, hlast, rfl⟩, hr⟩
  · rintro ⟨m, ⟨c, b, hparen, hlast, rfl⟩, hr⟩
    exact ⟨hparen, c, b, hlast, hr⟩

def FunctionCandidate (text : Bytes) (p : Nat) : Prop :=
  ∃ i j c b, NameAt text p i j ∧ text[j]? = some Byte.openParen ∧ Closes text (j + 1) c b

def FunctionStep (text : Bytes) (p : Nat) (w : Bytes) (q : Nat) : Prop :=
  ∃ i j m, NameAt text p i j ∧ w = slice text i j ∧ OpensBody text j m ∧ Resumes text m q

theorem functionStep_iff : FunctionStep text p w q ↔ FoundAt .function text p w q := by
  symm
  apply foundAt_iff_resumes
  · intro j m h
    exact h.le_length
  · intro j r
    exact afterFunctionName?_drop_iff

theorem functionCandidate_iff : FunctionCandidate text p ↔ ∃ w q, FunctionStep text p w q := by
  constructor
  · rintro ⟨i, j, c, b, hname, hparen, hcloses⟩
    obtain ⟨r, hr⟩ := Option.isSome_iff_exists.mp (isSome_afterOpen? hcloses)
    obtain ⟨c', b', hlast, -⟩ := exists_lastCloses hr
    have hbody : OpensBody text j (b' + 1) := ⟨c', b', hparen, hlast, rfl⟩
    obtain ⟨q, hq⟩ := exists_resumes hbody.le_length
    exact ⟨slice text i j, q, i, j, b' + 1, hname, rfl, hbody, hq⟩
  · rintro ⟨w, q, i, j, m, hname, -, ⟨c, b, hparen, hlast, -⟩, -⟩
    exact ⟨i, j, c, b, hname, hparen, hlast.1⟩

end Rule

namespace Scan

theorem function_entries_exact (path : String) (text : Bytes) :
    ∃ found,
      (∀ other, Scans (Rule.FunctionCandidate text) (Rule.FunctionStep text) 0 other ↔
        other = found) ∧
      (∀ other, Scans ((Pattern.ofKind .function).Candidate text)
        ((Pattern.ofKind .function).FoundAt text) 0 other ↔ other = found) ∧
      entries .function path text = found.map (Hit.entry .function (Entry.label path) text) :=
  exists_exact (fun _ => Rule.functionCandidate_iff) (fun _ _ _ => Rule.functionStep_iff) path

end Scan

end ScriptTags
