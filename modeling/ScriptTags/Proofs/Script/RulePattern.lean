import ScriptTags.Proofs.Script.Pattern

/-!
The rules as patterns. Each reader of a rule gives the first outcome of the pattern it is written
for, so a search for the pattern finds what the search over lines finds.
-/

namespace ScriptTags

namespace Pattern

def definition (e : Pattern) : Pattern :=
  .seq .lineStart (.seq (.star .blank) (.seq (.named (.plus .word)) e))

def comment : Pattern :=
  .group (.seq (.optional (.octet (.literal Byte.semicolon))) (.star .any))

def afterName : Kind → Pattern
  | .function =>
      .seq (.octet (.literal Byte.openParen)) (.seq (.star .any)
        (.seq (.octet (.literal Byte.closeParen)) (.seq (.star .space)
          (.seq (.octet (.literal Byte.openBrace)) (.seq (.star .space) (.seq comment .lineEnd))))))
  | .label =>
      .seq (.octet (.literal Byte.colon)) (.seq (.star .space)
        (.seq (.optional (.group (.seq (.octet (.literal Byte.semicolon)) (.star .any)))) .lineEnd))
  | .variable =>
      .seq (.star .space) (.seq (.optional (.octet (.literal Byte.colon)))
        (.seq (.octet (.literal Byte.equals)) (.seq (.star .space)
          (.seq (.optional comment) .lineEnd))))

def ofKind (kind : Kind) : Pattern :=
  definition (afterName kind)

theorem text_ofKind (kind : Kind) : "(?m-u)" ++ (ofKind kind).text = Rule.pattern kind := by
  cases kind <;> decide

variable {c : Octet} {e p q : Pattern} {g h : Bytes → Option Bytes} {s : State} {b : UInt8}
  {r t : Bytes}

theorem afterFunctionName?_eq (s : Bytes) :
    Rule.afterFunctionName? s = octetThen (.literal Byte.openParen) Rule.afterOpen? s := by
  cases s with
  | nil => rfl
  | cons b r => rw [octetThen_literal, Rule.afterFunctionName?]

theorem afterLabelName?_eq (s : Bytes) :
    Rule.afterLabelName? s = octetThen (.literal Byte.colon) Rule.afterColon? s := by
  cases s with
  | nil => rfl
  | cons b r => rw [octetThen_literal, Rule.afterLabelName?]

theorem afterEquals?_eq (s : Bytes) :
    Rule.afterEquals? s =
      octetThen (.literal Byte.equals) (fun r => some (Line.tail (Rule.skipSpace r))) s := by
  cases s with
  | nil => rfl
  | cons b r => rw [octetThen_literal, Rule.afterEquals?]

theorem atLineEnd_tail (r : Bytes) : atLineEnd (Line.tail r) = some (Line.tail r) := by
  apply if_pos
  cases ht : Line.tail r with
  | nil => exact Or.inl rfl
  | cons b t =>
      have hb : b = Byte.lineFeed := Rule.head?_tail (s := r) (by rw [ht, List.head?_cons])
      exact Or.inr (by rw [hb, List.head?_cons])

theorem reads_restOfLine : Reads (.seq (.star .any) .lineEnd) fun r => some (Line.tail r) := by
  refine (reads_lineEnd.star .any).congr fun r => ?_
  have htail : r.dropWhile Octet.any.holds = Line.tail r := rfl
  have haccept : (atLineEnd (r.dropWhile Octet.any.holds)).isSome = true := by
    rw [htail, atLineEnd_tail]
    rfl
  rw [greedy_of_accept haccept, htail, atLineEnd_tail]

theorem tail_of_octetThen_semicolon (r : Bytes) :
    (octetThen (.literal Byte.semicolon) (fun t => some (Line.tail t)) r).or
      (some (Line.tail r)) = some (Line.tail r) := by
  cases r with
  | nil => rfl
  | cons b r =>
      rw [octetThen_literal]
      split
      next hb =>
        subst hb
        rfl
      next => rfl

theorem reads_comment : Reads (.seq comment .lineEnd) fun r => some (Line.tail r) :=
  (((reads_restOfLine.octet _).optional reads_restOfLine).assoc.group).congr
    tail_of_octetThen_semicolon

theorem reads_optional_comment :
    Reads (.seq (.optional comment) .lineEnd) fun r => some (Line.tail r) :=
  (reads_comment.optional reads_lineEnd).congr fun _ => rfl

theorem Reads.space (hg : Reads e fun r => some (Line.tail r)) :
    Reads (.seq (.star .space) e) fun r => some (Line.tail (Rule.skipSpace r)) :=
  (hg.star .space).congr fun _ => greedy_of_accept rfl

theorem reads_afterParameters :
    Reads (.seq (.star .space) (.seq (.octet (.literal Byte.openBrace))
      (.seq (.star .space) (.seq comment .lineEnd)))) Rule.afterParameters? := by
  refine ((reads_comment.space.octet _).star .space).congr fun r => ?_
  have hspace : r.dropWhile Octet.space.holds = Rule.skipSpace r := rfl
  rw [greedy_of_reject (c := .space) (fun b t hb => octetThen_of_isSpace rfl hb), hspace,
    Rule.afterParameters?]
  cases Rule.skipSpace r with
  | nil => rfl
  | cons b t => rw [octetThen_literal]

theorem greedy_closeParen (s : Bytes) :
    greedy .any (octetThen (.literal Byte.closeParen) Rule.afterParameters?) s =
      Rule.afterOpen? s := by
  induction s with
  | nil => rfl
  | cons b r ih =>
      rw [greedy, Rule.afterOpen?, ih]
      by_cases hb : b = Byte.lineFeed
      · subst hb
        rfl
      · simp [octetThen_literal, Octet.holds, hb]

theorem reads_afterFunctionName : Reads (afterName .function) Rule.afterFunctionName? := by
  refine (((reads_afterParameters.octet _).star .any).octet _).congr fun r => ?_
  rw [funext greedy_closeParen, afterFunctionName?_eq]

def commentOrLineEnd (r : Bytes) : Option Bytes :=
  (octetThen (.literal Byte.semicolon) (fun t => some (Line.tail t)) r).or (atLineEnd r)

theorem commentOrLineEnd_cons (b : UInt8) (r : Bytes) :
    commentOrLineEnd (b :: r) =
      if b = Byte.semicolon then some (Line.tail r)
      else if b = Byte.lineFeed then some (b :: r) else none := by
  rw [commentOrLineEnd, octetThen_literal, atLineEnd]
  by_cases hb : b = Byte.semicolon
  · simp [hb]
  · simp [hb]

theorem isSome_commentOrLineEnd_iff :
    (commentOrLineEnd t).isSome = true ↔
      t = [] ∨ t.head? = some Byte.semicolon ∨ t.head? = some Byte.lineFeed := by
  cases t with
  | nil => simp [commentOrLineEnd, octetThen, atLineEnd]
  | cons b r =>
      rw [commentOrLineEnd_cons]
      split
      next hb => simp [hb]
      next hb =>
        split
        next hfeed => simp [hfeed]
        next hfeed => simp [hb, hfeed]

theorem eq_tail_of_commentOrLineEnd (h : commentOrLineEnd t = some r) :
    r = Line.tail t := by
  cases t with
  | nil =>
      cases h
      rfl
  | cons b u =>
      rw [commentOrLineEnd_cons] at h
      split at h
      next hb =>
        subst hb
        exact (Option.some.inj h).symm
      next =>
        rw [Option.ite_none_right_eq_some, Option.some.injEq] at h
        obtain ⟨rfl, rfl⟩ := h
        rfl

theorem greedy_lastLineFeed (h : commentOrLineEnd (Rule.skipSpace r) = none) :
    greedy .space commentOrLineEnd r = Rule.lastLineFeed? r := by
  induction r with
  | nil => simp [Rule.skipSpace, commentOrLineEnd, octetThen, atLineEnd] at h
  | cons b r ih =>
      rw [greedy, Rule.lastLineFeed?]
      cases hb : Byte.isSpace b with
      | true =>
          have hskip : Rule.skipSpace (b :: r) = Rule.skipSpace r :=
            List.dropWhile_cons_of_pos hb
          rw [hskip] at h
          have hsemicolon : b ≠ Byte.semicolon := Byte.ne_of_class hb rfl
          simp [Octet.holds, hb, ih h, commentOrLineEnd_cons, hsemicolon]
      | false =>
          have hskip : Rule.skipSpace (b :: r) = b :: r :=
            List.dropWhile_cons_of_neg (by simp [hb])
          rw [hskip] at h
          simp [Octet.holds, hb, h]

theorem greedy_commentOrLineEnd (r : Bytes) :
    greedy .space commentOrLineEnd r = Rule.afterColon? r := by
  have hspace : r.dropWhile Octet.space.holds = Rule.skipSpace r := rfl
  cases hr : Rule.skipSpace r with
  | nil =>
      rw [greedy_of_accept (by rw [hspace, hr]; rfl), hspace, Rule.afterColon?, hr]
      rfl
  | cons b t =>
      by_cases hb : b = Byte.semicolon
      · have hread : commentOrLineEnd (b :: t) = some (Line.tail t) := by
          rw [commentOrLineEnd_cons, if_pos hb]
        rw [greedy_of_accept (by rw [hspace, hr, hread]; rfl), hspace, Rule.afterColon?, hr, hread]
        subst hb
        rfl
      · have hstop : Byte.isSpace b = false := by
          have := List.head?_dropWhile_not Byte.isSpace r
          rw [show r.dropWhile Byte.isSpace = b :: t from hr] at this
          simpa using this
        have hreject : commentOrLineEnd (Rule.skipSpace r) = none := by
          have hfeed : b ≠ Byte.lineFeed := (Byte.ne_of_class rfl hstop).symm
          rw [hr, commentOrLineEnd_cons, if_neg hb, if_neg hfeed]
        rw [greedy_lastLineFeed hreject, Rule.afterColon?, hr]
        simp [hb]

theorem reads_afterLabelName : Reads (afterName .label) Rule.afterLabelName? := by
  have hcomment := ((reads_restOfLine.octet (.literal Byte.semicolon)).assoc).group
  have hread : Reads (.seq (.optional (.group (.seq (.octet (.literal Byte.semicolon))
      (.star .any)))) .lineEnd) commentOrLineEnd := hcomment.optional reads_lineEnd
  refine ((hread.star .space).octet _).congr fun r => ?_
  rw [funext greedy_commentOrLineEnd, afterLabelName?_eq]

theorem reads_afterVariableName : Reads (afterName .variable) Rule.afterVariableName? := by
  have hequals : Reads (.seq (.octet (.literal Byte.equals))
      (.seq (.star .space) (.seq (.optional comment) .lineEnd))) Rule.afterEquals? :=
    (reads_optional_comment.space.octet _).congr fun r => (afterEquals?_eq r).symm
  refine (((hequals.octet _).optional hequals).star .space).congr fun r => ?_
  have hspace : r.dropWhile Octet.space.holds = Rule.skipSpace r := rfl
  have hreject : ∀ b t, Octet.space.holds b = true →
      (octetThen (.literal Byte.colon) Rule.afterEquals? (b :: t)).or
        (Rule.afterEquals? (b :: t)) = none := by
    intro b t hb
    rw [octetThen_of_isSpace rfl hb, afterEquals?_eq, octetThen_of_isSpace rfl hb,
      Option.or_none]
  rw [greedy_of_reject hreject, hspace, Rule.afterVariableName?]
  cases Rule.skipSpace r with
  | nil => rfl
  | cons b t =>
      rw [octetThen_literal]
      by_cases hb : b = Byte.colon
      · subst hb
        simp [Rule.afterEquals?, show ¬Byte.colon = Byte.equals by decide]
      · simp [hb]

theorem reads_afterName (kind : Kind) : Reads (afterName kind) (Rule.afterName? kind) :=
  match kind with
  | .function => reads_afterFunctionName
  | .label => reads_afterLabelName
  | .variable => reads_afterVariableName

def RejectsWord (g : Bytes → Option Bytes) : Prop :=
  ∀ b r, Byte.isWord b = true → g (b :: r) = none

theorem rejectsWord_afterName (kind : Kind) : RejectsWord (Rule.afterName? kind) :=
  fun _ _ hb => Rule.afterName?_of_isWord hb

theorem take_length_sub_dropWhile (f : UInt8 → Bool) (t : Bytes) :
    t.take (t.length - (t.dropWhile f).length) = t.takeWhile f := by
  induction t with
  | nil => rfl
  | cons b t ih =>
      cases hb : f b with
      | true =>
          have hle := (List.dropWhile_suffix f (l := t)).length_le
          rw [List.dropWhile_cons_of_pos hb, List.takeWhile_cons_of_pos hb, List.length_cons,
            Nat.succ_sub hle, List.take_succ_cons, ih]
      | false => simp [hb]

def wordThen (g : Bytes → Option Bytes) (t : Bytes) : Option Rule.Match :=
  match t.takeWhile Byte.isWord with
  | [] => none
  | w => (g (t.dropWhile Byte.isWord)).map fun r => ⟨w, r⟩

theorem wordThen_of_not_isWord (hb : Byte.isWord b = false) : wordThen g (b :: r) = none := by
  simp [wordThen, hb]

theorem wordThen_dropWhile_isBlank (g : Bytes → Option Bytes) (t : Bytes) :
    wordThen g (t.dropWhile Byte.isBlank) =
      (Rule.head? t).bind fun m => (g m.rest).map fun r => ⟨m.name, r⟩ := by
  rw [wordThen, Rule.head?]
  cases (t.dropWhile Byte.isBlank).takeWhile Byte.isWord with
  | nil => rfl
  | cons b w => rfl

theorem first?_word (hg : Reads e g) (hword : RejectsWord g) (s : State) :
    (seq (named (plus .word)) e).first? s = wordThen g s.ahead := by
  obtain ⟨behind, ahead, name⟩ := s
  rw [first?_seq, outcomes, outcomes]
  cases ahead with
  | nil => rfl
  | cons b r =>
      cases hb : Byte.isWord b with
      | false => simp [one, Octet.holds, hb, wordThen]
      | true =>
          have hread : ∀ behind t,
              e.first? ⟨behind, t, (b :: r).take ((b :: r).length - t.length)⟩ =
                (g t).map fun u => ⟨(b :: r).take ((b :: r).length - t.length), u⟩ :=
            fun behind t => hg _
          -- behind a part of the word, the next octet of it makes the rest fail
          have hreject : ∀ x t, Octet.word.holds x = true →
              ((g (x :: t)).map fun u =>
                (⟨(b :: r).take ((b :: r).length - (x :: t).length), u⟩ : Rule.Match)) = none := by
            intro x t hx
            rw [hword x t hx, Option.map_none]
          have hdrop : (b :: r).dropWhile Byte.isWord = r.dropWhile Octet.word.holds :=
            List.dropWhile_cons_of_pos hb
          have htake := take_length_sub_dropWhile Byte.isWord (b :: r)
          rw [hdrop, List.takeWhile_cons_of_pos hb] at htake
          simp only [one, Octet.holds, hb, if_true, List.flatMap_cons, List.flatMap_nil,
            List.append_nil, List.findSome?_map]
          rw [findSome?_stars hread .word, greedy_of_reject hreject, wordThen, hdrop,
            List.takeWhile_cons_of_pos hb, htake]

theorem first?_head (hg : Reads e g) (hword : RejectsWord g) (s : State) :
    (seq (star .blank) (seq (named (plus .word)) e)).first? s =
      (Rule.head? s.ahead).bind fun m => (g m.rest).map fun r => ⟨m.name, r⟩ := by
  have hread : ∀ behind t,
      (seq (named (plus .word)) e).first? ⟨behind, t, s.name⟩ = wordThen g t :=
    fun behind t => first?_word hg hword ⟨behind, t, s.name⟩
  have hreject : ∀ b t, Octet.blank.holds b = true → wordThen g (b :: t) = none := by
    intro b t hb
    apply wordThen_of_not_isWord
    cases hw : Byte.isWord b with
    | false => rfl
    | true => exact absurd hb (by simp [Octet.holds, Byte.isBlank_of_isWord hw])
  rw [first?_seq, outcomes, findSome?_stars hread, greedy_of_reject hreject,
    ← wordThen_dropWhile_isBlank]
  rfl

theorem first?_definition (hg : Reads e g) (hword : RejectsWord g) (s : State) :
    (definition e).first? s =
      if s.behind = none ∨ s.behind = some Byte.lineFeed then
        (Rule.head? s.ahead).bind fun m => (g m.rest).map fun r => ⟨m.name, r⟩
      else none := by
  rw [definition, first?_seq, outcomes]
  split
  next => rw [List.findSome?_singleton, first?_head hg hword]
  next => rfl

theorem behind_at_iff {text : Bytes} {p : Nat} (hp : p ≤ text.length) :
    (State.at text p).behind = none ∨ (State.at text p).behind = some Byte.lineFeed ↔
      Line.Start text p := by
  by_cases hzero : p = 0
  · simp [State.at, Line.Start, hzero]
  · have hlt : p - 1 < text.length := by omega
    have hsome : text[p - 1]? ≠ none := by
      rw [List.getElem?_eq_getElem hlt]
      simp
    simp [State.at, Line.Start, hzero, hsome, Nat.pos_of_ne_zero hzero]

theorem foundAt_ofKind_iff (kind : Kind) {text w : Bytes} {p q : Nat} :
    (ofKind kind).FoundAt text p w q ↔ Rule.FoundAt kind text p w q := by
  have hread := first?_definition (reads_afterName kind) (rejectsWord_afterName kind)
    (State.at text p)
  constructor
  · rintro ⟨hp, hq, hfirst⟩
    rw [ofKind, hread] at hfirst
    split at hfirst
    next hstart => exact ⟨(behind_at_iff hp).mp hstart, hq, hfirst⟩
    next => cases hfirst
  · rintro ⟨hstart, hq, hmatch⟩
    have hp := hstart.le_length
    refine ⟨hp, hq, ?_⟩
    rw [ofKind, hread, if_pos ((behind_at_iff hp).mpr hstart)]
    exact hmatch

end Pattern

namespace Scan

variable {kind : Kind} {text : Bytes} {found : List Hit}

theorem scans_ofKind_iff :
    Scans ((Pattern.ofKind kind).Candidate text) ((Pattern.ofKind kind).FoundAt text) 0 found ↔
      found = hits kind text := by
  rw [← scans_iff_eq_hits]
  apply Scans.iff_of_iff
  · intro p
    simp only [Pattern.Candidate, Candidate, Pattern.foundAt_ofKind_iff]
  · intro p w q
    exact Pattern.foundAt_ofKind_iff kind

theorem exists_exact {candidate : Nat → Prop} {step : Nat → Bytes → Nat → Prop}
    (hcandidate : ∀ p, candidate p ↔ ∃ w q, step p w q)
    (hstep : ∀ p w q, step p w q ↔ Rule.FoundAt kind text p w q) (path : String) :
    ∃ found, (∀ other, Scans candidate step 0 other ↔ other = found) ∧
      (∀ other, Scans ((Pattern.ofKind kind).Candidate text)
        ((Pattern.ofKind kind).FoundAt text) 0 other ↔ other = found) ∧
      entries kind path text = found.map (Hit.entry kind (Entry.label path) text) := by
  refine ⟨hits kind text, ?_, fun other => scans_ofKind_iff, entries_eq_map_hits kind path text⟩
  intro other
  rw [← scans_iff_eq_hits]
  apply Scans.iff_of_iff
  · intro p
    simp only [hcandidate, hstep, Candidate]
  · exact hstep

end Scan

end ScriptTags
