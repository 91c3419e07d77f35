import ScriptTags.Proofs.Script.RulePattern

/-!
The labels of a script. A label is known by its line alone: what the rule reads behind that line
is white space and at most one comment, and no label begins there.
-/

namespace ScriptTags

def Line.feedLine (s : Bytes) : Bytes :=
  s.takeWhile (· != Byte.lineFeed)

theorem Line.feedLine_append_tail (s : Bytes) : Line.feedLine s ++ Line.tail s = s :=
  List.takeWhile_append_dropWhile

namespace Rule

open Bytes

variable {kind : Kind} {text s r w blanks gap t : Bytes} {p o q : Nat}

def LabelRest (line : Bytes) : Prop :=
  ∃ gap tail, line = gap ++ tail ∧ (∀ b ∈ gap, Byte.isSpace b = true ∧ b ≠ Byte.lineFeed) ∧
    (tail = [] ∨ tail.head? = some Byte.semicolon)

def LabelLine (line w : Bytes) : Prop :=
  ∃ blanks rest, line = blanks ++ w ++ Byte.colon :: rest ∧
    (∀ b ∈ blanks, Byte.isBlank b = true) ∧ w ≠ [] ∧ (∀ b ∈ w, Byte.isWord b = true) ∧
    LabelRest rest

theorem labelRest_of_head? {b : UInt8} (hb : s.head? = some b)
    (hend : b = Byte.semicolon ∨ b = Byte.lineFeed) : LabelRest (Line.feedLine s) := by
  obtain ⟨r, rfl⟩ := List.head?_eq_some_iff.mp hb
  refine ⟨[], Line.feedLine (b :: r), rfl, by simp, ?_⟩
  rcases hend with rfl | rfl
  · exact Or.inr rfl
  · exact Or.inl rfl

theorem labelRest_of_gap (hgap : ∀ b ∈ gap, Byte.isSpace b = true)
    (ht : (Pattern.commentOrLineEnd t).isSome = true) : LabelRest (Line.feedLine (gap ++ t)) := by
  -- white space that runs over lines is left at its first line feed
  induction gap with
  | nil =>
      rcases Pattern.isSome_commentOrLineEnd_iff.mp ht with rfl | hsemicolon | hfeed
      · exact ⟨[], [], rfl, by simp, Or.inl rfl⟩
      · exact labelRest_of_head? hsemicolon (Or.inl rfl)
      · exact labelRest_of_head? hfeed (Or.inr rfl)
  | cons b gap ih =>
      by_cases hb : b = Byte.lineFeed
      · exact labelRest_of_head? List.head?_cons (Or.inr hb)
      · have hrest := ih fun x hx => hgap x (List.mem_cons_of_mem b hx)
        obtain ⟨gap', tail, hline, hgap', htail⟩ := hrest
        refine ⟨b :: gap', tail, ?_, ?_, htail⟩
        · rw [List.cons_append, List.cons_append, ← hline]
          exact List.takeWhile_cons_of_pos (by simpa using hb)
        · intro x hx
          rcases List.mem_cons.mp hx with rfl | hx
          · exact ⟨hgap x List.mem_cons_self, hb⟩
          · exact hgap' x hx

theorem isSome_commentOrLineEnd_tail (s : Bytes) :
    (Pattern.commentOrLineEnd (Line.tail s)).isSome = true := by
  rw [Pattern.isSome_commentOrLineEnd_iff]
  cases ht : Line.tail s with
  | nil => exact Or.inl rfl
  | cons b r =>
      have hb := head?_tail (s := s) (by rw [ht, List.head?_cons])
      exact Or.inr (Or.inr (by rw [hb, List.head?_cons]))

theorem isSome_afterColon?_iff :
    (afterColon? s).isSome = true ↔ LabelRest (Line.feedLine s) := by
  rw [← Pattern.greedy_commentOrLineEnd]
  constructor
  · intro h
    obtain ⟨r, hr⟩ := Option.isSome_iff_exists.mp h
    obtain ⟨gap, t, rfl, hgap, ht⟩ := Pattern.exists_of_greedy hr
    exact labelRest_of_gap hgap (Option.isSome_iff_exists.mpr ⟨r, ht⟩)
  · rintro ⟨gap, tail, hline, hgap, htail⟩
    have hspace : ∀ b ∈ gap, Octet.space.holds b = true := fun b hb => (hgap b hb).1
    rw [← Line.feedLine_append_tail s, hline, List.append_assoc]
    apply Pattern.isSome_greedy hspace
    rcases htail with rfl | hsemicolon
    · exact isSome_commentOrLineEnd_tail s
    · exact Pattern.isSome_commentOrLineEnd_iff.mpr
        (Or.inr (Or.inl (by rw [List.head?_append, hsemicolon, Option.some_or])))

theorem feedLine_labelHead (hblanks : ∀ b ∈ blanks, Byte.isBlank b = true)
    (hw : ∀ b ∈ w, Byte.isWord b = true) (s : Bytes) :
    Line.feedLine (blanks ++ w ++ Byte.colon :: s) =
      blanks ++ w ++ Byte.colon :: Line.feedLine s := by
  have hcolon : Line.feedLine (Byte.colon :: s) = Byte.colon :: Line.feedLine s := rfl
  rw [← hcolon]
  apply List.takeWhile_append_of_pos
  intro b hb
  have hne : b ≠ Byte.lineFeed := by
    rcases List.mem_append.mp hb with hb | hb
    · exact Byte.ne_of_class (hblanks b hb) rfl
    · exact Byte.ne_of_class (hw b hb) rfl
  simpa using hne

theorem afterLabelName?_eq_some_iff :
    afterLabelName? t = some r ↔ ∃ u, t = Byte.colon :: u ∧ afterColon? u = some r := by
  cases t with
  | nil => simp [afterLabelName?]
  | cons b u => simp [afterLabelName?, Option.ite_none_right_eq_some]

theorem afterLabelName?_drop_iff :
    afterLabelName? (text.drop o) = some r ↔
      text[o]? = some Byte.colon ∧ afterColon? (text.drop (o + 1)) = some r := by
  rw [Pattern.afterLabelName?_eq, Pattern.octetThen_drop_iff]

theorem exists_match?_label_iff :
    (∃ r, match? .label s = some ⟨w, r⟩) ↔ LabelLine (Line.feedLine s) w := by
  constructor
  · rintro ⟨r, hr⟩
    obtain ⟨t, hhead, hafter⟩ := match?_eq_some_iff.mp hr
    obtain ⟨blanks, rfl, hblanks, hne, hw, -⟩ := exists_of_head? hhead
    obtain ⟨u, rfl, hcolon⟩ := afterLabelName?_eq_some_iff.mp hafter
    exact ⟨blanks, Line.feedLine u, feedLine_labelHead hblanks hw u, hblanks, hne, hw,
      isSome_afterColon?_iff.mp (Option.isSome_iff_exists.mpr ⟨r, hcolon⟩)⟩
  · rintro ⟨blanks, rest, hline, hblanks, hne, hw, hrest⟩
    have hs : s = blanks ++ w ++ Byte.colon :: (rest ++ Line.tail s) := by
      rw [← List.cons_append, ← List.append_assoc, ← hline, Line.feedLine_append_tail]
    have hfeed : Line.feedLine (rest ++ Line.tail s) = rest := by
      have hlines := feedLine_labelHead hblanks hw (rest ++ Line.tail s)
      rw [← hs, hline] at hlines
      exact (List.cons.inj (List.append_cancel_left hlines)).2.symm
    obtain ⟨r, hr⟩ := Option.isSome_iff_exists.mp
      (isSome_afterColon?_iff.mpr (hfeed.symm ▸ hrest))
    have hcolon : ∀ b, (Byte.colon :: (rest ++ Line.tail s)).head? = some b →
        Byte.isWord b = false := by
      intro b hb
      rw [List.head?_cons, Option.some.injEq] at hb
      exact hb ▸ rfl
    have hhead := head?_of_append hblanks hne hw hcolon
    rw [← hs] at hhead
    exact ⟨r, match?_eq_some_iff.mpr ⟨_, hhead, afterLabelName?_eq_some_iff.mpr ⟨_, rfl, hr⟩⟩⟩

theorem exists_foundAt_label_iff :
    (∃ q, FoundAt .label text p w q) ↔
      Line.Start text p ∧ LabelLine (Line.feedLine (text.drop p)) w := by
  constructor
  · rintro ⟨q, hstart, -, hm⟩
    exact ⟨hstart, exists_match?_label_iff.mp ⟨_, hm⟩⟩
  · rintro ⟨hstart, hline⟩
    obtain ⟨r, hr⟩ := exists_match?_label_iff.mpr hline
    have hsuffix : r <:+ text := (match?_rest_suffix hr).trans (List.drop_suffix p text)
    refine ⟨text.length - r.length, hstart, Nat.sub_le _ _, ?_⟩
    rw [← List.suffix_iff_eq_drop.mp hsuffix]
    exact hr

theorem afterColon?_drop (hq : q ≤ text.length)
    (h : afterColon? (text.drop o) = some (text.drop q)) (ho : o ≤ text.length) :
    ∃ e, Spans Byte.isSpace text o e ∧
      (∀ b, text[e]? = some b → b = Byte.semicolon ∨ b = Byte.lineFeed) ∧
      Spans (· != Byte.lineFeed) text e q := by
  rw [← Pattern.greedy_commentOrLineEnd] at h
  obtain ⟨gap, t, happend, hgap, ht⟩ := Pattern.exists_of_greedy h
  obtain ⟨hspans, rfl⟩ := spans_of_drop_eq_append happend hgap
  have hlength := congrArg List.length happend
  rw [List.length_drop, List.length_append] at hlength
  refine ⟨o + gap.length, hspans, fun b hb => ?_, ?_⟩
  · have hhead : (text.drop (o + gap.length)).head? = some b := by rw [List.head?_drop, hb]
    have hsome := Pattern.isSome_commentOrLineEnd_iff.mp (Option.isSome_iff_exists.mpr ⟨_, ht⟩)
    rcases hsome with hnil | hsemicolon | hfeed
    · rw [hnil] at hhead
      cases hhead
    · exact Or.inl (Option.some.inj (hhead.symm.trans hsemicolon))
    · exact Or.inr (Option.some.inj (hhead.symm.trans hfeed))
  · have htail := Pattern.eq_tail_of_commentOrLineEnd ht
    exact ((runsTo_iff (by omega)).mpr ⟨hq, htail.symm⟩).1

theorem not_candidate_of_gap {e : Nat} (hgap : Spans Byte.isSpace text o e)
    (hend : ∀ b, text[e]? = some b → Byte.isBlank b = false ∧ Byte.isWord b = false) (ho : o ≤ p)
    (he : p ≤ e) : ¬Scan.Candidate kind text p := by
  rintro ⟨w, q, hfound⟩
  obtain ⟨i, j, hname, -⟩ := foundAt_iff.mp hfound
  have hpi := hname.blanks.1
  obtain ⟨b, hb, hword⟩ := hname.word.2 i (Nat.le_refl i) hname.nonempty
  rcases Nat.lt_trichotomy i e with hie | rfl | hei
  · obtain ⟨x, hx, hspace⟩ := hgap.2 i (Nat.le_trans ho hpi) hie
    rw [hb, Option.some.injEq] at hx
    subst hx
    rw [Byte.isSpace_of_isWord hword] at hspace
    cases hspace
  · rw [(hend b hb).2] at hword
    cases hword
  · obtain ⟨x, hx, hblank⟩ := hname.blanks.2 e he hei
    rw [(hend x hx).1] at hblank
    cases hblank

theorem not_candidate_of_foundAt_label {p' : Nat} (h : FoundAt .label text p w q) (hp : p < p')
    (hq : p' ≤ q) : ¬Scan.Candidate .label text p' := by
  intro hc
  obtain ⟨w', q', hstart, -⟩ := id hc
  obtain ⟨i, j, hname, -, hql, hafter⟩ := foundAt_iff.mp h
  obtain ⟨hget, hcolon⟩ := afterLabelName?_drop_iff.mp hafter
  obtain ⟨hjl, -⟩ := List.getElem?_eq_some_iff.mp hget
  obtain ⟨e, hgap, hend, hrest⟩ := afterColon?_drop hql hcolon hjl
  have hother : ∀ b, text[e]? = some b → Byte.isBlank b = false ∧ Byte.isWord b = false := by
    intro b hb
    rcases hend b hb with rfl | rfl
    · exact ⟨rfl, rfl⟩
    · exact ⟨rfl, rfl⟩
  rcases Nat.lt_or_ge i p' with hip | hpi
  · rcases Nat.lt_or_ge j p' with hjp | hpj
    · rcases Nat.lt_or_ge e p' with hep | hpe
      · exact absurd (hstart.not_spans hep hq hrest) (by decide)
      · exact not_candidate_of_gap hgap hother hjp hpe hc
    · exact absurd (hstart.not_spans hip hpj hname.word) (by decide)
  · exact absurd (hstart.not_spans hp hpi hname.blanks) (by decide)

end Rule

namespace Scan

theorem label_entries_line_local (path : String) (text : Bytes) :
    ∃ found,
      entries .label path text = found.map (Hit.entry .label (Entry.label path) text) ∧
      found.Pairwise (fun g h => g.start < h.start) ∧
      (∀ p w, (∃ h ∈ found, h.start = p ∧ h.name = w) ↔
        Line.Start text p ∧ Rule.LabelLine (Line.feedLine (text.drop p)) w) ∧
      (∀ other, Scans ((Pattern.ofKind .label).Candidate text)
        ((Pattern.ofKind .label).FoundAt text) 0 other ↔ other = found) ∧
      ∀ h ∈ found, ∀ p w, h.start < p → p ≤ h.stop → Line.Start text p →
        ¬Rule.LabelLine (Line.feedLine (text.drop p)) w := by
  have hscan : Scans (Candidate .label text) (Rule.FoundAt .label text) 0 (hits .label text) :=
    scans_iff_eq_hits.mpr rfl
  refine ⟨hits .label text, entries_eq_map_hits .label path text, ?_, ?_,
    fun other => scans_ofKind_iff, ?_⟩
  · exact pairwise_hits.imp_of_mem fun hg _ hlt => (foundAt_of_mem_hits hg).lt.trans_le hlt
  · intro p w
    rw [← Rule.exists_foundAt_label_iff]
    constructor
    · rintro ⟨h, hh, rfl, rfl⟩
      exact ⟨h.stop, foundAt_of_mem_hits hh⟩
    · rintro ⟨q, hq⟩
      obtain ⟨h, hh, rfl⟩ := hscan.complete
        (fun p w q hstep p' hp hpq => Rule.not_candidate_of_foundAt_label hstep hp hpq.le) p
        (Nat.zero_le p) ⟨w, q, hq⟩
      exact ⟨h, hh, rfl, ((foundAt_of_mem_hits hh).unique hq).1⟩
  · intro h hh p w hp hpq hstart hline
    obtain ⟨q, hq⟩ := Rule.exists_foundAt_label_iff.mpr ⟨hstart, hline⟩
    exact Rule.not_candidate_of_foundAt_label (foundAt_of_mem_hits hh) hp hpq ⟨w, q, hq⟩

end Scan

end ScriptTags
