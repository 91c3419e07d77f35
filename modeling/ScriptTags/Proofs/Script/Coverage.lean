import ScriptTags.Proofs.Script.Function
import ScriptTags.Proofs.Script.Label
import ScriptTags.Proofs.Script.Variable

/-!
Which lines are tagged. A line that defines a function or a variable on its own gets its tag, but
for one case: it is the first line with text behind a tagged definition that ends in its brace or
its equals sign.
-/

namespace ScriptTags

namespace Bytes

variable {c : UInt8 → Bool} {row text : Bytes} {i j p : Nat} {b : UInt8}

theorem getElem?_of_prefix_drop (h : row <+: text.drop p) (hb : row[i]? = some b) :
    text[p + i]? = some b := by
  obtain ⟨hi, -⟩ := List.getElem?_eq_some_iff.mp hb
  obtain ⟨rest, hrest⟩ := h
  rw [← List.getElem?_drop, ← hrest, List.getElem?_append_left hi, hb]

theorem Spans.of_prefix_drop (h : row <+: text.drop p) (hspans : Spans c row i j) :
    Spans c text (p + i) (p + j) := by
  refine ⟨Nat.add_le_add_left hspans.1 p, fun k hik hkj => ?_⟩
  obtain ⟨b, hb, hc⟩ := hspans.2 (k - p) (by omega) (by omega)
  have hk : p + (k - p) = k := by omega
  exact ⟨b, hk ▸ getElem?_of_prefix_drop h hb, hc⟩

theorem Spans.upTo {k : Nat} (hspans : Spans c text i j) (hik : i ≤ k) (hkj : k ≤ j) :
    Spans c text i k :=
  ⟨hik, fun n hin hnk => hspans.2 n hin (Nat.lt_of_lt_of_le hnk hkj)⟩

theorem Spans.le_of_runsTo {e : Nat} (hspans : Spans c text i j) (hruns : RunsTo c text i e) :
    j ≤ e := by
  by_contra hlt
  obtain ⟨b, hb, hc⟩ := hspans.2 e hruns.1.1 (Nat.not_le.mp hlt)
  rw [hruns.2.2 b hb] at hc
  cases hc

end Bytes

namespace Rule

open Bytes

variable {kind kind' : Kind} {row text w : Bytes} {p p' i j m q : Nat}

/-- From the end of a name at `j`, the brace or the equals sign is right before `m`. -/
def Opens : Kind → Bytes → Nat → Nat → Prop
  | .function => OpensBody
  | .label => fun _ _ _ => False
  | .variable => Assigns

/-- Behind the brace or the equals sign of the definition at `p`, there is only white space up
to `p'`. -/
def Swallows (kind : Kind) (text : Bytes) (p p' : Nat) : Prop :=
  ∃ i j m, NameAt text p i j ∧ Opens kind text j m ∧ Spans Byte.isSpace text m p'

theorem Opens.lt (h : Opens kind text j m) : j < m := by
  match kind with
  | .function =>
      obtain ⟨c, b, -, ⟨hcloses, -⟩, rfl⟩ := h
      have hline := hcloses.line.1
      have hspace := hcloses.space.1
      omega
  | .label => cases h
  | .variable =>
      cases h with
      | equals hspace _ => exact Nat.lt_succ_of_le hspace.1
      | colonEquals hspace _ _ => exact Nat.lt_succ_of_le (Nat.le_succ_of_le hspace.1)

theorem Opens.le_length (h : Opens kind text j m) : m ≤ text.length := by
  match kind with
  | .function => exact OpensBody.le_length h
  | .label => cases h
  | .variable => exact Assigns.le_length h

theorem not_candidate_of_gap_to {e o : Nat} {sign : UInt8} (hgap : Spans Byte.isSpace text o e)
    (hsign : text[e]? = some sign) (hother : Byte.isBlank sign = false ∧ Byte.isWord sign = false)
    (ho : o ≤ p) (he : p ≤ e) : ¬Scan.Candidate kind text p := by
  refine not_candidate_of_gap hgap (fun b hb => ?_) ho he
  rw [hsign, Option.some.injEq] at hb
  exact hb ▸ hother

theorem OpensBody.le_of_candidate (h : OpensBody text j m) (hj : j < p)
    (hc : Scan.Candidate kind text p) : m ≤ p := by
  obtain ⟨c, b, hparen, ⟨hcloses, -⟩, rfl⟩ := h
  obtain ⟨w, q, hstart, -⟩ := id hc
  have hline : Spans (· != Byte.lineFeed) text j c := hcloses.line.cons hparen rfl
  by_contra hb
  rcases Nat.lt_or_ge c p with hcp | hpc
  · exact not_candidate_of_gap_to hcloses.space hcloses.brace ⟨rfl, rfl⟩ hcp (by omega) hc
  · exact absurd (hstart.not_spans hj hpc hline) (by decide)

theorem Assigns.le_of_candidate (h : Assigns text j m) (hj : j < p)
    (hc : Scan.Candidate kind text p) : m ≤ p := by
  by_contra hm
  cases h with
  | @equals k hspace hequals =>
      exact not_candidate_of_gap_to hspace hequals ⟨rfl, rfl⟩ hj.le (by omega) hc
  | @colonEquals k hspace hcolon hequals =>
      rcases Nat.lt_or_ge k p with hkp | hpk
      · exact not_candidate_of_gap_to (Spans.refl _ text (k + 1)) hequals ⟨rfl, rfl⟩ hkp
          (by omega) hc
      · exact not_candidate_of_gap_to hspace hcolon ⟨rfl, rfl⟩ hj.le hpk hc

theorem Opens.le_of_candidate (h : Opens kind text j m) (hj : j < p)
    (hc : Scan.Candidate kind' text p) : m ≤ p := by
  match kind with
  | .function => exact OpensBody.le_of_candidate h hj hc
  | .label => cases h
  | .variable => exact Assigns.le_of_candidate h hj hc

theorem foundAt_iff_opens (hkind : kind ≠ .label) :
    FoundAt kind text p w q ↔
      ∃ i j m, NameAt text p i j ∧ w = slice text i j ∧ Opens kind text j m ∧ Resumes text m q := by
  match kind with
  | .function => exact functionStep_iff.symm
  | .label => exact absurd rfl hkind
  | .variable => exact variableStep_iff.symm

theorem swallows_of_inside (hkind : kind ≠ .label) (h : FoundAt kind text p w q) (hp : p < p')
    (hq : p' ≤ q) (hc : Scan.Candidate kind' text p') : Swallows kind text p p' := by
  obtain ⟨i, j, m, hname, -, hopens, e, hspace, hrest⟩ := (foundAt_iff_opens hkind).mp h
  obtain ⟨w', q', hstart, -⟩ := id hc
  have hi : i < p' := by
    by_contra hle
    exact absurd (hstart.not_spans hp (Nat.not_lt.mp hle) hname.blanks) (by decide)
  have hj : j < p' := by
    by_contra hle
    exact absurd (hstart.not_spans hi (Nat.not_lt.mp hle) hname.word) (by decide)
  have he : p' ≤ e := by
    by_contra hlt
    exact absurd (hstart.not_spans (Nat.not_le.mp hlt) hq hrest.1) (by decide)
  exact ⟨i, j, m, hname, hopens, hspace.1.upTo (hopens.le_of_candidate hj hc) he⟩

theorem Swallows.lt_and_le (hkind : kind ≠ .label) (h : FoundAt kind text p w q)
    (hs : Swallows kind text p p') : p < p' ∧ p' ≤ q := by
  obtain ⟨i, j, m, hname, hopens, hspace⟩ := hs
  obtain ⟨q', hresumes⟩ := exists_resumes hopens.le_length
  have hfound : FoundAt kind text p (slice text i j) q' :=
    (foundAt_iff_opens hkind).mpr ⟨i, j, m, hname, rfl, hopens, hresumes⟩
  obtain ⟨-, rfl⟩ := h.unique hfound
  obtain ⟨e, he, hrest⟩ := hresumes
  have hpi := hname.blanks.1
  have hij := hname.nonempty
  have hjm := hopens.lt
  have hmp := hspace.1
  exact ⟨by omega, (hspace.le_of_runsTo he).trans hrest.1.1⟩

theorem NameAt.of_prefix_drop (hline : row <+: text.drop p) (hstart : Line.Start text p)
    (h : NameAt row 0 i j) : NameAt text p (p + i) (p + j) where
  start := hstart
  blanks := h.blanks.of_prefix_drop hline
  word := h.word.of_prefix_drop hline
  nonempty := Nat.add_lt_add_left h.nonempty p

theorem Closes.of_prefix_drop {o c b : Nat} (hline : row <+: text.drop p)
    (h : Closes row o c b) : Closes text (p + o) (p + c) (p + b) where
  line := h.line.of_prefix_drop hline
  paren := getElem?_of_prefix_drop hline h.paren
  space := h.space.of_prefix_drop hline
  brace := getElem?_of_prefix_drop hline h.brace

theorem Assigns.of_prefix_drop (hline : row <+: text.drop p) (h : Assigns row j m) :
    Assigns text (p + j) (p + m) := by
  cases h with
  | equals hspace hequals =>
      exact .equals (hspace.of_prefix_drop hline) (getElem?_of_prefix_drop hline hequals)
  | @colonEquals k hspace hcolon hequals =>
      exact .colonEquals (hspace.of_prefix_drop hline) (getElem?_of_prefix_drop hline hcolon)
        (getElem?_of_prefix_drop (i := k + 1) hline hequals)

theorem FunctionCandidate.of_prefix_drop (hline : row <+: text.drop p)
    (hstart : Line.Start text p) (h : FunctionCandidate row 0) : FunctionCandidate text p := by
  obtain ⟨i, j, c, b, hname, hparen, hcloses⟩ := h
  have hrest : Closes text (p + (j + 1)) (p + c) (p + b) := hcloses.of_prefix_drop hline
  exact ⟨_, _, _, _, hname.of_prefix_drop hline hstart, getElem?_of_prefix_drop hline hparen,
    hrest⟩

theorem VariableCandidate.of_prefix_drop (hline : row <+: text.drop p)
    (hstart : Line.Start text p) (h : VariableCandidate row 0) : VariableCandidate text p := by
  obtain ⟨i, j, m, hname, hassigns⟩ := h
  exact ⟨_, _, _, hname.of_prefix_drop hline hstart, hassigns.of_prefix_drop hline⟩

end Rule

namespace Scan

open Line Rule Bytes

variable {kind : Kind} {row text : Bytes} {p : Nat}

theorem functionCandidate_iff_candidate :
    FunctionCandidate text p ↔ Candidate .function text p := by
  simp only [functionCandidate_iff, functionStep_iff, Candidate]

theorem variableCandidate_iff_candidate :
    VariableCandidate text p ↔ Candidate .variable text p := by
  simp only [variableCandidate_iff, variableStep_iff, Candidate]

theorem candidate_of_prefix_drop (hkind : kind ≠ .label) (hline : row <+: text.drop p)
    (hstart : Start text p) (h : Candidate kind row 0) : Candidate kind text p := by
  match kind with
  | .function =>
      rw [← functionCandidate_iff_candidate] at h ⊢
      exact h.of_prefix_drop hline hstart
  | .label => exact absurd rfl hkind
  | .variable =>
      rw [← variableCandidate_iff_candidate] at h ⊢
      exact h.of_prefix_drop hline hstart

theorem start_feedLine (h : Start (feedLine text) p) : p = 0 := by
  rcases h with rfl | ⟨-, hfeed⟩
  · rfl
  · have hmem : Byte.lineFeed ∈ text.takeWhile (· != Byte.lineFeed) :=
      List.mem_of_getElem? hfeed
    exact absurd (List.mem_takeWhile_imp hmem) (by decide)

theorem candidate_of_entries_feedLine {path : String} (hkind : kind ≠ .label)
    (hstart : Start text p) (h : entries kind path (feedLine (text.drop p)) ≠ []) :
    Candidate kind text p := by
  rw [entries_eq_map_hits, ne_eq, List.map_eq_nil_iff] at h
  obtain ⟨x, hx⟩ := List.exists_mem_of_ne_nil _ h
  have hfound := foundAt_of_mem_hits hx
  rw [start_feedLine hfound.1] at hfound
  exact candidate_of_prefix_drop hkind (List.takeWhile_prefix _) hstart ⟨_, _, hfound⟩

theorem not_candidate_stop {kind' : Kind} {w : Bytes} {q : Nat} (h : FoundAt kind text p w q) :
    ¬Candidate kind' text q := by
  rcases h.stop with rfl | hfeed
  · exact not_candidate_length
  · exact not_candidate_lineFeed hfeed

theorem mem_hits_iff_not_swallowed (hkind : kind ≠ .label) (hc : Candidate kind text p) :
    (∃ x ∈ hits kind text, x.start = p) ↔
      ¬∃ x ∈ hits kind text, Swallows kind text x.start p := by
  have hscan : Scans (Candidate kind text) (FoundAt kind text) 0 (hits kind text) :=
    scans_iff_eq_hits.mpr rfl
  constructor
  · rintro ⟨y, hy, rfl⟩ ⟨x, hx, hswallows⟩
    have hfound := foundAt_of_mem_hits hx
    obtain ⟨hlt, hle⟩ := hswallows.lt_and_le hkind hfound
    have hstop := hscan.stop_le_start (fun _ _ _ h => h.lt) hx hy hlt
    exact not_candidate_stop hfound (Nat.le_antisymm hle hstop ▸ hc)
  · intro hnone
    rcases hscan.mem_or_inside p (Nat.zero_le p) hc with hmem | ⟨x, hx, hlt, hstop⟩
    · exact hmem
    · exact absurd ⟨x, hx, swallows_of_inside hkind (foundAt_of_mem_hits hx) hlt hstop.le hc⟩ hnone

theorem line_tagged_iff_not_swallowed (path : String) (text : Bytes) {kind : Kind}
    (hkind : kind ≠ .label) :
    ∃ found, entries kind path text = found.map (Hit.entry kind (Entry.label path) text) ∧
      (∀ other, Scans ((Pattern.ofKind kind).Candidate text)
        ((Pattern.ofKind kind).FoundAt text) 0 other ↔ other = found) ∧
      ∀ p, Line.Start text p → entries kind path (Line.feedLine (text.drop p)) ≠ [] →
        ((∃ x ∈ found, x.start = p) ↔ ¬∃ x ∈ found, Rule.Swallows kind text x.start p) := by
  refine ⟨hits kind text, entries_eq_map_hits kind path text, fun other => scans_ofKind_iff, ?_⟩
  intro p hstart hline
  exact mem_hits_iff_not_swallowed hkind (candidate_of_entries_feedLine hkind hstart hline)

theorem second_line_tagged_iff_not_swallowed :
    Kind.variable ≠ .label ∧ Line.Start [97, 32, 61, 10, 98, 32, 61, 32, 49] 4 ∧
      entries .variable "s.ahk" (Line.feedLine ([97, 32, 61, 10, 98, 32, 61, 32, 49].drop 4)) =
        [⟨"b", "s.ahk", "/^b = 1$/", .variable, 1⟩] ∧
      ∃ found : List Hit, entries .variable "s.ahk" [97, 32, 61, 10, 98, 32, 61, 32, 49] =
          found.map (Hit.entry .variable (Entry.label "s.ahk")
            [97, 32, 61, 10, 98, 32, 61, 32, 49]) ∧
        ((∃ x ∈ found, x.start = 4) ↔
          ¬∃ x ∈ found, Rule.Swallows .variable [97, 32, 61, 10, 98, 32, 61, 32, 49] x.start 4) := by
  have hkind : Kind.variable ≠ .label := by decide
  have hstart : Line.Start [97, 32, 61, 10, 98, 32, 61, 32, 49] 4 := Or.inr ⟨by decide, rfl⟩
  have hline : entries .variable "s.ahk"
      (Line.feedLine ([97, 32, 61, 10, 98, 32, 61, 32, 49].drop 4)) =
        [⟨"b", "s.ahk", "/^b = 1$/", .variable, 1⟩] := by decide +kernel
  obtain ⟨found, hentries, -, hlines⟩ :=
    line_tagged_iff_not_swallowed "s.ahk" [97, 32, 61, 10, 98, 32, 61, 32, 49] hkind
  exact ⟨hkind, hstart, hline, found, hentries, hlines 4 hstart (by rw [hline]; simp)⟩

theorem not_every_line_tagged :
    ¬∀ (kind : Kind) (path : String) (text : Bytes) (p : Nat), kind ≠ .label →
      Line.Start text p → entries kind path (Line.feedLine (text.drop p)) ≠ [] →
        ∃ x ∈ entries kind path text, x.line = 1 + Line.breaks (text.take p) := by
  intro h
  have hstart : Line.Start [97, 32, 61, 10, 98, 32, 61, 32, 49] 4 := Or.inr ⟨by decide, rfl⟩
  obtain ⟨x, hx, hline⟩ :=
    h .variable "s.ahk" [97, 32, 61, 10, 98, 32, 61, 32, 49] 4 (by decide) hstart
      (by decide +kernel)
  have hall : entries .variable "s.ahk" [97, 32, 61, 10, 98, 32, 61, 32, 49] =
      [⟨"a", "s.ahk", "/^a =$/", .variable, 1⟩] := by decide +kernel
  rw [hall, List.mem_singleton] at hx
  subst hx
  exact absurd hline (by decide)

end Scan

end ScriptTags
