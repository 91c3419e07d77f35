import ScriptTags.Proofs.Script.RulePattern

namespace ScriptTags

theorem Line.eq_of_breaks_take_eq {text : Bytes} {p q : Nat} (hp : Line.Start text p)
    (hq : Line.Start text q)
    (h : Line.breaks (text.take p) = Line.breaks (text.take q)) : p = q := by
  rcases Nat.lt_trichotomy p q with hlt | heq | hlt
  · exact absurd h (Nat.ne_of_lt (Line.breaks_take_lt hp hq hlt))
  · exact heq
  · exact absurd h (Nat.ne_of_gt (Line.breaks_take_lt hq hp hlt))

namespace Rule

variable {kind kind' : Kind} {s r r' : Bytes} {m m' : Match}

def announced? : Bytes → Option Kind
  | [] => none
  | b :: r =>
      if b = Byte.openParen then some .function
      else if b = Byte.colon ∧ r.head? ≠ some Byte.equals then some .label
      else some .variable

theorem afterColon?_equals (u : Bytes) : afterColon? (Byte.equals :: u) = none := rfl

theorem head?_of_afterEquals? (h : afterEquals? s = some r) : s.head? = some Byte.equals := by
  cases s with
  | nil => cases h
  | cons b s =>
      rw [afterEquals?, Option.ite_none_right_eq_some] at h
      rw [List.head?_cons, h.1]

theorem announced?_of_afterName? (h : afterName? kind s = some r) :
    announced? s = some kind := by
  match kind, s with
  | .function, [] => cases h
  | .label, [] => cases h
  | .variable, [] => cases h
  | .function, b :: s =>
      rw [afterName?, afterFunctionName?, Option.ite_none_right_eq_some] at h
      rw [announced?, if_pos h.1]
  | .label, b :: s =>
      rw [afterName?, afterLabelName?, Option.ite_none_right_eq_some] at h
      obtain ⟨rfl, hcolon⟩ := h
      have hequals : s.head? ≠ some Byte.equals := by
        intro hs
        obtain ⟨u, rfl⟩ := List.head?_eq_some_iff.mp hs
        rw [afterColon?_equals] at hcolon
        cases hcolon
      rw [announced?, if_neg (by decide), if_pos ⟨rfl, hequals⟩]
  | .variable, b :: s =>
      have hparen : b ≠ Byte.openParen := by
        rintro rfl
        cases h
      have hcolon : ¬(b = Byte.colon ∧ s.head? ≠ some Byte.equals) := by
        rintro ⟨rfl, hequals⟩
        exact hequals (head?_of_afterEquals? h)
      rw [announced?, if_neg hparen, if_neg hcolon]

theorem kind_eq_of_match? (h : match? kind s = some m) (h' : match? kind' s = some m') :
    kind = kind' := by
  obtain ⟨t, hhead, hafter⟩ := match?_eq_some_iff.mp h
  obtain ⟨t', hhead', hafter'⟩ := match?_eq_some_iff.mp h'
  rw [hhead, Option.some.injEq, Match.mk.injEq] at hhead'
  obtain ⟨-, rfl⟩ := hhead'
  have hkind := announced?_of_afterName? hafter
  rw [announced?_of_afterName? hafter', Option.some.injEq] at hkind
  exact hkind.symm

end Rule

namespace Scan

open Line Rule

variable {kind kind' : Kind} {text : Bytes} {p : Nat}

theorem kind_eq_of_candidate (h : Candidate kind text p) (h' : Candidate kind' text p) :
    kind = kind' := by
  obtain ⟨w, q, -, -, hmatch⟩ := h
  obtain ⟨w', q', -, -, hmatch'⟩ := h'
  exact kind_eq_of_match? hmatch hmatch'

theorem candidate_ofKind_iff :
    (Pattern.ofKind kind).Candidate text p ↔ Candidate kind text p := by
  simp only [Pattern.Candidate, Candidate, Pattern.foundAt_ofKind_iff]

theorem exists_candidate_of_mem_entries {path : String} {x : Entry}
    (hx : x ∈ entries kind path text) :
    ∃ p, Candidate kind text p ∧ Start text p ∧ x.line = 1 + breaks (text.take p) := by
  rw [entries_eq_map_hits] at hx
  obtain ⟨h, hh, rfl⟩ := List.mem_map.mp hx
  have hfound := foundAt_of_mem_hits hh
  exact ⟨h.start, ⟨_, _, hfound⟩, hfound.1, rfl⟩

theorem pairwise_line_entries (kind : Kind) (path : String) (text : Bytes) :
    (entries kind path text).Pairwise fun x y => x.line ≠ y.line := by
  rw [entries_eq_map_hits, List.pairwise_map]
  refine pairwise_hits.imp_of_mem fun hg hh hle heq => ?_
  have hfg := foundAt_of_mem_hits hg
  have hfh := foundAt_of_mem_hits hh
  have hstart := eq_of_breaks_take_eq hfg.1 hfh.1 (Nat.add_left_cancel heq)
  have hlt := hfg.lt
  omega

theorem line_ne_of_kind_ne {path : String} {x y : Entry} (hkind : kind ≠ kind')
    (hx : x ∈ entries kind path text) (hy : y ∈ entries kind' path text) : x.line ≠ y.line := by
  intro hline
  obtain ⟨p, hp, hstart, hxline⟩ := exists_candidate_of_mem_entries hx
  obtain ⟨q, hq, hstart', hyline⟩ := exists_candidate_of_mem_entries hy
  rw [hxline, hyline] at hline
  obtain rfl := eq_of_breaks_take_eq hstart hstart' (Nat.add_left_cancel hline)
  exact hkind (kind_eq_of_candidate hp hq)

theorem extract_tags_no_line_twice (path : String) (text : Bytes) {kinds : List Kind}
    (hkinds : kinds.Nodup) :
    ((extract path text kinds).map Entry.line).Nodup ∧
      ∀ kind kind' p, (Pattern.ofKind kind).Candidate text p →
        (Pattern.ofKind kind').Candidate text p → kind = kind' := by
  constructor
  · rw [List.Nodup, List.pairwise_map, extract, List.pairwise_flatMap]
    refine ⟨fun kind _ => pairwise_line_entries kind path text, ?_⟩
    exact hkinds.imp fun hkind x hx y hy => line_ne_of_kind_ne hkind hx hy
  · intro kind kind' p h h'
    exact kind_eq_of_candidate (candidate_ofKind_iff.mp h) (candidate_ofKind_iff.mp h')

theorem extract_tags_three_lines :
    [Kind.variable, .label, .function].Nodup ∧
      ((extract "s.ahk" [97, 58, 61, 10, 98, 58, 13, 10, 99, 40, 41, 10, 123]
        [.variable, .label, .function]).map Entry.line).Nodup ∧
      (extract "s.ahk" [97, 58, 61, 10, 98, 58, 13, 10, 99, 40, 41, 10, 123]
        [.variable, .label, .function]).map Entry.line = [1, 2, 3] :=
  ⟨by decide, (extract_tags_no_line_twice "s.ahk"
    [97, 58, 61, 10, 98, 58, 13, 10, 99, 40, 41, 10, 123] (by decide)).1, by decide +kernel⟩

end Scan

end ScriptTags
