import ScriptTags.Proofs.Script.Alike
import ScriptTags.Proofs.Script.Hits
import Mathlib.Data.List.DropRight
import Mathlib.Data.List.Forall2

namespace ScriptTags

open Line Rule

variable {e s t r r' : Bytes} {kind : Kind}

theorem Bytes.getLast?_of_suffix (h : r <:+ s) (hr : r ≠ []) : r.getLast? = s.getLast? := by
  obtain ⟨front, rfl⟩ := h
  rw [List.getLast?_append, List.getLast?_eq_some_getLast hr, Option.some_or]

theorem Line.next_tail (s : Bytes) : Line.next (Line.tail s) = Line.next s := by
  rw [Line.next, Line.next, Line.tail, Line.tail, List.dropWhile_idempotent]

def behind (e : Bytes) : Bytes :=
  Line.next (skipSpace e)

namespace Scan

/-- At line starts: texts that read alike, or the end of the one and in the other what is found
behind its comment line. -/
def Continues (kind : Kind) (e s t : Bytes) : Prop :=
  Alike e s t ∨ s = [] ∧ find? kind t = find? kind (behind e)

theorem find?_drop_one (he : Closing e) : find? kind (e.drop 1) = find? kind (behind e) := by
  rcases he with rfl | ⟨u, rfl⟩
  · rfl
  · exact find?_of_match?_eq_none (List.cons_ne_nil _ u) rfl

theorem find?_closing (he : Closing e) : find? kind e = find? kind (behind e) := by
  rw [← find?_drop_one he]
  rcases he with rfl | ⟨u, rfl⟩
  · rfl
  · exact find?_of_match?_eq_none (List.cons_ne_nil _ _) match?_lineFeed

theorem continues_drop_one (h : Alike e s t) (he : Closing e)
    (ht : ∀ b, t.head? = some b → b = Byte.lineFeed) : Continues kind e (s.drop 1) (t.drop 1) := by
  cases h with
  | nil => exact Or.inr ⟨rfl, find?_drop_one he⟩
  | cons _ h => exact Or.inl h
  | feed _ => exact absurd (ht _ rfl) (by decide)

theorem continues_next (h : Alike e s t) (he : Closing e) :
    Continues kind e (Line.next s) (Line.next t) :=
  continues_drop_one (h.tail he) he fun _ => head?_tail

theorem continues_next_of_leaves (h : Leaves e r r') (he : Closing e) :
    Continues kind e (Line.next r) (Line.next r') := by
  rcases h with h | ⟨rfl, rfl⟩
  · exact continues_next h he
  · rw [next_tail]
    exact Or.inr ⟨rfl, rfl⟩

def Matches (e : Bytes) (o o' : Occurrence) : Prop :=
  o.name = o'.name ∧ Alike e o.here o'.here ∧ Leaves e o.rest o'.rest

theorem Continues.find? (h : Continues kind e s t) (he : Closing e) :
    find? kind s = none ∧ find? kind t = find? kind (behind e) ∨
      ∃ o o', find? kind s = some o ∧ find? kind t = some o' ∧ Matches e o o' := by
  -- line by line; where the first text ends, the search of the second is at the comment line
  induction s using find?.induct kind generalizing t with
  | case1 =>
      rcases h with h | ⟨-, h⟩
      · rw [h.eq_of_nil]
        exact Or.inl ⟨find?_nil, find?_closing he⟩
      · exact Or.inl ⟨find?_nil, h⟩
  | case2 s hne m hm =>
      obtain h | ⟨rfl, -⟩ := h
      · obtain ⟨m', ht, hname, hrest⟩ := exists_of_rel (hm ▸ h.rel_match? he kind)
        exact Or.inr ⟨_, _, find?_of_match?_eq_some hm, find?_of_match?_eq_some ht, hname, h, hrest⟩
      · exact absurd rfl hne
  | case3 s hne hm ih =>
      obtain h | ⟨rfl, -⟩ := h
      · have ht : match? kind t = none := eq_none_of_rel (hm ▸ h.rel_match? he kind)
        have hnil : t ≠ [] := by
          rintro rfl
          cases h
          exact hne rfl
        rw [find?_of_match?_eq_none hne hm, find?_of_match?_eq_none hnil ht]
        exact ih (continues_next h he)
      · exact absurd rfl hne

theorem Continues.occurrences (h : Continues kind e s t) (he : Closing e) :
    ∃ found, occurrences kind t = found ++ occurrences kind (behind e) ∧
      List.Forall₂ (Matches e) (occurrences kind s) found := by
  induction s using occurrences.induct kind generalizing t with
  | case1 s hnone =>
      rcases h.find? he with ⟨-, ht⟩ | ⟨o, o', hs, -⟩
      · rw [occurrences_of_none hnone]
        exact ⟨[], occurrences_congr ht, .nil⟩
      · rw [hnone] at hs
        cases hs
  | case2 s o hsome ih =>
      rcases h.find? he with ⟨hs, -⟩ | ⟨x, x', hs, ht, hmatch⟩
      · rw [hsome] at hs
        cases hs
      · rw [hsome, Option.some.injEq] at hs
        subst hs
        obtain ⟨found, hfound, hrel⟩ := ih (continues_next_of_leaves hmatch.2.2 he)
        rw [occurrences_of_some hsome, occurrences_of_some ht, hfound]
        exact ⟨x' :: found, rfl, .cons hmatch hrel⟩

theorem Matches.entry_eq {o o' : Occurrence} {file : String} (hmatch : Matches e o o')
    (h : Alike e s t) (he : Closing e) (hsuffix : o.here <:+ s) (hne : o.here ≠ []) :
    o.entry kind file (breaks s) = o'.entry kind file (breaks t) := by
  obtain ⟨hname, hhere, -⟩ := hmatch
  have htext := h.breaks_add
  have hrest := hhere.breaks_add
  rw [Bytes.getLast?_of_suffix hsuffix hne] at hrest
  have hline : 1 + breaks s - breaks o.here = 1 + breaks t - breaks o'.here := by omega
  rw [Occurrence.entry, Occurrence.entry, hname, hhere.first_eq he, hline]

theorem entries_of_alike (h : Alike e s t) (he : Closing e) (kind : Kind) (path : String) :
    entries kind path t = entries kind path s ++
      (occurrences kind (behind e)).map (Occurrence.entry kind (Entry.label path) (breaks t)) := by
  have hcontinues : Continues kind e s t := Or.inl h
  obtain ⟨found, hfound, hrel⟩ := hcontinues.occurrences he
  have hplace : ∀ o ∈ occurrences kind s, o.here <:+ s ∧ o.here ≠ [] := by
    intro o ho
    obtain ⟨hsuffix, hfind⟩ := match?_of_mem_occurrences ho
    refine ⟨hsuffix, fun hnil => ?_⟩
    rw [hnil, match?_nil] at hfind
    cases hfind
  rw [entries_eq_map_occurrences, entries_eq_map_occurrences, hfound, List.map_append]
  congr 1
  symm
  rw [← List.forall₂_eq_eq_eq, List.forall₂_map_left_iff, List.forall₂_map_right_iff]
  refine ((List.forall₂_and_left _ _).mpr ⟨hplace, hrel⟩).imp ?_
  rintro o o' ⟨⟨hsuffix, hne⟩, hmatch⟩
  exact hmatch.entry_eq h he hsuffix hne

end Scan

end ScriptTags
