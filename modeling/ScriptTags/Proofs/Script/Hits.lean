import ScriptTags.Script.Scan
import ScriptTags.Proofs.Script.Definition
import Mathlib.Order.Bounds.Basic

/-!
The search for definitions by offsets. A scan takes the least candidate and goes on where its rule
stops; the search over lines makes this scan, and the cursor gives its hits one by one, each with
the number and the text of the line where it begins.
-/

namespace ScriptTags.Scan

open Line Rule

structure Hit where
  start : Nat
  name : Bytes
  stop : Nat
deriving DecidableEq, Repr

/-- The outcome of a scan that steps from the least candidate to the offset where it goes on. -/
inductive Scans (candidate : Nat → Prop) (step : Nat → Bytes → Nat → Prop) :
    Nat → List Hit → Prop
  | done {pos : Nat} : (∀ p, pos ≤ p → ¬candidate p) → Scans candidate step pos []
  | hit {pos p q : Nat} {w : Bytes} {rest : List Hit} :
      IsLeast {p | pos ≤ p ∧ candidate p} p → step p w q → Scans candidate step q rest →
      Scans candidate step pos (⟨p, w, q⟩ :: rest)

def occurrences (kind : Kind) (s : Bytes) : List Occurrence :=
  match _h : find? kind s with
  | none => []
  | some o => o :: occurrences kind (Line.next o.rest)
termination_by s.length
decreasing_by exact length_next_rest_lt _h

def Occurrence.hit (text : Bytes) (o : Occurrence) : Hit :=
  ⟨text.length - o.here.length, o.name, text.length - o.rest.length⟩

def hits (kind : Kind) (text : Bytes) : List Hit :=
  (occurrences kind text).map (Occurrence.hit text)

def Hit.entry (kind : Kind) (file : String) (text : Bytes) (h : Hit) : Entry where
  name := Bytes.toAscii h.name
  file := file
  address := Address.ofLine (Line.first (text.drop h.start))
  kind := kind
  line := 1 + Line.breaks (text.take h.start)

def Candidate (kind : Kind) (text : Bytes) (p : Nat) : Prop :=
  ∃ w q, FoundAt kind text p w q

section Relation

variable {candidate : Nat → Prop} {step : Nat → Bytes → Nat → Prop} {pos p q : Nat} {w : Bytes}
  {found rest : List Hit}

theorem Scans.eq_nil_iff (h : ∀ p, pos ≤ p → ¬candidate p) :
    Scans candidate step pos found ↔ found = [] := by
  constructor
  · intro hs
    cases hs with
    | done _ => rfl
    | hit hleast _ _ => exact absurd hleast.1.2 (h _ hleast.1.1)
  · rintro rfl
    exact .done h

theorem Scans.eq_cons_iff (hleast : IsLeast {p | pos ≤ p ∧ candidate p} p) (hstep : step p w q)
    (hunique : ∀ w' q', step p w' q' → w' = w ∧ q' = q) :
    Scans candidate step pos found ↔
      ∃ rest, found = ⟨p, w, q⟩ :: rest ∧ Scans candidate step q rest := by
  constructor
  · intro hs
    cases hs with
    | done hnone => exact absurd hleast.1.2 (hnone p hleast.1.1)
    | @hit _ p' q' w' rest hleast' hstep' hrest =>
        have hp : p' = p := hleast'.unique hleast
        subst hp
        obtain ⟨rfl, rfl⟩ := hunique w' q' hstep'
        exact ⟨rest, rfl, hrest⟩
  · rintro ⟨rest, rfl, hrest⟩
    exact .hit hleast hstep hrest

theorem Scans.iff_of_iff {candidate' : Nat → Prop} {step' : Nat → Bytes → Nat → Prop}
    (hc : ∀ p, candidate p ↔ candidate' p) (hs : ∀ p w q, step p w q ↔ step' p w q) :
    Scans candidate step pos found ↔ Scans candidate' step' pos found := by
  have hcandidate : candidate = candidate' := funext fun p => propext (hc p)
  have hstep : step = step' := funext fun p => funext fun w => funext fun q => propext (hs p w q)
  rw [hcandidate, hstep]

theorem Scans.mem (h : Scans candidate step pos found) :
    ∀ x ∈ found, candidate x.start ∧ step x.start x.name x.stop := by
  induction h with
  | done _ => simp
  | hit hleast hstep _ ih =>
      intro x hx
      rcases List.mem_cons.mp hx with rfl | hx
      · exact ⟨hleast.1.2, hstep⟩
      · exact ih x hx

theorem Scans.le_start (h : Scans candidate step pos found)
    (hlt : ∀ p w q, step p w q → p < q) : ∀ x ∈ found, pos ≤ x.start := by
  induction h with
  | done _ => simp
  | hit hleast hstep _ ih =>
      intro x hx
      rcases List.mem_cons.mp hx with rfl | hx
      · exact hleast.1.1
      · have hpq := hlt _ _ _ hstep
        have hq := ih x hx
        have hp := hleast.1.1
        omega

theorem Scans.pairwise (h : Scans candidate step pos found)
    (hlt : ∀ p w q, step p w q → p < q) :
    found.Pairwise fun x y => x.stop ≤ y.start := by
  induction h with
  | done _ => exact .nil
  | hit _ _ hrest ih => exact .cons (fun x hx => hrest.le_start hlt x hx) ih

theorem Scans.mem_or_inside (h : Scans candidate step pos found) :
    ∀ p, pos ≤ p → candidate p →
      (∃ x ∈ found, x.start = p) ∨ ∃ x ∈ found, x.start < p ∧ p < x.stop := by
  induction h with
  | done hnone =>
      intro p hp hc
      exact absurd hc (hnone p hp)
  | @hit pos p₀ q w rest hleast hstep hrest ih =>
      intro p hp hc
      rcases Nat.eq_or_lt_of_le (hleast.2 ⟨hp, hc⟩) with rfl | hlt
      · exact Or.inl ⟨_, List.mem_cons_self, rfl⟩
      · rcases Nat.lt_or_ge p q with hpq | hqp
        · exact Or.inr ⟨_, List.mem_cons_self, hlt, hpq⟩
        · rcases ih p hqp hc with ⟨x, hx, hxp⟩ | ⟨x, hx, hxp⟩
          · exact Or.inl ⟨x, List.mem_cons_of_mem _ hx, hxp⟩
          · exact Or.inr ⟨x, List.mem_cons_of_mem _ hx, hxp⟩

theorem Scans.complete (h : Scans candidate step pos found)
    (hgap : ∀ p w q, step p w q → ∀ p', p < p' → p' < q → ¬candidate p') :
    ∀ p, pos ≤ p → candidate p → ∃ x ∈ found, x.start = p := by
  intro p hp hc
  rcases h.mem_or_inside p hp hc with hstart | ⟨x, hx, hlt, hstop⟩
  · exact hstart
  · exact absurd hc (hgap _ _ _ (h.mem x hx).2 p hlt hstop)

theorem Scans.stop_le_start (h : Scans candidate step pos found)
    (hlt : ∀ p w q, step p w q → p < q) {x y : Hit} (hx : x ∈ found) (hy : y ∈ found)
    (hxy : x.start < y.start) : x.stop ≤ y.start := by
  induction h with
  | done _ => cases hx
  | @hit pos p q w rest hleast hstep hrest ih =>
      have hpq := hlt p w q hstep
      rcases List.mem_cons.mp hx with rfl | hx
      · rcases List.mem_cons.mp hy with rfl | hy
        · exact absurd hxy (Nat.lt_irrefl _)
        · exact hrest.le_start hlt y hy
      · rcases List.mem_cons.mp hy with rfl | hy
        · have hqx := hrest.le_start hlt x hx
          have hxp : x.start < p := hxy
          omega
        · exact ih hx hy

end Relation

variable {kind : Kind} {text s t : Bytes} {n p q : Nat} {w : Bytes} {o : Occurrence}

theorem find?_nil : find? kind [] = none := by
  rw [find?, dif_pos rfl]

theorem find?_of_match?_eq_none (hs : s ≠ []) (h : match? kind s = none) :
    find? kind s = find? kind (Line.next s) := by
  rw [find?, dif_neg hs, h]

theorem find?_of_match?_eq_some {m : Match} (h : match? kind s = some m) :
    find? kind s = some ⟨s, m.name, m.rest⟩ := by
  have hs : s ≠ [] := by
    rintro rfl
    rw [match?_nil] at h
    cases h
  rw [find?, dif_neg hs, h]

theorem not_candidate_length : ¬Candidate kind text text.length := by
  rintro ⟨w, q, -, -, hm⟩
  rw [List.drop_length, match?_nil] at hm
  simp at hm

theorem not_candidate_lineFeed (h : text[p]? = some Byte.lineFeed) : ¬Candidate kind text p := by
  rintro ⟨w, q, -, -, hm⟩
  rw [Bytes.getElem?_eq_some_iff_drop.mp h, match?_lineFeed] at hm
  cases hm

theorem Candidate.le_length (h : Candidate kind text p) : p ≤ text.length := by
  obtain ⟨w, q, hstart, -⟩ := h
  exact hstart.le_length

theorem exists_next (hn : n < text.length) :
    ∃ m, n < m ∧ m ≤ text.length ∧ Line.next (text.drop n) = text.drop m ∧
      (Start text m ∨ m = text.length) ∧ ∀ p, n < p → p < m → ¬Start text p := by
  obtain ⟨i, hspan, hle, hend⟩ := Bytes.exists_runsTo (· != Byte.lineFeed) hn.le
  have htail : Line.tail (text.drop n) = text.drop i := hspan.dropWhile_eq hend
  have hgap : ∀ p, n < p → p ≤ i → ¬Start text p := by
    rintro p hnp hpi (rfl | ⟨-, hp⟩)
    · omega
    · obtain ⟨b, hb, hne⟩ := hspan.2 (p - 1) (by omega) (by omega)
      rw [hp, Option.some.injEq] at hb
      simp [← hb] at hne
  have hni := hspan.1
  by_cases hi : i = text.length
  · refine ⟨i, by omega, hle, ?_, Or.inr hi, fun p hnp hpi => hgap p hnp (by omega)⟩
    rw [Line.next, htail, hi, List.drop_length, List.drop_nil]
  · have hb : text[i]? = some text[i] := List.getElem?_eq_getElem (by omega)
    have hfeed : text[i] = Byte.lineFeed := by simpa using hend _ hb
    refine ⟨i + 1, by omega, by omega, ?_, Or.inl (start_succ (hfeed ▸ hb)), fun p hnp hpi =>
      hgap p hnp (by omega)⟩
    rw [Line.next, htail, List.drop_drop]

theorem lt_length_of_drop_ne_nil (h : text.drop n ≠ []) : n < text.length := by
  by_contra hge
  exact h (List.drop_eq_nil_of_le (Nat.not_lt.mp hge))

theorem exists_next_of_match? (hn : n < text.length) (h : match? kind (text.drop n) = none) :
    ∃ m, n < m ∧ m ≤ text.length ∧ Line.next (text.drop n) = text.drop m ∧
      (Start text m ∨ m = text.length) ∧ ∀ p, n ≤ p → p < m → ¬Candidate kind text p := by
  obtain ⟨m, hnm, hml, hnext, hm, hgap⟩ := exists_next hn
  refine ⟨m, hnm, hml, hnext, hm, ?_⟩
  rintro p hnp hpm ⟨w, q, hstart, -, hfound⟩
  rcases Nat.eq_or_lt_of_le hnp with rfl | hlt
  · rw [h] at hfound
    simp at hfound
  · exact hgap p hlt hpm hstart

theorem not_candidate_of_find? (h : find? kind (text.drop n) = none) :
    ∀ p, n ≤ p → ¬Candidate kind text p := by
  induction hs : text.drop n using find?.induct kind generalizing n with
  | case1 =>
      intro p hp hc
      have hnl := List.drop_eq_nil_iff.mp hs
      have hpl := hc.le_length
      have hpn : p = text.length := by omega
      exact not_candidate_length (hpn ▸ hc)
  | case2 s hne m hm =>
      rw [hs, find?_of_match?_eq_some hm] at h
      cases h
  | case3 s hne hm ih =>
      rw [hs, find?_of_match?_eq_none hne hm] at h
      have hlt : n < text.length := lt_length_of_drop_ne_nil (hs ▸ hne)
      obtain ⟨m, -, -, hnext, -, hgap⟩ := exists_next_of_match? hlt (hs ▸ hm)
      rw [hs] at hnext
      intro p hp
      rcases Nat.lt_or_ge p m with hpm | hmp
      · exact hgap p hp hpm
      · exact ih (hnext ▸ h) hnext.symm p hmp

theorem foundAt_of_find? (hstart : Start text n ∨ n = text.length)
    (h : find? kind (text.drop n) = some o) :
    ∃ p q, o.hit text = ⟨p, o.name, q⟩ ∧ o.here = text.drop p ∧ o.rest = text.drop q ∧ n ≤ p ∧
      (∀ p', n ≤ p' → p' < p → ¬Candidate kind text p') ∧ FoundAt kind text p o.name q := by
  induction hs : text.drop n using find?.induct kind generalizing n with
  | case1 =>
      rw [hs, find?_nil] at h
      cases h
  | case2 s hne m hm =>
      rw [hs, find?_of_match?_eq_some hm, Option.some.injEq] at h
      subst h
      have hline : Start text n := by
        rcases hstart with hstart | rfl
        · exact hstart
        · exact absurd (hs ▸ List.drop_length) hne
      have hsuffix : m.rest <:+ text :=
        (match?_rest_suffix hm).trans (hs ▸ List.drop_suffix n text)
      have hrest := List.suffix_iff_eq_drop.mp hsuffix
      have hhere : text.length - s.length = n := by
        have hnl := hline.le_length
        rw [← hs, List.length_drop]
        omega
      refine ⟨n, text.length - m.rest.length, by rw [Occurrence.hit, hhere], hs.symm, hrest,
        Nat.le_refl n, fun p hp hpn => by omega, hline, Nat.sub_le _ _, ?_⟩
      rw [hs, hm, ← hrest]
  | case3 s hne hm ih =>
      rw [hs, find?_of_match?_eq_none hne hm] at h
      have hlt : n < text.length := lt_length_of_drop_ne_nil (hs ▸ hne)
      obtain ⟨m, hnm, -, hnext, hline, hgap⟩ := exists_next_of_match? hlt (hs ▸ hm)
      rw [hs] at hnext
      obtain ⟨p, q, hhit, hhere, hrest, hmp, hleast, hfound⟩ := ih hline (hnext ▸ h) hnext.symm
      refine ⟨p, q, hhit, hhere, hrest, by omega, fun p' hnp hp' => ?_, hfound⟩
      rcases Nat.lt_or_ge p' m with hpm | hmp
      · exact hgap p' hnp hpm
      · exact hleast p' hmp hp'

theorem exists_next_of_foundAt (h : FoundAt kind text p w q) :
    ∃ m, q ≤ m ∧ m ≤ text.length ∧ Line.next (text.drop q) = text.drop m ∧
      (Start text m ∨ m = text.length) ∧ ∀ p', q ≤ p' → p' < m → ¬Candidate kind text p' := by
  rcases h.stop with rfl | hfeed
  · exact ⟨text.length, Nat.le_refl _, Nat.le_refl _, by rw [List.drop_length]; rfl, Or.inr rfl,
      fun p' hp hp' => by omega⟩
  · have hnone : match? kind (text.drop q) = none := by
      rw [Bytes.getElem?_eq_some_iff_drop.mp hfeed, match?_lineFeed]
    obtain ⟨hlt, -⟩ := List.getElem?_eq_some_iff.mp hfeed
    obtain ⟨m, hqm, hrest⟩ := exists_next_of_match? hlt hnone
    exact ⟨m, hqm.le, hrest⟩

theorem occurrences_of_none (h : find? kind s = none) : occurrences kind s = [] := by
  rw [occurrences, h]

theorem occurrences_of_some (h : find? kind s = some o) :
    occurrences kind s = o :: occurrences kind (Line.next o.rest) := by
  rw [occurrences, h]

theorem occurrences_congr (h : find? kind s = find? kind t) :
    occurrences kind s = occurrences kind t := by
  cases ht : find? kind t with
  | none => rw [occurrences_of_none ht, occurrences_of_none (h.trans ht)]
  | some o => rw [occurrences_of_some ht, occurrences_of_some (h.trans ht)]

theorem match?_of_mem_occurrences (ho : o ∈ occurrences kind s) :
    o.here <:+ s ∧ match? kind o.here = some ⟨o.name, o.rest⟩ := by
  induction s using occurrences.induct kind with
  | case1 s hnone =>
      rw [occurrences_of_none hnone] at ho
      cases ho
  | case2 s x hsome ih =>
      rw [occurrences_of_some hsome] at ho
      have hmatch := (find?_match hsome).1
      rcases List.mem_cons.mp ho with rfl | ho
      · exact ⟨find?_here_suffix hsome, hmatch⟩
      · obtain ⟨hsuffix, ho⟩ := ih ho
        have hrest : x.rest <:+ s := (match?_rest_suffix hmatch).trans (find?_here_suffix hsome)
        exact ⟨hsuffix.trans ((next_suffix x.rest).trans hrest), ho⟩

theorem scans_iff_eq_map_hit {pos : Nat} {found : List Hit}
    (hstart : Start text n ∨ n = text.length) (hpos : pos ≤ n)
    (hgap : ∀ p, pos ≤ p → p < n → ¬Candidate kind text p) :
    Scans (Candidate kind text) (FoundAt kind text) pos found ↔
      found = (occurrences kind (text.drop n)).map (Occurrence.hit text) := by
  -- the scan may stand before `n`: it comes to the same, as no candidate is between
  induction hs : text.drop n using occurrences.induct kind generalizing n pos found with
  | case1 s hnone =>
      rw [occurrences_of_none hnone]
      apply Scans.eq_nil_iff
      intro p hp
      rcases Nat.lt_or_ge p n with hpn | hnp
      · exact hgap p hp hpn
      · exact not_candidate_of_find? (hs ▸ hnone) p hnp
  | case2 s o hsome ih =>
      obtain ⟨p, q, hhit, -, hrest, hnp, hbefore, hfound⟩ := foundAt_of_find? hstart (hs ▸ hsome)
      have hleast : IsLeast {p | pos ≤ p ∧ Candidate kind text p} p := by
        refine ⟨⟨by omega, _, _, hfound⟩, ?_⟩
        rintro p' ⟨hpos', hc⟩
        by_contra hlt
        rcases Nat.lt_or_ge p' n with hpn | hnp'
        · exact hgap p' hpos' hpn hc
        · exact hbefore p' hnp' (Nat.not_le.mp hlt) hc
      obtain ⟨m, hqm, -, hnext, hline, hgap'⟩ := exists_next_of_foundAt hfound
      rw [← hrest] at hnext
      rw [Scans.eq_cons_iff hleast hfound fun _ _ h => h.unique hfound,
        occurrences_of_some hsome, List.map_cons, hhit]
      constructor
      · rintro ⟨rest, rfl, hrest⟩
        rw [(ih hline hqm hgap' hnext.symm).mp hrest]
      · rintro rfl
        exact ⟨_, rfl, (ih hline hqm hgap' hnext.symm).mpr rfl⟩

theorem scans_iff_eq_hits {found : List Hit} :
    Scans (Candidate kind text) (FoundAt kind text) 0 found ↔ found = hits kind text :=
  scans_iff_eq_map_hit (Or.inl (Or.inl rfl)) (Nat.le_refl 0) fun p _ hp =>
    absurd hp (Nat.not_lt_zero p)

theorem foundAt_of_mem_hits {h : Hit} (hh : h ∈ hits kind text) :
    FoundAt kind text h.start h.name h.stop :=
  ((scans_iff_eq_hits.mpr rfl).mem h hh).2

theorem pairwise_hits : (hits kind text).Pairwise fun g h => g.stop ≤ h.start :=
  (scans_iff_eq_hits.mpr rfl).pairwise fun _ _ _ h => h.lt

theorem first_span (h : match? kind o.here = some ⟨o.name, o.rest⟩) :
    Line.first o.span = Line.first o.here := by
  have hrest : o.rest <:+ o.here := match?_rest_suffix h
  have hsplit : o.span ++ o.rest = o.here := by
    have hcut := List.take_append_drop (o.here.length - o.rest.length) o.here
    rwa [← List.suffix_iff_eq_drop.mp hrest] at hcut
  have hbreak : ∀ b, o.rest.head? = some b → isBreak b = true := by
    intro b hb
    rw [head?_match? h hb]
    rfl
  rw [← hsplit, first_append hbreak]

/-- A cursor whose next line starts at `n` and whose count is that of a line start before it. -/
structure Cursor.Synced (c : Cursor) (n : Nat) : Prop where
  ahead : c.ahead = c.text.drop n
  line : Start c.text n ∨ n = c.text.length
  counted : Start c.text c.counter.offset
  behind : c.counter.offset ≤ n
  count : c.counter.line = 1 + Line.breaks (c.text.take c.counter.offset)

theorem Cursor.synced_start (kind : Kind) (path : String) (text : Bytes) :
    (Cursor.start kind path text).Synced 0 :=
  ⟨rfl, Or.inl (Or.inl rfl), Or.inl rfl, Nat.le_refl 0, rfl⟩

theorem Cursor.Synced.next?_eq {c : Cursor} (h : c.Synced n) (ho : find? c.kind c.ahead = some o) :
    ∃ c' m, c'.Synced m ∧ c'.kind = c.kind ∧ c'.file = c.file ∧ c'.text = c.text ∧
      c'.ahead = Line.next o.rest ∧
      c.next? = some ((o.hit c.text).entry c.kind c.file c.text, c') := by
  obtain ⟨p, q, hhit, hhere, hrest, hnp, -, hfound⟩ := foundAt_of_find? h.line (h.ahead ▸ ho)
  obtain ⟨m, hqm, -, hnext, hline, -⟩ := exists_next_of_foundAt hfound
  have hp : c.text.length - o.here.length = p := congrArg Hit.start hhit
  have hadvance := Counter.advance_eq h.counted.not_withinBreak (Nat.le_trans h.behind hnp) h.count
  rw [← hrest] at hnext
  refine ⟨{ c with ahead := Line.next o.rest, counter := ⟨p, 1 + breaks (c.text.take p)⟩ }, m,
    ⟨hnext, hline, hfound.1, ?_, rfl⟩, rfl, rfl, rfl, rfl, ?_⟩
  · exact Nat.le_trans hfound.lt.le hqm
  · simp only [Cursor.next?, ho, hhit, Hit.entry, first_span (find?_match ho).1]
    rw [hp, hadvance, hhere]

theorem Cursor.toList_eq {c : Cursor} (h : c.Synced n) :
    c.toList =
      ((occurrences c.kind c.ahead).map (Occurrence.hit c.text)).map
        (Hit.entry c.kind c.file c.text) := by
  induction c using Cursor.toList.induct generalizing n with
  | case1 c hnone =>
      cases ho : find? c.kind c.ahead with
      | none => rw [Cursor.toList, hnone, occurrences_of_none ho, List.map_nil, List.map_nil]
      | some o =>
          obtain ⟨c', m, -, -, -, -, -, hnext⟩ := h.next?_eq ho
          rw [hnone] at hnext
          simp at hnext
  | case2 c e c' hsome ih =>
      cases ho : find? c.kind c.ahead with
      | none =>
          rw [Cursor.next?, ho] at hsome
          simp at hsome
      | some o =>
          obtain ⟨c'', m, hsynced, hkind, hfile, htext, hahead, hnext⟩ := h.next?_eq ho
          rw [hsome, Option.some.injEq, Prod.mk.injEq] at hnext
          obtain ⟨rfl, rfl⟩ := hnext
          rw [Cursor.toList, hsome, occurrences_of_some ho, List.map_cons, List.map_cons]
          simp only
          rw [ih hsynced, hkind, hfile, htext, hahead]

theorem entries_eq_map_hits (kind : Kind) (path : String) (text : Bytes) :
    entries kind path text = (hits kind text).map (Hit.entry kind (Entry.label path) text) :=
  Cursor.toList_eq (Cursor.synced_start kind path text)

/-- The line is counted back from the end of a text with the given number of breaks. -/
def Occurrence.entry (kind : Kind) (file : String) (total : Nat) (o : Occurrence) : Entry where
  name := Bytes.toAscii o.name
  file := file
  address := Address.ofLine (Line.first o.here)
  kind := kind
  line := 1 + total - Line.breaks o.here

theorem Occurrence.entry_hit {file : String} (hsuffix : o.here <:+ text)
    (hstart : Start text (o.hit text).start) :
    (o.hit text).entry kind file text = o.entry kind file (breaks text) := by
  have hhere : text.drop (o.hit text).start = o.here := (List.suffix_iff_eq_drop.mp hsuffix).symm
  have hcount := breaks_append_of_whole hstart.whole_take (text.drop (o.hit text).start)
  rw [List.take_append_drop, hhere] at hcount
  have hline : 1 + breaks (text.take (o.hit text).start) = 1 + breaks text - breaks o.here := by
    omega
  rw [Hit.entry, Occurrence.entry, hhere, hline]
  rfl

theorem entries_eq_map_occurrences (kind : Kind) (path : String) (text : Bytes) :
    entries kind path text =
      (occurrences kind text).map (Occurrence.entry kind (Entry.label path) (breaks text)) := by
  rw [entries_eq_map_hits, hits, List.map_map]
  apply List.map_congr_left
  intro o ho
  have hstart : Start text (o.hit text).start :=
    (foundAt_of_mem_hits (List.mem_map_of_mem ho)).1
  exact Occurrence.entry_hit (match?_of_mem_occurrences ho).1 hstart

end ScriptTags.Scan
