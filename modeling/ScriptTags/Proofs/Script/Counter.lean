import ScriptTags.Proofs.Script.Breaks

/-!
Line numbers by stages. A counter that is asked at one offset after another goes over each part of
the text once. It gives the number counted from the start, and one more for each break that it
parts.
-/

namespace ScriptTags.Line

/-- The number of breaks that a scan from the left comes to, each as long as it can be. -/
inductive Counts : Bytes → Nat → Prop
  | done : Counts [] 0
  | both {r : Bytes} {n : Nat} :
      Counts r n → Counts (Byte.carriageReturn :: Byte.lineFeed :: r) (n + 1)
  | carriageReturn {r : Bytes} {n : Nat} :
      r.head? ≠ some Byte.lineFeed → Counts r n → Counts (Byte.carriageReturn :: r) (n + 1)
  | lineFeed {r : Bytes} {n : Nat} : Counts r n → Counts (Byte.lineFeed :: r) (n + 1)
  | other {b : UInt8} {r : Bytes} {n : Nat} :
      isBreak b = false → Counts r n → Counts (b :: r) n

theorem Counts.eq_breaks {s : Bytes} {n : Nat} (h : Counts s n) : n = breaks s := by
  induction h with
  | done => rfl
  | both _ ih => rw [breaks_both, ih]
  | carriageReturn hr _ ih => rw [breaks_carriageReturn hr, ih]
  | lineFeed _ ih => rw [breaks_lineFeed, ih]
  | other hb _ ih => rw [breaks_other hb, ih]

theorem counts_breaks (s : Bytes) : Counts s (breaks s) := by
  match s with
  | [] => exact .done
  | b :: r =>
      by_cases hfeed : b = Byte.lineFeed
      · rw [hfeed, breaks_lineFeed]
        exact .lineFeed (counts_breaks r)
      · by_cases hreturn : b = Byte.carriageReturn
        · rw [hreturn]
          by_cases hr : r.head? = some Byte.lineFeed
          · obtain ⟨t, rfl⟩ := List.head?_eq_some_iff.mp hr
            rw [breaks_both]
            exact .both (counts_breaks t)
          · rw [breaks_carriageReturn hr]
            exact .carriageReturn hr (counts_breaks r)
        · have hb : isBreak b = false := by simp [isBreak, hfeed, hreturn]
          rw [breaks_other hb]
          exact .other hb (counts_breaks r)
termination_by s.length

theorem counts_iff {s : Bytes} {n : Nat} : Counts s n ↔ n = breaks s :=
  ⟨Counts.eq_breaks, fun h => h ▸ counts_breaks s⟩

/-- How many breaks a counter parts: it stands within each before it moves on. -/
def parted (text : Bytes) : Nat → List Nat → Nat
  | _, [] => 0
  | o, p :: ps => (if o < p ∧ WithinBreak text o then 1 else 0) + parted text (max o p) ps

theorem parted_eq_zero {text : Bytes} {o : Nat} {ps : List Nat} (ho : ¬WithinBreak text o)
    (hps : ∀ p ∈ ps, ¬WithinBreak text p) : parted text o ps = 0 := by
  induction ps generalizing o with
  | nil => rfl
  | cons p ps ih =>
      obtain ⟨hp, hps⟩ := List.forall_mem_cons.mp hps
      have hmax : ¬WithinBreak text (max o p) := by
        rcases Nat.le_total o p with hle | hle
        · rwa [Nat.max_eq_right hle]
        · rwa [Nat.max_eq_left hle]
      rw [parted, if_neg fun h => ho h.2, ih hmax hps]

namespace Counter

def advanceAll (text : Bytes) (c : Counter) (ps : List Nat) : Counter :=
  ps.foldl (fun c p => c.advance text p) c

def answers (text : Bytes) : Counter → List Nat → List Nat
  | _, [] => []
  | c, p :: ps => (c.advance text p).line :: answers text (c.advance text p) ps

theorem getElem?_answers {text : Bytes} (c : Counter) (ps : List Nat) {i : Nat}
    (hi : i < ps.length) :
    (answers text c ps)[i]? = some (c.advanceAll text (ps.take (i + 1))).line := by
  induction ps generalizing c i with
  | nil => exact absurd hi (Nat.not_lt_zero i)
  | cons p ps ih =>
      rw [answers]
      cases i with
      | zero => rfl
      | succ i =>
          rw [List.getElem?_cons_succ]
          exact ih (c.advance text p) (Nat.lt_of_succ_lt_succ hi)

theorem line_advanceAll (text : Bytes) (c : Counter) (ps : List Nat) :
    (c.advanceAll text ps).line + breaks (text.take c.offset) =
      c.line + breaks (text.take (ps.foldl max c.offset)) + parted text c.offset ps := by
  -- Both sides carry the count up to where the counter starts, so the steps add up.
  induction ps generalizing c with
  | nil => rfl
  | cons p ps ih =>
      have hstep := c.advance_line text p
      have hrun := ih (c.advance text p)
      rw [c.advance_offset text p] at hrun
      rw [parted, List.foldl_cons]
      simp only [advanceAll, List.foldl_cons] at hrun ⊢
      omega

theorem line_advanceAll_start (text : Bytes) (ps : List Nat) :
    (advanceAll text {} ps).line =
      1 + breaks (text.take (ps.foldl max 0)) + parted text 0 ps := by
  have hrun := line_advanceAll text {} ps
  rwa [List.take_zero] at hrun

example : answers [13, 10] {} [1, 2] = [2, 3] := by decide

end Counter

def Boundary (text : Bytes) (p : Nat) : Prop :=
  p ≤ text.length ∧ ¬WithinBreak text p

instance (text : Bytes) (p : Nat) : Decidable (Boundary text p) :=
  inferInstanceAs (Decidable (_ ∧ _))

theorem counter_counts_to_furthest (text : Bytes) (ps : List Nat)
    (h : ∀ p ∈ ps, Boundary text p) :
    (∀ s n, Counts s n ↔ n = breaks s) ∧
      (∀ a b, breaks (a ++ b) +
          (if a.getLast? = some Byte.carriageReturn ∧ b.head? = some Byte.lineFeed then 1 else 0) =
        breaks a + breaks b) ∧
      ∀ i < ps.length, ∃ n, Counts (text.take ((ps.take (i + 1)).foldl max 0)) n ∧
        (Counter.answers text {} ps)[i]? = some (1 + n) := by
  refine ⟨fun s n => counts_iff, breaks_append, fun i hi => ⟨_, counts_breaks _, ?_⟩⟩
  have hstart : ¬WithinBreak text 0 := fun h => Nat.lt_irrefl 0 h.1
  have hwhole : parted text 0 (ps.take (i + 1)) = 0 :=
    parted_eq_zero hstart fun p hp => (h p (List.mem_of_mem_take hp)).2
  rw [Counter.getElem?_answers {} ps hi, Counter.line_advanceAll_start, hwhole, Nat.add_zero]

theorem counter_keeps_count_when_asked_behind :
    (∀ p ∈ [2, 5, 1, 8, 5], Boundary [97, 13, 13, 10, 10, 98, 13, 99] p) ∧
      ∃ n, Counts [97, 13, 13, 10, 10] n ∧
        (Counter.answers [97, 13, 13, 10, 10, 98, 13, 99] {} [2, 5, 1, 8, 5])[2]? =
          some (1 + n) := by
  have h : ∀ p ∈ [2, 5, 1, 8, 5], Boundary [97, 13, 13, 10, 10, 98, 13, 99] p := by decide
  exact ⟨h, (counter_counts_to_furthest _ _ h).2.2 2 (by decide)⟩

end ScriptTags.Line
