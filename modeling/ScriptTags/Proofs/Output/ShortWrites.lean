import ScriptTags.Run.Generate

namespace ScriptTags.Sink

def fitting (s : Sink) (text : Bytes) : Nat :=
  atMost s.room text.length

def holding (s : Sink) (text : Bytes) : Sink :=
  { s with written := s.written ++ text }

def filling (s : Sink) (text : Bytes) (last : Sink → Except SystemError Unit × Sink) :
    Except SystemError Unit × Sink :=
  if s.fitting text = text.length then last (s.holding text)
  else (.error (s.whenFull.getD .writeZero), s.holding (text.take (s.fitting text)))

/-- What a call that prints a text comes to. What fits is in the sink; if all of it does, the call
ends as one flush of the sink that holds it, and if not, it fails and flushes nothing. -/
structure Fills (s : Sink) (text : Bytes) (result : Except SystemError Unit × Sink) : Prop where
  written : result.2.written = s.written ++ text.take (s.fitting text)
  short : s.fitting text < text.length →
    result.1 = .error (s.whenFull.getD .writeZero) ∧ result.2.flushes = s.flushes
  whole : s.fitting text = text.length →
    result = (s.holding text).flush ∧ result.2.flushes = s.flushes + 1 ∧
      (result.1 = .ok () ↔ s.whenFlushed = none)

variable {s : Sink} {bound : Option Nat} {n : Nat} {text part rest : Bytes}
  {last last' : Sink → Except SystemError Unit × Sink}

theorem atMost_le (bound : Option Nat) (n : Nat) : atMost bound n ≤ n := by
  cases bound with
  | none => exact Nat.le_refl n
  | some m => exact Nat.min_le_right m n

theorem atMost_pos (hbound : bound ≠ some 0) (hn : 0 < n) : 0 < atMost bound n := by
  cases bound with
  | none => exact hn
  | some m =>
      have hm : m ≠ 0 := fun h => hbound (congrArg some h)
      exact Nat.lt_min.mpr ⟨Nat.pos_of_ne_zero hm, hn⟩

theorem fitting_le (s : Sink) (text : Bytes) : s.fitting text ≤ text.length :=
  atMost_le s.room text.length

@[simp]
theorem holding_nil (s : Sink) : s.holding [] = s := by
  rw [holding, List.append_nil]

@[simp]
theorem holding_holding (s : Sink) (text rest : Bytes) :
    (s.holding text).holding rest = s.holding (text ++ rest) := by
  simp only [holding, List.append_assoc]

theorem fitting_holding (s : Sink) (part rest : Bytes) :
    (s.holding part).fitting rest = s.fitting (part ++ rest) - part.length := by
  simp only [fitting, room, holding, List.length_append]
  cases s.limit with
  | none => simp [atMost]
  | some m =>
      simp only [Option.map_some, atMost]
      omega

theorem fitting_eq_min (s : Sink) (part rest : Bytes) :
    s.fitting part = min (s.fitting (part ++ rest)) part.length := by
  simp only [fitting, List.length_append]
  cases s.room with
  | none => simp [atMost]
  | some m =>
      simp only [atMost]
      omega

theorem filling_nil (s : Sink) (last : Sink → Except SystemError Unit × Sink) :
    s.filling [] last = last s := by
  have hfitting : s.fitting [] = ([] : Bytes).length := Nat.le_zero.mp (s.fitting_le [])
  rw [filling, if_pos hfitting, holding_nil]

theorem filling_append (h : part.length ≤ s.fitting (part ++ rest)) :
    s.filling (part ++ rest) last = (s.holding part).filling rest last := by
  have hfits : s.fitting (part ++ rest) = (part ++ rest).length ↔
      s.fitting (part ++ rest) - part.length = rest.length := by
    rw [List.length_append]
    omega
  simp only [filling, hfits, fitting_holding, holding_holding]
  rw [List.take_append, List.take_of_length_le h]
  rfl

theorem filling_append_of_short (h : s.fitting part < part.length) :
    s.filling (part ++ rest) last = s.filling part last' := by
  have hmin := s.fitting_eq_min part rest
  have hfitting : s.fitting (part ++ rest) = s.fitting part := by omega
  rw [filling, filling, hfitting, if_neg (Nat.ne_of_lt h), List.length_append,
    if_neg (by omega), List.take_append_of_le_length (Nat.le_of_lt h)]

theorem attempt_of_full (h : s.room = some 0) (text : Bytes) :
    s.attempt text = (s.whenFull.elim (.ok 0) .error, s) := by
  rw [attempt, if_pos h]
  cases s.whenFull <;> rfl

theorem attempt_of_room (h : s.room ≠ some 0) (text : Bytes) :
    s.attempt text =
      (.ok (atMost s.chunk (s.fitting text)),
        s.holding (text.take (atMost s.chunk (s.fitting text)))) := by
  rw [attempt, if_neg h]
  rfl

theorem write_nil (s : Sink) : s.write [] = (.ok (), s) := by
  rw [write, dif_pos rfl]

theorem write_of_full (h : s.room = some 0) (htext : text ≠ []) :
    s.write text = (.error (s.whenFull.getD .writeZero), s) := by
  rw [write, dif_neg htext, attempt_of_full h]
  cases s.whenFull <;> rfl

theorem exists_write_step (hchunk : s.chunk ≠ some 0) (hroom : s.room ≠ some 0)
    (htext : text ≠ []) :
    ∃ part rest, text = part ++ rest ∧ part ≠ [] ∧ part.length ≤ s.fitting text ∧
      s.write text = (s.holding part).write rest := by
  have hfitting : 0 < s.fitting text := atMost_pos hroom (List.length_pos_iff.mpr htext)
  have hn : 0 < atMost s.chunk (s.fitting text) := atMost_pos hchunk hfitting
  have hle : atMost s.chunk (s.fitting text) ≤ s.fitting text := atMost_le _ _
  have hattempt := attempt_of_room hroom text
  generalize atMost s.chunk (s.fitting text) = n at hn hle hattempt
  obtain ⟨n, rfl⟩ := Nat.exists_eq_add_one.mpr hn
  refine ⟨text.take (n + 1), text.drop (n + 1), (List.take_append_drop _ _).symm, ?_, ?_, ?_⟩
  · simp [htext]
  · exact Nat.le_trans (List.length_take_le _ _) hle
  · rw [write, dif_neg htext, hattempt]

theorem write_eq_filling (hchunk : s.chunk ≠ some 0) (text : Bytes) :
    s.write text = s.filling text fun s' => (.ok (), s') := by
  -- by the length of what is left of the text
  induction hlength : text.length using Nat.strongRecOn generalizing s text with
  | ind length ih =>
      by_cases htext : text = []
      · subst htext
        rw [write_nil, filling_nil]
      · by_cases hroom : s.room = some 0
        · have hfitting : s.fitting text = 0 := by
            rw [fitting, hroom, atMost, Nat.zero_min]
          have hpos := List.length_pos_iff.mpr htext
          rw [write_of_full hroom htext, filling, hfitting, if_neg (by omega), List.take_zero,
            holding_nil]
        · obtain ⟨part, rest, rfl, hpart, hfits, hwrite⟩ := exists_write_step hchunk hroom htext
          have hpos := List.length_pos_iff.mpr hpart
          rw [List.length_append] at hlength
          rw [hwrite, filling_append hfits]
          exact ih rest.length (by omega) (s := s.holding part) hchunk rest rfl

theorem emit_eq_filling (hchunk : s.chunk ≠ some 0) (texts : List Bytes) :
    s.emit texts = s.filling texts.flatten flush := by
  induction texts generalizing s with
  | nil => rw [emit, List.flatten_nil, filling_nil]
  | cons text rest ih =>
      have hmin := s.fitting_eq_min text rest.flatten
      have hle := s.fitting_le text
      rw [emit, write_eq_filling hchunk, List.flatten_cons]
      by_cases hfits : s.fitting text = text.length
      · rw [filling, if_pos hfits, filling_append (by omega)]
        exact ih (s := s.holding text) hchunk
      · rw [filling_append_of_short (by omega), filling, if_neg hfits]

theorem flush_eq (s : Sink) :
    s.flush = (s.whenFlushed.elim (.ok ()) .error, { s with flushes := s.flushes + 1 }) := by
  rw [flush]
  cases s.whenFlushed <;> rfl

theorem fills_filling_flush (s : Sink) (text : Bytes) : s.Fills text (s.filling text flush) := by
  have hle := s.fitting_le text
  by_cases hfits : s.fitting text = text.length
  · have hended : s.filling text flush = (s.holding text).flush := if_pos hfits
    rw [hended, flush_eq]
    refine ⟨?_, fun h => by omega, fun _ => ⟨(flush_eq _).symm, rfl, ?_⟩⟩
    · rw [hfits, List.take_length]
      rfl
    · cases hflushed : s.whenFlushed <;> simp [holding, hflushed]
  · rw [filling, if_neg hfits]
    exact ⟨rfl, fun _ => ⟨rfl, rfl⟩, fun h => absurd h hfits⟩

theorem fills_emit (hchunk : s.chunk ≠ some 0) (texts : List Bytes) :
    s.Fills texts.flatten (s.emit texts) := by
  rw [emit_eq_filling hchunk]
  exact fills_filling_flush s texts.flatten

theorem short_writes_lose_nothing (s : Sink) (hchunk : s.chunk ≠ some 0) :
    (∀ i : Index, s.Fills (Bytes.ofString i.render ++ [Byte.lineFeed]) (i.print s)) ∧
      ∀ c : Config,
        s.Fills (c.kinds.flatMap fun k => Bytes.ofString k.text ++ [Byte.lineFeed])
          (Kind.printAll c.kinds s) := by
  constructor
  · intro i
    simpa [Index.print] using fills_emit hchunk [Bytes.ofString i.render, [Byte.lineFeed]]
  · intro c
    have hfills := fills_emit hchunk
      (c.kinds.flatMap fun k => [Bytes.ofString k.text, [Byte.lineFeed]])
    rw [← List.flatMap_id, List.flatMap_assoc] at hfills
    simpa [Kind.printAll] using hfills

theorem first_kind_fills_sink :
    let s : Sink := { chunk := some 3, limit := some 8 }
    s.chunk ≠ some 0 ∧
      (Kind.printAll ({} : Config).kinds s).1 = .error .writeZero ∧
      (Kind.printAll ({} : Config).kinds s).2.written = Bytes.ofString "function" ∧
      (Kind.printAll ({} : Config).kinds s).2.flushes = 0 := by
  intro s
  have hchunk : s.chunk ≠ some 0 := by decide
  obtain ⟨hwritten, hshort, -⟩ := (short_writes_lose_nothing s hchunk).2 {}
  obtain ⟨herror, hflushes⟩ := hshort (by decide)
  exact ⟨hchunk, herror, hwritten, hflushes⟩

end ScriptTags.Sink
