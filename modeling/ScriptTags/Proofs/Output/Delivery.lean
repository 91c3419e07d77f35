import ScriptTags.Run.Generate

namespace ScriptTags.Sink

structure Delivers (s : Sink) (text : Bytes) (result : Except SystemError Unit × Sink) : Prop where
  part : ∃ part, part <+: text ∧ result.2.written = s.written ++ part
  whole : result.1 = .ok () → result.2.written = s.written ++ text

variable {s s' : Sink} {text rest : Bytes} {n : Nat} {e : SystemError}
  {result : Except SystemError Unit × Sink}

theorem written_of_attempt (h : s.attempt text = (.ok n, s')) :
    s'.written = s.written ++ text.take n := by
  rw [attempt] at h
  split at h
  · split at h
    · cases h
      rw [List.take_zero, List.append_nil]
    · cases h
  · cases h
    rfl

theorem eq_of_attempt_error (h : s.attempt text = (.error e, s')) : s' = s := by
  rw [attempt] at h
  split at h
  · split at h
    · cases h
    · cases h
      rfl
  · cases h

theorem delivers_refused (h : s'.written = s.written) : Delivers s text (.error e, s') where
  part := ⟨[], List.nil_prefix, by rw [h, List.append_nil]⟩
  whole := nofun

theorem Delivers.after (hs : s'.written = s.written ++ text) (h : Delivers s' rest result) :
    Delivers s (text ++ rest) result where
  part := by
    obtain ⟨part, hpart, hwritten⟩ := h.part
    refine ⟨text ++ part, (List.prefix_append_right_inj text).mpr hpart, ?_⟩
    rw [hwritten, hs, List.append_assoc]
  whole hok := by rw [h.whole hok, hs, List.append_assoc]

theorem delivers_write (s : Sink) (text : Bytes) : Delivers s text (s.write text) := by
  fun_induction write s text with
  | case1 s =>
      exact ⟨⟨[], List.nil_prefix, (List.append_nil _).symm⟩, fun _ => (List.append_nil _).symm⟩
  | case2 s text _ e s' hattempt =>
      exact delivers_refused (congrArg written (eq_of_attempt_error hattempt))
  | case3 s text _ s' hattempt =>
      refine delivers_refused ?_
      rw [written_of_attempt hattempt, List.take_zero, List.append_nil]
  | case4 s text _ n s' hattempt ih =>
      have h := Delivers.after (written_of_attempt hattempt) ih
      rwa [List.take_append_drop] at h

theorem delivers_flush (s : Sink) : Delivers s [] s.flush := by
  have hwritten : s.flush.2.written = s.written ++ [] := by
    rw [flush, List.append_nil]
    split <;> rfl
  exact ⟨⟨[], List.nil_prefix, hwritten⟩, fun _ => hwritten⟩

theorem delivers_emit (s : Sink) (texts : List Bytes) :
    Delivers s texts.flatten (s.emit texts) := by
  induction texts generalizing s with
  | nil => exact delivers_flush s
  | cons text rest ih =>
      have htext := delivers_write s text
      rw [emit, List.flatten_cons]
      split
      next e s' hwrite =>
        rw [hwrite] at htext
        obtain ⟨part, hpart, hwritten⟩ := htext.part
        exact ⟨⟨part, hpart.trans (List.prefix_append _ _), hwritten⟩, nofun⟩
      next s' hwrite =>
        rw [hwrite] at htext
        exact (ih s').after (htext.whole rfl)

theorem delivers_print (i : Index) (s : Sink) :
    Delivers s (Bytes.ofString i.render ++ [Byte.lineFeed]) (i.print s) := by
  simpa [Index.print] using delivers_emit s [Bytes.ofString i.render, [Byte.lineFeed]]

end ScriptTags.Sink
