import ScriptTags.Proofs.Script.RulePattern

namespace ScriptTags.Scan

def Hit.eager (kind : Kind) (file : String) (text : Bytes) (h : Hit) : Entry where
  name := Bytes.toAscii h.name
  file := file
  address := Address.ofLine (Line.first (Bytes.slice text h.start h.stop))
  kind := kind
  line := 1 + Line.breaks (text.take h.start)

namespace Cursor

def after : Nat → Cursor → Cursor
  | 0, c => c
  | n + 1, c =>
      match c.next? with
      | none => after n c
      | some (_, c') => after n c'

variable {c c' : Cursor} {e : Entry}

theorem toList_of_none (h : c.next? = none) : c.toList = [] := by
  rw [toList, h]

theorem toList_of_some (h : c.next? = some (e, c')) : c.toList = e :: c'.toList := by
  rw [toList, h]

theorem answers_eq_take (n : Nat) (c : Cursor) :
    c.answers n = (c.toList.take n).map some ++ List.replicate (n - c.toList.length) none := by
  fun_induction answers n c with
  | case1 c => simp
  | case2 c n hnone ih =>
      rw [ih, toList_of_none hnone]
      simp [List.replicate_succ]
  | case3 c n e c' hsome ih =>
      rw [ih, toList_of_some hsome]
      simp

theorem answers_add (m n : Nat) (c : Cursor) :
    c.answers (m + n) = c.answers m ++ (c.after m).answers n := by
  induction m generalizing c with
  | zero => simp [answers, after]
  | succ m ih =>
      rw [Nat.succ_add, answers, answers, after]
      cases c.next? with
      | none => simp [ih]
      | some found => simp [ih]

theorem next?_inputs (h : c.next? = some (e, c')) :
    c'.kind = c.kind ∧ c'.file = c.file ∧ c'.text = c.text := by
  rw [next?] at h
  split at h
  · cases h
  · cases h
    exact ⟨rfl, rfl, rfl⟩

theorem after_inputs (n : Nat) (c : Cursor) :
    (c.after n).kind = c.kind ∧ (c.after n).file = c.file ∧ (c.after n).text = c.text := by
  fun_induction after n c with
  | case1 c => exact ⟨rfl, rfl, rfl⟩
  | case2 c n hnone ih => exact ih
  | case3 c n e c' hsome ih =>
      obtain ⟨hkind, hfile, htext⟩ := next?_inputs hsome
      rwa [hkind, hfile, htext] at ih

end Cursor

variable {kind : Kind} {text : Bytes}

theorem first_slice {p q : Nat} {w : Bytes} (h : Rule.FoundAt kind text p w q) :
    Line.first (Bytes.slice text p q) = Line.first (text.drop p) := by
  have hbreak : ∀ b, (text.drop q).head? = some b → Line.isBreak b = true := by
    intro b hb
    rw [Rule.head?_match? h.2.2 hb]
    rfl
  rw [← Bytes.slice_append_drop h.lt.le, Line.first_append hbreak]

theorem entries_eq_map_eager (kind : Kind) (path : String) (text : Bytes) :
    entries kind path text = (hits kind text).map (Hit.eager kind (Entry.label path) text) := by
  rw [entries_eq_map_hits]
  refine List.map_congr_left fun h hh => ?_
  rw [Hit.entry, Hit.eager, first_slice (foundAt_of_mem_hits hh)]

theorem answers_are_eager_entries (kind : Kind) (path : String) (text : Bytes) :
    ∃ found,
      (∀ other, Scans ((Pattern.ofKind kind).Candidate text) ((Pattern.ofKind kind).FoundAt text) 0
        other ↔ other = found) ∧
      let eager := found.map (Hit.eager kind (Entry.label path) text)
      let c := Cursor.start kind path text
      (∀ n, c.answers n = (eager.take n).map some ++ List.replicate (n - eager.length) none) ∧
        (∀ m n, c.answers (m + n) = c.answers m ++ (c.after m).answers n) ∧
          ∀ n, Cursor.start (c.after n).kind path (c.after n).text = c := by
  refine ⟨hits kind text, fun other => scans_ofKind_iff, fun n => ?_, fun m n => ?_, fun n => ?_⟩
  · rw [← entries_eq_map_eager]
    exact Cursor.answers_eq_take n _
  · exact Cursor.answers_add m n _
  · obtain ⟨hkind, -, htext⟩ := Cursor.after_inputs n (Cursor.start kind path text)
    rw [hkind, htext]
    rfl

end ScriptTags.Scan
