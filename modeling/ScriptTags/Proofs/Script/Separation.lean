import ScriptTags.Proofs.Script.Transfer

namespace ScriptTags

open Line Rule

theorem alike_append (e s : Bytes) : Alike e s (s ++ e) := by
  induction s with
  | nil => exact .nil
  | cons b s ih =>
      refine .cons (fun _ hfeed => ?_) ih
      have hhead : (s ++ e).head? = s.head?.or e.head? := List.head?_append
      exact hhead.trans (by rw [hfeed, Option.some_or])

def Line.comment (c : Bytes) : Bytes :=
  Byte.lineFeed :: Byte.semicolon :: c ++ [Byte.lineFeed]

theorem Line.whole_append_comment (a c : Bytes) : Line.Whole (a ++ Line.comment c) := by
  right
  rw [Line.comment, ← List.append_assoc, List.getLast?_concat]

theorem closing_comment_append (c b : Bytes) : Closing (Line.comment c ++ b) :=
  Or.inr ⟨c ++ Byte.lineFeed :: b, by simp [Line.comment]⟩

theorem behind_comment_append {c : Bytes} (hc : Byte.lineFeed ∉ c) (b : Bytes) :
    behind (Line.comment c ++ b) = b := by
  have hline : ∀ x ∈ Byte.semicolon :: c, (x != Byte.lineFeed) = true := by
    intro x hx
    rcases List.mem_cons.mp hx with rfl | hx
    · rfl
    · have hne : x ≠ Byte.lineFeed := fun h => hc (h ▸ hx)
      simpa using hne
  have hskip : skipSpace (Line.comment c ++ b) = Byte.semicolon :: c ++ Byte.lineFeed :: b := by
    rw [Line.comment, List.append_assoc]
    rfl
  rw [behind, hskip, Line.next, Line.tail, List.dropWhile_append_of_pos hline]
  rfl

namespace Scan

theorem Occurrence.entry_add {kind : Kind} {file : String} {o : Occurrence} {total : Nat} (n : Nat)
    (h : Line.breaks o.here ≤ total) :
    o.entry kind file (n + total) =
      { o.entry kind file total with line := (o.entry kind file total).line + n } := by
  have hline : 1 + (n + total) - breaks o.here = 1 + total - breaks o.here + n := by omega
  rw [Occurrence.entry, Occurrence.entry, hline]

theorem entries_append_comment (kind : Kind) (path : String) (a b : Bytes) {c : Bytes}
    (hc : Byte.lineFeed ∉ c) :
    entries kind path (a ++ Line.comment c ++ b) =
      entries kind path a ++ (entries kind path b).map fun x =>
        { x with line := x.line + Line.breaks (a ++ Line.comment c) } := by
  have halike : Alike (Line.comment c ++ b) a (a ++ Line.comment c ++ b) := by
    rw [List.append_assoc]
    exact alike_append _ a
  rw [entries_of_alike halike (closing_comment_append c b), behind_comment_append hc,
    entries_eq_map_occurrences kind path b, List.map_map,
    breaks_append_of_whole (Line.whole_append_comment a c)]
  congr 1
  apply List.map_congr_left
  intro o ho
  exact Occurrence.entry_add _ (breaks_le_of_suffix (match?_of_mem_occurrences ho).1)

theorem entries_of_assignments_around_comment :
    Byte.lineFeed ∉ [99, Byte.carriageReturn] ∧
      entries .variable "./s.ahk"
          ([120, 32, 61, 13] ++ Line.comment [99, Byte.carriageReturn] ++ [121, 58, 61, 49]) =
        [⟨"x", "s.ahk", "/^x =$/", .variable, 1⟩, ⟨"y", "s.ahk", "/^y:=1$/", .variable, 3⟩] :=
  ⟨by decide, (entries_append_comment .variable "./s.ahk" [120, 32, 61, 13] [121, 58, 61, 49]
    (by decide)).trans (by decide +kernel)⟩

end Scan

end ScriptTags
