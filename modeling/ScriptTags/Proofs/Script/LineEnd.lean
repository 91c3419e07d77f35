import ScriptTags.Proofs.Script.Transfer
import Mathlib.Data.Finset.Basic

namespace ScriptTags

def Line.LoneFeed (text : Bytes) (k : Nat) : Prop :=
  text[k]? = some Byte.lineFeed ∧ (0 < k → text[k - 1]? ≠ some Byte.carriageReturn)

def Line.endAt (chosen : Finset Nat) (k : Nat) (b : UInt8) : Bytes :=
  if k ∈ chosen then [Byte.carriageReturn, Byte.lineFeed] else [b]

/-- The text with a carriage return and a line feed in the place of each chosen octet. -/
def Line.withReturns (chosen : Finset Nat) (text : Bytes) : Bytes :=
  text.zipIdx.flatMap fun x => Line.endAt chosen x.2 x.1

variable {chosen : Finset Nat} {text s : Bytes}

theorem alike_endAt {n : Nat} (hfeed : ∀ k, n + k ∈ chosen → s[k]? = some Byte.lineFeed)
    (hreturn : ∀ k, s[k]? = some Byte.carriageReturn → n + k + 1 ∉ chosen) :
    Alike [] s ((s.zipIdx n).flatMap fun x => Line.endAt chosen x.2 x.1) := by
  induction s generalizing n with
  | nil => exact .nil
  | cons b s ih =>
      have hrest : Alike [] s ((s.zipIdx (n + 1)).flatMap fun x => Line.endAt chosen x.2 x.1) := by
        apply ih
        · intro k hk
          exact hfeed (k + 1) (by rwa [Nat.add_assoc, Nat.add_comm 1] at hk)
        · intro k hk
          have := hreturn (k + 1) hk
          rwa [Nat.add_assoc n, Nat.add_comm 1]
      rw [List.zipIdx_cons, List.flatMap_cons, Line.endAt]
      split
      next hn =>
        have hb : b = Byte.lineFeed := Option.some.inj (hfeed 0 hn)
        subst hb
        exact hrest.feed
      next =>
        refine .cons (fun hb hs => ?_) hrest
        subst hb
        obtain ⟨r, rfl⟩ := List.head?_eq_some_iff.mp hs
        have hnext : n + 1 ∉ chosen := hreturn 0 rfl
        rw [List.zipIdx_cons, List.flatMap_cons, Line.endAt, if_neg hnext]
        rfl

theorem alike_withReturns (h : ∀ k ∈ chosen, Line.LoneFeed text k) :
    Alike [] text (Line.withReturns chosen text) := by
  apply alike_endAt
  · intro k hk
    rw [Nat.zero_add] at hk
    exact (h k hk).1
  · intro k hreturn hk
    rw [Nat.zero_add] at hk
    exact (h (k + 1) hk).2 (Nat.succ_pos k) hreturn

namespace Scan

theorem entries_withReturns (kind : Kind) (path : String)
    (h : ∀ k ∈ chosen, Line.LoneFeed text k) :
    entries kind path (Line.withReturns chosen text) = entries kind path text := by
  have hbehind : occurrences kind (behind []) = [] := occurrences_of_none find?_nil
  rw [entries_of_alike (alike_withReturns h) (Or.inl rfl), hbehind, List.map_nil, List.append_nil]

theorem entries_of_functions_with_mixed_line_ends :
    (∀ k ∈ ({4, 13} : Finset Nat),
      Line.LoneFeed [70, 40, 97, 41, 10, 123, 13, 10, 125, 10, 71, 40, 41, 10, 123] k) ∧
      Line.withReturns {4, 13} [70, 40, 97, 41, 10, 123, 13, 10, 125, 10, 71, 40, 41, 10, 123] =
        [70, 40, 97, 41, 13, 10, 123, 13, 10, 125, 10, 71, 40, 41, 13, 10, 123] ∧
      entries .function "s.ahk" (Line.withReturns {4, 13}
          [70, 40, 97, 41, 10, 123, 13, 10, 125, 10, 71, 40, 41, 10, 123]) =
        [⟨"F", "s.ahk", "/^F(a)$/", .function, 1⟩, ⟨"G", "s.ahk", "/^G()$/", .function, 4⟩] :=
  have hlone : ∀ k ∈ ({4, 13} : Finset Nat),
      Line.LoneFeed [70, 40, 97, 41, 10, 123, 13, 10, 125, 10, 71, 40, 41, 10, 123] k := by
    intro k hk
    rcases Finset.mem_insert.mp hk with rfl | hk
    · exact ⟨rfl, fun _ => by decide⟩
    · obtain rfl := Finset.mem_singleton.mp hk
      exact ⟨rfl, fun _ => by decide⟩
  ⟨hlone, by decide, (entries_withReturns .function "s.ahk" hlone).trans (by decide +kernel)⟩

end Scan

end ScriptTags
