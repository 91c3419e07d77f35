import ScriptTags.Proofs.Script.RulePattern

namespace ScriptTags

namespace Rule

open Bytes

variable {text r w : Bytes} {p j k m q : Nat}

inductive Assigns (text : Bytes) (j : Nat) : Nat → Prop
  | equals {k : Nat} : Spans Byte.isSpace text j k → text[k]? = some Byte.equals →
      Assigns text j (k + 1)
  | colonEquals {k : Nat} : Spans Byte.isSpace text j k → text[k]? = some Byte.colon →
      text[k + 1]? = some Byte.equals → Assigns text j (k + 2)

theorem Assigns.le_length (h : Assigns text j m) : m ≤ text.length := by
  cases h with
  | equals _ hequals =>
      obtain ⟨hlt, -⟩ := List.getElem?_eq_some_iff.mp hequals
      exact hlt
  | colonEquals _ _ hequals =>
      obtain ⟨hlt, -⟩ := List.getElem?_eq_some_iff.mp hequals
      exact hlt

theorem afterEquals?_drop_iff :
    afterEquals? (text.drop k) = some r ↔
      text[k]? = some Byte.equals ∧ r = Line.tail (skipSpace (text.drop (k + 1))) := by
  rw [Pattern.afterEquals?_eq, Pattern.octetThen_drop_iff, Option.some.injEq, eq_comm (a := r)]

theorem afterVariableName?_of_equals (hspace : Spans Byte.isSpace text j k)
    (hequals : text[k]? = some Byte.equals) :
    afterVariableName? (text.drop j) = afterEquals? (text.drop k) := by
  rw [afterVariableName?, skipSpace, hspace.dropWhile_eq_cons hequals rfl,
    getElem?_eq_some_iff_drop.mp hequals]
  rfl

theorem afterVariableName?_of_colon (hspace : Spans Byte.isSpace text j k)
    (hcolon : text[k]? = some Byte.colon) :
    afterVariableName? (text.drop j) = afterEquals? (text.drop (k + 1)) := by
  rw [afterVariableName?, skipSpace, hspace.dropWhile_eq_cons hcolon rfl]
  rfl

theorem afterVariableName?_drop_iff :
    afterVariableName? (text.drop j) = some r ↔
      ∃ m, Assigns text j m ∧ r = Line.tail (skipSpace (text.drop m)) := by
  constructor
  · intro h
    by_cases hj : j ≤ text.length
    · obtain ⟨k, hk⟩ := exists_runsTo Byte.isSpace hj
      cases hd : text.drop k with
      | nil =>
          rw [afterVariableName?, skipSpace, ((runsTo_iff hj).mp hk).2, hd] at h
          cases h
      | cons x s =>
          obtain ⟨hx, -⟩ := drop_succ_of_drop_eq_cons hd
          by_cases hcolon : x = Byte.colon
          · subst hcolon
            rw [afterVariableName?_of_colon hk.1 hx] at h
            obtain ⟨hequals, hr⟩ := afterEquals?_drop_iff.mp h
            exact ⟨k + 2, .colonEquals hk.1 hx hequals, hr⟩
          · rw [afterVariableName?, skipSpace, ((runsTo_iff hj).mp hk).2, hd] at h
            simp only [if_neg hcolon] at h
            rw [← hd] at h
            obtain ⟨hequals, hr⟩ := afterEquals?_drop_iff.mp h
            exact ⟨k + 1, .equals hk.1 hequals, hr⟩
    · rw [List.drop_eq_nil_of_le (by omega)] at h
      cases h
  · rintro ⟨m, hassigns, hr⟩
    cases hassigns with
    | equals hspace hequals =>
        rw [afterVariableName?_of_equals hspace hequals]
        exact afterEquals?_drop_iff.mpr ⟨hequals, hr⟩
    | colonEquals hspace hcolon hequals =>
        rw [afterVariableName?_of_colon hspace hcolon]
        exact afterEquals?_drop_iff.mpr ⟨hequals, hr⟩

def VariableCandidate (text : Bytes) (p : Nat) : Prop :=
  ∃ i j m, NameAt text p i j ∧ Assigns text j m

def VariableStep (text : Bytes) (p : Nat) (w : Bytes) (q : Nat) : Prop :=
  ∃ i j m, NameAt text p i j ∧ w = slice text i j ∧ Assigns text j m ∧ Resumes text m q

theorem variableStep_iff : VariableStep text p w q ↔ FoundAt .variable text p w q := by
  symm
  apply foundAt_iff_resumes
  · intro j m h
    exact h.le_length
  · intro j r
    exact afterVariableName?_drop_iff

theorem variableCandidate_iff : VariableCandidate text p ↔ ∃ w q, VariableStep text p w q := by
  constructor
  · rintro ⟨i, j, m, hname, hassigns⟩
    obtain ⟨q, hq⟩ := exists_resumes hassigns.le_length
    exact ⟨slice text i j, q, i, j, m, hname, rfl, hassigns, hq⟩
  · rintro ⟨w, q, i, j, m, hname, -, hassigns, -⟩
    exact ⟨i, j, m, hname, hassigns⟩

end Rule

namespace Scan

theorem variable_entries_exact (path : String) (text : Bytes) :
    ∃ found,
      (∀ other, Scans (Rule.VariableCandidate text) (Rule.VariableStep text) 0 other ↔
        other = found) ∧
      (∀ other, Scans ((Pattern.ofKind .variable).Candidate text)
        ((Pattern.ofKind .variable).FoundAt text) 0 other ↔ other = found) ∧
      entries .variable path text = found.map (Hit.entry .variable (Entry.label path) text) :=
  exists_exact (fun _ => Rule.variableCandidate_iff) (fun _ _ _ => Rule.variableStep_iff) path

end Scan

end ScriptTags
