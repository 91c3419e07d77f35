import ScriptTags.Script.Line
import ScriptTags.Tag.Entry

/-!
The three rules that recognise a definition at the start of a line. A rule reads a name and then
what has to follow it, over line breaks where white space is allowed, and leaves the text where
the search goes on: at a line feed or at the end. What it leaves is a suffix of what it read.
-/

namespace ScriptTags.Rule

structure Match where
  name : Bytes
  rest : Bytes
deriving DecidableEq, Repr

def head? (s : Bytes) : Option Match :=
  let t := s.dropWhile Byte.isBlank
  match t.takeWhile Byte.isWord with
  | [] => none
  | name => some ⟨name, t.dropWhile Byte.isWord⟩

def skipSpace (s : Bytes) : Bytes :=
  s.dropWhile Byte.isSpace

/-- After the parameters: white space, an opening brace, white space, and the rest of the line
that this reaches. -/
def afterParameters? (s : Bytes) : Option Bytes :=
  match skipSpace s with
  | [] => none
  | b :: r => if b = Byte.openBrace then some (Line.tail (skipSpace r)) else none

/-- Inside the parameters: of the closing parentheses on this line, the last that a body follows
ends them. -/
def afterOpen? : Bytes → Option Bytes
  | [] => none
  | b :: r =>
      if b = Byte.lineFeed then none
      else (afterOpen? r).or (if b = Byte.closeParen then afterParameters? r else none)

def afterFunctionName? : Bytes → Option Bytes
  | [] => none
  | b :: r => if b = Byte.openParen then afterOpen? r else none

def lastLineFeed? : Bytes → Option Bytes
  | [] => none
  | b :: r =>
      if Byte.isSpace b then
        (lastLineFeed? r).or (if b = Byte.lineFeed then some (b :: r) else none)
      else none

/-- After a label's colon: white space up to the end, a comment, or at least a line break. -/
def afterColon? (s : Bytes) : Option Bytes :=
  match skipSpace s with
  | [] => some []
  | b :: r => if b = Byte.semicolon then some (Line.tail (b :: r)) else lastLineFeed? s

def afterLabelName? : Bytes → Option Bytes
  | [] => none
  | b :: r => if b = Byte.colon then afterColon? r else none

def afterEquals? : Bytes → Option Bytes
  | [] => none
  | b :: r => if b = Byte.equals then some (Line.tail (skipSpace r)) else none

def afterVariableName? (s : Bytes) : Option Bytes :=
  match skipSpace s with
  | [] => none
  | b :: r => if b = Byte.colon then afterEquals? r else afterEquals? (b :: r)

def afterName? : Kind → Bytes → Option Bytes
  | .function => afterFunctionName?
  | .label => afterLabelName?
  | .variable => afterVariableName?

def match? (kind : Kind) (s : Bytes) : Option Match :=
  (head? s).bind fun h => (afterName? kind h.rest).map fun r => ⟨h.name, r⟩

/-- The rule as a regular expression over octets, searched for leftmost first. -/
def pattern : Kind → String
  | .function => "(?m-u)^[ \\t]*(?P<name>[A-Za-z0-9_]+)\\(.*\\)\\s*\\\x7b\\s*(;?.*)$"
  | .label => "(?m-u)^[ \\t]*(?P<name>[A-Za-z0-9_]+):\\s*(;.*)?$"
  | .variable => "(?m-u)^[ \\t]*(?P<name>[A-Za-z0-9_]+)\\s*:?=\\s*(;?.*)?$"

theorem skipSpace_suffix (s : Bytes) : skipSpace s <:+ s :=
  List.dropWhile_suffix _

theorem head?_rest_suffix {s : Bytes} {m : Match} (h : head? s = some m) : m.rest <:+ s := by
  simp only [head?] at h
  split at h
  · simp at h
  · simp only [Option.some.injEq] at h
    subst h
    exact (List.dropWhile_suffix _).trans (List.dropWhile_suffix _)

theorem afterParameters?_suffix {s r : Bytes} (h : afterParameters? s = some r) : r <:+ s := by
  unfold afterParameters? at h
  split at h
  · simp at h
  next b t ht =>
    split at h
    · simp only [Option.some.injEq] at h
      subst h
      have hs : t <:+ s := (List.suffix_cons b t).trans (ht ▸ skipSpace_suffix s)
      exact ((Line.tail_suffix _).trans (skipSpace_suffix t)).trans hs
    · simp at h

theorem afterOpen?_suffix {s r : Bytes} (h : afterOpen? s = some r) : r <:+ s := by
  induction s with
  | nil => simp [afterOpen?] at h
  | cons b t ih =>
      simp only [afterOpen?] at h
      split at h
      · simp at h
      · rcases Option.or_eq_some_iff.mp h with h | ⟨_, h⟩
        · exact (ih h).trans (List.suffix_cons b t)
        · split at h
          · exact (afterParameters?_suffix h).trans (List.suffix_cons b t)
          · simp at h

theorem lastLineFeed?_suffix {s r : Bytes} (h : lastLineFeed? s = some r) : r <:+ s := by
  induction s with
  | nil => simp [lastLineFeed?] at h
  | cons b t ih =>
      simp only [lastLineFeed?] at h
      split at h
      · rcases Option.or_eq_some_iff.mp h with h | ⟨_, h⟩
        · exact (ih h).trans (List.suffix_cons b t)
        · split at h
          · simp only [Option.some.injEq] at h
            subst h
            exact List.suffix_refl _
          · simp at h
      · simp at h

theorem afterColon?_suffix {s r : Bytes} (h : afterColon? s = some r) : r <:+ s := by
  unfold afterColon? at h
  split at h
  · simp only [Option.some.injEq] at h
    subst h
    exact List.nil_suffix
  next b t ht =>
    split at h
    · simp only [Option.some.injEq] at h
      subst h
      exact (Line.tail_suffix _).trans (ht ▸ skipSpace_suffix s)
    · exact lastLineFeed?_suffix h

theorem afterEquals?_suffix {s r : Bytes} (h : afterEquals? s = some r) : r <:+ s := by
  cases s with
  | nil => simp [afterEquals?] at h
  | cons b t =>
      simp only [afterEquals?] at h
      split at h
      · simp only [Option.some.injEq] at h
        subst h
        exact ((Line.tail_suffix _).trans (skipSpace_suffix t)).trans (List.suffix_cons b t)
      · simp at h

theorem afterVariableName?_suffix {s r : Bytes} (h : afterVariableName? s = some r) : r <:+ s := by
  unfold afterVariableName? at h
  split at h
  · simp at h
  next b t ht =>
    have hs : b :: t <:+ s := ht ▸ skipSpace_suffix s
    split at h
    · exact ((afterEquals?_suffix h).trans (List.suffix_cons b t)).trans hs
    · exact (afterEquals?_suffix h).trans hs

theorem afterName?_suffix {kind : Kind} {s r : Bytes} (h : afterName? kind s = some r) :
    r <:+ s := by
  match kind, s with
  | .function, [] => simp [afterName?, afterFunctionName?] at h
  | .function, b :: t =>
      simp only [afterName?, afterFunctionName?] at h
      split at h
      · exact (afterOpen?_suffix h).trans (List.suffix_cons b t)
      · simp at h
  | .label, [] => simp [afterName?, afterLabelName?] at h
  | .label, b :: t =>
      simp only [afterName?, afterLabelName?] at h
      split at h
      · exact (afterColon?_suffix h).trans (List.suffix_cons b t)
      · simp at h
  | .variable, _ => exact afterVariableName?_suffix h

theorem match?_rest_suffix {kind : Kind} {s : Bytes} {m : Match} (h : match? kind s = some m) :
    m.rest <:+ s := by
  obtain ⟨w, hw, hm⟩ := Option.bind_eq_some_iff.mp h
  obtain ⟨r, hr, rfl⟩ := Option.map_eq_some_iff.mp hm
  exact (afterName?_suffix hr).trans (head?_rest_suffix hw)

end ScriptTags.Rule
