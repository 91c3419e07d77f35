import ScriptTags.Bytes

/-!
Lines of a script. A line break is a carriage return with a line feed, or either alone; a scan
moves by line feeds only, and a counter turns offsets into line numbers as it goes.
-/

namespace ScriptTags.Line

def isBreak (b : UInt8) : Bool :=
  b == Byte.carriageReturn || b == Byte.lineFeed

/-- A carriage return before a line feed is no break of its own. -/
def isBreakBefore (b : UInt8) (r : Bytes) : Bool :=
  b == Byte.lineFeed || (b == Byte.carriageReturn && r.head? != some Byte.lineFeed)

def breaksFrom (n : Nat) : Bytes → Nat
  | [] => n
  | b :: r => breaksFrom (if isBreakBefore b r then n + 1 else n) r

def breaks (s : Bytes) : Nat :=
  breaksFrom 0 s

theorem breaksFrom_eq_add (n : Nat) (s : Bytes) : breaksFrom n s = n + breaks s := by
  unfold breaks
  induction s generalizing n with
  | nil => rfl
  | cons b r ih =>
      rw [breaksFrom, breaksFrom, ih, ih (if isBreakBefore b r then 0 + 1 else 0)]
      split <;> omega

theorem breaks_cons (b : UInt8) (r : Bytes) :
    breaks (b :: r) = (if isBreakBefore b r then 1 else 0) + breaks r := by
  rw [breaks, breaksFrom, breaksFrom_eq_add, Nat.zero_add]

def first (s : Bytes) : Bytes :=
  s.takeWhile (!isBreak ·)

def tail (s : Bytes) : Bytes :=
  s.dropWhile (· != Byte.lineFeed)

def next (s : Bytes) : Bytes :=
  (tail s).drop 1

theorem tail_suffix (s : Bytes) : tail s <:+ s :=
  List.dropWhile_suffix _

theorem next_suffix (s : Bytes) : next s <:+ s :=
  (List.drop_suffix 1 (tail s)).trans (tail_suffix s)

theorem length_next_lt {s : Bytes} (h : s ≠ []) : (next s).length < s.length := by
  have hle := (tail_suffix s).length_le
  have hpos := List.length_pos_iff.mpr h
  simp only [next, List.length_drop]
  omega

structure Counter where
  offset : Nat := 0
  line : Nat := 1
deriving DecidableEq, Repr

/-- Moves on to a later offset, adding the breaks passed; an earlier offset changes nothing. -/
def Counter.advance (c : Counter) (text : Bytes) (offset : Nat) : Counter :=
  if c.offset < offset then
    { offset, line := c.line + breaks ((text.take offset).drop c.offset) }
  else c

end ScriptTags.Line
