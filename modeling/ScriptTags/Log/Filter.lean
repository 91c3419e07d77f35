import ScriptTags.Log.Event
import ScriptTags.Text.CharClass

/-!
A filter is a list of directives. A directive is a level, a target, or both with an equals sign
between. A target may have a scope in brackets behind it, or be replaced by one: the name of a
span, a field in braces, or both. Of the directives that cover an event, the one with the longest
target decides up to which level events are shown.
-/

namespace ScriptTags

/-- Nothing is shown at rank zero; without a target a directive is for every event. -/
structure Directive where
  target : Option String := none
  /-- Nothing is logged within a span, so such a directive has no effect. -/
  inSpan : Bool := false
  field : Option String := none
  rank : Nat
deriving DecidableEq, Repr

namespace Directive

def rankOfDigits? (cs : List Char) : Option Nat :=
  let digits := if cs.head? = some '+' then cs.tail else cs
  if digits.isEmpty || !digits.all Char.isDigit then none
  else
    let n := digits.foldl (fun n c => n * 10 + (c.toNat - 48)) 0
    if n ≤ 5 then some n else none

def rank? (cs : List Char) : Option Nat :=
  (rankOfDigits? cs).or <|
    [("off", 0), ("error", 1), ("warn", 2), ("info", 3), ("debug", 4), ("trace", 5)].lookup
      (String.ofList (cs.map Char.toLower))

def opensTarget (c : Char) : Bool :=
  Alphanumeric.holds c || c == '_' || c == '-' || c == ':'

def endsTarget (c : Char) : Bool :=
  c == '=' || c == '['

/-- A level behind an equals sign may be empty, which shows everything. -/
def givenRank? (cs : List Char) : Option Nat :=
  if cs.isEmpty then some Level.trace.rank else rank? cs

def ofWord (cs : List Char) : Directive :=
  match rank? cs with
  | some rank => { rank }
  | none => { target := some (String.ofList cs), rank := Level.trace.rank }

def scope? (cs : List Char) : Option ((Bool × Option String) × List Char) :=
  let isName (c : Char) : Bool := c != ']' && c != '\x7b'
  match cs.dropWhile isName with
  | [] => none
  | c :: r =>
      if c = ']' then some ((true, none), r)
      else
        let field := r.takeWhile (· != '\x7d')
        match r.dropWhile (· != '\x7d') with
        | _ :: ']' :: after =>
            if field.isEmpty then none
            else
              let inSpan := !(cs.takeWhile isName).isEmpty || field.contains '='
              some ((inSpan, some (String.ofList field)), after)
        | _ => none

def rankAfterScope? (mayBeGiven : Bool) : List Char → Option Nat
  | '=' :: level => if mayBeGiven then givenRank? level else none
  | cs => if cs.all WhiteSpace.holds then some Level.trace.rank else none

/-- White space is part of what it stands next to; a directive that begins with it cannot have an
equals sign. -/
def parse? (text : String) : Option Directive :=
  let cs := text.toList
  match cs.dropWhile WhiteSpace.holds with
  | [] => none
  | first :: _ =>
      if !(opensTarget first || first == '[') then none
      else
        let name := cs.takeWhile (!endsTarget ·)
        let target := if name.isEmpty then none else some (String.ofList name)
        let mayBeGiven := !cs.head?.any WhiteSpace.holds
        match cs.dropWhile (!endsTarget ·) with
        | [] => some (ofWord cs)
        | '=' :: level =>
            if mayBeGiven then (givenRank? level).map fun rank => { target, rank } else none
        | _ :: inside => do
            let ((inSpan, field), after) ← scope? inside
            let rank ← rankAfterScope? mayBeGiven after
            return { target, inSpan, field, rank }

def covers (d : Directive) (e : Event) : Bool :=
  !d.inSpan &&
    d.target.all (fun start => start.toList.isPrefixOf e.target.toList) &&
    d.field.all (fun name => e.fieldNames.contains name)

def targetLength (d : Directive) : Nat :=
  match d.target with
  | none => 0
  | some start => start.length

def fieldAtMost : Option String → Option String → Bool
  | none, _ => true
  | some _, none => false
  | some a, some b => a ≤ b

def atMost (d e : Directive) : Bool :=
  d.targetLength < e.targetLength ||
    (d.targetLength == e.targetLength && fieldAtMost d.field e.field)

end Directive

structure Filter where
  directives : List Directive
deriving DecidableEq, Repr

namespace Filter

def splitCommas : List Char → List (List Char)
  | [] => [[]]
  | c :: r =>
      if c = ',' then [] :: splitCommas r
      else match splitCommas r with
        | [] => [[c]]
        | s :: rest => (c :: s) :: rest

/-- Directives between commas; one that cannot be read spoils the filter, and no directive at all
shows errors. -/
def parse? (text : String) : Option Filter :=
  let parts := ((splitCommas text.toList).filter (· ≠ [])).map String.ofList
  (parts.mapM Directive.parse?).map fun directives =>
    ⟨if directives.isEmpty then [{ rank := Level.error.rank }] else directives⟩

def moreSpecial (best : Option Directive) (d : Directive) : Option Directive :=
  match best with
  | none => some d
  | some b => if b.atMost d then some d else some b

/-- The most special directive that covers an event; of two alike, the later. -/
def directive? (f : Filter) (e : Event) : Option Directive :=
  (f.directives.filter (·.covers e)).foldl moreSpecial none

def shows (f : Filter) (e : Event) : Bool :=
  match f.directive? e with
  | none => false
  | some d => e.level.rank ≤ d.rank

end Filter

end ScriptTags
