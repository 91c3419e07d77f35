/-!
What a terminal shows of a text. Control characters are not shown, except those that move to
another column or line, and neither are control sequences, which begin with an escape. A sequence
that is not finished takes the rest of the text with it.
-/

namespace ScriptTags.Terminal

abbrev bell : Char := '\x07'
abbrev cancel : Char := '\x18'
abbrev substitute : Char := '\x1a'
abbrev escape : Char := '\x1b'
abbrev delete : Char := '\x7f'

def isMovement (c : Char) : Bool :=
  c == '\t' || c == '\n' || c == '\x0c' || c == '\r'

def isShown (c : Char) : Bool :=
  isMovement c || (' ' ≤ c && c != delete)

def isBetween (first last c : Char) : Bool :=
  first ≤ c && c ≤ last

inductive Sequence where
  | opened
  | intermediate
  | control
  | command
  | device
  | deviceParameters
  | deviceIntermediate
  | string
deriving DecidableEq, Repr

namespace Sequence

/-- A string is closed by the octet 9C, also within a character. -/
def closesString (c : Char) : Bool :=
  (String.utf8EncodeChar c).contains 0x9C

def next? (s : Sequence) (c : Char) : Option Sequence :=
  match s with
  | opened =>
      if c = '[' then some control
      else if c = ']' then some command
      else if c = 'P' then some device
      else if c = 'X' || c = '^' || c = '_' then some string
      else if isBetween ' ' '/' c then some intermediate
      else if isBetween '0' '~' c then none
      else some opened
  | intermediate => if isBetween '0' '~' c then none else some intermediate
  | control => if isBetween '@' '~' c then none else some control
  | command => if c = bell then none else some command
  | device =>
      if isBetween ' ' '/' c then some deviceIntermediate
      else if isBetween '0' '?' c then some deviceParameters
      else if isBetween '@' '~' c then some string
      else some device
  | deviceParameters =>
      if isBetween ' ' '/' c then some deviceIntermediate
      else if isBetween '<' '~' c then some string
      else some deviceParameters
  | deviceIntermediate =>
      if isBetween '0' '~' c then some string else some deviceIntermediate
  | string => if closesString c then none else some string

def allowsMovement : Sequence → Bool
  | opened => true
  | intermediate => true
  | control => true
  | _ => false

end Sequence

inductive State where
  | text
  | within (s : Sequence)
  | aside (s : Sequence)
deriving DecidableEq, Repr

/-- Whether a character is shown, and the state after it. A sequence that waits goes on at the next
control character, and is forgotten at a character beyond ASCII. -/
def step (state : State) (c : Char) : Bool × State :=
  if c = escape then (false, .within .opened)
  else if c = cancel || c = substitute then (false, .text)
  else match state with
    | .text => (isShown c, .text)
    | .within s =>
        if s.allowsMovement && isMovement c then (true, .aside s)
        else match s.next? c with
          | none => (false, .text)
          | some s => (false, .within s)
    | .aside s =>
        if !isShown c then (false, .within s)
        else if c ≤ delete then (true, .aside s)
        else (true, .text)

def shownFrom (state : State) : List Char → List Char
  | [] => []
  | c :: r =>
      let (isSeen, state) := step state c
      if isSeen then c :: shownFrom state r else shownFrom state r

def shown (s : String) : String :=
  String.ofList (shownFrom .text s.toList)

end ScriptTags.Terminal
