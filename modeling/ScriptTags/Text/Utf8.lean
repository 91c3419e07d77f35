import ScriptTags.Bytes

/-!
UTF-8 read with replacement: each longest part that begins a character but cannot be continued,
and each octet that begins none, counts as one fault and is shown as U+FFFD.
-/

namespace ScriptTags.Utf8

/-- A character begun: its bits so far, the bounds of the next octet, and how many come after it. -/
structure Pending where
  value : Nat
  low : UInt8 := 0x80
  high : UInt8 := 0xBF
  more : Nat
deriving DecidableEq, Repr

inductive Start where
  | whole (c : Char)
  | owing (p : Pending)
  | stray
deriving DecidableEq, Repr

/-- What an octet at a character boundary begins. The bounds after E0, ED, F0 and F4 leave out
long spellings, surrogates and values above U+10FFFF. -/
def start (b : UInt8) : Start :=
  if b < 0x80 then .whole (Char.ofNat b.toNat)
  else if b < 0xC2 then .stray
  else if b < 0xE0 then .owing { value := b.toNat - 0xC0, more := 0 }
  else if b < 0xF0 then
    .owing {
      value := b.toNat - 0xE0, more := 1
      low := if b = 0xE0 then 0xA0 else 0x80
      high := if b = 0xED then 0x9F else 0xBF }
  else if b < 0xF5 then
    .owing {
      value := b.toNat - 0xF0, more := 2
      low := if b = 0xF0 then 0x90 else 0x80
      high := if b = 0xF4 then 0x8F else 0xBF }
  else .stray

abbrev Piece := Option Char

def begin (b : UInt8) : List Piece × Option Pending :=
  match start b with
  | .whole c => ([some c], none)
  | .owing p => ([], some p)
  | .stray => ([none], none)

def step : Option Pending → UInt8 → List Piece × Option Pending
  | none, b => begin b
  | some p, b =>
      if p.low ≤ b && b ≤ p.high then
        let value := p.value * 64 + b.toNat % 64
        match p.more with
        | 0 => ([some (Char.ofNat value)], none)
        | n + 1 => ([], some { value, more := n })
      else (none :: (begin b).1, (begin b).2)

def piecesFrom : Option Pending → Bytes → List Piece
  | none, [] => []
  | some _, [] => [none]
  | p, b :: r => (step p b).1 ++ piecesFrom (step p b).2 r

def pieces (bs : Bytes) : List Piece :=
  piecesFrom none bs

def replacement : Char := '\uFFFD'

def decode (bs : Bytes) : String :=
  String.ofList ((pieces bs).map (·.getD replacement))

def decode? (bs : Bytes) : Option String :=
  if (pieces bs).all Option.isSome then some (decode bs) else none

def isValid (bs : Bytes) : Bool :=
  (decode? bs).isSome

end ScriptTags.Utf8
