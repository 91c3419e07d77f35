import ScriptTags.Bytes

namespace ScriptTags

inductive Kind where
  | function
  | label
  | variable
deriving DecidableEq, Repr

namespace Kind

def all : List Kind :=
  [.function, .label, .variable]

def text : Kind → String
  | .function => "function"
  | .label => "label"
  | .variable => "variable"

end Kind

namespace Address

def hexDigit (n : Nat) : Char :=
  if n < 10 then Char.ofNat (48 + n) else Char.ofNat (87 + n)

def escapeByte (b : UInt8) : List Char :=
  if b = Byte.backslash then ['\\', '\\']
  else if b = Byte.quote then ['\\', '\'']
  else if b = Byte.tab then ['\\', 't']
  else if b = Byte.lineFeed then ['\\', 'n']
  else if b = Byte.carriageReturn then ['\\', 'r']
  else if Byte.isPrintable b then [Char.ofNat b.toNat]
  else ['\\', 'x', hexDigit (b.toNat / 16), hexDigit (b.toNat % 16)]

def escape (text : Bytes) : String :=
  String.ofList (text.flatMap escapeByte)

def ofLine (line : Bytes) : String :=
  "/^" ++ escape line ++ "$/"

end Address

structure Entry where
  name : String
  file : String
  address : String
  kind : Kind
  line : Nat
deriving DecidableEq, Repr

namespace Entry

def label (path : String) : String :=
  match path.toList with
  | '.' :: '/' :: rest => String.ofList rest
  | _ => path

def render (e : Entry) : String :=
  e.name ++ "\t" ++ e.file ++ "\t" ++ e.address ++ ";\"\t" ++ e.kind.text ++ "\tline:" ++
    toString e.line

end Entry

end ScriptTags
