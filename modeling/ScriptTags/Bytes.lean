/-!
Octet strings. Scripts, paths and arguments are lists of octets, so that text in any encoding is
handled alike; the classes of octets below are ASCII classes.
-/

namespace ScriptTags

abbrev Bytes := List UInt8

namespace Byte

abbrev nul : UInt8 := 0
abbrev tab : UInt8 := 9
abbrev lineFeed : UInt8 := 10
abbrev carriageReturn : UInt8 := 13
abbrev space : UInt8 := 32
abbrev quote : UInt8 := 39
abbrev openParen : UInt8 := 40
abbrev closeParen : UInt8 := 41
abbrev dash : UInt8 := 45
abbrev dot : UInt8 := 46
abbrev slash : UInt8 := 47
abbrev colon : UInt8 := 58
abbrev semicolon : UInt8 := 59
abbrev equals : UInt8 := 61
abbrev backslash : UInt8 := 92
abbrev openBrace : UInt8 := 123

/-- Letters, digits and the underscore. -/
def isWord (b : UInt8) : Bool :=
  (48 ≤ b && b ≤ 57) || (65 ≤ b && b ≤ 90) || b == 95 || (97 ≤ b && b ≤ 122)

def isBlank (b : UInt8) : Bool :=
  b == space || b == tab

def isSpace (b : UInt8) : Bool :=
  b == space || (9 ≤ b && b ≤ 13)

def isPrintable (b : UInt8) : Bool :=
  32 ≤ b && b ≤ 126

end Byte

namespace Bytes

def ofString (s : String) : Bytes :=
  s.toList.flatMap String.utf8EncodeChar

/-- The string whose characters have the given octets as code points. -/
def toAscii (bs : Bytes) : String :=
  String.ofList (bs.map fun b => Char.ofNat b.toNat)

end Bytes

end ScriptTags
