import ScriptTags.Bytes

namespace ScriptTags

abbrev IsName (bs : Bytes) : Prop :=
  bs ≠ [] ∧ bs ≠ [Byte.dot] ∧ bs ≠ [Byte.dot, Byte.dot] ∧ Byte.slash ∉ bs ∧ Byte.nul ∉ bs

structure Name where
  bytes : Bytes
  valid : IsName bytes
deriving DecidableEq, Repr

inductive Segment where
  | empty
  | here
  | up
  | into (name : Name)
deriving DecidableEq, Repr

def Segment.ofBytes? (bs : Bytes) : Option Segment :=
  if bs = [] then some .empty
  else if bs = [Byte.dot] then some .here
  else if bs = [Byte.dot, Byte.dot] then some .up
  else if h : IsName bs then some (.into ⟨bs, h⟩)
  else none

namespace Path

def split : Bytes → List Bytes
  | [] => [[]]
  | b :: r =>
      if b = Byte.slash then [] :: split r
      else match split r with
        | [] => [[b]]
        | s :: rest => (b :: s) :: rest

def segments? (path : Bytes) : Option (List Segment) :=
  (split path).mapM Segment.ofBytes?

def isAbsolute (path : Bytes) : Bool :=
  path.head? == some Byte.slash

def join (directory : Bytes) (name : Name) : Bytes :=
  if directory.getLast? = some Byte.slash then directory ++ name.bytes
  else directory ++ Byte.slash :: name.bytes

end Path

end ScriptTags
