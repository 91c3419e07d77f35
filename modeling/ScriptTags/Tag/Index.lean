import ScriptTags.Bytes
import ScriptTags.Tag.Entry

namespace ScriptTags

structure Header where
  name : String
  value : String
  comment : String
deriving DecidableEq, Repr

namespace Header

def render (h : Header) : String :=
  "!" ++ h.name ++ "\t" ++ h.value ++ "\t/" ++ h.comment ++ "/"

def programName : String := "AHKTags"

def programVersion : String := "0.1"

def all : List Header := [
  ⟨"_TAG_FILE_FORMAT", "2", "extended format; --format=1 will not append ;\" to lines"⟩,
  ⟨"_TAG_FILE_SORTED", "1", "0=unsorted, 1=sorted, 2=foldcase"⟩,
  ⟨"_TAG_PROGRAM_AUTHOR", "Sviatoslav Abakumov", "dust.harvesting@gmail.com"⟩,
  ⟨"_TAG_PROGRAM_NAME", programName, ""⟩,
  ⟨"_TAG_PROGRAM_URL", "https://github.com/perlence/ahktags", ""⟩,
  ⟨"_TAG_PROGRAM_VERSION", programVersion, ""⟩]

end Header

structure Index where
  entries : List Entry := []
deriving DecidableEq, Repr

namespace Index

def append (i : Index) (found : List Entry) : Index :=
  ⟨i.entries ++ found⟩

def size (i : Index) : Nat :=
  i.entries.length

def isEmpty (i : Index) : Bool :=
  i.entries.isEmpty

def nameLE (a b : Entry) : Bool :=
  decide (Bytes.ofString a.name ≤ Bytes.ofString b.name)

def sorted (i : Index) : List Entry :=
  i.entries.mergeSort nameLE

def lines (i : Index) : List String :=
  Header.all.map Header.render ++ i.sorted.map Entry.render

def render (i : Index) : String :=
  "\n".intercalate i.lines

end Index

end ScriptTags
