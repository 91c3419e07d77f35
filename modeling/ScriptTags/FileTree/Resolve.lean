import ScriptTags.Failure
import ScriptTags.FileTree.Basic
import ScriptTags.Text.Utf8

/-!
Where a path leads. The segments are taken one at a time from the root or the working directory; a
link puts the segments of its target in front of those left, at most forty times for one path. A
path that is to be created may end in a name that is free.
-/

namespace ScriptTags.FileTree

def nameLimit : Nat := 255

def linkLimit : Nat := 40

inductive Spot where
  | taken (l : Location)
  | free (l : Location)
deriving DecidableEq, Repr

inductive Stop where
  | reached (s : Spot)
  | refused (e : SystemError)
  | atLink (directory : Location) (target : Bytes) (rest : List Segment)
deriving DecidableEq, Repr

/-- A name with nothing but slashes after it cannot be that of a new file. -/
def onlySlashes (rest : List Segment) : Bool :=
  !rest.isEmpty && rest.all (· == .empty)

/-- Takes segments up to the first link. -/
def advance (t : FileTree) (creating : Bool) : Location → List Segment → Stop
  | here, [] => .reached (.taken here)
  | here, segment :: rest =>
      if t.node? here = some .dir then
        match segment with
        | .empty => advance t creating here rest
        | .here => advance t creating here rest
        | .up => advance t creating here.tail rest
        | .into name =>
            if creating && onlySlashes rest then .refused (.os .isDirectory)
            else match t.node? (name :: here) with
              | some (.link target) => .atLink here target rest
              | some _ => advance t creating (name :: here) rest
              | none =>
                  if nameLimit < name.bytes.length then .refused (.os .nameTooLong)
                  else if rest.isEmpty then .reached (.free (name :: here))
                  else .refused (.os .noSuchFile)
      else .refused (.os .notDirectory)

def origin (path : Bytes) (here : Location) : Location :=
  if Path.isAbsolute path then [] else here

def enter (t : FileTree) (creating : Bool) (here : Location) (path : Bytes)
    (rest : List Segment) : Stop :=
  if path.isEmpty then .refused (.os .noSuchFile)
  else match Path.segments? path with
    | none => .refused .nulInPath
    | some segments => t.advance creating (origin path here) (segments ++ rest)

def follow (t : FileTree) (creating : Bool) : Nat → Stop → Except SystemError Spot
  | _, .reached s => .ok s
  | _, .refused e => .error e
  | 0, .atLink .. => .error (.os .linkLoop)
  | n + 1, .atLink directory target rest =>
      follow t creating n (t.enter creating directory target rest)

def overlong (t : FileTree) (path : Bytes) : Bool :=
  t.pathLimit.any (· ≤ path.length)

def resolve (t : FileTree) (creating : Bool) (path : Bytes) : Except SystemError Spot :=
  if path.contains Byte.nul then .error .nulInPath
  else if t.overlong path then .error (.os .nameTooLong)
  else t.follow creating linkLimit (t.enter creating t.cwd path [])

def lookup (t : FileTree) (path : Bytes) : Except SystemError (Location × Node) :=
  match t.resolve false path with
  | .error e => .error e
  | .ok (.free _) => .error (.os .noSuchFile)
  | .ok (.taken l) =>
      match t.node? l with
      | some n => .ok (l, n)
      | none => .error (.os .noSuchFile)

def read (t : FileTree) (path : Bytes) : Except FileError Bytes :=
  match t.lookup path with
  | .ok (_, .file content) => .ok content
  | .ok _ => .error (.system (.os .isDirectory))
  | .error (.os .noSuchFile) => .error (.notFound (Utf8.decode path))
  | .error e => .error (.system e)

def write (t : FileTree) (path : Bytes) (content : Bytes) : Except FileError FileTree :=
  match t.resolve true path with
  | .error e => .error (.system e)
  | .ok (.free l) => .ok (t.insert l (.file content))
  | .ok (.taken l) =>
      match t.node? l with
      | some (.file _) => .ok (t.insert l (.file content))
      | _ => .error (.system (.os .isDirectory))

end ScriptTags.FileTree
