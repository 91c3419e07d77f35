import ScriptTags.Command.Run
import ScriptTags.FileTree.Build

/-!
The program. It takes up from the disk what a command line can reach, runs the command on that
tree, and carries out what the command changed.
-/

namespace ScriptTags.Disk

def namesOf (path : Bytes) : List Name :=
  ((Path.segments? path).getD []).filterMap fun
    | .into name => some name
    | _ => none

def pathOf (l : Location) : String :=
  "/" ++ "/".intercalate (l.reverse.map fun name => Utf8.decode name.bytes)

def toByteArray (bs : Bytes) : ByteArray :=
  ⟨bs.toArray⟩

def enclosing : Location → List Location
  | [] => []
  | name :: parent => (name :: parent) :: enclosing parent

def start : IO FileTree := do
  let here := (namesOf (Bytes.ofString (← IO.currentDir).toString)).reverse
  return { nodes := (enclosing here).map fun l => (l, .dir), cwd := here }

/-- The node at a location of the disk; a link is taken to lead straight to where it ends. -/
def node? (content : Bool) (l : Location) : IO (Option Node) := do
  let path := (← IO.currentDir) / pathOf l
  try
    match (← path.symlinkMetadata).type with
    | .dir => return some .dir
    | .symlink => return some (.link (Bytes.ofString (← IO.FS.realPath path).toString))
    | _ =>
        if content then return some (.file (← IO.FS.readBinFile path).data.toList)
        else return some (.file [])
  catch _ => return none

partial def takePath (t : FileTree) (path : Bytes) : IO FileTree := do
  let mut t := t
  for start in FileTree.leading path ++ [path] do
    if let .ok (.free l) := t.resolve false start then
      if let some node ← node? true l then
        t := t.insert l node
        if let .link target := node then t ← takePath t target
  return t

partial def takeBelow (o : Walk.Options) (t : FileTree) (directory : Location) :
    IO FileTree := do
  let mut t := t
  for entry in ← ((← IO.currentDir) / pathOf directory).readDir do
    for name in namesOf (Bytes.ofString entry.fileName) do
      let l := name :: directory
      if (t.node? l).isNone then
        if let some node ← node? (o.wants name) l then
          t := t.insert l node
          if let .link target := node then t ← takePath t target
      if t.node? l = some .dir then t ← takeBelow o t l
  return t

def takeUp (o : Command.Options) : IO FileTree := do
  let mut t ← start
  for path in o.files do
    t ← takePath t path
  if let .file path := o.config.destination then
    t ← takePath t path
  if o.recursive then
    t ← takeBelow { extensions := o.config.extensions } t t.cwd
  return t

def carryOut (before after : FileTree) : IO Unit := do
  for (l, node) in after.nodes do
    if before.node? l ≠ some node then
      if let .file content := node then
        IO.FS.writeBinFile (pathOf l) (toByteArray content)

def print (s : Sink) : IO Unit := do
  let stdout ← IO.getStdout
  stdout.write (toByteArray s.written)
  stdout.flush

end ScriptTags.Disk

open ScriptTags in
def main (args : List String) : IO UInt32 := do
  let arguments := args.map Bytes.ofString
  let environment ← IO.getEnv "RUST_LOG"
  try
    let tree ←
      match Command.parse arguments with
      | .ok o => Disk.takeUp o
      | .error _ => pure {}
    let done := Command.run arguments environment tree {}
    Disk.carryOut tree done.tree
    let done ←
      try
        Disk.print done.stdout
        pure done
      catch e =>
        let closed : Sink := { limit := some 0, whenFull := some (.custom (toString e)) }
        pure (Command.run arguments environment tree closed)
    IO.eprint done.stderr
    return done.exit.toUInt32
  catch e =>
    IO.eprintln s!"Error: {e}"
    return 1
