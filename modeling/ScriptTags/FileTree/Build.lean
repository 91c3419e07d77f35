import ScriptTags.FileTree.Resolve

namespace ScriptTags.FileTree

def leading (path : Bytes) : List Bytes :=
  (List.range path.length).filterMap fun n =>
    if path[n]? = some Byte.slash then some (path.take n) else none

def makeDirectory (t : FileTree) (path : Bytes) : FileTree :=
  match t.resolve false path with
  | .ok (.free l) => t.insert l .dir
  | _ => t

def makeParents (t : FileTree) (path : Bytes) : FileTree :=
  (leading path).foldl makeDirectory t

/-- Adds a file, a directory or a link; what cannot be added is left out. -/
def place (t : FileTree) (path : Bytes) (node : Node) : FileTree :=
  let t := t.makeParents path
  match node with
  | .dir => t.makeDirectory path
  | .file content =>
      match t.write path content with
      | .ok t' => t'
      | .error _ => t
  | .link target =>
      match t.resolve false path with
      | .ok (.free l) => t.insert l (.link target)
      | _ => t

end ScriptTags.FileTree
