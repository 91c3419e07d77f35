import ScriptTags.FileTree.Basic

namespace ScriptTags.FileTree

structure Listed where
  path : Bytes
  node : Node
deriving DecidableEq, Repr

def pathIn (directory : Bytes) (name : Name) : Bytes :=
  if directory = [] then name.bytes else Path.join directory name

def listing (t : FileTree) (directory : Location) (path : Bytes) : List Listed :=
  (t.names directory).flatMap fun name =>
    match _h : t.node? (name :: directory) with
    | none => []
    | some .dir =>
        ⟨pathIn path name, .dir⟩ :: listing t (name :: directory) (pathIn path name)
    | some node => [⟨pathIn path name, node⟩]
termination_by t.depth - directory.length
decreasing_by
  have := length_le_depth _h
  simp only [List.length_cons] at *
  omega

end ScriptTags.FileTree
