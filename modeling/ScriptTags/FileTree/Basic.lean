import ScriptTags.FileTree.Path

/-!
A file tree as a table of locations. A location is the list of names that leads to it from the
root, the innermost first, so its tail is its directory; the empty location is the root, which is
always a directory.
-/

namespace ScriptTags

abbrev Location := List Name

inductive Node where
  | file (content : Bytes)
  | dir
  | link (target : Bytes)
deriving DecidableEq, Repr

structure FileTree where
  nodes : List (Location × Node) := []
  cwd : Location := []
  pathLimit : Option Nat := some 4096
deriving DecidableEq, Repr

namespace FileTree

def node? (t : FileTree) : Location → Option Node
  | [] => some .dir
  | name :: parent => t.nodes.lookup (name :: parent)

def insert (t : FileTree) (l : Location) (n : Node) : FileTree :=
  { t with nodes := (l, n) :: t.nodes.filter (·.1 ≠ l) }

def insertName (n : Name) : List Name → List Name
  | [] => [n]
  | m :: rest =>
      if n = m then m :: rest
      else if n.bytes ≤ m.bytes then n :: m :: rest
      else m :: insertName n rest

def nameIn? (directory : Location) : Location → Option Name
  | [] => none
  | name :: parent => if parent = directory then some name else none

def names (t : FileTree) (directory : Location) : List Name :=
  (t.nodes.filterMap fun entry => nameIn? directory entry.1).foldr insertName []

def locations (t : FileTree) : List Location :=
  [] :: t.nodes.map (·.1)

def depth (t : FileTree) : Nat :=
  t.locations.foldr (fun l n => max l.length n) 0

theorem length_le_foldr_max {l : Location} {ls : List Location} (h : l ∈ ls) :
    l.length ≤ ls.foldr (fun l n => max l.length n) 0 := by
  induction ls with
  | nil => simp at h
  | cons m ms ih =>
      simp only [List.foldr_cons]
      rcases List.mem_cons.mp h with rfl | h
      · exact Nat.le_max_left _ _
      · exact Nat.le_trans (ih h) (Nat.le_max_right _ _)

theorem mem_of_lookup {k : Location} {n : Node} {table : List (Location × Node)}
    (h : table.lookup k = some n) : (k, n) ∈ table := by
  induction table with
  | nil => simp at h
  | cons entry rest ih =>
      obtain ⟨k', n'⟩ := entry
      by_cases hk : k = k'
      · subst hk
        simp_all
      · rw [List.lookup_cons, beq_false_of_ne hk] at h
        exact List.mem_cons_of_mem _ (ih h)

theorem mem_locations {t : FileTree} {l : Location} {n : Node} (h : t.node? l = some n) :
    l ∈ t.locations := by
  match l with
  | [] => exact List.mem_cons_self
  | name :: parent =>
      exact List.mem_cons_of_mem _ (List.mem_map.mpr ⟨_, mem_of_lookup h, rfl⟩)

theorem length_le_depth {t : FileTree} {l : Location} {n : Node} (h : t.node? l = some n) :
    l.length ≤ t.depth :=
  length_le_foldr_max (mem_locations h)

end FileTree

end ScriptTags
