import ScriptTags.FileTree.Path
import Mathlib.Data.List.Basic

namespace ScriptTags.Path

variable {path : Bytes} {name : Name} {names names' : List Name}

def joinAll (path : Bytes) (names : List Name) : Bytes :=
  names.foldl join path

def stem (path : Bytes) : List Bytes :=
  if path.getLast? = some Byte.slash then (split path).dropLast else split path

@[simp]
theorem joinAll_cons (path : Bytes) (name : Name) (names : List Name) :
    joinAll path (name :: names) = joinAll (join path name) names := rfl

theorem joinAll_concat (path : Bytes) (names : List Name) (name : Name) :
    joinAll path (names ++ [name]) = join (joinAll path names) name :=
  List.foldl_concat join path name names

theorem split_eq_splitOn (path : Bytes) : split path = path.splitOn Byte.slash := by
  induction path with
  | nil => rfl
  | cons b r ih =>
      rw [split, List.splitOn_cons_eq_if_modifyHead, ih]
      simp only [beq_iff_eq]
      split
      · rfl
      · cases h : r.splitOn Byte.slash with
        | nil => exact absurd h (List.splitOn_ne_nil _ _)
        | cons s rest => rfl

theorem split_name (name : Name) : split name.bytes = [name.bytes] := by
  rw [split_eq_splitOn]
  exact List.splitOn_eq_singleton name.valid.2.2.2.1

theorem split_append_slash (a b : Bytes) : split (a ++ Byte.slash :: b) = split a ++ split b := by
  simp only [split_eq_splitOn]
  exact List.splitOn_append_cons_self a b

theorem split_join (path : Bytes) (name : Name) :
    split (join path name) = stem path ++ [name.bytes] := by
  rw [join, stem]
  split
  next h =>
    obtain ⟨pre, rfl⟩ := List.getLast?_eq_some_iff.mp h
    rw [List.append_assoc, List.singleton_append, split_append_slash, split_append_slash,
      split_name, show split [] = [[]] from rfl, List.dropLast_concat]
  next => rw [split_append_slash, split_name]

theorem stem_join (path : Bytes) (name : Name) :
    stem (join path name) = split (join path name) := by
  have hlast : (join path name).getLast? ≠ some Byte.slash := by
    intro h
    have hmem : (join path name).getLast? = name.bytes.getLast? := by
      rw [join]
      split
      · exact List.getLast?_append_of_ne_nil _ name.valid.1
      · rw [List.getLast?_append_of_ne_nil _ (List.cons_ne_nil _ _),
          List.getLast?_cons_of_ne_nil name.valid.1]
    exact name.valid.2.2.2.1 (List.mem_of_getLast? (hmem ▸ h))
  rw [stem, if_neg hlast]

theorem split_joinAll (path : Bytes) (name : Name) (names : List Name) :
    split (joinAll path (name :: names)) = stem path ++ (name :: names).map Name.bytes := by
  induction names generalizing path name with
  | nil => exact split_join path name
  | cons m ms ih =>
      rw [joinAll_cons, ih, stem_join, split_join, List.append_assoc]
      rfl

theorem split_lt_split {n m : Name} (h : n.bytes < m.bytes) (ns ms : List Name) :
    split (joinAll path (n :: ns)) < split (joinAll path (m :: ms)) := by
  rw [split_joinAll, split_joinAll]
  exact List.append_left_lt (List.cons_lt_cons_iff.mpr (Or.inl h))

end ScriptTags.Path
