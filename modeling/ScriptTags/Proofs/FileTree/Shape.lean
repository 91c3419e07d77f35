import ScriptTags.Proofs.FileTree.Names
import ScriptTags.Proofs.FileTree.Overwrite
import Mathlib.Data.List.Sort

namespace ScriptTags.FileTree

inductive Alike : Option Node → Option Node → Prop
  | none : Alike none none
  | file (content content' : Bytes) : Alike (some (.file content)) (some (.file content'))
  | dir : Alike (some .dir) (some .dir)
  | link (target : Bytes) : Alike (some (.link target)) (some (.link target))

structure SameShape (t t' : FileTree) : Prop where
  cwd : t'.cwd = t.cwd
  pathLimit : t'.pathLimit = t.pathLimit
  nodes : ∀ l, Alike (t.node? l) (t'.node? l)

variable {t t' : FileTree} {creating : Bool} {path content : Bytes} {here l : Location}
  {n n' : Option Node}

theorem Alike.refl (n : Option Node) : Alike n n := by
  cases n with
  | none => exact .none
  | some node =>
      cases node with
      | file content => exact .file content content
      | dir => exact .dir
      | link target => exact .link target

theorem Alike.eq_dir_iff (h : Alike n n') : n' = some .dir ↔ n = some .dir := by
  cases h <;> simp

theorem Alike.isSome_eq (h : Alike n n') : n'.isSome = n.isSome := by
  cases h <;> rfl

theorem SameShape.names (h : SameShape t t') (directory : Location) :
    t'.names directory = t.names directory := by
  have hirrefl : Std.Irrefl fun a b : Name => a.bytes < b.bytes := ⟨fun a => List.lt_irrefl a.bytes⟩
  refine (pairwise_names t' directory).eq_of_mem_iff (pairwise_names t directory) fun name => ?_
  rw [mem_names, mem_names, ← Option.isSome_iff_exists, ← Option.isSome_iff_exists,
    (h.nodes _).isSome_eq]

theorem SameShape.overlong (h : SameShape t t') (path : Bytes) :
    t'.overlong path = t.overlong path := by
  rw [FileTree.overlong, FileTree.overlong, h.pathLimit]

theorem SameShape.advance (h : SameShape t t') (creating : Bool) (here : Location)
    (segments : List Segment) :
    t'.advance creating here segments = t.advance creating here segments := by
  induction segments generalizing here with
  | nil => rfl
  | cons segment rest ih =>
      by_cases hhere : t.node? here = some .dir
      · have hhere' := (h.nodes here).eq_dir_iff.mpr hhere
        cases segment with
        | empty => rw [FileTree.advance, FileTree.advance, if_pos hhere, if_pos hhere', ih]
        | here => rw [FileTree.advance, FileTree.advance, if_pos hhere, if_pos hhere', ih]
        | up => rw [FileTree.advance, FileTree.advance, if_pos hhere, if_pos hhere', ih]
        | into name =>
            have hnode := h.nodes (name :: here)
            rw [FileTree.advance, FileTree.advance, if_pos hhere, if_pos hhere', ih]
            generalize t.node? (name :: here) = n, t'.node? (name :: here) = n' at hnode
            cases hnode <;> rfl
      · have hhere' := mt (h.nodes here).eq_dir_iff.mp hhere
        cases segment <;> rw [FileTree.advance, FileTree.advance, if_neg hhere, if_neg hhere']

theorem SameShape.enter (h : SameShape t t') (creating : Bool) (here : Location) (path : Bytes)
    (rest : List Segment) :
    t'.enter creating here path rest = t.enter creating here path rest := by
  simp only [FileTree.enter, h.advance]

theorem SameShape.follow (h : SameShape t t') (creating : Bool) (n : Nat) (stop : Stop) :
    t'.follow creating n stop = t.follow creating n stop := by
  fun_induction FileTree.follow t creating n stop with
  | case1 n s => rw [FileTree.follow]
  | case2 n e => rw [FileTree.follow]
  | case3 directory target rest => rw [FileTree.follow]
  | case4 n directory target rest ih => rw [FileTree.follow, h.enter, ih]

theorem SameShape.resolve (h : SameShape t t') (creating : Bool) (path : Bytes) :
    t'.resolve creating path = t.resolve creating path := by
  rw [FileTree.resolve, FileTree.resolve, h.overlong, h.cwd, h.enter, h.follow]

inductive AlikePlace :
    Except SystemError (Location × Node) → Except SystemError (Location × Node) → Prop
  | refused (e : SystemError) : AlikePlace (.error e) (.error e)
  | found {l : Location} {node node' : Node} :
      Alike (some node) (some node') → AlikePlace (.ok (l, node)) (.ok (l, node'))

theorem SameShape.lookup (h : SameShape t t') (path : Bytes) :
    AlikePlace (t.lookup path) (t'.lookup path) := by
  rw [FileTree.lookup, FileTree.lookup, h.resolve]
  cases t.resolve false path with
  | error e => exact .refused e
  | ok spot =>
      cases spot with
      | free l => exact .refused _
      | taken l =>
          have hnode := h.nodes l
          dsimp only
          generalize t.node? l = n, t'.node? l = n' at hnode
          cases hnode with
          | none => exact .refused _
          | file content content' => exact .found (.file content content')
          | dir => exact .found .dir
          | link target => exact .found (.link target)

theorem Overwritten.sameShape {old : Bytes} (h : Overwritten t l content t')
    (hold : t.node? l = some (.file old)) : SameShape t t' where
  cwd := h.cwd
  pathLimit := h.pathLimit
  nodes k := by
    by_cases hk : k = l
    · subst hk
      rw [hold, h.after]
      exact .file old content
    · rw [h.others k hk]
      exact .refl _

theorem Overwritten.lookup_eq (h : Overwritten t l content t') (hshape : SameShape t t')
    (hapart : ∀ node, t.lookup path ≠ .ok (l, node)) : t'.lookup path = t.lookup path := by
  have hplace := hshape.lookup path
  cases hbefore : t.lookup path with
  | error e =>
      rw [hbefore] at hplace
      generalize t'.lookup path = after at hplace
      cases hplace
      rfl
  | ok place =>
      obtain ⟨k, node⟩ := place
      have hk : k ≠ l := by
        rintro rfl
        exact hapart node hbefore
      obtain ⟨hresolve, hnode⟩ := exists_resolve_of_lookup hbefore
      rw [FileTree.lookup, hshape.resolve, hresolve]
      simp only [h.others k hk, hnode]

theorem read_eq_of_lookup_eq (h : t'.lookup path = t.lookup path) : t'.read path = t.read path := by
  rw [read, read, h]

end ScriptTags.FileTree
