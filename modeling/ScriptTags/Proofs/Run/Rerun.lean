import ScriptTags.Proofs.Discovery.Contents
import ScriptTags.Proofs.Run.Ending

/-!
A run after a run. What is collected does not depend on what files hold, so where the tag file is
none of the scripts, the second run reads what the first has read and writes the same once more.
-/

namespace ScriptTags

namespace Run

variable {t t' : FileTree} {kinds : List Kind} {files : List Bytes} {i : Index} {content : Bytes}
  {l : Location}

theorem collect_eq_of_sameShape (h : t.SameShape t') (c : Config) (root : Bytes) :
    collect c t' root = collect c t root := by
  rw [collect, collect, Walk.discover_eq_of_sameShape h]

theorem Indexes.of_overwritten (h : Indexes t kinds files i)
    (hwritten : t.Overwritten l content t') (hshape : t.SameShape t')
    (hapart : ∀ p ∈ files, ∀ node, t.lookup p ≠ .ok (l, node)) : Indexes t' kinds files i := by
  obtain ⟨texts, hreads, hi⟩ := h
  refine ⟨texts, hreads.congr fun p hp => ?_, hi⟩
  exact FileTree.read_eq_of_lookup_eq (hwritten.lookup_eq hshape (hapart p hp))

theorem rerun_is_stable (c : Config) (root : Bytes) :
    (∀ t t' : FileTree, t.SameShape t' → collect c t' root = collect c t root) ∧
      ∀ (s : Session) (path : Bytes) (n : Nat) (l : Location) (old : Bytes),
        (generate c root s).1 = .ok (.wrote path n) →
        s.tree.lookup path = .ok (l, .file old) →
        (∀ p ∈ (collect c s.tree root).1, ∀ node, s.tree.lookup p ≠ .ok (l, node)) →
        ∀ again : Session, again.tree = (generate c root s).2.tree →
          (generate c root again).1 = .ok (.wrote path n) ∧
            (generate c root again).2.tree = (generate c root s).2.tree := by
  refine ⟨fun t t' h => collect_eq_of_sameShape h c root, ?_⟩
  intro s path n l old hends hlookup hapart again hagain
  have hending := ending_generate c root s
  rw [hends, ← hagain] at hending
  rw [← hagain]
  generalize (generate c root s).2.stdout = out at hending
  cases hending with
  | @wrote i _ _ hi hsize hdestination hwrite hwrites hread =>
      have hwritten := FileTree.overwritten_of_write hwrite hlookup
      have hshape := hwritten.sameShape (FileTree.exists_resolve_of_lookup hlookup).2
      have hi' := hi.of_overwritten hwritten hshape hapart
      have hwrite' := FileTree.write_again hwrite
      rw [← collect_eq_of_sameShape hshape] at hi'
      have hagain : Ending c (collect c again.tree root).1 again.tree again.stdout
          (.ok (.wrote path i.size)) again.tree again.stdout :=
        .wrote hi' hsize hdestination hwrite' (FileTree.writes_of_write hwrite') hread
      obtain ⟨hresult, htree, -⟩ := hagain.eq_generate
      exact ⟨hresult.symm, htree.symm⟩

-- A tag file below the root of a recursive run, written through a link beside the one script.
namespace TagsBelow

def script : Name := ⟨Bytes.ofString "go.ahk", by decide⟩

def out : Name := ⟨Bytes.ofString "out", by decide⟩

def tags : Name := ⟨Bytes.ofString "tags", by decide⟩

def tree : FileTree where
  nodes := [([script], .file (Bytes.ofString "Go:")), ([out], .dir),
    ([tags, out], .file (Bytes.ofString "old")), ([tags], .link (Bytes.ofString "out/tags"))]

def config : Config where
  recursive := true
  destination := .file tags.bytes

def base : Bytes :=
  Bytes.ofString "."

end TagsBelow

open TagsBelow in
theorem rerun_writes_through_link :
    tree.SameShape (tree.insert [tags, out] (.file [])) ∧
      collect config (tree.insert [tags, out] (.file [])) base = collect config tree base ∧
      (generate config base { tree }).1 = .ok (.wrote tags.bytes 1) ∧
      tree.lookup tags.bytes = .ok ([tags, out], .file (Bytes.ofString "old")) ∧
      (∀ p ∈ (collect config tree base).1, ∀ node, tree.lookup p ≠ .ok ([tags, out], node)) ∧
      ∀ again : Session, again.tree = (generate config base { tree }).2.tree →
        (generate config base again).1 = .ok (.wrote tags.bytes 1) ∧
          (generate config base again).2.tree = (generate config base { tree }).2.tree := by
  obtain ⟨hcollects, hreruns⟩ := rerun_is_stable config base
  have hnode : tree.node? [tags, out] = some (.file (Bytes.ofString "old")) := by decide +kernel
  have hwritten : tree.Overwritten [tags, out] [] (tree.insert [tags, out] (.file [])) :=
    FileTree.overwritten_insert fun node h => ⟨_, Option.some.inj (h.symm.trans hnode)⟩
  have hshape := hwritten.sameShape hnode
  have hends : (generate config base { tree }).1 = .ok (.wrote tags.bytes 1) := by decide +kernel
  have hlookup : tree.lookup tags.bytes = .ok ([tags, out], .file (Bytes.ofString "old")) := by
    decide +kernel
  have hcollect : (collect config tree base).1 = [Bytes.ofString "./go.ahk"] := by decide +kernel
  have hscript : tree.lookup (Bytes.ofString "./go.ahk") =
      .ok ([script], .file (Bytes.ofString "Go:")) := by
    decide +kernel
  have hapart : ∀ p ∈ (collect config tree base).1, ∀ node,
      tree.lookup p ≠ .ok ([tags, out], node) := by
    rw [hcollect]
    intro p hp node hnode
    rw [List.mem_singleton.mp hp, hscript] at hnode
    cases hnode
  exact ⟨hshape, hcollects _ _ hshape, hends, hlookup, hapart,
    hreruns { tree } _ _ _ _ hends hlookup hapart⟩

end Run

end ScriptTags
