import ScriptTags.Proofs.Discovery.Found

namespace ScriptTags.Walk

open ScriptTags.Path

variable {t : FileTree} {o : Options} {root : Bytes} {start : Location} {names : List Name}
  {name : Name}

structure ScriptBelow (t : FileTree) (o : Options) (root : Bytes) (start : Location)
    (names : List Name) (name : Name) : Prop where
  directories : ∀ above, above <+: names → t.node? (above.reverse ++ start) = some .dir
  script : t.LeadsToFile (joinAll root (names ++ [name])) (name :: (names.reverse ++ start))
  selected : o.Selects names name

theorem reaches_iff_scriptBelow (ho : o.followLinks = false)
    (hstart : t.node? start = some .dir) :
    Reaches t o root [start] names name ↔ ScriptBelow t o root start names name := by
  constructor
  · rintro ⟨⟨here, trail, hdescent, hscript⟩, hselected⟩
    rw [ho] at hdescent
    obtain ⟨hdirectories, rfl⟩ := (exists_descent_real_iff hstart).mp ⟨trail, hdescent⟩
    exact ⟨hdirectories, hscript, hselected⟩
  · rintro ⟨hdirectories, hscript, hselected⟩
    obtain ⟨trail, hdescent⟩ := (exists_descent_real_iff hstart).mpr ⟨hdirectories, rfl⟩
    exact ⟨⟨_, trail, ho ▸ hdescent, hscript⟩, hselected⟩

-- A tree with a script in `lib/sub`, and a path for `lib` that can still be read while that of
-- `lib/sub` cannot.
namespace LongPath

def lib : Name := ⟨[108, 105, 98], by decide⟩

def sub : Name := ⟨[115, 117, 98], by decide⟩

def script : Name := ⟨[98, 46, 97, 104, 107], by decide⟩

def tree : FileTree where
  nodes := [([lib], .dir), ([sub, lib], .dir), ([script, sub, lib], .file [])]

def base : Bytes :=
  (List.replicate 2046 [Byte.dot, Byte.slash]).flatten ++ lib.bytes

theorem lookup_base : tree.lookup base = .ok ([lib], .dir) := by decide +kernel

theorem files_eq_nil (follow : Bool) :
    (discover tree base { followLinks := follow }).files = [] := by
  rw [discover, lookup_base]
  cases follow <;> decide +kernel

theorem reaches_script (follow : Bool) :
    Reaches tree { followLinks := follow } base [[lib]] [sub] script := by
  have hsub : tree.node? [sub, lib] = some .dir := by decide
  have hscript : tree.node? [script, sub, lib] = some (.file []) := by decide
  refine ⟨⟨[sub, lib], [[lib]], Descent.here.cons (.real hsub), Or.inl ⟨[], hscript⟩⟩, ?_⟩
  rw [Options.selects_cons_iff, Options.selects_nil_iff]
  cases follow <;> decide +kernel

end LongPath

theorem discovery_without_links_exact (t : FileTree) (root : Bytes) (extensions : List String)
    (skipHidden : Bool) :
    let o : Options := { extensions, skipHidden, followLinks := false }
    let files := (discover t root o).files
    (∀ p, p ∈ files ↔ ∃ start names name, t.lookup root = .ok (start, .dir) ∧
      ScriptBelow t o root start names name ∧ t.overlong (joinAll root names) = false ∧
        p = joinAll root (names ++ [name])) ∧
    files.Nodup ∧ files.Pairwise fun p q => split p < split q := by
  intro o files
  refine ⟨fun p => ?_, nodup_files_discover t root o, pairwise_files_discover t root o⟩
  rw [mem_files_discover_iff]
  constructor
  · rintro ⟨start, names, name, hlookup, hfinds, hp⟩
    have hscript := (reaches_iff_scriptBelow rfl (node?_of_lookup hlookup)).mp hfinds.toReaches
    exact ⟨start, names, name, hlookup, hscript, hfinds.readable, hp⟩
  · rintro ⟨start, names, name, hlookup, hscript, hreadable, hp⟩
    have hreaches := (reaches_iff_scriptBelow rfl (node?_of_lookup hlookup)).mpr hscript
    exact ⟨start, names, name, hlookup, ⟨hreaches, hreadable⟩, hp⟩

theorem discovery_misses_script_below_long_path :
    ¬∀ p, p ∈ (discover LongPath.tree LongPath.base {}).files ↔
      ∃ start names name, LongPath.tree.lookup LongPath.base = .ok (start, .dir) ∧
        ScriptBelow LongPath.tree {} LongPath.base start names name ∧
          p = joinAll LongPath.base (names ++ [name]) := by
  intro h
  have hbelow := (reaches_iff_scriptBelow rfl (node?_of_lookup LongPath.lookup_base)).mp
    (LongPath.reaches_script false)
  have hmem := (h _).mpr ⟨_, _, _, LongPath.lookup_base, hbelow, rfl⟩
  rw [LongPath.files_eq_nil false] at hmem
  cases hmem

theorem discovery_following_links_exact (t : FileTree) (root : Bytes) (extensions : List String)
    (skipHidden : Bool) :
    let o : Options := { extensions, skipHidden, followLinks := true }
    let files := (discover t root o).files
    (∀ p, p ∈ files ↔ ∃ start names name, t.lookup root = .ok (start, .dir) ∧
      Reaches t o root [start] names name ∧ t.overlong (joinAll root names) = false ∧
        p = joinAll root (names ++ [name])) ∧
    files.Nodup ∧ (files.Pairwise fun p q => split p < split q) ∧
    ∀ start names dirs, t.lookup root = .ok (start, .dir) →
      Descent t true root [start] names dirs →
        names.length ≤ t.locations.length * (t.depth + 1) := by
  intro o files
  refine ⟨fun p => ?_, nodup_files_discover t root o, pairwise_files_discover t root o,
    fun start names dirs hlookup hdescent => hdescent.length_le (node?_of_lookup hlookup)⟩
  rw [mem_files_discover_iff]
  constructor
  · rintro ⟨start, names, name, hlookup, hfinds, hp⟩
    exact ⟨start, names, name, hlookup, hfinds.toReaches, hfinds.readable, hp⟩
  · rintro ⟨start, names, name, hlookup, hreaches, hreadable, hp⟩
    exact ⟨start, names, name, hlookup, ⟨hreaches, hreadable⟩, hp⟩

-- A directory `a` with a script, and with a link that leads to the directory which `a` is in.
namespace Loop

def a : Name := ⟨[97], by decide⟩

def out : Name := ⟨[111, 117, 116], by decide⟩

def script : Name := ⟨[115, 46, 97, 104, 107], by decide⟩

def tree : FileTree where
  nodes := [([a], .dir), ([out, a], .link [Byte.dot, Byte.dot]), ([script, a], .file [])]

theorem descent_out_a : Descent tree true a.bytes [[a]] [out, a] [[a], [], [a]] := by
  have hlink : tree.node? [out, a] = some (.link [Byte.dot, Byte.dot]) := by decide
  have hlookup : tree.lookup (join a.bytes out) = .ok ([], .dir) := by decide +kernel
  have hdir : tree.node? [a] = some .dir := by decide
  exact (Descent.here.cons (.real hdir)).cons (.link rfl hlink hlookup (by decide))

end Loop

theorem discovery_enters_directory_twice :
    Loop.tree.lookup Loop.a.bytes = .ok ([Loop.a], .dir) ∧
      Descent Loop.tree true Loop.a.bytes [[Loop.a]] [Loop.out, Loop.a] [[Loop.a], [], [Loop.a]] ∧
      [Loop.out, Loop.a].length ≤ Loop.tree.locations.length * (Loop.tree.depth + 1) ∧
      (discover Loop.tree Loop.a.bytes { followLinks := true }).files =
        [joinAll Loop.a.bytes [Loop.out, Loop.a, Loop.script],
          joinAll Loop.a.bytes [Loop.script]] := by
  have hlookup : Loop.tree.lookup Loop.a.bytes = .ok ([Loop.a], .dir) := by decide +kernel
  have hbound := (discovery_following_links_exact Loop.tree Loop.a.bytes ["ahk"] true).2.2.2
    [Loop.a] _ _ hlookup Loop.descent_out_a
  exact ⟨hlookup, Loop.descent_out_a, hbound, by decide +kernel⟩

theorem discovery_following_links_misses_script_below_long_path :
    ¬∀ p, p ∈ (discover LongPath.tree LongPath.base { followLinks := true }).files ↔
      ∃ start names name, LongPath.tree.lookup LongPath.base = .ok (start, .dir) ∧
        Reaches LongPath.tree { followLinks := true } LongPath.base [start] names name ∧
          p = joinAll LongPath.base (names ++ [name]) := by
  intro h
  have hmem := (h _).mpr ⟨_, _, _, LongPath.lookup_base, LongPath.reaches_script true, rfl⟩
  rw [LongPath.files_eq_nil true] at hmem
  cases hmem

end ScriptTags.Walk
