import ScriptTags.Proofs.Discovery.Found
import ScriptTags.Proofs.FileTree.LeadsTo
import ScriptTags.Proofs.Run.Ending

/-!
Scripts that are discovered can be read. A walk keeps the location of each directory and never
resolves its path; the path leads there all the same, and so does that of each script it takes.
-/

namespace ScriptTags

open ScriptTags.Path

namespace Walk

variable {t : FileTree} {o : Options} {follow : Bool} {root p : Bytes} {start here : Location}
  {trail : List Location} {names : List Name}

theorem Descent.leadsTo (hroot : t.lookup root = .ok (start, .dir))
    (h : Descent t follow root [start] names (here :: trail)) :
    t.LeadsTo (joinAll root names) here ∧ t.node? here = some .dir := by
  generalize hdirs : here :: trail = dirs at h
  induction h generalizing here trail with
  | here =>
      cases hdirs
      exact (FileTree.lookup_eq_ok_iff.mp hroot).2
  | @into names name dirs l hbefore henters ih =>
      cases hdirs
      rw [joinAll_concat] at henters ⊢
      cases henters with
      | real hdir =>
          obtain ⟨hleads, hhere⟩ := ih rfl
          exact ⟨hleads.join hhere hdir nofun, hdir⟩
      | link _ _ hlookup _ => exact (FileTree.lookup_eq_ok_iff.mp hlookup).2

theorem exists_lookup_of_mem_files (h : p ∈ (discover t root o).files)
    (hshort : t.overlong p = false) : ∃ l content, t.lookup p = .ok (l, .file content) := by
  obtain ⟨start, names, name, hroot, hfinds, rfl⟩ := mem_files_discover_iff.mp h
  obtain ⟨here, trail, hdescent, hscript⟩ := hfinds.script
  rcases hscript with ⟨content, hfile⟩ | ⟨-, hlinked⟩
  · obtain ⟨hleads, hhere⟩ := hdescent.leadsTo hroot
    have hpath := hleads.join hhere hfile nofun
    rw [← joinAll_concat] at hpath
    exact ⟨_, content, FileTree.lookup_eq_ok_iff.mpr ⟨hshort, hpath, hfile⟩⟩
  · exact hlinked

end Walk

namespace Run

variable {t : FileTree} {c : Config} {root p : Bytes} {s : Session} {e : FileError}

theorem collect_of_no_files (hrecursive : c.recursive = true) (hfiles : c.files = []) :
    (collect c t root).1 = (Walk.discover t root { extensions := c.extensions }).files := by
  simp [collect, hrecursive, hfiles]

theorem firstUnreadable_of_generate (h : (generate c root s).1 = .error (.read p e)) :
    s.tree.FirstUnreadable (collect c s.tree root).1 p e := by
  have hending := ending_generate c root s
  generalize (generate c root s).2.tree = t, (generate c root s).2.stdout = out at hending
  rw [h] at hending
  cases hending with
  | unreadable hfirst => exact hfirst

theorem recursive_run_reads_every_script (root : Bytes) (s : Session)
    (hlimit : s.tree.pathLimit = none) :
    (∀ o, ∀ p ∈ (Walk.discover s.tree root o).files, ∃ text, s.tree.read p = .ok text) ∧
      ∀ c : Config, c.recursive = true → c.files = [] →
        ∀ p e, (generate c root s).1 ≠ .error (.read p e) := by
  have hreads : ∀ o, ∀ p ∈ (Walk.discover s.tree root o).files, ∃ text, s.tree.read p = .ok text := by
    intro o p hp
    obtain ⟨l, text, hlookup⟩ :=
      Walk.exists_lookup_of_mem_files hp (FileTree.not_overlong_of_unlimited hlimit)
    exact ⟨text, FileTree.read_eq_ok_iff.mpr ⟨l, hlookup⟩⟩
  refine ⟨hreads, fun c hrecursive hfiles p e herror => ?_⟩
  obtain ⟨before, after, hcollected, -, hunreadable⟩ := firstUnreadable_of_generate herror
  have hp : p ∈ (collect c s.tree root).1 := hcollected ▸ List.mem_append_right _ List.mem_cons_self
  rw [collect_of_no_files hrecursive hfiles] at hp
  obtain ⟨text, hread⟩ := hreads _ p hp
  cases hread.symm.trans hunreadable

-- A root that is a link to `lib`, through a link in `lib` that leads out of it and back; below
-- it a script, a link to that script, a link to nothing and a link to a directory, all named as
-- scripts.
namespace Shortcut

def lib : Name := ⟨Bytes.ofString "lib", by decide⟩

def up : Name := ⟨Bytes.ofString "up", by decide⟩

def script : Name := ⟨Bytes.ofString "main.ahk", by decide⟩

def other : Name := ⟨Bytes.ofString "b.ahk", by decide⟩

def dangling : Name := ⟨Bytes.ofString "c.ahk", by decide⟩

def away : Name := ⟨Bytes.ofString "d.ahk", by decide⟩

def shortcut : Name := ⟨Bytes.ofString "s", by decide⟩

def tree : FileTree where
  nodes := [([lib], .dir), ([up, lib], .link (Bytes.ofString "..")),
    ([script, lib], .file (Bytes.ofString "Go:")),
    ([other, lib], .link (Bytes.ofString "up/lib/main.ahk")),
    ([dangling, lib], .link (Bytes.ofString "gone.ahk")), ([away, lib], .link (Bytes.ofString "..")),
    ([shortcut], .link (Bytes.ofString "lib/up/lib"))]
  pathLimit := none

def base : Bytes :=
  Bytes.ofString "s//"

def config : Config where
  recursive := true
  destination := .stdout

end Shortcut

theorem recursive_run_reads_through_shortcut :
    Shortcut.tree.pathLimit = none ∧
      joinAll Shortcut.base [Shortcut.up, Shortcut.lib, Shortcut.other] ∈
        (Walk.discover Shortcut.tree Shortcut.base { followLinks := true }).files ∧
      (∃ text, Shortcut.tree.read
        (joinAll Shortcut.base [Shortcut.up, Shortcut.lib, Shortcut.other]) = .ok text) ∧
      Shortcut.config.recursive = true ∧ Shortcut.config.files = [] ∧
      ∀ p e, (generate Shortcut.config Shortcut.base { tree := Shortcut.tree }).1 ≠
        .error (.read p e) := by
  have hfound : joinAll Shortcut.base [Shortcut.up, Shortcut.lib, Shortcut.other] ∈
      (Walk.discover Shortcut.tree Shortcut.base { followLinks := true }).files := by
    decide +kernel
  obtain ⟨hreads, hruns⟩ :=
    recursive_run_reads_every_script Shortcut.base { tree := Shortcut.tree } rfl
  exact ⟨rfl, hfound, hreads _ _ hfound, rfl, rfl, hruns Shortcut.config rfl rfl⟩

end Run

end ScriptTags
