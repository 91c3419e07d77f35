import ScriptTags.Proofs.Discovery.Found
import Mathlib.Data.List.Infix

/-!
The switches of a discovery as filters. Whether a script is found depends on its own path only, so
leaving out hidden names or links on the way is the same as dropping paths from the longer list.
-/

namespace ScriptTags

instance : DecidablePred Name.Hidden :=
  fun _ => inferInstanceAs (Decidable (_ ∧ _))

def Name.ofBytes? (bs : Bytes) : Option Name :=
  if h : IsName bs then some ⟨bs, h⟩ else none

namespace Path

def namesBelow (directory path : Bytes) : List Name :=
  ((split path).drop (stem directory).length).filterMap Name.ofBytes?

theorem filterMap_ofBytes? (names : List Name) :
    (names.map Name.bytes).filterMap Name.ofBytes? = names := by
  induction names with
  | nil => rfl
  | cons name names ih =>
      have hname : Name.ofBytes? name.bytes = some name := dif_pos name.valid
      rw [List.map_cons, List.filterMap_cons_some hname, ih]

theorem namesBelow_joinAll (directory : Bytes) {names : List Name} (h : names ≠ []) :
    namesBelow directory (joinAll directory names) = names := by
  obtain ⟨name, names, rfl⟩ := List.exists_cons_of_ne_nil h
  rw [namesBelow, split_joinAll, List.drop_left, filterMap_ofBytes?]

end Path

open ScriptTags.Path

def FileTree.goesStraight (t : FileTree) (root path : Bytes) : Bool :=
  match t.lookup root with
  | .ok (start, .dir) =>
      (namesBelow root path).dropLast.inits.all fun above =>
        t.node? (above.reverse ++ start) = some .dir
  | _ => false

namespace Walk

variable {t : FileTree} {o o' : Options} {follow : Bool} {root path p : Bytes} {start : Location}
  {l l' : Location} {trail dirs dirs' : List Location} {name : Name} {names : List Name}

theorem Enters.unique (h : Enters t follow path name trail l)
    (h' : Enters t follow path name trail l') : l = l' := by
  cases h with
  | real hdir =>
      cases h' with
      | real _ => rfl
      | link _ hlink _ _ => cases hdir.symm.trans hlink
  | link _ hlink hlookup _ =>
      cases h' with
      | real hdir => cases hdir.symm.trans hlink
      | link _ _ hlookup' _ => cases hlookup.symm.trans hlookup'; rfl

theorem Descent.unique (h : Descent t follow root trail names dirs)
    (h' : Descent t follow root trail names dirs') : dirs = dirs' := by
  induction names generalizing root trail with
  | nil => rw [descent_nil_iff.mp h, descent_nil_iff.mp h']
  | cons name names ih =>
      obtain ⟨l, henters, hbelow⟩ := descent_cons_iff.mp h
      obtain ⟨l', henters', hbelow'⟩ := descent_cons_iff.mp h'
      obtain rfl := henters.unique henters'
      exact ih hbelow hbelow'

theorem Enters.of_real (h : Enters t false path name trail l) :
    Enters t follow path name trail l := by
  cases h with
  | real hdir => exact .real hdir
  | link hfollow _ _ _ => cases hfollow

theorem Descent.of_real (h : Descent t false root trail names dirs) :
    Descent t follow root trail names dirs := by
  induction h with
  | here => exact .here
  | into _ henters ih => exact .into ih henters.of_real

theorem finds_skipHidden_iff :
    Finds t { o with skipHidden := true } root trail names name ↔
      Finds t { o with skipHidden := false } root trail names name ∧
        ∀ n ∈ names ++ [name], ¬n.Hidden := by
  constructor
  · rintro ⟨⟨hscript, hvisible, hextension⟩, hreadable⟩
    exact ⟨⟨⟨hscript, nofun, hextension⟩, hreadable⟩, hvisible rfl⟩
  · rintro ⟨⟨⟨hscript, -, hextension⟩, hreadable⟩, hvisible⟩
    exact ⟨⟨hscript, fun _ => hvisible, hextension⟩, hreadable⟩

theorem finds_followLinks_iff (hstart : t.node? start = some .dir) :
    Finds t { o with followLinks := false } root [start] names name ↔
      Finds t { o with followLinks := true } root [start] names name ∧
        ∀ above, above <+: names → t.node? (above.reverse ++ start) = some .dir := by
  constructor
  · rintro ⟨⟨⟨here, trail, hdescent, hscript⟩, hvisible, hextension⟩, hreadable⟩
    obtain ⟨hreal, -⟩ := (exists_descent_real_iff hstart).mp ⟨trail, hdescent⟩
    exact ⟨⟨⟨⟨here, trail, hdescent.of_real, hscript⟩, hvisible, hextension⟩, hreadable⟩, hreal⟩
  · rintro ⟨⟨⟨⟨here, trail, hdescent, hscript⟩, hvisible, hextension⟩, hreadable⟩, hreal⟩
    obtain ⟨trail', hdescent'⟩ := (exists_descent_real_iff hstart).mpr ⟨hreal, rfl⟩
    -- The trail through real directories is the one that following links takes too.
    cases hdescent.unique hdescent'.of_real
    exact ⟨⟨⟨_, trail, hdescent', hscript⟩, hvisible, hextension⟩, hreadable⟩

theorem files_discover_eq_filter (keep : Bytes → Bool)
    (h : ∀ p, p ∈ (discover t root o).files ↔ p ∈ (discover t root o').files ∧ keep p = true) :
    (discover t root o).files = (discover t root o').files.filter keep := by
  have hperm : (discover t root o).files.Perm ((discover t root o').files.filter keep) := by
    rw [List.perm_ext_iff_of_nodup (nodup_files_discover t root o)
      ((nodup_files_discover t root o').filter keep)]
    intro p
    rw [h, List.mem_filter]
  have hasymm : ∀ p q : Bytes, p ∈ (discover t root o).files →
      q ∈ (discover t root o').files.filter keep → split p < split q → split q < split p → p = q :=
    fun p q _ _ hpq hqp => absurd hqp (List.lt_asymm hpq)
  exact hperm.eq_of_pairwise hasymm (pairwise_files_discover t root o)
    ((pairwise_files_discover t root o').filter keep)

theorem files_skipHidden_eq_filter (t : FileTree) (root : Bytes) (o : Options) :
    (discover t root { o with skipHidden := true }).files =
      (discover t root { o with skipHidden := false }).files.filter
        fun p => ∀ name ∈ namesBelow root p, ¬name.Hidden := by
  refine files_discover_eq_filter _ fun p => ?_
  rw [mem_files_discover_iff, mem_files_discover_iff, decide_eq_true_eq]
  constructor
  · rintro ⟨start, names, name, hlookup, hfinds, rfl⟩
    obtain ⟨hfinds, hvisible⟩ := finds_skipHidden_iff.mp hfinds
    rw [namesBelow_joinAll root (List.concat_ne_nil name names)]
    exact ⟨⟨start, names, name, hlookup, hfinds, rfl⟩, hvisible⟩
  · rintro ⟨⟨start, names, name, hlookup, hfinds, rfl⟩, hvisible⟩
    rw [namesBelow_joinAll root (List.concat_ne_nil name names)] at hvisible
    exact ⟨start, names, name, hlookup, finds_skipHidden_iff.mpr ⟨hfinds, hvisible⟩, rfl⟩

theorem goesStraight_joinAll_iff (hlookup : t.lookup root = .ok (start, .dir)) :
    t.goesStraight root (joinAll root (names ++ [name])) = true ↔
      ∀ above, above <+: names → t.node? (above.reverse ++ start) = some .dir := by
  rw [FileTree.goesStraight, hlookup]
  simp only
  rw [namesBelow_joinAll root (List.concat_ne_nil name names)]
  simp [List.mem_inits]

theorem files_followLinks_eq_filter (t : FileTree) (root : Bytes) (o : Options) :
    (discover t root { o with followLinks := false }).files =
      (discover t root { o with followLinks := true }).files.filter (t.goesStraight root) := by
  refine files_discover_eq_filter _ fun p => ?_
  rw [mem_files_discover_iff, mem_files_discover_iff]
  constructor
  · rintro ⟨start, names, name, hlookup, hfinds, rfl⟩
    obtain ⟨hfinds, hreal⟩ := (finds_followLinks_iff (node?_of_lookup hlookup)).mp hfinds
    exact ⟨⟨start, names, name, hlookup, hfinds, rfl⟩, (goesStraight_joinAll_iff hlookup).mpr hreal⟩
  · rintro ⟨⟨start, names, name, hlookup, hfinds, rfl⟩, hstraight⟩
    have hreal := (goesStraight_joinAll_iff hlookup).mp hstraight
    exact ⟨start, names, name, hlookup,
      (finds_followLinks_iff (node?_of_lookup hlookup)).mpr ⟨hfinds, hreal⟩, rfl⟩

theorem discovery_switches_are_filters (t : FileTree) (root : Bytes) (extensions : List String) :
    (∀ followLinks,
      (discover t root { extensions, skipHidden := true, followLinks }).files =
        (discover t root { extensions, skipHidden := false, followLinks }).files.filter
          fun p => ∀ name ∈ namesBelow root p, ¬name.Hidden) ∧
    ∀ skipHidden,
      (discover t root { extensions, skipHidden, followLinks := false }).files =
        (discover t root { extensions, skipHidden, followLinks := true }).files.filter
          (t.goesStraight root) :=
  ⟨fun followLinks => files_skipHidden_eq_filter t root { extensions, followLinks },
    fun skipHidden => files_followLinks_eq_filter t root { extensions, skipHidden }⟩

end Walk

end ScriptTags
