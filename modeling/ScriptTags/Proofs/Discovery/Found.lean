import ScriptTags.Discovery.Walk
import ScriptTags.Proofs.Discovery.Descent
import ScriptTags.Proofs.Discovery.Selection
import ScriptTags.Proofs.FileTree.Names
import ScriptTags.Proofs.FileTree.Resolution

namespace ScriptTags

open ScriptTags.Path

def FileTree.LeadsToFile (t : FileTree) (path : Bytes) (l : Location) : Prop :=
  (∃ content, t.node? l = some (.file content)) ∨
    (∃ target, t.node? l = some (.link target)) ∧
      ∃ l' content, t.lookup path = .ok (l', .file content)

namespace Walk

structure Reaches (t : FileTree) (o : Options) (path : Bytes) (start : List Location)
    (names : List Name) (name : Name) : Prop where
  script : ∃ here trail, Descent t o.followLinks path start names (here :: trail) ∧
    t.LeadsToFile (joinAll path (names ++ [name])) (name :: here)
  selected : o.Selects names name

/-- A script is found where the path of its directory is not too long to be read; those of the
directories above are shorter. -/
structure Finds (t : FileTree) (o : Options) (path : Bytes) (start : List Location)
    (names : List Name) (name : Name) : Prop extends Reaches t o path start names name where
  readable : t.overlong (joinAll path names) = false

variable {t : FileTree} {o : Options} {trail : List Ancestor} {here l : Location}
  {rest start : List Location} {path p : Bytes} {n name : Name} {names : List Name}

theorem length_le_joinAll (path : Bytes) (names : List Name) :
    path.length ≤ (joinAll path names).length := by
  induction names generalizing path with
  | nil => exact Nat.le_refl _
  | cons n names ih =>
      refine Nat.le_trans ?_ (ih (join path n))
      rw [join]
      split <;> rw [List.length_append] <;> exact Nat.le_add_right _ _

theorem not_overlong_of_joinAll (h : t.overlong (joinAll path names) = false) :
    t.overlong path = false :=
  FileTree.not_overlong_of_length_le h (length_le_joinAll path names)

theorem finds_nil_iff :
    Finds t o path (here :: rest) [] name ↔
      t.LeadsToFile (join path name) (name :: here) ∧ o.wants name = true ∧
        t.overlong path = false := by
  rw [← Options.selects_nil_iff]
  constructor
  · rintro ⟨⟨⟨here', trail, hdescent, hscript⟩, hselected⟩, hreadable⟩
    cases descent_nil_iff.mp hdescent
    exact ⟨hscript, hselected, hreadable⟩
  · rintro ⟨hscript, hselected, hreadable⟩
    exact ⟨⟨⟨here, rest, .here, hscript⟩, hselected⟩, hreadable⟩

theorem finds_cons_iff :
    Finds t o path start (n :: names) name ↔
      ∃ l, Enters t o.followLinks (join path n) n start l ∧ o.hides n = false ∧
        Finds t o (join path n) (l :: start) names name := by
  constructor
  · rintro ⟨⟨⟨here, trail, hdescent, hscript⟩, hselected⟩, hreadable⟩
    obtain ⟨l, henters, hdescent⟩ := descent_cons_iff.mp hdescent
    obtain ⟨hn, hselected⟩ := Options.selects_cons_iff.mp hselected
    exact ⟨l, henters, hn, ⟨⟨here, trail, hdescent, hscript⟩, hselected⟩, hreadable⟩
  · rintro ⟨l, henters, hn, ⟨⟨here, trail, hdescent, hscript⟩, hselected⟩, hreadable⟩
    exact ⟨⟨⟨here, trail, hdescent.cons henters, hscript⟩,
      Options.selects_cons_iff.mpr ⟨hn, hselected⟩⟩, hreadable⟩

theorem judge_file_eq_take_iff {content : Bytes} :
    o.judge name l (.file content) = .take ↔ o.wants name = true := by
  rw [Options.judge]
  cases o.wants name <;> simp

theorem judge_dir_eq_enter_iff {l' : Location} :
    o.judge name l .dir = .enter l' ↔ o.hides name = false ∧ l' = l := by
  rw [Options.judge]
  cases o.hides name <;> simp [eq_comm]

theorem judge_dir_ne_take : o.judge name l .dir ≠ .take := by
  rw [Options.judge]
  cases o.hides name <;> simp

theorem followed_eq_take_iff {target : Except SystemError (Location × Node)} :
    followed o trail path name target = .take ↔
      (∃ l content, target = .ok (l, .file content)) ∧ o.wants name = true := by
  cases target with
  | error e =>
      rw [followed]
      cases o.followLinks <;> simp
  | ok place =>
      obtain ⟨l, node⟩ := place
      cases node with
      | file content => simp [followed, judge_file_eq_take_iff]
      | link target => simp [followed, Options.judge]
      | dir =>
          have hne : followed o trail path name (.ok (l, .dir)) ≠ .take := by
            rw [followed]
            split
            · split
              · simp
              · exact judge_dir_ne_take
            · simp
          simp [hne]

theorem followed_eq_enter_iff {target : Except SystemError (Location × Node)} :
    followed o trail path name target = .enter l ↔
      o.followLinks = true ∧ target = .ok (l, .dir) ∧ l ∉ trail.map Ancestor.location ∧
        o.hides name = false := by
  cases target with
  | error e =>
      rw [followed]
      cases o.followLinks <;> simp
  | ok place =>
      obtain ⟨l', node⟩ := place
      cases node with
      | file content =>
          have hne : o.judge name l' (.file content) ≠ .enter l := fun h =>
            nomatch (judge_eq_enter h).2
          simpa [followed] using hne
      | link target => simp [followed, Options.judge]
      | dir =>
          rw [followed]
          cases o.followLinks with
          | false => simp
          | true =>
              cases hfind : trail.find? (·.location = l') with
              | some a =>
                  have hlocation : a.location = l' := by simpa using List.find?_some hfind
                  have hmem : l' ∈ trail.map Ancestor.location :=
                    List.mem_map.mpr ⟨a, List.mem_of_find?_eq_some hfind, hlocation⟩
                  simp only [if_true, reduceCtorEq, false_iff]
                  rintro ⟨-, heq, hoff, -⟩
                  cases heq
                  exact hoff hmem
              | none =>
                  have hoff : l' ∉ trail.map Ancestor.location := by
                    simpa using List.find?_eq_none.mp hfind
                  simp only [if_true, judge_dir_eq_enter_iff]
                  constructor
                  · rintro ⟨hvisible, rfl⟩
                    exact ⟨trivial, rfl, hoff, hvisible⟩
                  · rintro ⟨-, heq, -, hvisible⟩
                    cases heq
                    exact ⟨hvisible, rfl⟩

theorem verdict_eq_take_iff :
    verdict t o trail here path name = .take ↔
      t.LeadsToFile (join path name) (name :: here) ∧ o.wants name = true := by
  rw [verdict, FileTree.LeadsToFile]
  cases t.node? (name :: here) with
  | none => simp
  | some node =>
      cases node with
      | file content => simp [judge_file_eq_take_iff]
      | dir => simp [judge_dir_ne_take]
      | link target => simp [followed_eq_take_iff]

theorem verdict_eq_enter_iff (htrail : trail.map Ancestor.location = here :: rest) :
    verdict t o trail here path name = .enter l ↔
      Enters t o.followLinks (join path name) name (here :: rest) l ∧ o.hides name = false := by
  rw [verdict, enters_cons_iff]
  cases t.node? (name :: here) with
  | none => simp
  | some node =>
      cases node with
      | file content =>
          have hne : o.judge name (name :: here) (.file content) ≠ .enter l := fun h =>
            nomatch (judge_eq_enter h).2
          simpa using hne
      | dir => simp [judge_dir_eq_enter_iff, and_comm]
      | link target => simp [followed_eq_enter_iff, htrail, and_assoc]

def visitsAt (t : FileTree) (o : Options) (trail : List Ancestor) (here : Location) (path : Bytes)
    (name : Name) : List Visit :=
  match verdict t o trail here path name with
  | .ignore => []
  | .take => [.found (join path name)]
  | .report e => [.skipped e]
  | .enter l =>
      match barrier? t (join path name) with
      | some e => [.skipped e]
      | none => walk t o (⟨l, join path name⟩ :: trail) l (join path name)

theorem walk_eq_flatMap (t : FileTree) (o : Options) (trail : List Ancestor) (here : Location)
    (path : Bytes) :
    walk t o trail here path = (t.names here).flatMap (visitsAt t o trail here path) := by
  rw [walk]
  congr 1
  funext name
  rw [visitsAt]
  split
  next h => exact h ▸ rfl
  next h => exact h ▸ rfl
  next h => exact h ▸ rfl
  next h => exact h ▸ rfl

theorem found_mem_visitsAt_iff :
    .found p ∈ visitsAt t o trail here path name ↔
      (verdict t o trail here path name = .take ∧ p = join path name) ∨
        ∃ l, verdict t o trail here path name = .enter l ∧ t.overlong (join path name) = false ∧
          .found p ∈ walk t o (⟨l, join path name⟩ :: trail) l (join path name) := by
  rw [visitsAt]
  cases verdict t o trail here path name with
  | ignore => simp
  | take => simp
  | report e => simp
  | enter l =>
      rw [barrier?]
      cases t.overlong (join path name) with
      | true => simp
      | false => simp

theorem mem_names_of_mem_visitsAt {v : Visit} (h : v ∈ visitsAt t o trail here path name) :
    name ∈ t.names here := by
  rw [FileTree.mem_names]
  rw [visitsAt, verdict] at h
  cases hnode : t.node? (name :: here) with
  | none => simp [hnode] at h
  | some node => exact ⟨node, rfl⟩

theorem locations_cons {a : Ancestor} (htrail : trail.map Ancestor.location = here :: rest) :
    (a :: trail).map Ancestor.location = a.location :: here :: rest := by
  rw [List.map_cons, htrail]

theorem found_mem_walk_iff (htrail : trail.map Ancestor.location = here :: rest)
    (hread : t.overlong path = false) :
    .found p ∈ walk t o trail here path ↔
      ∃ names name, Finds t o path (here :: rest) names name ∧
        p = joinAll path (names ++ [name]) := by
  induction trail, here, path using walk.induct t o generalizing rest with
  | case1 trail here path ih =>
      rw [walk_eq_flatMap, List.mem_flatMap]
      constructor
      · rintro ⟨n, -, hn⟩
        rcases found_mem_visitsAt_iff.mp hn with ⟨htake, rfl⟩ | ⟨l, henter, hread', hbelow⟩
        · obtain ⟨hscript, hwanted⟩ := verdict_eq_take_iff.mp htake
          exact ⟨[], n, finds_nil_iff.mpr ⟨hscript, hwanted, hread⟩, rfl⟩
        · obtain ⟨henters, hvisible⟩ := (verdict_eq_enter_iff htrail).mp henter
          have hfound := ih n l henter (locations_cons htrail) hread'
          obtain ⟨names, name, hfinds, rfl⟩ := hfound.mp hbelow
          exact ⟨n :: names, name, finds_cons_iff.mpr ⟨l, henters, hvisible, hfinds⟩, rfl⟩
      · rintro ⟨names, name, hfinds, rfl⟩
        cases names with
        | nil =>
            obtain ⟨hscript, hwanted, -⟩ := finds_nil_iff.mp hfinds
            have htake : verdict t o trail here path name = .take :=
              verdict_eq_take_iff.mpr ⟨hscript, hwanted⟩
            have hvisit := found_mem_visitsAt_iff.mpr (Or.inl ⟨htake, rfl⟩)
            exact ⟨name, mem_names_of_mem_visitsAt hvisit, hvisit⟩
        | cons n names =>
            obtain ⟨l, henters, hvisible, hfinds⟩ := finds_cons_iff.mp hfinds
            have henter := (verdict_eq_enter_iff htrail).mpr ⟨henters, hvisible⟩
            have hread' := not_overlong_of_joinAll hfinds.readable
            have hfound := ih n l henter (locations_cons htrail) hread'
            have hbelow := hfound.mpr ⟨names, name, hfinds, rfl⟩
            have hvisit := found_mem_visitsAt_iff.mpr (Or.inr ⟨l, henter, hread', hbelow⟩)
            exact ⟨n, mem_names_of_mem_visitsAt hvisit, hvisit⟩

theorem mem_filterMap_file?_iff {visits : List Visit} :
    p ∈ visits.filterMap Visit.file? ↔ .found p ∈ visits := by
  rw [List.mem_filterMap]
  constructor
  · rintro ⟨v, hv, hfile⟩
    cases v with
    | found path =>
        cases hfile
        exact hv
    | skipped trouble => cases hfile
  · intro h
    exact ⟨_, h, rfl⟩

theorem exists_joinAll_of_found (htrail : trail.map Ancestor.location = here :: rest)
    (h : .found p ∈ visitsAt t o trail here path name) :
    ∃ names, p = joinAll path (name :: names) := by
  rcases found_mem_visitsAt_iff.mp h with ⟨-, rfl⟩ | ⟨l, -, hread, hbelow⟩
  · exact ⟨[], rfl⟩
  · obtain ⟨names, name', -, rfl⟩ :=
      (found_mem_walk_iff (locations_cons htrail) hread).mp hbelow
    exact ⟨names ++ [name'], rfl⟩

theorem pairwise_walk (htrail : trail.map Ancestor.location = here :: rest) :
    ((walk t o trail here path).filterMap Visit.file?).Pairwise
      fun p q => split p < split q := by
  induction trail, here, path using walk.induct t o generalizing rest with
  | case1 trail here path ih =>
      rw [walk_eq_flatMap, List.filterMap_flatMap, List.pairwise_flatMap]
      constructor
      · intro n _
        rw [visitsAt]
        cases hverdict : verdict t o trail here path n with
        | ignore => exact .nil
        | take => exact List.pairwise_singleton _ _
        | report e => exact .nil
        | enter l =>
            cases hbarrier : barrier? t (join path n) with
            | some e => exact .nil
            | none => exact ih n l hverdict (locations_cons htrail)
      · refine (FileTree.pairwise_names t here).imp fun {n m} hlt p hp q hq => ?_
        obtain ⟨ns, rfl⟩ := exists_joinAll_of_found htrail (mem_filterMap_file?_iff.mp hp)
        obtain ⟨ms, rfl⟩ := exists_joinAll_of_found htrail (mem_filterMap_file?_iff.mp hq)
        exact split_lt_split hlt ns ms

theorem mem_files_discover_iff {root : Bytes} :
    p ∈ (discover t root o).files ↔
      ∃ start names name, t.lookup root = .ok (start, .dir) ∧
        Finds t o root [start] names name ∧ p = joinAll root (names ++ [name]) := by
  rw [discover]
  split
  next start hlookup =>
    simp only [hlookup, Except.ok.injEq, Prod.mk.injEq, and_true]
    rw [mem_filterMap_file?_iff, found_mem_walk_iff rfl (FileTree.not_overlong_of_lookup hlookup)]
    simp
  next hother =>
    constructor
    · intro h
      cases h
    · rintro ⟨start, -, -, hlookup, -⟩
      exact absurd hlookup (hother start)

theorem pairwise_files_discover (t : FileTree) (root : Bytes) (o : Options) :
    (discover t root o).files.Pairwise fun p q => split p < split q := by
  rw [discover]
  split
  · exact pairwise_walk rfl
  · exact .nil

theorem nodup_files_discover (t : FileTree) (root : Bytes) (o : Options) :
    (discover t root o).files.Nodup := by
  refine (pairwise_files_discover t root o).imp fun {p q} hlt heq => ?_
  rw [heq] at hlt
  exact List.lt_irrefl _ hlt

end Walk

end ScriptTags
