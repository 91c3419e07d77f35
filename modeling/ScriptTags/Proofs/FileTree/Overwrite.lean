import ScriptTags.Proofs.FileTree.Resolution

namespace ScriptTags.FileTree

theorem lookup_filter_ne {k l : Location} (h : k ≠ l) (table : List (Location × Node)) :
    (table.filter (·.1 ≠ l)).lookup k = table.lookup k := by
  induction table with
  | nil => rfl
  | cons entry rest ih =>
      obtain ⟨m, node⟩ := entry
      by_cases hm : m = l
      · subst hm
        rw [List.filter_cons_of_neg (by simp), ih, List.lookup_cons, beq_false_of_ne h]
      · rw [List.filter_cons_of_pos (by simpa using hm), List.lookup_cons, List.lookup_cons, ih]

variable {t t' : FileTree} {creating : Bool} {path content : Bytes} {k l : Location} {node : Node}

theorem node?_insert_self (h : l ≠ []) : (t.insert l node).node? l = some node := by
  cases l with
  | nil => exact absurd rfl h
  | cons name parent => exact List.lookup_cons_self

theorem node?_insert_of_ne (h : k ≠ l) : (t.insert l node).node? k = t.node? k := by
  cases k with
  | nil => rfl
  | cons name parent =>
      rw [insert, node?, node?, List.lookup_cons, beq_false_of_ne h]
      exact lookup_filter_ne h t.nodes

structure Overwritten (t : FileTree) (l : Location) (content : Bytes) (t' : FileTree) : Prop where
  cwd : t'.cwd = t.cwd
  pathLimit : t'.pathLimit = t.pathLimit
  before : ∀ node, t.node? l = some node → ∃ old, node = .file old
  after : t'.node? l = some (.file content)
  others : ∀ k, k ≠ l → t'.node? k = t.node? k

def Spot.filled (l : Location) : Spot → Spot
  | .taken k => .taken k
  | .free k => if k = l then .taken l else .free k

theorem Overwritten.dir_iff (h : Overwritten t l content t') (k : Location) :
    t'.node? k = some .dir ↔ t.node? k = some .dir := by
  by_cases hk : k = l
  · subst hk
    rw [h.after]
    refine ⟨nofun, fun hdir => ?_⟩
    obtain ⟨old, hold⟩ := h.before _ hdir
    cases hold
  · rw [h.others k hk]

theorem Overwritten.carries (h : Overwritten t l content t') :
    Carries t t' creating creating (Spot.filled l) := by
  refine ⟨h.cwd, h.pathLimit, carriedFrom_of_into h.dir_iff (fun _ => rfl)
    fun here name rest hhere ih => ?_⟩
  rw [CarriedFrom, FileTree.advance, FileTree.advance, if_pos hhere,
    if_pos ((h.dir_iff here).mpr hhere)]
  split
  · exact Or.inl ⟨_, rfl⟩
  · by_cases hl : name :: here = l
    · subst hl
      rw [h.after]
      cases hnode : t.node? (name :: here) with
      | none =>
          dsimp only
          split
          · exact Or.inl ⟨_, rfl⟩
          · split
            next hrest =>
              rw [List.isEmpty_iff.mp hrest]
              simp [Stop.map, Spot.filled, FileTree.advance]
            · exact Or.inl ⟨_, rfl⟩
      | some node =>
          obtain ⟨old, rfl⟩ := h.before node hnode
          exact ih (name :: here)
    · rw [h.others _ hl]
      split
      · exact Or.inr rfl
      · exact ih (name :: here)
      · split
        · exact Or.inl ⟨_, rfl⟩
        · split
          · exact Or.inr (by rw [Stop.map, Spot.filled, if_neg hl])
          · exact Or.inl ⟨_, rfl⟩

theorem overwritten_insert (h : ∀ node, t.node? l = some node → ∃ old, node = .file old) :
    Overwritten t l content (t.insert l (.file content)) where
  cwd := rfl
  pathLimit := rfl
  before := h
  after := by
    refine node?_insert_self fun hl => ?_
    subst hl
    obtain ⟨old, hold⟩ := h .dir rfl
    cases hold
  others _ hk := node?_insert_of_ne hk

def Spot.location : Spot → Location
  | .taken l => l
  | .free l => l

@[simp]
theorem Spot.filled_location (s : Spot) : s.filled s.location = .taken s.location := by
  cases s with
  | taken l => rfl
  | free l => exact if_pos rfl

theorem exists_spot_of_write (h : t.write path content = .ok t') :
    ∃ spot, t.resolve true path = .ok spot ∧
      (∀ node, t.node? spot.location = some node → ∃ old, node = .file old) ∧
        t' = t.insert spot.location (.file content) := by
  rw [write] at h
  split at h
  · cases h
  next l hresolve =>
    cases h
    refine ⟨.free l, hresolve, fun node hnode => ?_, rfl⟩
    have hnone : t.node? l = none := node?_of_resolve_free hresolve
    cases hnone.symm.trans hnode
  next l hresolve =>
    split at h
    next old hold =>
      cases h
      refine ⟨.taken l, hresolve, fun node hnode => ⟨old, ?_⟩, rfl⟩
      exact Option.some.inj (hnode.symm.trans hold)
    · cases h

theorem insert_insert (t : FileTree) (l : Location) (node node' : Node) :
    (t.insert l node').insert l node = t.insert l node := by
  simp [insert, List.filter_filter]

theorem write_again (h : t.write path content = .ok t') : t'.write path content = .ok t' := by
  obtain ⟨spot, hresolve, hbefore, rfl⟩ := exists_spot_of_write h
  have hwritten : Overwritten t spot.location content _ := overwritten_insert hbefore
  have hfound := hwritten.carries.resolve hresolve
  rw [Spot.filled_location] at hfound
  rw [write, hfound]
  simp only [hwritten.after, insert_insert]

theorem overwritten_of_write (h : t.write path content = .ok t')
    (hlookup : t.lookup path = .ok (l, node)) : Overwritten t l content t' := by
  obtain ⟨spot, hresolve, hbefore, rfl⟩ := exists_spot_of_write h
  have htaken := (carries_creating t).resolve hresolve
  cases (exists_resolve_of_lookup hlookup).1.symm.trans htaken
  exact overwritten_insert hbefore

def Writes (t : FileTree) (path content : Bytes) (t' : FileTree) : Prop :=
  ∃ l, Overwritten t l content t' ∧ t'.lookup path = .ok (l, .file content)

theorem writes_of_write (h : t.write path content = .ok t') : Writes t path content t' := by
  obtain ⟨spot, hresolve, hbefore, rfl⟩ := exists_spot_of_write h
  have hwritten : Overwritten t spot.location content _ := overwritten_insert hbefore
  -- the links on the way are as before, and what was free at the end is now taken
  have hfound := hwritten.carries.resolve ((carries_creating t).resolve hresolve)
  rw [id, Spot.filled_location] at hfound
  refine ⟨spot.location, hwritten, ?_⟩
  rw [lookup, hfound]
  simp only [hwritten.after]

theorem Writes.read (h : Writes t path content t') : t'.read path = .ok content := by
  obtain ⟨l, -, hlookup⟩ := h
  rw [FileTree.read, hlookup]

end ScriptTags.FileTree
