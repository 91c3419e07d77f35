import ScriptTags.FileTree.Basic

namespace ScriptTags

theorem Name.eq_of_bytes {m n : Name} (h : m.bytes = n.bytes) : m = n := by
  cases m
  cases n
  cases h
  rfl

namespace FileTree

variable {t : FileTree} {directory : Location} {m n : Name} {ns : List Name}

theorem mem_insertName : m ∈ insertName n ns ↔ m = n ∨ m ∈ ns := by
  induction ns with
  | nil => simp [insertName]
  | cons k ks ih =>
      rw [insertName]
      split
      next h => simp [h]
      next h =>
        split
        · exact List.mem_cons
        · rw [List.mem_cons, ih, List.mem_cons, or_left_comm]

theorem pairwise_insertName (h : ns.Pairwise fun a b => a.bytes < b.bytes) :
    (insertName n ns).Pairwise fun a b => a.bytes < b.bytes := by
  induction ns with
  | nil => exact List.pairwise_singleton _ n
  | cons k ks ih =>
      obtain ⟨hk, hks⟩ := List.pairwise_cons.mp h
      rw [insertName]
      split
      next => exact h
      next hne =>
        split
        next hle =>
          have hlt : n.bytes < k.bytes :=
            Std.lt_of_le_of_ne hle fun heq => hne (Name.eq_of_bytes heq)
          refine List.pairwise_cons.mpr ⟨fun x hx => ?_, h⟩
          rcases List.mem_cons.mp hx with rfl | hx
          · exact hlt
          · exact List.lt_trans hlt (hk x hx)
        next hle =>
          refine List.pairwise_cons.mpr ⟨fun x hx => ?_, ih hks⟩
          rcases mem_insertName.mp hx with rfl | hx
          · exact List.not_le.mp hle
          · exact hk x hx

theorem pairwise_names (t : FileTree) (directory : Location) :
    (t.names directory).Pairwise fun a b => a.bytes < b.bytes := by
  rw [names]
  generalize t.nodes.filterMap (fun entry => nameIn? directory entry.1) = found
  induction found with
  | nil => exact List.Pairwise.nil
  | cons n found ih => exact pairwise_insertName ih

theorem nameIn?_eq_some_iff {l : Location} :
    nameIn? directory l = some n ↔ l = n :: directory := by
  cases l with
  | nil => simp [nameIn?]
  | cons m parent => simp [nameIn?, and_comm]

theorem exists_node?_iff :
    (∃ node, t.node? (n :: directory) = some node) ↔
      ∃ entry ∈ t.nodes, entry.1 = n :: directory := by
  rw [node?]
  constructor
  · rintro ⟨node, h⟩
    exact ⟨_, mem_of_lookup h, rfl⟩
  · rintro ⟨entry, hentry, hkey⟩
    rw [← Option.isSome_iff_exists, Option.isSome_iff_ne_none]
    intro hnone
    have hne := List.lookup_eq_none_iff.mp hnone entry hentry
    simp [hkey] at hne

theorem mem_names : n ∈ t.names directory ↔ ∃ node, t.node? (n :: directory) = some node := by
  have hfound : ∀ found : List Name, n ∈ found.foldr insertName [] ↔ n ∈ found := by
    intro found
    induction found with
    | nil => exact Iff.rfl
    | cons m found ih => rw [List.foldr_cons, mem_insertName, ih, List.mem_cons]
  rw [names, hfound, List.mem_filterMap, exists_node?_iff]
  simp only [nameIn?_eq_some_iff]

end FileTree

end ScriptTags
