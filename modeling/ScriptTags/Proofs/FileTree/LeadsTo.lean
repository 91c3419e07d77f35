import ScriptTags.Proofs.FileTree.Join
import ScriptTags.Proofs.FileTree.Resolution

namespace ScriptTags

open ScriptTags.Path

namespace Path

variable {path : Bytes} {segments : List Segment}

theorem segments?_append_slash (a b : Bytes) :
    segments? (a ++ Byte.slash :: b) =
      (segments? a).bind fun s => (segments? b).map (s ++ ·) := by
  rw [segments?, segments?, segments?, split_append_slash, List.mapM_append]
  cases (split a).mapM Segment.ofBytes? with
  | none => rfl
  | some s => cases (split b).mapM Segment.ofBytes? <;> rfl

theorem segments?_name (name : Name) : segments? name.bytes = some [.into name] := by
  have hname : Segment.ofBytes? name.bytes = some (.into name) := by
    rw [Segment.ofBytes?, if_neg name.valid.1, if_neg name.valid.2.1, if_neg name.valid.2.2.1,
      dif_pos name.valid]
  rw [segments?, split_name, List.mapM_cons, hname]
  rfl

theorem exists_segments?_join (name : Name) (h : segments? path = some segments) :
    ∃ stem, (segments = stem ∨ segments = stem ++ [.empty]) ∧
      segments? (join path name) = some (stem ++ [.into name]) := by
  rw [join]
  split
  next hlast =>
    obtain ⟨front, rfl⟩ := List.getLast?_eq_some_iff.mp hlast
    rw [segments?_append_slash] at h
    obtain ⟨stem, hstem, hsegments⟩ := Option.bind_eq_some_iff.mp h
    cases hsegments
    refine ⟨stem, Or.inr rfl, ?_⟩
    rw [List.append_assoc, List.singleton_append, segments?_append_slash, hstem, segments?_name]
    rfl
  next =>
    refine ⟨segments, Or.inl rfl, ?_⟩
    rw [segments?_append_slash, h, segments?_name]
    rfl

theorem exists_join_eq_append (path : Bytes) (name : Name) :
    ∃ rest, join path name = path ++ rest ∧ Byte.nul ∉ rest := by
  have hname : Byte.nul ∉ name.bytes := name.valid.2.2.2.2
  rw [join]
  split
  · exact ⟨_, rfl, hname⟩
  · exact ⟨_, rfl, List.not_mem_cons_of_ne_of_not_mem (by decide) hname⟩

end Path

namespace FileTree

variable {t : FileTree} {path : Bytes} {here l : Location} {name : Name} {node : Node}

structure LeadsTo (t : FileTree) (path : Bytes) (l : Location) : Prop where
  nul : Byte.nul ∉ path
  nonempty : path ≠ []
  follows : ∃ segments, segments? path = some segments ∧
    Follows t linkLimit (origin path t.cwd) segments (.taken l)

theorem resolve_eq_taken_iff :
    t.resolve false path = .ok (.taken l) ↔ t.overlong path = false ∧ t.LeadsTo path l := by
  constructor
  · intro h
    obtain ⟨hnul, hshort, -⟩ := resolve_eq_ok_iff.mp h
    obtain ⟨hne, segments, hsegments, hfollows⟩ := follows_of_resolve h
    exact ⟨hshort, hnul, hne, segments, hsegments, hfollows⟩
  · rintro ⟨hshort, hnul, hne, segments, hsegments, hfollows⟩
    refine resolve_eq_ok_iff.mpr ⟨hnul, hshort, ?_⟩
    simpa [enter, hne, hsegments] using hfollows.follow

theorem lookup_eq_ok_iff :
    t.lookup path = .ok (l, node) ↔
      t.overlong path = false ∧ t.LeadsTo path l ∧ t.node? l = some node := by
  constructor
  · intro h
    obtain ⟨hresolve, hnode⟩ := exists_resolve_of_lookup h
    obtain ⟨hshort, hleads⟩ := resolve_eq_taken_iff.mp hresolve
    exact ⟨hshort, hleads, hnode⟩
  · rintro ⟨hshort, hleads, hnode⟩
    rw [lookup, resolve_eq_taken_iff.mpr ⟨hshort, hleads⟩]
    simp [hnode]

theorem origin_append {path : Bytes} (h : path ≠ []) (rest : Bytes) (here : Location) :
    origin (path ++ rest) here = origin path here := by
  rw [origin, origin, isAbsolute, isAbsolute, List.head?_append_of_ne_nil _ h]

theorem LeadsTo.join (h : t.LeadsTo path here) (hhere : t.node? here = some .dir)
    (hnode : t.node? (name :: here) = some node) (hlink : ∀ target, node ≠ .link target) :
    t.LeadsTo (join path name) (name :: here) := by
  obtain ⟨hnul, hne, segments, hsegments, hfollows⟩ := h
  obtain ⟨stem, hstem, hjoin⟩ := exists_segments?_join name hsegments
  obtain ⟨rest, hpath, hrest⟩ := exists_join_eq_append path name
  have hfront : Follows t linkLimit (origin path t.cwd) stem (.taken here) := by
    rcases hstem with rfl | rfl
    · exact hfollows
    · exact hfollows.of_append_empty
  refine ⟨?_, ?_, _, hjoin, ?_⟩
  · rw [hpath, List.mem_append]
    exact not_or.mpr ⟨hnul, hrest⟩
  · rw [hpath]
    exact List.append_ne_nil_of_left_ne_nil hne _
  · rw [hpath, origin_append hne]
    exact hfront.append fun n => .into hhere hnode hlink .done

end FileTree

end ScriptTags
