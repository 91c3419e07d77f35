import ScriptTags.FileTree.Resolve

namespace ScriptTags.FileTree

variable {t t' : FileTree} {creating creating' : Bool} {path : Bytes} {spot : Spot}
  {here l : Location} {f : Spot → Spot}

theorem resolve_eq_ok_iff :
    t.resolve creating path = .ok spot ↔
      Byte.nul ∉ path ∧ t.overlong path = false ∧
        t.follow creating linkLimit (t.enter creating t.cwd path []) = .ok spot := by
  rw [resolve]
  simp only [List.contains_iff_mem]
  by_cases hnul : Byte.nul ∈ path
  · simp [hnul]
  · cases t.overlong path <;> simp [hnul]

theorem exists_resolve_of_lookup {place : Location × Node} (h : t.lookup path = .ok place) :
    t.resolve false path = .ok (.taken place.1) ∧ t.node? place.1 = some place.2 := by
  rw [lookup] at h
  split at h
  · cases h
  · cases h
  next l hresolve =>
    split at h
    next node hnode =>
      cases h
      exact ⟨hresolve, hnode⟩
    · cases h

theorem not_overlong_of_length_le {short : Bytes} (h : t.overlong path = false)
    (hlength : short.length ≤ path.length) : t.overlong short = false := by
  rw [overlong] at h ⊢
  cases hlimit : t.pathLimit with
  | none => rfl
  | some limit =>
      simp only [hlimit, Option.any_some, decide_eq_false_iff_not] at h ⊢
      omega

theorem not_overlong_of_unlimited (h : t.pathLimit = none) : t.overlong path = false := by
  rw [overlong, h]
  rfl

theorem not_overlong_of_lookup {place : Location × Node} (h : t.lookup path = .ok place) :
    t.overlong path = false :=
  (resolve_eq_ok_iff.mp (exists_resolve_of_lookup h).1).2.1

/-- Segments that are not refused lead to a spot, through directories and at most so many links. -/
inductive Follows (t : FileTree) : Nat → Location → List Segment → Spot → Prop
  | done {n : Nat} {here : Location} : Follows t n here [] (.taken here)
  | missing {n : Nat} {here : Location} {name : Name} :
      t.node? here = some .dir → t.node? (name :: here) = none → name.bytes.length ≤ nameLimit →
      Follows t n here [.into name] (.free (name :: here))
  | empty {n : Nat} {here : Location} {rest : List Segment} {spot : Spot} :
      t.node? here = some .dir → Follows t n here rest spot →
      Follows t n here (.empty :: rest) spot
  | here {n : Nat} {here : Location} {rest : List Segment} {spot : Spot} :
      t.node? here = some .dir → Follows t n here rest spot → Follows t n here (.here :: rest) spot
  | up {n : Nat} {here : Location} {rest : List Segment} {spot : Spot} :
      t.node? here = some .dir → Follows t n here.tail rest spot →
      Follows t n here (.up :: rest) spot
  | into {n : Nat} {here : Location} {name : Name} {node : Node} {rest : List Segment}
      {spot : Spot} :
      t.node? here = some .dir → t.node? (name :: here) = some node →
      (∀ target, node ≠ .link target) → Follows t n (name :: here) rest spot →
      Follows t n here (.into name :: rest) spot
  | link {n : Nat} {here : Location} {name : Name} {target : Bytes}
      {segments rest : List Segment} {spot : Spot} :
      t.node? here = some .dir → t.node? (name :: here) = some (.link target) → target ≠ [] →
      Path.segments? target = some segments →
      Follows t n (origin target here) (segments ++ rest) spot →
      Follows t (n + 1) here (.into name :: rest) spot

theorem exists_advance_of_enter {n : Nat} {rest : List Segment}
    (h : t.follow creating n (t.enter creating here path rest) = .ok spot) :
    path ≠ [] ∧ ∃ segments, Path.segments? path = some segments ∧
      t.follow creating n (t.advance creating (origin path here) (segments ++ rest)) =
        .ok spot := by
  rw [enter] at h
  split at h
  · simp [follow] at h
  next hne =>
    split at h
    · simp [follow] at h
    next segments hsegments => exact ⟨by simpa using hne, segments, hsegments, h⟩

theorem follows_of_follow {n : Nat} {segments : List Segment}
    (h : t.follow creating n (t.advance creating here segments) = .ok spot) :
    Follows t n here segments spot := by
  -- by the links left, and up to the next link by the segments
  induction n using Nat.strongRecOn generalizing here segments with
  | ind n ihn =>
      induction segments generalizing here with
      | nil =>
          rw [advance, follow] at h
          cases h
          exact .done
      | cons segment rest ih =>
          by_cases hhere : t.node? here = some .dir
          · cases segment with
            | empty => exact .empty hhere (ih (by rwa [advance, if_pos hhere] at h))
            | here => exact .here hhere (ih (by rwa [advance, if_pos hhere] at h))
            | up => exact .up hhere (ih (by rwa [advance, if_pos hhere] at h))
            | into name =>
                rw [advance, if_pos hhere] at h
                split at h
                · simp [follow] at h
                · split at h
                  next target hnode =>
                    cases n with
                    | zero => cases h
                    | succ n =>
                        rw [follow] at h
                        obtain ⟨htarget, segments, hsegments, hrest⟩ := exists_advance_of_enter h
                        have hfollows := ihn n (Nat.lt_succ_self n) hrest
                        exact .link hhere hnode htarget hsegments hfollows
                  next node hlink hnode => exact .into hhere hnode (by simpa using hlink) (ih h)
                  next hnone =>
                    split at h
                    · simp [follow] at h
                    next hlimit =>
                      split at h
                      next hlast =>
                        rw [follow] at h
                        cases h
                        rw [List.isEmpty_iff.mp hlast]
                        exact .missing hhere hnone (Nat.le_of_not_lt hlimit)
                      · simp [follow] at h
          · cases segment <;> simp [advance, hhere, follow] at h

theorem Follows.follow {n : Nat} {segments : List Segment} (h : Follows t n here segments spot) :
    t.follow false n (t.advance false here segments) = .ok spot := by
  induction h with
  | done => rw [FileTree.advance, FileTree.follow]
  | missing hhere hnone hlimit =>
      simp [FileTree.advance, FileTree.follow, hhere, hnone, Nat.not_lt.mpr hlimit]
  | empty hhere _ ih => rwa [FileTree.advance, if_pos hhere]
  | here hhere _ ih => rwa [FileTree.advance, if_pos hhere]
  | up hhere _ ih => rwa [FileTree.advance, if_pos hhere]
  | @into n here name node rest spot hhere hnode hlink _ ih =>
      rw [FileTree.advance, if_pos hhere]
      cases node with
      | link target => exact absurd rfl (hlink target)
      | file content => simpa [hnode] using ih
      | dir => simpa [hnode] using ih
  | link hhere hnode htarget hsegments _ ih =>
      rw [FileTree.advance, if_pos hhere]
      simpa [hnode, FileTree.follow, FileTree.enter, htarget, hsegments] using ih

theorem Follows.append {n : Nat} {segments rest : List Segment}
    (h : Follows t n here segments (.taken l)) (hrest : ∀ n, Follows t n l rest spot) :
    Follows t n here (segments ++ rest) spot := by
  -- what follows the links is taken on with however many of them are left
  generalize hend : Spot.taken l = reached at h
  induction h with
  | done =>
      cases hend
      exact hrest _
  | missing => cases hend
  | empty hhere _ ih => exact .empty hhere (ih hend)
  | here hhere _ ih => exact .here hhere (ih hend)
  | up hhere _ ih => exact .up hhere (ih hend)
  | into hhere hnode hlink _ ih => exact .into hhere hnode hlink (ih hend)
  | link hhere hnode htarget hsegments _ ih =>
      have hfollows := ih hend
      rw [List.append_assoc] at hfollows
      exact .link hhere hnode htarget hsegments hfollows

theorem Follows.congr {n : Nat} {segments : List Segment} (hnodes : ∀ l, t'.node? l = t.node? l)
    (h : Follows t n here segments spot) : Follows t' n here segments spot := by
  induction h with
  | done => exact .done
  | missing hhere hnone hlimit => exact .missing (by rwa [hnodes]) (by rwa [hnodes]) hlimit
  | empty hhere _ ih => exact .empty (by rwa [hnodes]) ih
  | here hhere _ ih => exact .here (by rwa [hnodes]) ih
  | up hhere _ ih => exact .up (by rwa [hnodes]) ih
  | into hhere hnode hlink _ ih => exact .into (by rwa [hnodes]) (by rwa [hnodes]) hlink ih
  | link hhere hnode htarget hsegments _ ih =>
      exact .link (by rwa [hnodes]) (by rwa [hnodes]) htarget hsegments ih

theorem Follows.of_append_empty {n : Nat} {segments : List Segment}
    (h : Follows t n here (segments ++ [.empty]) spot) : Follows t n here segments spot := by
  generalize hall : segments ++ [.empty] = all at h
  induction h generalizing segments with
  | done => exact absurd hall (List.append_ne_nil_of_right_ne_nil _ (by simp))
  | missing =>
      obtain ⟨-, ⟨⟩⟩ | ⟨segments, rfl, hnil⟩ := List.append_eq_cons_iff.mp hall
      exact absurd hnil.symm (List.append_ne_nil_of_right_ne_nil _ (by simp))
  | empty hhere hfollows ih =>
      obtain ⟨rfl, hlast⟩ | ⟨segments, rfl, rfl⟩ := List.append_eq_cons_iff.mp hall
      · cases hlast
        exact hfollows
      · exact .empty hhere (ih rfl)
  | here hhere _ ih =>
      obtain ⟨-, ⟨⟩⟩ | ⟨segments, rfl, rfl⟩ := List.append_eq_cons_iff.mp hall
      exact .here hhere (ih rfl)
  | up hhere _ ih =>
      obtain ⟨-, ⟨⟩⟩ | ⟨segments, rfl, rfl⟩ := List.append_eq_cons_iff.mp hall
      exact .up hhere (ih rfl)
  | into hhere hnode hlink _ ih =>
      obtain ⟨-, ⟨⟩⟩ | ⟨segments, rfl, rfl⟩ := List.append_eq_cons_iff.mp hall
      exact .into hhere hnode hlink (ih rfl)
  | link hhere hnode htarget hsegments _ ih =>
      obtain ⟨-, ⟨⟩⟩ | ⟨segments, rfl, rfl⟩ := List.append_eq_cons_iff.mp hall
      exact .link hhere hnode htarget hsegments (ih (List.append_assoc _ _ _))

theorem follows_of_resolve (h : t.resolve creating path = .ok spot) :
    path ≠ [] ∧ ∃ segments, Path.segments? path = some segments ∧
      Follows t linkLimit (origin path t.cwd) segments spot := by
  obtain ⟨hne, segments, hsegments, hfollow⟩ :=
    exists_advance_of_enter (resolve_eq_ok_iff.mp h).2.2
  rw [List.append_nil] at hfollow
  exact ⟨hne, segments, hsegments, follows_of_follow hfollow⟩

theorem Follows.node?_eq_none {n : Nat} {segments : List Segment}
    (h : Follows t n here segments (.free l)) : t.node? l = none := by
  generalize hspot : Spot.free l = spot at h
  induction h with
  | done => cases hspot
  | missing _ hnone _ =>
      cases hspot
      exact hnone
  | empty _ _ ih => exact ih hspot
  | here _ _ ih => exact ih hspot
  | up _ _ ih => exact ih hspot
  | into _ _ _ _ ih => exact ih hspot
  | link _ _ _ _ _ ih => exact ih hspot

theorem node?_of_resolve_free (h : t.resolve creating path = .ok (.free l)) :
    t.node? l = none := by
  obtain ⟨-, _, -, hfollows⟩ := follows_of_resolve h
  exact hfollows.node?_eq_none

def Stop.map (f : Spot → Spot) : Stop → Stop
  | .reached s => .reached (f s)
  | .refused e => .refused e
  | .atLink directory target rest => .atLink directory target rest

/-- Where segments lead in one tree, unless it refuses them, they lead in another, up to a map of
the spots. -/
def CarriedFrom (t t' : FileTree) (creating creating' : Bool) (f : Spot → Spot) (here : Location)
    (segments : List Segment) : Prop :=
  (∃ e, t.advance creating here segments = .refused e) ∨
    t'.advance creating' here segments = (t.advance creating here segments).map f

structure Carries (t t' : FileTree) (creating creating' : Bool) (f : Spot → Spot) : Prop where
  cwd : t'.cwd = t.cwd
  pathLimit : t'.pathLimit = t.pathLimit
  advance : ∀ here segments, CarriedFrom t t' creating creating' f here segments

theorem carriedFrom_of_into (hdir : ∀ k, t'.node? k = some .dir ↔ t.node? k = some .dir)
    (htaken : ∀ k, f (.taken k) = .taken k)
    (hinto : ∀ here name rest, t.node? here = some .dir →
      (∀ here, CarriedFrom t t' creating creating' f here rest) →
        CarriedFrom t t' creating creating' f here (.into name :: rest))
    (here : Location) (segments : List Segment) :
    CarriedFrom t t' creating creating' f here segments := by
  -- the directories are the same in both trees, so only a name can lead elsewhere
  induction segments generalizing here with
  | nil => exact Or.inr (congrArg Stop.reached (htaken here).symm)
  | cons segment rest ih =>
      by_cases hhere : t.node? here = some .dir
      · have hhere' := (hdir here).mpr hhere
        cases segment with
        | empty => simpa [CarriedFrom, FileTree.advance, hhere, hhere'] using ih here
        | here => simpa [CarriedFrom, FileTree.advance, hhere, hhere'] using ih here
        | up => simpa [CarriedFrom, FileTree.advance, hhere, hhere'] using ih here.tail
        | into name => exact hinto here name rest hhere ih
      · exact Or.inl ⟨.os .notDirectory, by cases segment <;> simp [FileTree.advance, hhere]⟩

theorem Carries.enter (h : Carries t t' creating creating' f) (directory : Location)
    (path : Bytes) (rest : List Segment) :
    (∃ e, t.enter creating directory path rest = .refused e) ∨
      t'.enter creating' directory path rest = (t.enter creating directory path rest).map f := by
  rw [FileTree.enter, FileTree.enter]
  split
  · exact Or.inl ⟨_, rfl⟩
  · split
    · exact Or.inl ⟨_, rfl⟩
    · exact h.advance _ _

theorem Carries.follow (h : Carries t t' creating creating' f) {n : Nat} {stop : Stop}
    (hfollow : t.follow creating n stop = .ok spot) :
    t'.follow creating' n (stop.map f) = .ok (f spot) := by
  fun_induction FileTree.follow t creating n stop with
  | case1 n s =>
      cases hfollow
      rw [Stop.map, FileTree.follow]
  | case2 n e => cases hfollow
  | case3 directory target rest => cases hfollow
  | case4 n directory target rest ih =>
      rw [Stop.map, FileTree.follow]
      rcases h.enter directory target rest with ⟨e, he⟩ | heq
      · rw [he, FileTree.follow] at hfollow
        cases hfollow
      · rw [heq]
        exact ih hfollow

theorem Carries.resolve (h : Carries t t' creating creating' f)
    (hresolve : t.resolve creating path = .ok spot) :
    t'.resolve creating' path = .ok (f spot) := by
  obtain ⟨hnul, hshort, hfollow⟩ := resolve_eq_ok_iff.mp hresolve
  refine resolve_eq_ok_iff.mpr ⟨hnul, ?_, ?_⟩
  · rw [overlong, h.pathLimit]
    exact hshort
  · rw [h.cwd]
    rcases h.enter t.cwd path [] with ⟨e, he⟩ | heq
    · rw [he, FileTree.follow] at hfollow
      cases hfollow
    · rw [heq]
      exact h.follow hfollow

theorem carries_creating (t : FileTree) : Carries t t true false id := by
  refine ⟨rfl, rfl, carriedFrom_of_into (fun _ => Iff.rfl) (fun _ => rfl)
    fun here name rest hhere ih => ?_⟩
  rw [CarriedFrom, FileTree.advance, FileTree.advance, if_pos hhere, if_pos hhere,
    if_neg (by simp : ¬(false && onlySlashes rest) = true)]
  split
  · exact Or.inl ⟨_, rfl⟩
  · split
    · exact Or.inr rfl
    · exact ih (name :: here)
    · split
      · exact Or.inl ⟨_, rfl⟩
      · split
        · exact Or.inr rfl
        · exact Or.inl ⟨_, rfl⟩

theorem read_eq_ok_iff {text : Bytes} :
    t.read path = .ok text ↔ ∃ l, t.lookup path = .ok (l, .file text) := by
  rw [read]
  constructor
  · intro h
    split at h
    next l content hlookup =>
      cases h
      exact ⟨l, hlookup⟩
    all_goals cases h
  · rintro ⟨l, hlookup⟩
    rw [hlookup]

end ScriptTags.FileTree
