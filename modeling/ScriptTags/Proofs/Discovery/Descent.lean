import ScriptTags.Discovery.Walk
import ScriptTags.Proofs.FileTree.Join
import Mathlib.Data.List.Induction

/-!
Directories entered one below another. A real directory may be entered again below a link, but a
link never leads to a directory entered on the way to it; this alone bounds how deep a descent
can go.
-/

namespace ScriptTags

open ScriptTags.Path

namespace Walk

/-- A name, by its path, leads from the first directory of a trail into another: a real one, or
one that a link leads to and that is not on the trail. -/
inductive Enters (t : FileTree) (follow : Bool) (path : Bytes) (name : Name) :
    List Location → Location → Prop
  | real {here : Location} {trail : List Location} :
      t.node? (name :: here) = some .dir → Enters t follow path name (here :: trail) (name :: here)
  | link {here l : Location} {trail : List Location} {target : Bytes} :
      follow = true → t.node? (name :: here) = some (.link target) →
      t.lookup path = .ok (l, .dir) → l ∉ here :: trail →
      Enters t follow path name (here :: trail) l

inductive Descent (t : FileTree) (follow : Bool) (root : Bytes) (start : List Location) :
    List Name → List Location → Prop
  | here : Descent t follow root start [] start
  | into {names : List Name} {name : Name} {trail : List Location} {l : Location} :
      Descent t follow root start names trail →
      Enters t follow (joinAll root (names ++ [name])) name trail l →
      Descent t follow root start (names ++ [name]) (l :: trail)

variable {t : FileTree} {follow : Bool} {root : Bytes} {start dirs trail : List Location}
  {here l : Location} {name : Name} {names : List Name}

theorem enters_cons_iff {path : Bytes} :
    Enters t follow path name (here :: trail) l ↔
      (t.node? (name :: here) = some .dir ∧ l = name :: here) ∨
        follow = true ∧ (∃ target, t.node? (name :: here) = some (.link target)) ∧
          t.lookup path = .ok (l, .dir) ∧ l ∉ here :: trail := by
  constructor
  · intro h
    cases h with
    | real hdir => exact Or.inl ⟨hdir, rfl⟩
    | link hfollow hlink hlookup hoff => exact Or.inr ⟨hfollow, ⟨_, hlink⟩, hlookup, hoff⟩
  · rintro (⟨hdir, rfl⟩ | ⟨hfollow, ⟨target, hlink⟩, hlookup, hoff⟩)
    · exact .real hdir
    · exact .link hfollow hlink hlookup hoff

theorem descent_nil_iff : Descent t follow root start [] dirs ↔ dirs = start := by
  constructor
  · intro h
    generalize hnil : ([] : List Name) = names at h
    cases h with
    | here => rfl
    | into _ _ => exact absurd hnil.symm (List.append_ne_nil_of_right_ne_nil _ (by simp))
  · rintro rfl
    exact .here

theorem Descent.cons (hl : Enters t follow (join root name) name start l)
    (h : Descent t follow (join root name) (l :: start) names dirs) :
    Descent t follow root start (name :: names) dirs := by
  induction h with
  | here => exact @Descent.into t follow root start [] name start l .here hl
  | into _ henters ih => exact .into ih henters

theorem descent_cons_iff :
    Descent t follow root start (name :: names) dirs ↔
      ∃ l, Enters t follow (join root name) name start l ∧
        Descent t follow (join root name) (l :: start) names dirs := by
  constructor
  · intro h
    generalize hall : name :: names = all at h
    induction h generalizing names with
    | here => cases hall
    | @into before last trail l hbefore henters ih =>
        cases before with
        | nil =>
            cases hall
            obtain rfl := descent_nil_iff.mp hbefore
            exact ⟨l, henters, .here⟩
        | cons first before =>
            cases hall
            obtain ⟨l', hl', hdescent⟩ := ih rfl
            exact ⟨l', hl', .into hdescent henters⟩
  · rintro ⟨l, hl, h⟩
    exact h.cons hl

theorem Descent.eq_cons_of_real {start : Location} (hstart : t.node? start = some .dir)
    (h : Descent t false root [start] names dirs) :
    (∀ above, above <+: names → t.node? (above.reverse ++ start) = some .dir) ∧
      ∃ trail, dirs = (names.reverse ++ start) :: trail := by
  induction h with
  | here =>
      refine ⟨fun above habove => ?_, [], rfl⟩
      rw [List.prefix_nil.mp habove]
      exact hstart
  | @into names name dirs l hbefore henters ih =>
      obtain ⟨hdirs, trail, rfl⟩ := ih
      cases henters with
      | real hdir =>
          rw [List.reverse_append]
          refine ⟨fun above habove => ?_, _, rfl⟩
          rcases List.prefix_concat_iff.mp habove with rfl | habove
          · rw [List.reverse_append]
            exact hdir
          · exact hdirs above habove
      | link hfollow => cases hfollow

theorem exists_descent_real_iff {start : Location} (hstart : t.node? start = some .dir) :
    (∃ trail, Descent t false root [start] names (here :: trail)) ↔
      (∀ above, above <+: names → t.node? (above.reverse ++ start) = some .dir) ∧
        here = names.reverse ++ start := by
  constructor
  · rintro ⟨trail, h⟩
    obtain ⟨hdirs, trail', htrail⟩ := h.eq_cons_of_real hstart
    exact ⟨hdirs, (List.cons.inj htrail).1⟩
  · rintro ⟨hdirs, rfl⟩
    induction names using List.reverseRecOn with
    | nil => exact ⟨[], .here⟩
    | append_singleton names name ih =>
        obtain ⟨trail, h⟩ := ih fun above habove => hdirs above (habove.trans (List.prefix_append _ _))
        have hdir := hdirs (names ++ [name]) (List.prefix_refl _)
        rw [List.reverse_append] at hdir ⊢
        exact ⟨_, .into h (.real hdir)⟩

def ancestors (trail : List Location) : List Ancestor :=
  trail.map fun l => ⟨l, []⟩

theorem Enters.stepsLeft_lt {path : Bytes} (h : Enters t follow path name (here :: trail) l) :
    stepsLeft t (ancestors (l :: here :: trail)) l <
      stepsLeft t (ancestors (here :: trail)) here := by
  cases h with
  | real h => exact stepsLeft_name_lt _ _ h
  | link _ _ hlookup hoff =>
      refine stepsLeft_offTrail_lt _ here (node?_of_lookup hlookup) fun a ha hl => ?_
      obtain ⟨l', hl', rfl⟩ := List.mem_map.mp ha
      exact hoff (hl ▸ hl')

theorem Descent.length_add_stepsLeft_le {start : Location}
    (h : Descent t follow root [start] names (here :: trail)) :
    names.length + stepsLeft t (ancestors (here :: trail)) here ≤
      stepsLeft t (ancestors [start]) start := by
  generalize hdirs : here :: trail = dirs at h
  induction h generalizing here trail with
  | here =>
      cases hdirs
      simp
  | @into names name dirs l hbefore henters ih =>
      cases hdirs
      cases dirs with
      | nil => cases henters
      | cons last trail =>
          have hsteps := henters.stepsLeft_lt
          have hrest := ih rfl
          simp only [List.length_append, List.length_singleton]
          omega

theorem stepsLeft_le {start : Location} (hstart : t.node? start = some .dir) :
    stepsLeft t (ancestors [start]) start ≤ t.locations.length * (t.depth + 1) := by
  have hoff : (offTrail t (ancestors [start])).length < t.locations.length :=
    List.length_filter_lt_length_iff_exists.mpr
      ⟨start, FileTree.mem_locations hstart, by simp [ancestors]⟩
  have hmul := Nat.mul_le_mul_right (t.depth + 1) hoff
  rw [Nat.succ_mul] at hmul
  simp only [stepsLeft]
  omega

theorem Descent.length_le {start : Location} (hstart : t.node? start = some .dir)
    (h : Descent t follow root [start] names dirs) :
    names.length ≤ t.locations.length * (t.depth + 1) := by
  cases dirs with
  | nil => cases h
  | cons here trail =>
      have hlength := h.length_add_stepsLeft_le
      have hbound := stepsLeft_le hstart
      omega

end Walk

end ScriptTags
