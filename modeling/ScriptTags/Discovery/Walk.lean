import ScriptTags.FileTree.Resolve
import ScriptTags.Log.Event
import ScriptTags.Text.Lowercase

/-!
Walking a tree for scripts, depth first in byte order. A link to a directory is only entered where
links are followed, and only if that directory is not on the trail, the directories entered on the
way. A directory whose path is too long cannot be read. The walk ends because every step leaves
fewer locations off the trail, or as many and goes one level deeper; a real directory may be
entered again below a link, a linked one may not.
-/

namespace ScriptTags.Extension

def splitLastDot? : Bytes → Option (Bytes × Bytes)
  | [] => none
  | b :: r =>
      match splitLastDot? r with
      | some (stem, extension) => some (b :: stem, extension)
      | none => if b = Byte.dot then some ([], r) else none

/-- What follows the last dot of a file name, unless that dot is its first octet. -/
def ofName? (name : Bytes) : Option Bytes :=
  match splitLastDot? name with
  | some (_ :: _, extension) => some extension
  | _ => none

def wanted (extension : String) : String :=
  Lowercase.lower (String.ofList (extension.toList.dropWhile (· == '.')))

def isAmong (name : Bytes) (extensions : List String) : Bool :=
  match ofName? name with
  | none => false
  | some extension => (extensions.map wanted).contains (Lowercase.lower (Utf8.decode extension))

end ScriptTags.Extension

namespace ScriptTags.Walk

structure Options where
  extensions : List String := ["ahk"]
  skipHidden : Bool := true
  followLinks : Bool := false
deriving DecidableEq, Repr

namespace Options

/-- Only a name that is UTF-8 can be hidden. -/
def hides (o : Options) (name : Name) : Bool :=
  o.skipHidden && name.bytes.head? == some Byte.dot && Utf8.isValid name.bytes

def wants (o : Options) (name : Name) : Bool :=
  !o.hides name && Extension.isAmong name.bytes o.extensions

end Options

structure Ancestor where
  location : Location
  path : Bytes
deriving DecidableEq, Repr

inductive Trouble where
  | unreadable (path : Bytes) (e : SystemError)
  | cycle (path : Bytes) (ancestor : Bytes)
deriving DecidableEq, Repr

def Trouble.message : Trouble → String
  | .unreadable path e =>
      "IO error for operation on " ++ Utf8.decode path ++ ": " ++ e.message
  | .cycle path ancestor =>
      "File system loop found: " ++ Utf8.decode path ++ " points to an ancestor " ++
        Utf8.decode ancestor

inductive Verdict where
  | ignore
  | take
  | report (t : Trouble)
  | enter (l : Location)
deriving DecidableEq, Repr

def Options.judge (o : Options) (name : Name) (l : Location) : Node → Verdict
  | .dir => if o.hides name then .ignore else .enter l
  | .file _ => if o.wants name then .take else .ignore
  | .link _ => .ignore

def followed (o : Options) (trail : List Ancestor) (path : Bytes) (name : Name) :
    Except SystemError (Location × Node) → Verdict
  | .error e => if o.followLinks then .report (.unreadable path e) else .ignore
  | .ok (l, .dir) =>
      if o.followLinks then
        match trail.find? (·.location = l) with
        | some a => .report (.cycle path a.path)
        | none => o.judge name l .dir
      else .ignore
  | .ok (l, node) => o.judge name l node

def verdict (t : FileTree) (o : Options) (trail : List Ancestor) (here : Location)
    (path : Bytes) (name : Name) : Verdict :=
  match t.node? (name :: here) with
  | none => .ignore
  | some (.link _) =>
      followed o trail (Path.join path name) name (t.lookup (Path.join path name))
  | some node => o.judge name (name :: here) node

def offTrail (t : FileTree) (trail : List Ancestor) : List Location :=
  t.locations.filter fun l => trail.all (·.location ≠ l)

theorem judge_eq_enter {o : Options} {name : Name} {l l' : Location} {node : Node}
    (h : o.judge name l node = .enter l') : l' = l ∧ node = .dir := by
  cases node with
  | dir =>
      simp only [Options.judge] at h
      split at h
      · cases h
      · cases h
        exact ⟨rfl, rfl⟩
  | file content =>
      simp only [Options.judge] at h
      split at h <;> cases h
  | link target => cases h

theorem node?_of_lookup {t : FileTree} {path : Bytes} {l : Location} {n : Node}
    (h : t.lookup path = .ok (l, n)) : t.node? l = some n := by
  unfold FileTree.lookup at h
  split at h
  · simp at h
  · simp at h
  next l' _ =>
    split at h
    next n' hn =>
      simp only [Except.ok.injEq, Prod.mk.injEq] at h
      obtain ⟨rfl, rfl⟩ := h
      exact hn
    · simp at h

theorem verdict_eq_enter {t : FileTree} {o : Options} {trail : List Ancestor} {here : Location}
    {path : Bytes} {name : Name} {l : Location}
    (h : verdict t o trail here path name = .enter l) :
    t.node? l = some .dir ∧ (l = name :: here ∨ ∀ a ∈ trail, a.location ≠ l) := by
  unfold verdict at h
  split at h
  · simp at h
  next hlink =>
    generalize hr : t.lookup (Path.join path name) = r at h
    unfold followed at h
    split at h
    · split at h <;> simp at h
    next l' =>
      split at h
      · split at h
        · simp at h
        next hfind =>
          obtain ⟨rfl, _⟩ := judge_eq_enter h
          refine ⟨node?_of_lookup hr, .inr ?_⟩
          intro a ha hl
          exact absurd hl (by simpa using List.find?_eq_none.mp hfind a ha)
      · simp at h
    next l' node hnode =>
      obtain ⟨_, hdir⟩ := judge_eq_enter h
      exact absurd hdir (by simpa using hnode)
  next node hnode hn =>
    obtain ⟨rfl, rfl⟩ := judge_eq_enter h
    exact ⟨hn, .inl rfl⟩

theorem offTrail_cons (t : FileTree) (a : Ancestor) (trail : List Ancestor) :
    offTrail t (a :: trail) = (offTrail t trail).filter (a.location ≠ ·) := by
  simp [offTrail, List.filter_filter]

theorem length_offTrail_cons_le (t : FileTree) (a : Ancestor) (trail : List Ancestor) :
    (offTrail t (a :: trail)).length ≤ (offTrail t trail).length := by
  rw [offTrail_cons]
  exact List.length_filter_le _ _

theorem length_offTrail_cons_lt {t : FileTree} {trail : List Ancestor} {l : Location} {n : Node}
    (path : Bytes) (hn : t.node? l = some n) (h : ∀ a ∈ trail, a.location ≠ l) :
    (offTrail t (⟨l, path⟩ :: trail)).length < (offTrail t trail).length := by
  rw [offTrail_cons, List.length_filter_lt_length_iff_exists]
  exact ⟨l, by simpa [offTrail] using ⟨FileTree.mem_locations hn, h⟩, by simp⟩

def stepsLeft (t : FileTree) (trail : List Ancestor) (here : Location) : Nat :=
  (offTrail t trail).length * (t.depth + 1) + (t.depth - here.length)

theorem stepsLeft_name_lt {t : FileTree} {name : Name} {here : Location} {n : Node}
    (trail : List Ancestor) (path : Bytes) (hn : t.node? (name :: here) = some n) :
    stepsLeft t (⟨name :: here, path⟩ :: trail) (name :: here) < stepsLeft t trail here := by
  have hdeep := FileTree.length_le_depth hn
  have hmul := Nat.mul_le_mul_right (t.depth + 1)
    (length_offTrail_cons_le t ⟨name :: here, path⟩ trail)
  simp only [stepsLeft, List.length_cons] at *
  omega

theorem stepsLeft_offTrail_lt {t : FileTree} {trail : List Ancestor} {l : Location} {n : Node}
    (path : Bytes) (here : Location) (hn : t.node? l = some n)
    (h : ∀ a ∈ trail, a.location ≠ l) :
    stepsLeft t (⟨l, path⟩ :: trail) l < stepsLeft t trail here := by
  have hmul := Nat.mul_le_mul_right (t.depth + 1) (length_offTrail_cons_lt path hn h)
  rw [Nat.succ_mul] at hmul
  simp only [stepsLeft]
  omega

inductive Visit where
  | found (path : Bytes)
  | skipped (t : Trouble)
deriving DecidableEq, Repr

def barrier? (t : FileTree) (path : Bytes) : Option Trouble :=
  if t.overlong path then some (.unreadable path (.os .nameTooLong)) else none

def walk (t : FileTree) (o : Options) (trail : List Ancestor) (here : Location) (path : Bytes) :
    List Visit :=
  (t.names here).flatMap fun name =>
    match _h : verdict t o trail here path name with
    | .ignore => []
    | .take => [.found (Path.join path name)]
    | .report e => [.skipped e]
    | .enter l =>
        match barrier? t (Path.join path name) with
        | some e => [.skipped e]
        | none => walk t o (⟨l, Path.join path name⟩ :: trail) l (Path.join path name)
termination_by stepsLeft t trail here
decreasing_by
  obtain ⟨hn, rfl | hoff⟩ := verdict_eq_enter _h
  · exact stepsLeft_name_lt trail _ hn
  · exact stepsLeft_offTrail_lt _ here hn hoff

structure Discovery where
  files : List Bytes
  log : List Event
deriving DecidableEq, Repr

def target : String := "ahk_io::discover"

def Visit.file? : Visit → Option Bytes
  | .found path => some path
  | .skipped _ => none

def Visit.event? : Visit → Option Event
  | .found _ => none
  | .skipped trouble =>
      some ⟨.debug, target, "skipping unreadable entry", [("error", trouble.message)]⟩

def notDirectory (root : Bytes) : Event :=
  ⟨.debug, target, "discovery root is not a directory", [("root", Utf8.decode root)]⟩

def discover (t : FileTree) (root : Bytes) (o : Options) : Discovery :=
  match t.lookup root with
  | .ok (l, .dir) =>
      let visits := walk t o [⟨l, root⟩] l root
      { files := visits.filterMap Visit.file?, log := visits.filterMap Visit.event? }
  | _ => { files := [], log := [notDirectory root] }

end ScriptTags.Walk
