import ScriptTags.Proofs.FileTree.LeadsTo
import ScriptTags.Proofs.FileTree.Shape

namespace ScriptTags.FileTree

open ScriptTags.Path

/-- Segments lead to a free name: it is the last of them, or the last of them names a link whose
target leads to it. -/
inductive EndsFree (t : FileTree) : Location → List Segment → Location → Prop
  | missing {n : Nat} {here directory : Location} {stem : List Segment} {name : Name} :
      Follows t n here stem (.taken directory) → t.node? directory = some .dir →
      t.node? (name :: directory) = none →
      EndsFree t here (stem ++ [.into name]) (name :: directory)
  | dangling {n : Nat} {here directory l : Location} {stem segments : List Segment} {name : Name}
      {target : Bytes} :
      Follows t n here stem (.taken directory) → t.node? directory = some .dir →
      t.node? (name :: directory) = some (.link target) → segments? target = some segments →
      EndsFree t (origin target directory) segments l →
      EndsFree t here (stem ++ [.into name]) l

def LeadsToFree (t : FileTree) (path : Bytes) (l : Location) : Prop :=
  ∃ segments, segments? path = some segments ∧ EndsFree t (origin path t.cwd) segments l

variable {t t' : FileTree} {creating : Bool} {n : Nat} {path content : Bytes}
  {here start k l : Location} {name : Name} {node : Node} {front back segments rest : List Segment}
  {e : FileError}

theorem EndsFree.ne_nil (h : EndsFree t here segments l) : segments ≠ [] := by
  cases h <;> simp

theorem EndsFree.replace (front back : List Segment) (h : EndsFree t start (back ++ rest) l)
    (hrest : rest ≠ [])
    (hfollows : ∀ {n stem directory}, Follows t n start (back ++ stem) (.taken directory) →
      ∃ m, Follows t m here (front ++ stem) (.taken directory)) :
    EndsFree t here (front ++ rest) l := by
  obtain ⟨init, last, rfl⟩ := (List.eq_nil_or_concat' rest).resolve_left hrest
  rw [← List.append_assoc] at h ⊢
  -- the last segment stays what it is
  generalize hall : back ++ init ++ [last] = all at h
  cases h with
  | missing hstem hdir hnode =>
      obtain ⟨rfl, rfl⟩ := List.append_singleton_inj.mp hall
      obtain ⟨m, hfront⟩ := hfollows hstem
      exact .missing hfront hdir hnode
  | dangling hstem hdir hnode hsegments hends =>
      obtain ⟨rfl, rfl⟩ := List.append_singleton_inj.mp hall
      obtain ⟨m, hfront⟩ := hfollows hstem
      exact .dangling hfront hdir hnode hsegments hends

theorem EndsFree.cons {segment : Segment} (h : EndsFree t start segments l)
    (hfollows : ∀ {n stem directory}, Follows t n start stem (.taken directory) →
      Follows t n here (segment :: stem) (.taken directory)) :
    EndsFree t here (segment :: segments) l :=
  h.replace [segment] [] h.ne_nil fun hstem => ⟨_, hfollows hstem⟩

theorem endsFree_of_link {target : Bytes} (hhere : t.node? here = some .dir)
    (hnode : t.node? (name :: here) = some (.link target)) (htarget : target ≠ [])
    (hsegments : segments? target = some segments)
    (h : EndsFree t (origin target here) (segments ++ rest) l) :
    EndsFree t here (.into name :: rest) l := by
  by_cases hrest : rest = []
  · subst hrest
    rw [List.append_nil] at h
    have hdone : Follows t 0 here [] (.taken here) := .done
    exact EndsFree.dangling hdone hhere hnode hsegments h
  · exact h.replace [.into name] segments hrest fun hstem =>
      ⟨_, .link hhere hnode htarget hsegments hstem⟩

theorem Follows.endsFree (h : Follows t n here segments (.free l)) :
    EndsFree t here segments l := by
  generalize hspot : Spot.free l = spot at h
  induction h with
  | done => cases hspot
  | @missing n here name hhere hnone _ =>
      cases hspot
      have hdone : Follows t n here [] (.taken here) := .done
      exact EndsFree.missing hdone hhere hnone
  | empty hhere _ ih => exact (ih hspot).cons (.empty hhere)
  | here hhere _ ih => exact (ih hspot).cons (.here hhere)
  | up hhere _ ih => exact (ih hspot).cons (.up hhere)
  | into hhere hnode hlink _ ih => exact (ih hspot).cons (.into hhere hnode hlink)
  | link hhere hnode htarget hsegments _ ih =>
      exact endsFree_of_link hhere hnode htarget hsegments (ih hspot)

theorem leadsToFree_of_resolve (h : t.resolve creating path = .ok (.free l)) :
    t.LeadsToFree path l := by
  obtain ⟨-, segments, hsegments, hfollows⟩ := follows_of_resolve h
  exact ⟨segments, hsegments, hfollows.endsFree⟩

theorem Overwritten.alike (h : Overwritten t l content t') (hk : t.node? k ≠ none) :
    Alike (t.node? k) (t'.node? k) := by
  by_cases hkl : k = l
  · subst hkl
    obtain ⟨node, hnode⟩ := Option.ne_none_iff_exists'.mp hk
    obtain ⟨old, rfl⟩ := h.before node hnode
    rw [hnode, h.after]
    exact .file old content
  · rw [h.others k hkl]
    exact .refl _

theorem Overwritten.lookup_of_ne (h : Overwritten t l content t') (hk : k ≠ l)
    (hlookup : t.lookup path = .ok (k, node)) : t'.lookup path = .ok (k, node) := by
  obtain ⟨hresolve, hnode⟩ := exists_resolve_of_lookup hlookup
  have hcarried := h.carries.resolve hresolve
  rw [Spot.filled] at hcarried
  rw [lookup, hcarried]
  simp only [h.others k hk, hnode]

theorem Overwritten.eq_of_new (h : Overwritten t l content t') (hbefore : t.node? k = none)
    (hafter : t'.node? k ≠ none) : k = l := by
  by_contra hk
  exact hafter ((h.others k hk).trans hbefore)

theorem leadsToFree_of_write (h : t.write path content = .ok t') (hbefore : t.node? k = none)
    (hafter : t'.node? k ≠ none) : t.LeadsToFree path k := by
  obtain ⟨spot, hresolve, hfile, rfl⟩ := exists_spot_of_write h
  obtain rfl := (overwritten_insert hfile).eq_of_new hbefore hafter
  cases spot with
  | free l => exact leadsToFree_of_resolve hresolve
  | taken l =>
      -- only a file is overwritten, so what is new was no spot taken
      rw [Spot.location] at hbefore
      rw [write, hresolve] at h
      simp [hbefore] at h

def afterWrite (t : FileTree) (path content : Bytes) : FileTree :=
  (t.write path content).toOption.getD t

structure Framed (t : FileTree) (path content : Bytes) (l : Location) (t' : FileTree) : Prop where
  lookup : t'.lookup path = .ok (l, .file content)
  read : t'.read path = .ok content
  others : ∀ other k node, t.lookup other = .ok (k, node) → k ≠ l →
    t'.lookup other = .ok (k, node) ∧ t'.read other = t.read other
  kept : ∀ k, t.node? k ≠ none → Alike (t.node? k) (t'.node? k)
  added : ∀ k, t.node? k = none → t'.node? k ≠ none →
    k = l ∧ t'.node? k = some (.file content) ∧ t.LeadsToFree path k

theorem exists_framed_of_write (h : t.write path content = .ok t') :
    ∃ l, t.Framed path content l t' := by
  obtain ⟨l, hwritten, hlookup⟩ := writes_of_write h
  refine ⟨l, hlookup, (writes_of_write h).read, fun other k node hother hk => ?_,
    fun k hk => hwritten.alike hk, fun k hbefore hafter => ?_⟩
  · have hsame := hwritten.lookup_of_ne hk hother
    exact ⟨hsame, read_eq_of_lookup_eq (hsame.trans hother.symm)⟩
  · have hk := hwritten.eq_of_new hbefore hafter
    exact ⟨hk, hk ▸ hwritten.after, leadsToFree_of_write h hbefore hafter⟩

theorem exists_system_of_write (h : t.write path content = .error e) :
    ∃ cause, e = .system cause := by
  rw [write] at h
  split at h
  next cause _ =>
    cases h
    exact ⟨cause, rfl⟩
  · cases h
  · split at h
    · cases h
    · cases h
      exact ⟨_, rfl⟩

theorem write_then_read (t : FileTree) (path content : Bytes) :
    (∀ t', t.write path content = .ok t' →
      t.afterWrite path content = t' ∧ ∃ l, t.Framed path content l t') ∧
    ∀ e, t.write path content = .error e →
      t.afterWrite path content = t ∧ ∃ cause, e = .system cause := by
  constructor
  · intro t' h
    exact ⟨by rw [afterWrite, h]; rfl, exists_framed_of_write h⟩
  · intro e h
    exact ⟨by rw [afterWrite, h]; rfl, exists_system_of_write h⟩

namespace DanglingTags

def store : Name := ⟨Bytes.ofString "store", by decide⟩

def index : Name := ⟨Bytes.ofString "index", by decide⟩

def tags : Name := ⟨Bytes.ofString "TAGS", by decide⟩

def script : Name := ⟨Bytes.ofString "keep.ahk", by decide⟩

def shortcut : Name := ⟨Bytes.ofString "shortcut", by decide⟩

def tree : FileTree where
  nodes := [([store], .dir), ([tags], .link (Bytes.ofString "./store/index")),
    ([script], .file (Bytes.ofString "Keep:")), ([shortcut], .link script.bytes)]

end DanglingTags

open DanglingTags in
theorem write_through_dangling_link :
    ∃ t', tree.write tags.bytes [33] = .ok t' ∧ t'.read tags.bytes = .ok [33] ∧
      t'.read shortcut.bytes = .ok (Bytes.ofString "Keep:") ∧ tree.node? [index, store] = none ∧
        t'.node? [index, store] = some (.file [33]) ∧ tree.LeadsToFree tags.bytes [index, store] ∧
          tree.write store.bytes [33] = .error (.system (.os .isDirectory)) ∧
            tree.afterWrite store.bytes [33] = tree := by
  have hwrite : tree.write tags.bytes [33] = .ok (tree.insert [index, store] (.file [33])) := by
    decide +kernel
  have hrefused : tree.write store.bytes [33] = .error (.system (.os .isDirectory)) := by
    decide +kernel
  have hshortcut : tree.lookup shortcut.bytes = .ok ([script], .file (Bytes.ofString "Keep:")) := by
    decide +kernel
  have hfree : tree.node? [index, store] = none := by decide +kernel
  obtain ⟨-, l, hframed⟩ := (write_then_read tree tags.bytes [33]).1 _ hwrite
  have hnew : (tree.insert [index, store] (.file [33])).node? [index, store] = some (.file [33]) :=
    node?_insert_self (List.cons_ne_nil _ _)
  obtain ⟨rfl, -, hleads⟩ := hframed.added [index, store] hfree (by rw [hnew]; nofun)
  obtain ⟨-, hread⟩ := hframed.others shortcut.bytes _ _ hshortcut (by decide)
  have hscript : tree.read shortcut.bytes = .ok (Bytes.ofString "Keep:") :=
    read_eq_ok_iff.mpr ⟨_, hshortcut⟩
  exact ⟨_, hwrite, hframed.read, hread.trans hscript, hfree, hnew, hleads, hrefused,
    ((write_then_read tree store.bytes [33]).2 _ hrefused).1⟩

end ScriptTags.FileTree
