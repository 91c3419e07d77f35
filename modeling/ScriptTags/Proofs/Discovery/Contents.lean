import ScriptTags.Proofs.Discovery.Found
import ScriptTags.Proofs.FileTree.Shape

namespace ScriptTags

open ScriptTags.FileTree

namespace Walk

variable {t t' : FileTree} {o : Options} {trail : List Ancestor} {here : Location} {path : Bytes}
  {name : Name}

theorem followed_eq_of_alike {place place' : Except SystemError (Location × Node)}
    (h : AlikePlace place place') :
    followed o trail path name place' = followed o trail path name place := by
  cases h with
  | refused e => rfl
  | found hnode => cases hnode <;> rfl

theorem verdict_eq_of_sameShape (h : SameShape t t') (o : Options) (trail : List Ancestor)
    (here : Location) (path : Bytes) (name : Name) :
    verdict t' o trail here path name = verdict t o trail here path name := by
  have hnode := h.nodes (name :: here)
  rw [verdict, verdict]
  generalize t.node? (name :: here) = n, t'.node? (name :: here) = n' at hnode
  cases hnode with
  | none => rfl
  | file content content' => rfl
  | dir => rfl
  | link target => exact followed_eq_of_alike (h.lookup _)

theorem walk_eq_of_sameShape (h : SameShape t t') (o : Options) (trail : List Ancestor)
    (here : Location) (path : Bytes) : walk t' o trail here path = walk t o trail here path := by
  induction trail, here, path using walk.induct t o with
  | case1 trail here path ih =>
      rw [walk_eq_flatMap, walk_eq_flatMap, h.names]
      congr 1
      funext name
      rw [visitsAt, visitsAt, verdict_eq_of_sameShape h]
      cases hverdict : verdict t o trail here path name with
      | ignore => rfl
      | take => rfl
      | report e => rfl
      | enter l =>
          have hbelow := ih name l hverdict
          simp only [barrier?, h.overlong]
          split
          · rfl
          · exact hbelow

theorem discover_eq_of_sameShape (h : SameShape t t') (root : Bytes) (o : Options) :
    discover t' root o = discover t root o := by
  have hroot := h.lookup root
  rw [discover, discover]
  generalize t.lookup root = place, t'.lookup root = place' at hroot
  cases hroot with
  | refused e => rfl
  | found hnode =>
      cases hnode with
      | file content content' => rfl
      | dir => simp only [walk_eq_of_sameShape h]
      | link target => rfl

end Walk

end ScriptTags
