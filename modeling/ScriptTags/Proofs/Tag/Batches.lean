import ScriptTags.Proofs.Tag.Order
import ScriptTags.Proofs.Text.Utf8

/-!
What the order of entries does to a tag file. Sorting by name forgets in which order entries of
different names came and keeps that of entries of one name, so it tells two indexes apart just
where the entries of some name differ.
-/

namespace ScriptTags

namespace Index

variable {i j : Index} {e f : Entry} {es fs : List Entry} {batches batches' : List (List Entry)}

theorem name_eq_of_le (hef : Bytes.ofString e.name ≤ Bytes.ofString f.name)
    (hfe : Bytes.ofString f.name ≤ Bytes.ofString e.name) : e.name = f.name :=
  Utf8.ofString_inj (List.le_antisymm hef hfe)

theorem mem_of_filter_name_eq
    (h : ∀ name, es.filter (·.name = name) = fs.filter (·.name = name)) (he : e ∈ es) : e ∈ fs := by
  have hmem : e ∈ es.filter (·.name = e.name) := List.mem_filter.mpr ⟨he, decide_eq_true rfl⟩
  rw [h e.name] at hmem
  exact (List.mem_filter.mp hmem).1

theorem head_le_of_pairwise
    (h : (f :: fs).Pairwise fun a b => Bytes.ofString a.name ≤ Bytes.ofString b.name)
    (he : e ∈ f :: fs) : Bytes.ofString f.name ≤ Bytes.ofString e.name := by
  rcases List.mem_cons.mp he with rfl | he
  · exact List.le_refl _
  · exact (List.pairwise_cons.mp h).1 e he

theorem eq_of_filter_name_eq
    (hes : es.Pairwise fun a b => Bytes.ofString a.name ≤ Bytes.ofString b.name)
    (hfs : fs.Pairwise fun a b => Bytes.ofString a.name ≤ Bytes.ofString b.name)
    (h : ∀ name, es.filter (·.name = name) = fs.filter (·.name = name)) : es = fs := by
  induction es generalizing fs with
  | nil =>
      cases fs with
      | nil => rfl
      | cons f fs =>
          have hf : f ∈ [] := mem_of_filter_name_eq (fun name => (h name).symm) List.mem_cons_self
          cases hf
  | cons e es ih =>
      cases fs with
      | nil =>
          have he : e ∈ [] := mem_of_filter_name_eq h List.mem_cons_self
          cases he
      | cons f fs =>
          -- each head is in both lists, so neither name comes before the other
          have hname : e.name = f.name :=
            name_eq_of_le
              (head_le_of_pairwise hes
                (mem_of_filter_name_eq (fun name => (h name).symm) List.mem_cons_self))
              (head_le_of_pairwise hfs (mem_of_filter_name_eq h List.mem_cons_self))
          have hheads := h e.name
          rw [List.filter_cons_of_pos (by simp), List.filter_cons_of_pos (by simp [hname]),
            List.cons.injEq] at hheads
          obtain ⟨rfl, hsame⟩ := hheads
          refine congrArg (e :: ·) (ih hes.of_cons hfs.of_cons fun name => ?_)
          by_cases hne : e.name = name
          · exact hne ▸ hsame
          · have hother := h name
            rwa [List.filter_cons_of_neg (by simpa using hne),
              List.filter_cons_of_neg (by simpa using hne)] at hother

theorem sorted_eq_iff :
    i.sorted = j.sorted ↔
      ∀ name, i.entries.filter (·.name = name) = j.entries.filter (·.name = name) := by
  constructor
  · intro h name
    rw [← filter_sorted i, ← filter_sorted j, h]
  · intro h
    refine eq_of_filter_name_eq i.pairwise_sorted j.pairwise_sorted fun name => ?_
    rw [filter_sorted, filter_sorted, h]

theorem sorted_filter (p : Entry → Bool) :
    sorted ⟨i.entries.filter p⟩ = i.sorted.filter p := by
  refine eq_of_filter_name_eq (pairwise_sorted _) (i.pairwise_sorted.filter p) fun name => ?_
  rw [filter_sorted, List.filter_comm, List.filter_comm _ p, filter_sorted]

theorem render_eq_of_sorted_eq (h : i.sorted = j.sorted) : i.render = j.render := by
  rw [render, render, lines, lines, h]

def NamesApart (batches : List (List Entry)) : Prop :=
  ∀ a ∈ batches, ∀ b ∈ batches, a ≠ b → ∀ e ∈ a, ∀ f ∈ b, e.name ≠ f.name

def partsOf (name : String) (batches : List (List Entry)) : List (List Entry) :=
  (batches.map (·.filter (·.name = name))).filter (!·.isEmpty)

theorem flatten_partsOf (name : String) (batches : List (List Entry)) :
    (partsOf name batches).flatten = batches.flatten.filter (·.name = name) := by
  rw [partsOf, List.flatten_filter_not_isEmpty, List.filter_flatten]

theorem eq_of_mem_partsOf {name : String} {part part' : List Entry} (h : NamesApart batches)
    (hpart : part ∈ partsOf name batches) (hpart' : part' ∈ partsOf name batches) :
    part = part' := by
  have hbatch : ∀ part ∈ partsOf name batches,
      ∃ a ∈ batches, a.filter (·.name = name) = part ∧ ∃ e ∈ a, e.name = name := by
    intro part hpart
    obtain ⟨hmem, hne⟩ := List.mem_filter.mp hpart
    obtain ⟨a, ha, rfl⟩ := List.mem_map.mp hmem
    refine ⟨a, ha, rfl, ?_⟩
    simpa using hne
  obtain ⟨a, ha, rfl, e, he, hename⟩ := hbatch part hpart
  obtain ⟨b, hb, rfl, f, hf, hfname⟩ := hbatch part' hpart'
  by_cases hab : a = b
  · rw [hab]
  · exact absurd (hename.trans hfname.symm) (h a ha b hb hab e he f hf)

theorem filter_flatten_of_perm (hperm : batches.Perm batches') (h : NamesApart batches)
    (name : String) :
    batches.flatten.filter (·.name = name) = batches'.flatten.filter (·.name = name) := by
  have hparts : (partsOf name batches).Perm (partsOf name batches') :=
    (hperm.map _).filter _
  have hall : ∀ parts : List (List Entry), parts.Pairwise fun _ _ => True :=
    fun parts => List.pairwise_of_forall fun _ _ => trivial
  rw [← flatten_partsOf, ← flatten_partsOf,
    hparts.eq_of_pairwise (fun a b ha hb _ _ => eq_of_mem_partsOf h ha (hparts.mem_iff.mpr hb))
      (hall _) (hall _)]

theorem sorted_tells_order_within_names (batches batches' : List (List Entry)) :
    let i := batches.foldl append {}
    let j := batches'.foldl append {}
    (i.sorted = j.sorted ↔
      ∀ name, batches.flatten.filter (·.name = name) = batches'.flatten.filter (·.name = name)) ∧
      (batches.Perm batches' → NamesApart batches → i.render = j.render) := by
  intro i j
  have hi : i.entries = batches.flatten := entries_foldl_append {} batches
  have hj : j.entries = batches'.flatten := entries_foldl_append {} batches'
  have hsorted : i.sorted = j.sorted ↔
      ∀ name, batches.flatten.filter (·.name = name) =
        batches'.flatten.filter (·.name = name) := by
    rw [sorted_eq_iff, hi, hj]
  refine ⟨hsorted, fun hperm hapart => ?_⟩
  exact render_eq_of_sorted_eq (hsorted.mpr (filter_flatten_of_perm hperm hapart))

namespace Unrelated

def entry (name file : String) (line : Nat) : Entry :=
  ⟨name, file, "/^" ++ name ++ ":$/", .label, line⟩

def library : List Entry :=
  [entry "b" "lib.ahk" 1, entry "a" "lib.ahk" 2, entry "b" "lib.ahk" 3]

def program : List Entry :=
  [entry "c" "main.ahk" 1]

end Unrelated

open Unrelated in
theorem unrelated_batches_in_any_order :
    [library, program, library].Perm [program, library, library] ∧
      NamesApart [library, program, library] ∧
      ([library, program, library].foldl append {}).render =
        ([program, library, library].foldl append {}).render := by
  have hperm : [library, program, library].Perm [program, library, library] :=
    List.Perm.swap _ _ _
  have hapart : NamesApart [library, program, library] := by
    unfold NamesApart
    decide +kernel
  exact ⟨hperm, hapart, (sorted_tells_order_within_names _ _).2 hperm hapart⟩

end Index

end ScriptTags
