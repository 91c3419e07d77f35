import ScriptTags.Bytes
import Mathlib.Data.List.Basic

namespace ScriptTags.Bytes

variable {c : UInt8 → Bool} {text : Bytes} {i j k : Nat}

def Spans (c : UInt8 → Bool) (text : Bytes) (i j : Nat) : Prop :=
  i ≤ j ∧ ∀ k, i ≤ k → k < j → ∃ b, text[k]? = some b ∧ c b = true

/-- From `i` on, `j` is the first offset with an octet outside the class, or the end. -/
def RunsTo (c : UInt8 → Bool) (text : Bytes) (i j : Nat) : Prop :=
  Spans c text i j ∧ j ≤ text.length ∧ ∀ b, text[j]? = some b → c b = false

def slice (text : Bytes) (i j : Nat) : Bytes :=
  (text.drop i).take (j - i)

theorem drop_inj (hi : i ≤ text.length) (hj : j ≤ text.length)
    (h : text.drop i = text.drop j) : i = j := by
  have hlen := congrArg List.length h
  simp only [List.length_drop] at hlen
  omega

theorem getElem?_eq_some_iff_drop {b : UInt8} :
    text[k]? = some b ↔ text.drop k = b :: text.drop (k + 1) := by
  constructor
  · intro h
    obtain ⟨hk, rfl⟩ := List.getElem?_eq_some_iff.mp h
    exact List.drop_eq_getElem_cons hk
  · intro h
    rw [← List.head?_drop, h, List.head?_cons]

theorem drop_succ_of_drop_eq_cons {b : UInt8} {r : Bytes} (h : text.drop k = b :: r) :
    text[k]? = some b ∧ text.drop (k + 1) = r := by
  constructor
  · rw [← List.head?_drop, h, List.head?_cons]
  · rw [← List.drop_drop, h]
    rfl

theorem slice_append_drop (h : i ≤ j) : slice text i j ++ text.drop j = text.drop i := by
  have hj : text.drop j = (text.drop i).drop (j - i) := by
    rw [List.drop_drop]
    congr 1
    omega
  rw [slice, hj, List.take_append_drop]

theorem length_slice (hij : i ≤ j) (hj : j ≤ text.length) : (slice text i j).length = j - i := by
  simp only [slice, List.length_take, List.length_drop]
  omega

theorem mem_slice_iff {b : UInt8} :
    b ∈ slice text i j ↔ ∃ k, i ≤ k ∧ k < j ∧ text[k]? = some b := by
  rw [List.mem_iff_getElem?]
  constructor
  · rintro ⟨n, hn⟩
    rw [slice, List.getElem?_take, List.getElem?_drop] at hn
    split at hn
    next hlt => exact ⟨i + n, by omega, by omega, hn⟩
    next => simp at hn
  · rintro ⟨k, hik, hkj, hk⟩
    refine ⟨k - i, ?_⟩
    have hsub : i + (k - i) = k := by omega
    rw [slice, List.getElem?_take, List.getElem?_drop, hsub, if_pos (by omega), hk]

theorem Spans.mem_slice (h : Spans c text i j) {b : UInt8} (hb : b ∈ slice text i j) :
    c b = true := by
  obtain ⟨k, hik, hkj, hk⟩ := mem_slice_iff.mp hb
  obtain ⟨x, hx, hc⟩ := h.2 k hik hkj
  rw [hk] at hx
  exact Option.some.inj hx ▸ hc

theorem Spans.le_length (h : Spans c text i j) (hij : i < j) : j ≤ text.length := by
  obtain ⟨b, hb, -⟩ := h.2 (j - 1) (by omega) (by omega)
  obtain ⟨hj, -⟩ := List.getElem?_eq_some_iff.mp hb
  omega

theorem Spans.slice_ne_nil (h : Spans c text i j) (hij : i < j) : slice text i j ≠ [] := by
  intro hnil
  have hlen := length_slice h.1 (h.le_length hij)
  rw [hnil, List.length_nil] at hlen
  omega

theorem Spans.refl (c : UInt8 → Bool) (text : Bytes) (i : Nat) : Spans c text i i :=
  ⟨Nat.le_refl i, fun _ h h' => absurd h' (Nat.not_lt.mpr h)⟩

theorem Spans.cons {b : UInt8} (hb : text[i]? = some b) (hc : c b = true)
    (h : Spans c text (i + 1) j) : Spans c text i j := by
  refine ⟨by have := h.1; omega, fun k hik hkj => ?_⟩
  by_cases hk : k = i
  · exact ⟨b, hk ▸ hb, hc⟩
  · exact h.2 k (by omega) hkj

theorem Spans.dropWhile_eq (h : Spans c text i j) (hend : ∀ b, text[j]? = some b → c b = false) :
    (text.drop i).dropWhile c = text.drop j := by
  rw [← slice_append_drop h.1, List.dropWhile_append_of_pos fun b hb => h.mem_slice hb]
  cases hd : text.drop j with
  | nil => rfl
  | cons b r =>
      have hb := hend b (drop_succ_of_drop_eq_cons hd).1
      exact List.dropWhile_cons_of_neg (by simp [hb])

theorem Spans.dropWhile_eq_cons {x : UInt8} (h : Spans c text i j) (hx : text[j]? = some x)
    (hc : c x = false) : (text.drop i).dropWhile c = x :: text.drop (j + 1) := by
  have hend : ∀ b, text[j]? = some b → c b = false := by
    intro b hb
    rw [hx, Option.some.injEq] at hb
    exact hb ▸ hc
  rw [h.dropWhile_eq hend, getElem?_eq_some_iff_drop.mp hx]

theorem spans_of_drop_eq_append {gap t : Bytes} (h : text.drop i = gap ++ t)
    (hgap : ∀ b ∈ gap, c b = true) :
    Spans c text i (i + gap.length) ∧ t = text.drop (i + gap.length) := by
  constructor
  · refine ⟨Nat.le_add_right i _, fun k hik hk => ?_⟩
    have hlt : k - i < gap.length := by omega
    have hget : text[k]? = some gap[k - i] := by
      have hdrop : (text.drop i)[k - i]? = text[i + (k - i)]? := List.getElem?_drop
      rw [h, List.getElem?_append_left hlt, List.getElem?_eq_getElem hlt] at hdrop
      rw [hdrop]
      congr 1
      omega
    exact ⟨gap[k - i], hget, hgap _ (List.getElem_mem hlt)⟩
  · rw [← List.drop_drop, h, List.drop_left]

theorem exists_runsTo (c : UInt8 → Bool) (h : i ≤ text.length) : ∃ j, RunsTo c text i j := by
  induction hs : text.drop i generalizing i with
  | nil =>
      have hi := List.drop_eq_nil_iff.mp hs
      refine ⟨i, Spans.refl c text i, h, fun b hb => ?_⟩
      rw [List.getElem?_eq_none hi] at hb
      exact absurd hb (by simp)
  | cons b r ih =>
      obtain ⟨hb, hr⟩ := drop_succ_of_drop_eq_cons hs
      cases hc : c b with
      | true =>
          obtain ⟨hi, -⟩ := List.getElem?_eq_some_iff.mp hb
          obtain ⟨j, hj, hend⟩ := ih hi hr
          exact ⟨j, hj.cons hb hc, hend⟩
      | false =>
          refine ⟨i, Spans.refl c text i, h, fun x hx => ?_⟩
          rw [hb] at hx
          exact Option.some.inj hx ▸ hc

theorem runsTo_iff (hi : i ≤ text.length) :
    RunsTo c text i j ↔ j ≤ text.length ∧ (text.drop i).dropWhile c = text.drop j := by
  constructor
  · rintro ⟨hs, hj, hend⟩
    exact ⟨hj, hs.dropWhile_eq hend⟩
  · rintro ⟨hj, hd⟩
    obtain ⟨k, hk⟩ := exists_runsTo c hi
    have hjk : j = k := drop_inj hj hk.2.1 (hd ▸ hk.1.dropWhile_eq hk.2.2)
    exact hjk ▸ hk

end ScriptTags.Bytes
