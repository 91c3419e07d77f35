import ScriptTags.Text.Utf8
import Mathlib.Algebra.Group.Nat.Defs
import Mathlib.Data.List.Basic

/-!
Text read with replacement. What is written in UTF-8 is read back, and in any text the characters
of ASCII are those of its octets: a character of several octets is never one of them.
-/

namespace ScriptTags.Utf8

variable {b : UInt8} {r bs : Bytes} {p : Option Pending} {q : Pending} {d n : Nat} {c : Char}

theorem piecesFrom_cons (p : Option Pending) (b : UInt8) (r : Bytes) :
    piecesFrom p (b :: r) = (step p b).1 ++ piecesFrom (step p b).2 r := by
  rw [piecesFrom]

theorem start_oneOctet (h : n < 0x80) : start (UInt8.ofNat n) = .whole (Char.ofNat n) := by
  have hstart : ∀ n : Fin 0x80, start (UInt8.ofNat n) = .whole (Char.ofNat n) := by
    decide +kernel
  exact hstart ⟨n, h⟩

theorem start_twoOctets (hlow : 2 ≤ n) (h : n < 0x20) :
    start (UInt8.ofNat (n + 0xC0)) = .owing { value := n, more := 0 } := by
  have hstart : ∀ n : Fin 0x20, 2 ≤ n.val →
      start (UInt8.ofNat (n + 0xC0)) = .owing { value := n, more := 0 } := by decide +kernel
  exact hstart ⟨n, h⟩ hlow

theorem start_threeOctets (h : n < 0x10) :
    start (UInt8.ofNat (n + 0xE0)) = .owing {
      value := n, more := 1
      low := if n = 0 then 0xA0 else 0x80
      high := if n = 0xD then 0x9F else 0xBF } := by
  have hstart : ∀ n : Fin 0x10, start (UInt8.ofNat (n + 0xE0)) = .owing {
      value := n, more := 1
      low := if n.val = 0 then 0xA0 else 0x80
      high := if n.val = 0xD then 0x9F else 0xBF } := by decide +kernel
  exact hstart ⟨n, h⟩

theorem start_fourOctets (h : n < 5) :
    start (UInt8.ofNat (n + 0xF0)) = .owing {
      value := n, more := 2
      low := if n = 0 then 0x90 else 0x80
      high := if n = 4 then 0x8F else 0xBF } := by
  have hstart : ∀ n : Fin 5, start (UInt8.ofNat (n + 0xF0)) = .owing {
      value := n, more := 2
      low := if n.val = 0 then 0x90 else 0x80
      high := if n.val = 4 then 0x8F else 0xBF } := by decide +kernel
  exact hstart ⟨n, h⟩

theorem toNat_tail (h : d < 64) : (UInt8.ofNat (d + 0x80)).toNat = d + 0x80 := by
  rw [UInt8.toNat_ofNat']
  omega

theorem step_tail (h : d < 64) (hlow : q.low.toNat ≤ d + 0x80) (hhigh : d + 0x80 ≤ q.high.toNat) :
    step (some q) (UInt8.ofNat (d + 0x80)) =
      match q.more with
      | 0 => ([some (Char.ofNat (q.value * 64 + d))], none)
      | n + 1 => ([], some { value := q.value * 64 + d, more := n }) := by
  have hbounds : (q.low ≤ UInt8.ofNat (d + 0x80) && UInt8.ofNat (d + 0x80) ≤ q.high) = true := by
    simp only [Bool.and_eq_true, decide_eq_true_eq, UInt8.le_iff_toNat_le, toNat_tail h]
    exact ⟨hlow, hhigh⟩
  have hd : (d + 0x80) % 64 = d := by omega
  cases hmore : q.more with
  | zero => simp only [step, if_pos hbounds, toNat_tail h, hd, hmore]
  | succ n => simp only [step, if_pos hbounds, toNat_tail h, hd, hmore]

theorem piecesFrom_tail (hmore : q.more = n + 1) (h : d < 64) (hlow : q.low.toNat ≤ d + 0x80)
    (hhigh : d + 0x80 ≤ q.high.toNat) (r : Bytes) :
    piecesFrom (some q) (UInt8.ofNat (d + 0x80) :: r) =
      piecesFrom (some { value := q.value * 64 + d, more := n }) r := by
  rw [piecesFrom_cons, step_tail h hlow hhigh, hmore]
  rfl

theorem piecesFrom_nextTail {value : Nat} (h : d < 64) (r : Bytes) :
    piecesFrom (some { value, more := n + 1 }) (UInt8.ofNat (d + 0x80) :: r) =
      piecesFrom (some { value := value * 64 + d, more := n }) r := by
  have hhigh : d + 0x80 ≤ 0xBF := by omega
  exact piecesFrom_tail (q := { value, more := n + 1 }) rfl h (Nat.le_add_left _ _) hhigh r

theorem piecesFrom_lastTail {value : Nat} (h : d < 64) (r : Bytes) :
    piecesFrom (some { value, more := 0 }) (UInt8.ofNat (d + 0x80) :: r) =
      some (Char.ofNat (value * 64 + d)) :: piecesFrom none r := by
  have hhigh : d + 0x80 ≤ 0xBF := by omega
  rw [piecesFrom_cons, step_tail (q := { value, more := 0 }) h (Nat.le_add_left _ _) hhigh]
  rfl

theorem piecesFrom_owing (h : start b = .owing q) (r : Bytes) :
    piecesFrom none (b :: r) = piecesFrom (some q) r := by
  rw [piecesFrom_cons, step, begin, h]
  rfl

theorem piecesFrom_whole (h : start b = .whole c) (r : Bytes) :
    piecesFrom none (b :: r) = some c :: piecesFrom none r := by
  rw [piecesFrom_cons, step, begin, h]
  rfl

theorem piecesFrom_twoOctets {x y : Nat} (hx : x < 0x20) (hy : y < 64) (hshort : 2 ≤ x)
    (r : Bytes) :
    piecesFrom none (UInt8.ofNat (x + 0xC0) :: UInt8.ofNat (y + 0x80) :: r) =
      some (Char.ofNat (x * 64 + y)) :: piecesFrom none r := by
  rw [piecesFrom_owing (start_twoOctets hshort hx), piecesFrom_lastTail hy]

theorem piecesFrom_threeOctets {x y z : Nat} (hx : x < 0x10) (hy : y < 64) (hz : z < 64)
    (hshort : x = 0 → 0x20 ≤ y) (hsurrogate : x = 0xD → y < 0x20) (r : Bytes) :
    piecesFrom none (UInt8.ofNat (x + 0xE0) :: UInt8.ofNat (y + 0x80) ::
      UInt8.ofNat (z + 0x80) :: r) =
        some (Char.ofNat ((x * 64 + y) * 64 + z)) :: piecesFrom none r := by
  have hlow : (if x = 0 then 0xA0 else 0x80 : UInt8).toNat ≤ y + 0x80 := by
    split
    next hzero => exact Nat.add_le_add_right (hshort hzero) 0x80
    next => exact Nat.le_add_left _ _
  have hhigh : y + 0x80 ≤ (if x = 0xD then 0x9F else 0xBF : UInt8).toNat := by
    split
    next hd => exact Nat.le_of_lt_succ (Nat.add_lt_add_right (hsurrogate hd) 0x80)
    next => exact Nat.le_of_lt_succ (Nat.add_lt_add_right hy 0x80)
  rw [piecesFrom_owing (start_threeOctets hx), piecesFrom_tail rfl hy hlow hhigh,
    piecesFrom_lastTail hz]

theorem piecesFrom_fourOctets {w x y z : Nat} (hw : w < 5) (hx : x < 64) (hy : y < 64)
    (hz : z < 64) (hshort : w = 0 → 0x10 ≤ x) (hlast : w = 4 → x < 0x10) (r : Bytes) :
    piecesFrom none (UInt8.ofNat (w + 0xF0) :: UInt8.ofNat (x + 0x80) ::
      UInt8.ofNat (y + 0x80) :: UInt8.ofNat (z + 0x80) :: r) =
        some (Char.ofNat (((w * 64 + x) * 64 + y) * 64 + z)) :: piecesFrom none r := by
  have hlow : (if w = 0 then 0x90 else 0x80 : UInt8).toNat ≤ x + 0x80 := by
    split
    next hzero => exact Nat.add_le_add_right (hshort hzero) 0x80
    next => exact Nat.le_add_left _ _
  have hhigh : x + 0x80 ≤ (if w = 4 then 0x8F else 0xBF : UInt8).toNat := by
    split
    next hfour => exact Nat.le_of_lt_succ (Nat.add_lt_add_right (hlast hfour) 0x80)
    next => exact Nat.le_of_lt_succ (Nat.add_lt_add_right hx 0x80)
  rw [piecesFrom_owing (start_fourOctets hw), piecesFrom_tail rfl hx hlow hhigh,
    piecesFrom_nextTail hy, piecesFrom_lastTail hz]

theorem piecesFrom_utf8EncodeChar (c : Char) (r : Bytes) :
    piecesFrom none (String.utf8EncodeChar c ++ r) = some c :: piecesFrom none r := by
  have hvalid : c.val.toNat < 0xD800 ∨ 0xDFFF < c.val.toNat ∧ c.val.toNat < 0x110000 := c.valid
  have hc : Char.ofNat c.val.toNat = c := Char.ofNat_toNat c
  simp only [String.utf8EncodeChar]
  generalize c.val.toNat = v at hvalid hc ⊢
  subst hc
  split
  next hone => exact piecesFrom_whole (start_oneOctet (Nat.lt_succ_of_le hone)) r
  next hone =>
    split
    next htwo =>
      have hv : v / 64 % 32 * 64 + v % 64 = v := by omega
      have hread := piecesFrom_twoOctets (x := v / 64 % 32) (y := v % 64) (by omega) (by omega)
        (by omega) r
      rwa [hv] at hread
    next htwo =>
      split
      next hthree =>
        have hv : (v / 4096 % 16 * 64 + v / 64 % 64) * 64 + v % 64 = v := by omega
        have hread := piecesFrom_threeOctets (x := v / 4096 % 16) (y := v / 64 % 64) (z := v % 64)
          (by omega) (by omega) (by omega) (by omega) (by omega) r
        rwa [hv] at hread
      next hthree =>
        have hv : ((v / 262144 % 8 * 64 + v / 4096 % 64) * 64 + v / 64 % 64) * 64 + v % 64 = v := by
          omega
        have hread := piecesFrom_fourOctets (w := v / 262144 % 8) (x := v / 4096 % 64)
          (y := v / 64 % 64) (z := v % 64) (by omega) (by omega) (by omega) (by omega) (by omega)
          (by omega) r
        rwa [hv] at hread

theorem pieces_ofString (s : String) : pieces (Bytes.ofString s) = s.toList.map some := by
  rw [pieces, Bytes.ofString]
  induction s.toList with
  | nil => rfl
  | cons c cs ih => rw [List.flatMap_cons, piecesFrom_utf8EncodeChar, ih, List.map_cons]

@[simp]
theorem decode_ofString (s : String) : decode (Bytes.ofString s) = s := by
  rw [decode, pieces_ofString, List.map_map]
  change String.ofList (s.toList.map id) = s
  rw [List.map_id, String.ofList_toList]

@[simp]
theorem decode?_ofString (s : String) : decode? (Bytes.ofString s) = some s := by
  have hwhole : (pieces (Bytes.ofString s)).all Option.isSome = true := by
    rw [pieces_ofString, List.all_map]
    exact List.all_eq_true.mpr fun _ _ => rfl
  rw [decode?, if_pos hwhole, decode_ofString]

theorem ofString_inj {s r : String} (h : Bytes.ofString s = Bytes.ofString r) : s = r := by
  rw [← decode_ofString s, h, decode_ofString]

theorem head?_toList_of_ofString {s : String} (hb : b < 0x80) (h : Bytes.ofString s = b :: r) :
    s.toList.head? = some (Char.ofNat b.toNat) := by
  have hpieces := pieces_ofString s
  rw [h, pieces, piecesFrom_whole (if_pos hb)] at hpieces
  cases htext : s.toList with
  | nil => simp [htext] at hpieces
  | cons c cs =>
      rw [htext, List.map_cons, List.cons.injEq, Option.some.injEq] at hpieces
      rw [List.head?_cons, hpieces.1]

structure Pending.Wide (p : Pending) : Prop where
  low : 0x80 ≤ p.low
  high : p.high ≤ 0xBF
  least : 0x80 ≤ (p.value * 64 + p.low.toNat % 64) * 64 ^ p.more

theorem wide_of_start (h : start b = .owing q) : q.Wide := by
  have hstart : ∀ n : Fin 256, (match start (UInt8.ofFin n) with
      | .owing p => decide (0x80 ≤ p.low ∧ p.high ≤ 0xBF ∧
          0x80 ≤ (p.value * 64 + p.low.toNat % 64) * 64 ^ p.more)
      | _ => true) = true := by decide +kernel
  have hb := hstart b.toFin
  rw [UInt8.ofFin_toFin, h, decide_eq_true_eq] at hb
  exact ⟨hb.1, hb.2.1, hb.2.2⟩

theorem Pending.Wide.value_le (h : q.Wide) (hlow : q.low ≤ b) (hhigh : b ≤ q.high) :
    q.value * 64 + q.low.toNat % 64 ≤ q.value * 64 + b.toNat % 64 := by
  have hleast : 0x80 ≤ q.low.toNat := UInt8.le_iff_toNat_le.mp h.low
  have hmost : b.toNat ≤ 0xBF := UInt8.le_iff_toNat_le.mp (UInt8.le_trans hhigh h.high)
  have hle : q.low.toNat ≤ b.toNat := UInt8.le_iff_toNat_le.mp hlow
  omega

theorem Pending.Wide.last (h : q.Wide) (hlow : q.low ≤ b) (hhigh : b ≤ q.high)
    (hmore : q.more = 0) : 0x80 ≤ q.value * 64 + b.toNat % 64 := by
  have hleast := h.least
  rw [hmore, Nat.pow_zero, Nat.mul_one] at hleast
  exact Nat.le_trans hleast (h.value_le hlow hhigh)

theorem Pending.Wide.next (h : q.Wide) (hlow : q.low ≤ b) (hhigh : b ≤ q.high)
    (hmore : q.more = n + 1) :
    Pending.Wide { value := q.value * 64 + b.toNat % 64, more := n } where
  low := UInt8.le_refl _
  high := UInt8.le_refl _
  least := by
    have hleast := h.least
    rw [hmore, Nat.pow_succ', ← Nat.mul_assoc] at hleast
    have hvalue := Nat.mul_le_mul_right 64 (h.value_le hlow hhigh)
    exact Nat.le_trans hleast (Nat.mul_le_mul_right _ (Nat.le_add_right_of_le hvalue))

theorem toNat_ofNat (h : b < 0x80) : (Char.ofNat b.toNat).toNat = b.toNat := by
  have hb : b.toNat < 0x80 := UInt8.lt_iff_toNat_lt.mp h
  have hvalid : b.toNat.isValidChar := Or.inl (by omega)
  rw [Char.ofNat, dif_pos hvalid]
  rfl

theorem ofNat_inj {x : UInt8} (hb : b < 0x80) (hx : x < 0x80) :
    Char.ofNat b.toNat = Char.ofNat x.toNat ↔ b = x := by
  refine ⟨fun heq => ?_, fun heq => heq ▸ rfl⟩
  have hcode := congrArg Char.toNat heq
  rw [toNat_ofNat hb, toNat_ofNat hx] at hcode
  exact UInt8.toNat_inj.mp hcode

/-- An octet that is a character of its own, and not the one that stands for invalid code points. -/
def Single (b : UInt8) : Prop :=
  0 < b ∧ b < 0x80

theorem ofNat_ne_of_single (h : Single b) (hn : 0x80 ≤ n) : Char.ofNat b.toNat ≠ Char.ofNat n := by
  intro heq
  have hpos : 0 < b.toNat := UInt8.lt_iff_toNat_lt.mp h.1
  have hb : b.toNat < 0x80 := UInt8.lt_iff_toNat_lt.mp h.2
  have hcode := congrArg Char.toNat heq
  rw [toNat_ofNat h.2, Char.ofNat] at hcode
  by_cases hvalid : n.isValidChar
  · rw [dif_pos hvalid] at hcode
    change b.toNat = n at hcode
    omega
  · rw [dif_neg hvalid] at hcode
    change b.toNat = 0 at hcode
    omega

theorem mem_begin_iff {x : UInt8} (h : Single b) :
    some (Char.ofNat b.toNat) ∈ (begin x).1 ↔ b = x := by
  by_cases hx : x < 0x80
  · have hstart : start x = .whole (Char.ofNat x.toNat) := if_pos hx
    rw [begin, hstart, List.mem_singleton, Option.some.injEq, ofNat_inj h.2 hx]
  · have hne : b ≠ x := fun heq => hx (heq ▸ h.2)
    have hwhole : ∀ c, start x ≠ .whole c := by
      intro c hc
      rw [start, if_neg hx] at hc
      split at hc
      · cases hc
      split at hc
      · cases hc
      split at hc
      · cases hc
      split at hc <;> cases hc
    rw [begin]
    cases hstart : start x with
    | whole c => exact absurd hstart (hwhole c)
    | owing q => simp [hne]
    | stray => simp [hne]

theorem wide_begin {x : UInt8} (hq : (begin x).2 = some q) : q.Wide := by
  rw [begin] at hq
  cases hstart : start x with
  | whole c => simp [hstart] at hq
  | owing p =>
      rw [hstart] at hq
      cases hq
      exact wide_of_start hstart
  | stray => simp [hstart] at hq

theorem mem_piecesFrom_iff (h : Single b) (hp : ∀ q, p = some q → q.Wide) :
    some (Char.ofNat b.toNat) ∈ piecesFrom p bs ↔ b ∈ bs := by
  induction bs generalizing p with
  | nil => cases p <;> simp [piecesFrom]
  | cons x r ih =>
      have hnone : some (Char.ofNat b.toNat) ∈ (begin x).1 ++ piecesFrom (begin x).2 r ↔
          b ∈ x :: r := by
        rw [List.mem_append, List.mem_cons, mem_begin_iff h, ih fun q hq => wide_begin hq]
      rw [piecesFrom_cons]
      cases p with
      | none => exact hnone
      | some q =>
          have hq := hp q rfl
          rw [step]
          split
          next hin =>
            simp only [Bool.and_eq_true, decide_eq_true_eq] at hin
            obtain ⟨hlow, hhigh⟩ := hin
            have hne : b ≠ x := by
              rintro rfl
              exact UInt8.lt_irrefl _ (UInt8.lt_of_lt_of_le h.2 (UInt8.le_trans hq.low hlow))
            cases hmore : q.more with
            | zero =>
                have hwide := ofNat_ne_of_single h (hq.last hlow hhigh hmore)
                simpa [hwide, hne] using ih (p := none) nofun
            | succ n =>
                have hnext := ih fun q' hq' => Option.some.inj hq' ▸ hq.next hlow hhigh hmore
                simpa [hne] using hnext
          next => simpa using hnone

theorem mem_decode_iff (h : Single b) : Char.ofNat b.toNat ∈ (decode bs).toList ↔ b ∈ bs := by
  have hreplacement : Char.ofNat b.toNat ≠ replacement := ofNat_ne_of_single h (by decide)
  rw [decode, String.toList_ofList, List.mem_map, ← mem_piecesFrom_iff (p := none) h nofun, ← pieces]
  constructor
  · rintro ⟨piece, hpiece, hc⟩
    cases piece with
    | none => exact absurd hc.symm hreplacement
    | some c =>
        cases hc
        exact hpiece
  · intro hpiece
    exact ⟨_, hpiece, rfl⟩

end ScriptTags.Utf8
