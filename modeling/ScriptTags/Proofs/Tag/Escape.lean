import ScriptTags.Tag.Entry
import Mathlib.Logic.ExistsUnique

/-!
The language of escaped lines. An escaped line falls into tokens, one for each octet. No token
begins another one, so a reader that takes them from the left finds the octets again.
-/

namespace ScriptTags.Address

def hexValue? (c : Char) : Option Nat :=
  if '0' ≤ c ∧ c ≤ '9' then some (c.toNat - 48)
  else if 'a' ≤ c ∧ c ≤ 'f' then some (c.toNat - 87)
  else none

abbrev NeedsHex (n : Nat) : Prop :=
  n < 32 ∧ n ≠ 9 ∧ n ≠ 10 ∧ n ≠ 13 ∨ 127 ≤ n

abbrev IsPlain (c : Char) : Prop :=
  32 ≤ c.toNat ∧ c.toNat ≤ 126 ∧ c ≠ '\\' ∧ c ≠ '\''

inductive Token : List Char → UInt8 → Prop
  | plain {c : Char} : IsPlain c → Token [c] (UInt8.ofNat c.toNat)
  | backslash : Token ['\\', '\\'] Byte.backslash
  | quote : Token ['\\', '\''] Byte.quote
  | tab : Token ['\\', 't'] Byte.tab
  | lineFeed : Token ['\\', 'n'] Byte.lineFeed
  | carriageReturn : Token ['\\', 'r'] Byte.carriageReturn
  | hex {high low : Char} {h l : Nat} :
      hexValue? high = some h → hexValue? low = some l → NeedsHex (16 * h + l) →
      Token ['\\', 'x', high, low] (UInt8.ofNat (16 * h + l))

def Written (s : String) : Prop :=
  ∃ tokens : List (List Char), s.toList = tokens.flatten ∧ ∀ token ∈ tokens, ∃ b, Token token b

def hexOctet? (high low : Char) : Option UInt8 := do
  let h ← hexValue? high
  let l ← hexValue? low
  if NeedsHex (16 * h + l) then some (UInt8.ofNat (16 * h + l)) else none

def octets? : List Char → Option Bytes
  | [] => some []
  | '\\' :: '\\' :: r => (octets? r).map (Byte.backslash :: ·)
  | '\\' :: '\'' :: r => (octets? r).map (Byte.quote :: ·)
  | '\\' :: 't' :: r => (octets? r).map (Byte.tab :: ·)
  | '\\' :: 'n' :: r => (octets? r).map (Byte.lineFeed :: ·)
  | '\\' :: 'r' :: r => (octets? r).map (Byte.carriageReturn :: ·)
  | '\\' :: 'x' :: high :: low :: r => do
      let b ← hexOctet? high low
      (octets? r).map (b :: ·)
  | c :: r => if IsPlain c then (octets? r).map (UInt8.ofNat c.toNat :: ·) else none

def unescape? (s : String) : Option Bytes :=
  octets? s.toList

variable {token s r : List Char} {b : UInt8} {text : Bytes} {c high low : Char} {n h l : Nat}

theorem hexValue?_hexDigit (hn : n < 16) : hexValue? (hexDigit n) = some n := by
  have hdigit : ∀ n : Fin 16, hexValue? (hexDigit n) = some n.val := by decide
  exact hdigit ⟨n, hn⟩

theorem eq_hexDigit_of_hexValue? (hc : hexValue? c = some n) : c = hexDigit n ∧ n < 16 := by
  rw [hexValue?] at hc
  split at hc
  next hdigit =>
    have hlow : 48 ≤ c.toNat := UInt32.le_iff_toNat_le.mp hdigit.1
    have hhigh : c.toNat ≤ 57 := UInt32.le_iff_toNat_le.mp hdigit.2
    have hn : c.toNat - 48 = n := Option.some.inj hc
    have hsum : 48 + n = c.toNat := by omega
    refine ⟨?_, by omega⟩
    rw [hexDigit, if_pos (by omega), hsum, Char.ofNat_toNat]
  next =>
    split at hc
    next hletter =>
      have hlow : 97 ≤ c.toNat := UInt32.le_iff_toNat_le.mp hletter.1
      have hhigh : c.toNat ≤ 102 := UInt32.le_iff_toNat_le.mp hletter.2
      have hn : c.toNat - 87 = n := Option.some.inj hc
      have hsum : 87 + n = c.toNat := by omega
      refine ⟨?_, by omega⟩
      rw [hexDigit, if_neg (by omega), hsum, Char.ofNat_toNat]
    next => cases hc

theorem escapeByte_plain (hc : IsPlain c) : escapeByte (UInt8.ofNat c.toNat) = [c] := by
  have hescape : ∀ n : Fin 127, 32 ≤ n.val → Char.ofNat n ≠ '\\' → Char.ofNat n ≠ '\'' →
      escapeByte (UInt8.ofNat n) = [Char.ofNat n] := by decide +kernel
  obtain ⟨hlow, hhigh, hbackslash, hquote⟩ := hc
  have hplain := hescape ⟨c.toNat, by omega⟩ hlow
  simp only [Char.ofNat_toNat] at hplain
  exact hplain hbackslash hquote

theorem escapeByte_hex (hn : n < 256) (hhex : NeedsHex n) :
    escapeByte (UInt8.ofNat n) = ['\\', 'x', hexDigit (n / 16), hexDigit (n % 16)] := by
  have hescape : ∀ n : Fin 256, NeedsHex n.val → escapeByte (UInt8.ofNat n) =
      ['\\', 'x', hexDigit (n / 16), hexDigit (n % 16)] := by decide +kernel
  exact hescape ⟨n, hn⟩ hhex

theorem Token.eq_escapeByte (ht : Token token b) : token = escapeByte b := by
  cases ht with
  | plain hc => exact (escapeByte_plain hc).symm
  | backslash => rfl
  | quote => rfl
  | tab => rfl
  | lineFeed => rfl
  | carriageReturn => rfl
  | @hex high low h l hhigh hlow hhex =>
      obtain ⟨rfl, hh⟩ := eq_hexDigit_of_hexValue? hhigh
      obtain ⟨rfl, hl⟩ := eq_hexDigit_of_hexValue? hlow
      have hdiv : (16 * h + l) / 16 = h := by omega
      have hmod : (16 * h + l) % 16 = l := by omega
      rw [escapeByte_hex (by omega) hhex, hdiv, hmod]

theorem token_of_isPrintable (hb : Byte.isPrintable b = true) (hbackslash : b ≠ Byte.backslash)
    (hquote : b ≠ Byte.quote) : Token [Char.ofNat b.toNat] b := by
  have hplain : ∀ n : Fin 256, Byte.isPrintable (UInt8.ofFin n) = true →
      UInt8.ofFin n ≠ Byte.backslash → UInt8.ofFin n ≠ Byte.quote →
      IsPlain (Char.ofNat n.val) ∧ UInt8.ofNat (Char.ofNat n.val).toNat = UInt8.ofFin n := by
    decide +kernel
  obtain ⟨hc, heq⟩ := hplain b.toFin hb hbackslash hquote
  have htoken := Token.plain hc
  rwa [heq] at htoken

theorem token_of_not_isPrintable (hb : Byte.isPrintable b = false) (htab : b ≠ Byte.tab)
    (hfeed : b ≠ Byte.lineFeed) (hreturn : b ≠ Byte.carriageReturn) :
    Token ['\\', 'x', hexDigit (b.toNat / 16), hexDigit (b.toNat % 16)] b := by
  have hneeds : ∀ n : Fin 256, Byte.isPrintable (UInt8.ofFin n) = false →
      UInt8.ofFin n ≠ Byte.tab → UInt8.ofFin n ≠ Byte.lineFeed →
      UInt8.ofFin n ≠ Byte.carriageReturn → NeedsHex n.val := by decide +kernel
  have hlt := b.toNat_lt
  have hsum : 16 * (b.toNat / 16) + b.toNat % 16 = b.toNat := Nat.div_add_mod b.toNat 16
  have hhex : NeedsHex (16 * (b.toNat / 16) + b.toNat % 16) := by
    rw [hsum]
    exact hneeds b.toFin hb htab hfeed hreturn
  have htoken := Token.hex (hexValue?_hexDigit (by omega)) (hexValue?_hexDigit (by omega)) hhex
  rwa [hsum, UInt8.ofNat_toNat] at htoken

theorem token_escapeByte (b : UInt8) : Token (escapeByte b) b := by
  rw [escapeByte]
  split
  next h => exact h ▸ .backslash
  next hbackslash =>
    split
    next h => exact h ▸ .quote
    next hquote =>
      split
      next h => exact h ▸ .tab
      next htab =>
        split
        next h => exact h ▸ .lineFeed
        next hfeed =>
          split
          next h => exact h ▸ .carriageReturn
          next hreturn =>
            split
            next h => exact token_of_isPrintable h hbackslash hquote
            next h => exact token_of_not_isPrintable (Bool.not_eq_true _ ▸ h) htab hfeed hreturn

theorem hexOctet?_eq_some_iff :
    hexOctet? high low = some b ↔ Token ['\\', 'x', high, low] b := by
  constructor
  · intro hb
    simp only [hexOctet?, Option.bind_eq_bind, Option.bind_eq_some_iff,
      Option.ite_none_right_eq_some, Option.some.injEq] at hb
    obtain ⟨h, hhigh, l, hlow, hhex, rfl⟩ := hb
    exact .hex hhigh hlow hhex
  · intro ht
    cases ht with
    | hex hhigh hlow hhex => simp [hexOctet?, hhigh, hlow, hhex]

theorem octets?_append (ht : Token token b) (r : List Char) :
    octets? (token ++ r) = (octets? r).map (b :: ·) := by
  cases id ht with
  | plain hc =>
      obtain ⟨hlow, hhigh, hbackslash, hquote⟩ := hc
      simp [octets?, hlow, hhigh, hbackslash, hquote]
  | backslash => rfl
  | quote => rfl
  | tab => rfl
  | lineFeed => rfl
  | carriageReturn => rfl
  | hex hhigh hlow hhex =>
      have hb := hexOctet?_eq_some_iff.mpr ht
      simp [octets?, hb]

theorem octets?_escape (text : Bytes) : octets? (text.flatMap escapeByte) = some text := by
  induction text with
  | nil => rfl
  | cons b text ih =>
      rw [List.flatMap_cons, octets?_append (token_escapeByte b), ih, Option.map_some]

theorem append_eq_escape (ht : Token token b)
    (ih : ∀ {text}, octets? r = some text → r = text.flatMap escapeByte)
    (hs : (octets? r).map (b :: ·) = some text) : token ++ r = text.flatMap escapeByte := by
  obtain ⟨rest, hrest, rfl⟩ := Option.map_eq_some_iff.mp hs
  rw [List.flatMap_cons, ← ih hrest, ht.eq_escapeByte]

theorem eq_escape_of_octets? (hs : octets? s = some text) : s = text.flatMap escapeByte := by
  fun_induction octets? s generalizing text with
  | case1 => cases hs; rfl
  | case2 r ih => exact append_eq_escape .backslash ih hs
  | case3 r ih => exact append_eq_escape .quote ih hs
  | case4 r ih => exact append_eq_escape .tab ih hs
  | case5 r ih => exact append_eq_escape .lineFeed ih hs
  | case6 r ih => exact append_eq_escape .carriageReturn ih hs
  | case7 high low r ih =>
      obtain ⟨b, hb, hr⟩ := Option.bind_eq_some_iff.mp hs
      exact append_eq_escape (hexOctet?_eq_some_iff.mp hb) ih hr
  | case8 c r _ _ _ _ _ _ hc ih => exact append_eq_escape (.plain hc) ih hs
  | case9 => cases hs

theorem octets?_eq_some_iff : octets? s = some text ↔ text.flatMap escapeByte = s := by
  refine ⟨fun h => (eq_escape_of_octets? h).symm, ?_⟩
  rintro rfl
  exact octets?_escape text

theorem unescape?_eq_some_iff {s : String} : unescape? s = some text ↔ escape text = s := by
  rw [unescape?, octets?_eq_some_iff, escape, ← String.toList_inj, String.toList_ofList]

theorem escape_inj {t : Bytes} (h : escape text = escape t) : text = t :=
  Option.some.inj ((unescape?_eq_some_iff.mpr h).symm.trans (unescape?_eq_some_iff.mpr rfl))

theorem ofLine_inj {line line' : Bytes} : ofLine line = ofLine line' ↔ line = line' := by
  refine ⟨fun h => ?_, fun h => h ▸ rfl⟩
  have htext : escape line = escape line' :=
    String.append_right_inj _ |>.mp (String.append_left_inj _ |>.mp h)
  exact escape_inj htext

theorem exists_map_escapeByte {tokens : List (List Char)}
    (h : ∀ token ∈ tokens, ∃ b, Token token b) : ∃ text : Bytes, tokens = text.map escapeByte := by
  induction tokens with
  | nil => exact ⟨[], rfl⟩
  | cons token tokens ih =>
      obtain ⟨⟨b, hb⟩, hrest⟩ := List.forall_mem_cons.mp h
      obtain ⟨text, rfl⟩ := ih hrest
      exact ⟨b :: text, by rw [List.map_cons, hb.eq_escapeByte]⟩

theorem written_iff_exists {s : String} : Written s ↔ ∃ text, escape text = s := by
  constructor
  · rintro ⟨tokens, hs, htokens⟩
    obtain ⟨text, rfl⟩ := exists_map_escapeByte htokens
    exact ⟨text, by rw [escape, List.flatMap_def, ← hs, String.ofList_toList]⟩
  · rintro ⟨text, rfl⟩
    refine ⟨text.map escapeByte, ?_, ?_⟩
    · rw [escape, String.toList_ofList, List.flatMap_def]
    · intro token htoken
      obtain ⟨b, -, rfl⟩ := List.mem_map.mp htoken
      exact ⟨b, token_escapeByte b⟩

theorem escaping_is_bijective :
    (∀ s, Written s ↔ ∃! text, escape text = s) ∧
      (∀ s text, unescape? s = some text ↔ escape text = s) ∧
      (∀ s, Written s ↔ ∃ text, unescape? s = some text ∧ escape text = s) ∧
      ∀ line line', ofLine line = ofLine line' ↔ line = line' := by
  refine ⟨fun s => ?_, fun s text => unescape?_eq_some_iff, fun s => ?_,
    fun line line' => ofLine_inj⟩
  · rw [written_iff_exists]
    constructor
    · rintro ⟨text, rfl⟩
      exact ⟨text, rfl, fun t ht => escape_inj ht⟩
    · exact ExistsUnique.exists
  · rw [written_iff_exists]
    simp only [unescape?_eq_some_iff, and_self]

example : unescape? "\\\\x41\\xe9A" = some [92, 120, 52, 49, 233, 65] := by decide

end ScriptTags.Address
