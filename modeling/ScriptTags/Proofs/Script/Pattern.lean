import ScriptTags.Proofs.Script.Hits

/-!
Patterns of octets. A pattern has its outcomes in order of preference, greedy ones first; at an
offset the first outcome counts, and a search takes the least offset with one.
-/

namespace ScriptTags

inductive Octet where
  | literal (b : UInt8)
  | blank
  | word
  | space
  | any
deriving DecidableEq, Repr

namespace Octet

def holds : Octet → UInt8 → Bool
  | .literal b, x => x == b
  | .blank, x => Byte.isBlank x
  | .word, x => Byte.isWord x
  | .space, x => Byte.isSpace x
  | .any, x => x != Byte.lineFeed

def text : Octet → String
  | .literal b =>
      let c := Bytes.toAscii [b]
      if b ∈ [Byte.openParen, Byte.closeParen, Byte.openBrace] then "\\" ++ c else c
  | .blank => "[ \\t]"
  | .word => "[A-Za-z0-9_]"
  | .space => "\\s"
  | .any => "."

end Octet

inductive Pattern where
  | octet (c : Octet)
  | star (c : Octet)
  | plus (c : Octet)
  | optional (p : Pattern)
  | seq (p q : Pattern)
  | group (p : Pattern)
  | named (p : Pattern)
  | lineStart
  | lineEnd
deriving DecidableEq, Repr

namespace Pattern

def text : Pattern → String
  | .octet c => c.text
  | .star c => c.text ++ "*"
  | .plus c => c.text ++ "+"
  | .optional p => p.text ++ "?"
  | .seq p q => p.text ++ q.text
  | .group p => "(" ++ p.text ++ ")"
  | .named p => "(?P<name>" ++ p.text ++ ")"
  | .lineStart => "^"
  | .lineEnd => "$"

structure State where
  behind : Option UInt8
  ahead : Bytes
  name : Bytes
deriving DecidableEq, Repr

def stars (c : Octet) (name : Bytes) : Option UInt8 → Bytes → List State
  | behind, [] => [⟨behind, [], name⟩]
  | behind, b :: r =>
      if c.holds b then stars c name (some b) r ++ [⟨behind, b :: r, name⟩]
      else [⟨behind, b :: r, name⟩]

def one (c : Octet) (s : State) : List State :=
  match s.ahead with
  | [] => []
  | b :: r => if c.holds b then [⟨some b, r, s.name⟩] else []

/-- The places where a pattern can end, in order of preference. -/
def outcomes : Pattern → State → List State
  | .octet c, s => one c s
  | .star c, s => stars c s.name s.behind s.ahead
  | .plus c, s => (one c s).flatMap fun t => stars c t.name t.behind t.ahead
  | .optional p, s => outcomes p s ++ [s]
  | .seq p q, s => (outcomes p s).flatMap (outcomes q)
  | .group p, s => outcomes p s
  | .named p, s => (outcomes p s).map fun t =>
      { t with name := s.ahead.take (s.ahead.length - t.ahead.length) }
  | .lineStart, s => if s.behind = none ∨ s.behind = some Byte.lineFeed then [s] else []
  | .lineEnd, s => if s.ahead = [] ∨ s.ahead.head? = some Byte.lineFeed then [s] else []

def first? (p : Pattern) (s : State) : Option Rule.Match :=
  (p.outcomes s).head?.map fun t => ⟨t.name, t.ahead⟩

def State.at (text : Bytes) (p : Nat) : State :=
  ⟨if p = 0 then none else text[p - 1]?, text.drop p, []⟩

def FoundAt (e : Pattern) (text : Bytes) (p : Nat) (w : Bytes) (q : Nat) : Prop :=
  p ≤ text.length ∧ q ≤ text.length ∧ e.first? (State.at text p) = some ⟨w, text.drop q⟩

def Candidate (e : Pattern) (text : Bytes) (p : Nat) : Prop :=
  ∃ w q, e.FoundAt text p w q

variable {c : Octet} {e p q : Pattern} {g h : Bytes → Option Bytes} {s : State} {b : UInt8}
  {r : Bytes}

theorem first?_seq (p q : Pattern) (s : State) :
    (seq p q).first? s = (p.outcomes s).findSome? q.first? := by
  rw [first?, outcomes, List.head?_flatMap, List.map_findSome?]
  rfl

theorem first?_seq_assoc (p q e : Pattern) (s : State) :
    (seq (seq p q) e).first? s = (seq p (seq q e)).first? s := by
  simp only [first?, outcomes, List.flatMap_assoc]

def Reads (e : Pattern) (g : Bytes → Option Bytes) : Prop :=
  ∀ s : State, e.first? s = (g s.ahead).map fun r => ⟨s.name, r⟩

def octetThen (c : Octet) (g : Bytes → Option Bytes) : Bytes → Option Bytes
  | [] => none
  | b :: r => if c.holds b then g r else none

def greedy {α : Type} (c : Octet) (g : Bytes → Option α) : Bytes → Option α
  | [] => g []
  | b :: r => if c.holds b then (greedy c g r).or (g (b :: r)) else g (b :: r)

def atLineEnd (r : Bytes) : Option Bytes :=
  if r = [] ∨ r.head? = some Byte.lineFeed then some r else none

theorem octetThen_literal (x b : UInt8) (g : Bytes → Option Bytes) (r : Bytes) :
    octetThen (.literal x) g (b :: r) = if b = x then g r else none := by
  simp [octetThen, Octet.holds]

theorem octetThen_of_isSpace {x : UInt8} (hx : Byte.isSpace x = false)
    (hb : Byte.isSpace b = true) : octetThen (.literal x) g (b :: r) = none := by
  rw [octetThen_literal, if_neg (Byte.ne_of_class hb hx)]

theorem octetThen_drop_iff {x : UInt8} {text : Bytes} {k : Nat} :
    octetThen (.literal x) g (text.drop k) = some r ↔
      text[k]? = some x ∧ g (text.drop (k + 1)) = some r := by
  cases hd : text.drop k with
  | nil =>
      have hk := List.drop_eq_nil_iff.mp hd
      simp [octetThen, List.getElem?_eq_none hk]
  | cons b s =>
      obtain ⟨hb, hs⟩ := Bytes.drop_succ_of_drop_eq_cons hd
      rw [octetThen_literal, Option.ite_none_right_eq_some, hb, hs, Option.some.injEq]

theorem greedy_map {α β : Type} (c : Octet) (f : α → β) (g : Bytes → Option α) (s : Bytes) :
    greedy c (fun r => (g r).map f) s = (greedy c g s).map f := by
  induction s with
  | nil => rfl
  | cons b r ih =>
      rw [greedy, greedy]
      split
      next => rw [ih, Option.map_or]
      next => rfl

theorem greedy_of_reject {α : Type} {g : Bytes → Option α}
    (hg : ∀ b r, c.holds b = true → g (b :: r) = none) (s : Bytes) :
    greedy c g s = g (s.dropWhile c.holds) := by
  induction s with
  | nil => rfl
  | cons b r ih =>
      cases hb : c.holds b with
      | true => simp [greedy, hb, ih, hg b r hb]
      | false => simp [greedy, hb]

theorem greedy_of_accept {s : Bytes} (hg : (g (s.dropWhile c.holds)).isSome = true) :
    greedy c g s = g (s.dropWhile c.holds) := by
  induction s with
  | nil => rfl
  | cons b r ih =>
      cases hb : c.holds b with
      | true =>
          rw [List.dropWhile_cons_of_pos hb] at hg ⊢
          rw [greedy, if_pos hb, ih hg, Option.or_of_isSome hg]
      | false => simp [greedy, hb]

theorem exists_of_greedy {α : Type} {c : Octet} {g : Bytes → Option α} {s : Bytes} {a : α}
    (h : greedy c g s = some a) :
    ∃ gap t, s = gap ++ t ∧ (∀ b ∈ gap, c.holds b = true) ∧ g t = some a := by
  induction s with
  | nil => exact ⟨[], [], rfl, by simp, h⟩
  | cons b r ih =>
      rw [greedy] at h
      split at h
      next hb =>
        rcases Option.or_eq_some_iff.mp h with h | ⟨-, h⟩
        · obtain ⟨gap, t, rfl, hgap, ht⟩ := ih h
          exact ⟨b :: gap, t, rfl, by simpa [hb] using hgap, ht⟩
        · exact ⟨[], b :: r, rfl, by simp, h⟩
      next => exact ⟨[], b :: r, rfl, by simp, h⟩

theorem isSome_greedy {α : Type} {c : Octet} {g : Bytes → Option α} {gap t : Bytes}
    (hgap : ∀ b ∈ gap, c.holds b = true) (ht : (g t).isSome = true) :
    (greedy c g (gap ++ t)).isSome = true := by
  induction gap with
  | nil =>
      cases t with
      | nil => exact ht
      | cons b r =>
          rw [List.nil_append, greedy]
          split
          next => rw [Option.isSome_or, ht, Bool.or_true]
          next => exact ht
  | cons b gap ih =>
      have hrest := ih fun x hx => hgap x (List.mem_cons_of_mem b hx)
      rw [List.cons_append, greedy, if_pos (hgap b List.mem_cons_self), Option.isSome_or,
        hrest, Bool.true_or]

theorem Reads.congr (hg : Reads e g) (hgh : ∀ r, g r = h r) : Reads e h := by
  intro s
  rw [hg s, hgh]

theorem Reads.octet (hg : Reads e g) (c : Octet) : Reads (.seq (.octet c) e) (octetThen c g) := by
  rintro ⟨behind, ahead, name⟩
  rw [first?_seq, outcomes]
  cases ahead with
  | nil => rfl
  | cons b r =>
      simp only [one, octetThen]
      split
      next => simp [hg _]
      next => rfl

theorem findSome?_stars {α : Type} {f : State → Option α} {g : Bytes → Option α} {name : Bytes}
    (hfg : ∀ behind r, f ⟨behind, r, name⟩ = g r) (c : Octet) (behind : Option UInt8) (s : Bytes) :
    (stars c name behind s).findSome? f = greedy c g s := by
  induction s generalizing behind with
  | nil => simp [stars, greedy, hfg]
  | cons b r ih =>
      rw [stars, greedy]
      split
      next => simp [List.findSome?_append, ih, hfg]
      next => simp [hfg]

theorem Reads.star (hg : Reads e g) (c : Octet) : Reads (.seq (.star c) e) (greedy c g) := by
  intro s
  rw [first?_seq, outcomes, ← greedy_map]
  exact findSome?_stars (fun behind r => hg ⟨behind, r, s.name⟩) c s.behind s.ahead

theorem Reads.optional (hp : Reads (.seq p e) h) (hg : Reads e g) :
    Reads (.seq (.optional p) e) (fun r => (h r).or (g r)) := by
  intro s
  have hseq := hp s
  rw [first?_seq] at hseq
  rw [first?_seq, outcomes, List.findSome?_append, hseq, List.findSome?_singleton, hg s,
    Option.map_or]

theorem Reads.group (hp : Reads (.seq p e) g) : Reads (.seq (.group p) e) g :=
  hp

theorem Reads.assoc (hp : Reads (.seq p (.seq q e)) g) : Reads (.seq (.seq p q) e) g :=
  fun s => (first?_seq_assoc p q e s).trans (hp s)

theorem reads_lineEnd : Reads .lineEnd atLineEnd := by
  intro s
  rw [first?, outcomes, atLineEnd]
  split
  next => rfl
  next => rfl

end Pattern

end ScriptTags
