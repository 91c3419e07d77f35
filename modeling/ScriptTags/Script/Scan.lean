import ScriptTags.Script.Rule
import ScriptTags.Tag.Entry

namespace ScriptTags.Scan

structure Occurrence where
  here : Bytes
  name : Bytes
  rest : Bytes
deriving DecidableEq, Repr

def Occurrence.span (o : Occurrence) : Bytes :=
  o.here.take (o.here.length - o.rest.length)

def find? (kind : Kind) (s : Bytes) : Option Occurrence :=
  if _h : s = [] then none
  else match Rule.match? kind s with
    | some m => some ⟨s, m.name, m.rest⟩
    | none => find? kind (Line.next s)
termination_by s.length
decreasing_by exact Line.length_next_lt _h

theorem find?_here_suffix {kind : Kind} {s : Bytes} {o : Occurrence}
    (h : find? kind s = some o) : o.here <:+ s := by
  fun_induction find? kind s with
  | case1 => simp at h
  | case2 s hs m hm =>
      simp only [Option.some.injEq] at h
      subst h
      exact List.suffix_refl _
  | case3 s hs hm ih => exact (ih h).trans (Line.next_suffix s)

theorem find?_match {kind : Kind} {s : Bytes} {o : Occurrence} (h : find? kind s = some o) :
    Rule.match? kind o.here = some ⟨o.name, o.rest⟩ ∧ o.here ≠ [] := by
  fun_induction find? kind s with
  | case1 => simp at h
  | case2 s hs m hm =>
      simp only [Option.some.injEq] at h
      subst h
      exact ⟨hm, hs⟩
  | case3 s hs hm ih => exact ih h

theorem length_next_rest_lt {kind : Kind} {s : Bytes} {o : Occurrence}
    (h : find? kind s = some o) : (Line.next o.rest).length < s.length := by
  have hsub := (find?_here_suffix h).length_le
  obtain ⟨hm, hne⟩ := find?_match h
  have hrest := (Rule.match?_rest_suffix hm).length_le
  have hpos := List.length_pos_iff.mpr hne
  by_cases hr : o.rest = []
  · simp only [hr, Line.next, Line.tail, List.dropWhile_nil, List.drop_nil, List.length_nil]
    omega
  · have := Line.length_next_lt hr
    simp only at hrest
    omega

structure Cursor where
  kind : Kind
  file : String
  text : Bytes
  ahead : Bytes
  counter : Line.Counter := {}
deriving DecidableEq, Repr

namespace Cursor

def start (kind : Kind) (path : String) (text : Bytes) : Cursor :=
  { kind, file := Entry.label path, text, ahead := text }

def next? (c : Cursor) : Option (Entry × Cursor) :=
  match find? c.kind c.ahead with
  | none => none
  | some o =>
      let counter := c.counter.advance c.text (c.text.length - o.here.length)
      some ({ name := Bytes.toAscii o.name
              file := c.file
              address := Address.ofLine (Line.first o.span)
              kind := c.kind
              line := counter.line },
            { c with ahead := Line.next o.rest, counter })

theorem length_ahead_lt {c c' : Cursor} {e : Entry} (h : c.next? = some (e, c')) :
    c'.ahead.length < c.ahead.length := by
  unfold next? at h
  split at h
  · simp at h
  next o ho =>
    simp only [Option.some.injEq, Prod.mk.injEq] at h
    obtain ⟨_, rfl⟩ := h
    exact length_next_rest_lt ho

def answers : Nat → Cursor → List (Option Entry)
  | 0, _ => []
  | n + 1, c =>
      match c.next? with
      | none => none :: answers n c
      | some (e, c') => some e :: answers n c'

def toList (c : Cursor) : List Entry :=
  match _h : c.next? with
  | none => []
  | some (e, c') => e :: c'.toList
termination_by c.ahead.length
decreasing_by exact length_ahead_lt _h

end Cursor

def entries (kind : Kind) (path : String) (text : Bytes) : List Entry :=
  (Cursor.start kind path text).toList

def extract (path : String) (text : Bytes) (kinds : List Kind) : List Entry :=
  kinds.flatMap (entries · path text)

end ScriptTags.Scan
