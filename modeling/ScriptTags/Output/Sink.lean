import ScriptTags.Bytes
import ScriptTags.Failure

namespace ScriptTags

structure Sink where
  chunk : Option Nat := none
  limit : Option Nat := none
  whenFull : Option SystemError := none
  whenFlushed : Option SystemError := none
  written : Bytes := []
  flushes : Nat := 0
deriving DecidableEq, Repr

namespace Sink

def room (s : Sink) : Option Nat :=
  s.limit.map (· - s.written.length)

def atMost (bound : Option Nat) (n : Nat) : Nat :=
  match bound with
  | none => n
  | some m => min m n

def attempt (s : Sink) (text : Bytes) : Except SystemError Nat × Sink :=
  if s.room = some 0 then
    match s.whenFull with
    | none => (.ok 0, s)
    | some e => (.error e, s)
  else
    let n := atMost s.chunk (atMost s.room text.length)
    (.ok n, { s with written := s.written ++ text.take n })

def write (s : Sink) (text : Bytes) : Except SystemError Unit × Sink :=
  if _h : text = [] then (.ok (), s)
  else match s.attempt text with
    | (.error e, s') => (.error e, s')
    | (.ok 0, s') => (.error .writeZero, s')
    | (.ok (n + 1), s') => s'.write (text.drop (n + 1))
termination_by text.length
decreasing_by
  have := List.length_pos_iff.mpr _h
  simp only [List.length_drop]
  omega

def flush (s : Sink) : Except SystemError Unit × Sink :=
  let s' := { s with flushes := s.flushes + 1 }
  match s.whenFlushed with
  | none => (.ok (), s')
  | some e => (.error e, s')

def emit (s : Sink) : List Bytes → Except SystemError Unit × Sink
  | [] => s.flush
  | text :: rest =>
      match s.write text with
      | (.error e, s') => (.error e, s')
      | (.ok (), s') => s'.emit rest

end Sink

end ScriptTags
