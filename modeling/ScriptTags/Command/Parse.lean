import ScriptTags.Command.Options
import ScriptTags.Text.Utf8

/-!
Reading a command line. What is given to an option or to the files is held back until the next
option, or the end, shows that it is complete; only then is it checked. A word that cannot be an
option at all is refused before that check.
-/

namespace ScriptTags.Command

inductive Word where
  | endOfOptions
  | long (name : Bytes) (value : Option Bytes)
  | cluster (letters : Bytes)
  | plain
deriving DecidableEq, Repr

def afterEquals? (word : Bytes) : Option Bytes :=
  match word.dropWhile (· != Byte.equals) with
  | [] => none
  | _ :: value => some value

def Word.ofArgument (argument : Bytes) : Word :=
  match argument with
  | [] => .plain
  | b :: r =>
      if b ≠ Byte.dash then .plain
      else match r with
        | [] => .plain
        | c :: s =>
            if c ≠ Byte.dash then .cluster r
            else if s = [] then .endOfOptions
            else .long (s.takeWhile (· != Byte.equals)) (afterEquals? s)

inductive Flag where
  | switch (s : Switch)
  | file
  | help
  | version
deriving DecidableEq, Repr

namespace Flag

def ofLong? (name : Bytes) : Option Flag :=
  if name = Bytes.ofString "file" then some .file
  else if name = Bytes.ofString "help" then some .help
  else if name = Bytes.ofString "version" then some .version
  else (Switch.all.find? fun s => name = Bytes.ofString s.long).map .switch

def ofLetter? (b : UInt8) : Option Flag :=
  [('R', .switch .recursive), ('f', .file), ('v', .switch .verbose), ('h', .help),
    ('V', .version)].lookup (Char.ofNat b.toNat)

def shown : Flag → String
  | .switch s => "--" ++ s.long
  | .file => "--file <FILE>"
  | .help => "--help"
  | .version => "--version"

end Flag

def filesShown : String := "[FILES]..."

inductive Halt where
  | help
  | version
  | misuse (e : UsageError)
deriving DecidableEq, Repr

inductive Pending where
  | nothing
  | noDestination
  | destination (value : Bytes)
  | files (values : List Bytes)
deriving DecidableEq, Repr

structure State where
  options : Options := {}
  pending : Pending := .nothing
deriving DecidableEq, Repr

def Options.assign (o : Options) (value : Bytes) : Except Halt Options :=
  if o.destination.isSome then .error (.misuse (.repeated Flag.file.shown))
  else match Utf8.decode? value with
    | none => .error (.misuse .invalidText)
    | some path => .ok { o with destination := some path }

namespace State

def settle (st : State) : Except Halt Options :=
  match st.pending with
  | .nothing => .ok st.options
  | .noDestination => .error (.misuse (.missingValue Flag.file.shown))
  | .destination value => st.options.assign value
  | .files values =>
      if values.any List.isEmpty then .error (.misuse (.missingValue filesShown))
      else .ok { st.options with files := st.options.files ++ values }

def flag (st : State) (f : Flag) : Except Halt State := do
  let options ← st.settle
  match f with
  | .switch s =>
      if options.has s then .error (.misuse (.repeated f.shown))
      else .ok { options := options.turnOn s }
  | .file => .ok { options, pending := .noDestination }
  | .help => .error .help
  | .version => .error .version

def attach (st : State) (value : Bytes) : Except Halt State := do
  let options ← st.settle
  return { options := ← options.assign value }

def long (st : State) (name : Bytes) (value : Option Bytes) : Except Halt State :=
  match Flag.ofLong? name, value with
  | none, _ => .error (.misuse (.unexpectedArgument ("--" ++ Utf8.decode name)))
  | some f, none => st.flag f
  | some .file, some value => st.attach value
  | some f, some value =>
      .error (.misuse (.unexpectedValue (Utf8.decode value) f.shown))

def letterShown (letters : Bytes) : String :=
  match Utf8.pieces letters with
  | some c :: _ => "-" ++ String.singleton c
  | _ => "-" ++ Utf8.decode letters

def clusterValue : Bytes → Bytes
  | [] => []
  | b :: r => if b = Byte.equals then r else b :: r

def cluster (st : State) : Bytes → Except Halt State
  | [] => .ok st
  | b :: r =>
      match Flag.ofLetter? b with
      | none => .error (.misuse (.unexpectedArgument (letterShown (b :: r))))
      | some f =>
          if f = .file && !r.isEmpty then st.attach (clusterValue r)
          else do
            let st ← st.flag f
            st.cluster r

def file (st : State) (word : Bytes) : Except Halt State :=
  match st.pending with
  | .files values => .ok { st with pending := .files (values ++ [word]) }
  | _ => do
      let options ← st.settle
      return { options, pending := .files [word] }

def plain (st : State) (word : Bytes) : Except Halt State :=
  match st.pending with
  | .noDestination => .ok { st with pending := .destination word }
  | _ => st.file word

def files (st : State) : List Bytes → Except Halt Options
  | [] => st.settle
  | word :: rest => do
      let st ← st.file word
      st.files rest

def words (st : State) : List Bytes → Except Halt Options
  | [] => st.settle
  | word :: rest =>
      match Word.ofArgument word with
      | .endOfOptions => st.files rest
      | .long name value => do
          let st ← st.long name value
          st.words rest
      | .cluster letters => do
          let st ← st.cluster letters
          st.words rest
      | .plain => do
          let st ← st.plain word
          st.words rest

end State

def parse (arguments : List Bytes) : Except Halt Options :=
  State.words {} arguments

end ScriptTags.Command
