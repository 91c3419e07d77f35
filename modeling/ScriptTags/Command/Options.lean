import ScriptTags.Run.Generate
import ScriptTags.Text.Terminal

namespace ScriptTags.Command

inductive Switch where
  | recursive
  | includeVariables
  | listKinds
  | verbose
deriving DecidableEq, Repr

namespace Switch

def all : List Switch :=
  [.recursive, .includeVariables, .listKinds, .verbose]

def long : Switch → String
  | .recursive => "recursive"
  | .includeVariables => "include-vars"
  | .listKinds => "list-kinds"
  | .verbose => "verbose"

end Switch

structure Options where
  files : List Bytes := []
  recursive : Bool := false
  includeVariables : Bool := false
  listKinds : Bool := false
  verbose : Bool := false
  destination : Option String := none
deriving DecidableEq, Repr

namespace Options

def has (o : Options) : Switch → Bool
  | .recursive => o.recursive
  | .includeVariables => o.includeVariables
  | .listKinds => o.listKinds
  | .verbose => o.verbose

def turnOn (o : Options) : Switch → Options
  | .recursive => { o with recursive := true }
  | .includeVariables => { o with includeVariables := true }
  | .listKinds => { o with listKinds := true }
  | .verbose => { o with verbose := true }

def config (o : Options) : Config where
  files := o.files
  recursive := o.recursive
  includeVariables := o.includeVariables
  destination := .ofArgument (Bytes.ofString (o.destination.getD Config.defaultTagFile))

end Options

inductive UsageError where
  | unexpectedArgument (word : String)
  | repeated (option : String)
  | missingValue (option : String)
  | unexpectedValue (value : String) (option : String)
  | invalidText
deriving DecidableEq, Repr

def UsageError.message : UsageError → String
  | .unexpectedArgument word => "unexpected argument '" ++ Terminal.shown word ++ "' found"
  | .repeated option => "the argument '" ++ option ++ "' cannot be used multiple times"
  | .missingValue option =>
      "a value is required for '" ++ option ++ "' but none was supplied"
  | .unexpectedValue value option =>
      "unexpected value '" ++ Terminal.shown value ++ "' for '" ++ option ++
        "' found; no more were expected"
  | .invalidText => "invalid UTF-8 was detected in one or more arguments"

end ScriptTags.Command
