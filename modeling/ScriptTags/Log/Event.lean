import ScriptTags.Bytes

namespace ScriptTags

inductive Level where
  | error
  | warn
  | info
  | debug
  | trace
deriving DecidableEq, Repr

namespace Level

def rank : Level → Nat
  | .error => 1
  | .warn => 2
  | .info => 3
  | .debug => 4
  | .trace => 5

def text : Level → String
  | .error => "ERROR"
  | .warn => "WARN"
  | .info => "INFO"
  | .debug => "DEBUG"
  | .trace => "TRACE"

end Level

structure Event where
  level : Level
  target : String
  message : String
  fields : List (String × String) := []
deriving DecidableEq, Repr

namespace Event

def fieldNames (e : Event) : List String :=
  "message" :: e.fields.map (·.1)

def padded (width : Nat) (s : String) : String :=
  String.ofList (List.replicate (width - s.length) ' ') ++ s

def render (e : Event) : String :=
  padded 5 e.level.text ++ " " ++ e.target ++ ": " ++ e.message ++
    String.join (e.fields.map fun (key, value) => " " ++ key ++ "=" ++ value)

end Event

end ScriptTags
