import ScriptTags.Command.Parse
import ScriptTags.Log.Filter
import ScriptTags.Run.Generate

namespace ScriptTags.Command

def helpLines : List String := [
  "Ctags-compatible tag generator for AutoHotkey",
  "",
  "Usage: ahktags [OPTIONS] [FILES]...",
  "",
  "Arguments:",
  "  [FILES]...  Scripts to scan",
  "",
  "Options:",
  "  -R, --recursive     Process current directory recursively",
  "      --include-vars  Include variables in generated tags",
  "  -f, --file <FILE>   Write tags to FILE (use - for std out) [default: tags]",
  "      --list-kinds    Lists the tag kinds",
  "  -v, --verbose       Log each tagged script to stderr",
  "  -h, --help          Print help",
  "  -V, --version       Print version"]

def helpText : String :=
  String.join (helpLines.map (· ++ "\n"))

def versionText : String := "ahktags 0.1.0\n"

def usageText : String :=
  "Usage: ahktags [OPTIONS] [FILES]...\n\nFor more information, try '--help'.\n"

def defaultFilter (verbose : Bool) : Filter :=
  if verbose then
    ⟨[{ target := some "ahk_tags", rank := Level.debug.rank },
      { target := some "ahk_io", rank := Level.debug.rank }]⟩
  else ⟨[{ target := some "ahk_tags", rank := Level.warn.rank }]⟩

def chooseFilter (verbose : Bool) (environment : Option String) : Filter :=
  (environment.bind Filter.parse?).getD (defaultFilter verbose)

def renderLog (f : Filter) (log : List Event) : String :=
  String.join ((log.filter f.shows).map fun e => e.render ++ "\n")

def indented (first next : String) (cause : String) : String :=
  first ++ String.ofList (cause.toList.flatMap fun c =>
    if c = '\n' then '\n' :: next.toList else [c]) ++ "\n"

def renderCauses : List String → String
  | [cause] => indented "    " "    " cause
  | causes =>
      String.join (causes.zipIdx.map fun (cause, n) =>
        indented (Event.padded 5 (toString n) ++ ": ") "       " cause)

def renderFailure (context : String) (causes : List String) : String :=
  "Error: " ++ context ++ "\n\nCaused by:\n" ++ renderCauses causes

def noSymbols : Event :=
  ⟨.debug, "ahktags", "no symbols in input", []⟩

structure Completion where
  exit : Nat
  tree : FileTree
  stdout : Sink
  stderr : String := ""
deriving DecidableEq, Repr

/-- Standard output need not be able to take a help or version text. -/
def say (text : String) (t : FileTree) (stdout : Sink) : Completion :=
  { exit := 0, tree := t, stdout := (stdout.emit [Bytes.ofString text]).2 }

def listKinds (o : Options) (t : FileTree) (stdout : Sink) : Completion :=
  match Kind.printAll o.config.kinds stdout with
  | (.ok (), stdout) => { exit := 0, tree := t, stdout }
  | (.error e, stdout) =>
      { exit := 1, tree := t, stdout, stderr := renderFailure "cannot list kinds" [e.message] }

def generate (o : Options) (filter : Filter) (t : FileTree) (stdout : Sink) : Completion :=
  let (result, s) := Run.generate o.config [Byte.dot] { tree := t, stdout }
  match result with
  | .error e =>
      { exit := 1, tree := s.tree, stdout := s.stdout
        stderr := renderLog filter s.log ++
          renderFailure "tag generation failed" (e.message :: e.causes) }
  | .ok outcome =>
      let s := if outcome = .skipped then s.record [noSymbols] else s
      { exit := 0, tree := s.tree, stdout := s.stdout, stderr := renderLog filter s.log }

def run (arguments : List Bytes) (environment : Option String) (t : FileTree) (stdout : Sink) :
    Completion :=
  match parse arguments with
  | .error .help => say helpText t stdout
  | .error .version => say versionText t stdout
  | .error (.misuse e) =>
      { exit := 2, tree := t, stdout
        stderr := "error: " ++ e.message ++ "\n\n" ++ usageText }
  | .ok o =>
      if o.listKinds then listKinds o t stdout
      else generate o (chooseFilter o.verbose environment) t stdout

end ScriptTags.Command
