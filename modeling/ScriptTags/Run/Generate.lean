import ScriptTags.Discovery.Walk
import ScriptTags.Output.Sink
import ScriptTags.Script.Scan
import ScriptTags.Tag.Index

/-!
A run: the scripts are collected and read in order, and the index is written only after the last
of them was read. A script that cannot be read ends the run, and an index without entries is not
written.
-/

namespace ScriptTags

inductive Destination where
  | stdout
  | file (path : Bytes)
deriving DecidableEq, Repr

def Destination.ofArgument (argument : Bytes) : Destination :=
  if argument = [Byte.dash] then .stdout else .file argument

def Config.defaultTagFile : String := "tags"

def Config.scriptExtension : String := "ahk"

structure Config where
  files : List Bytes := []
  recursive : Bool := false
  includeVariables : Bool := false
  destination : Destination := .file (Bytes.ofString Config.defaultTagFile)
  extensions : List String := [Config.scriptExtension]
deriving DecidableEq, Repr

namespace Config

def kinds (c : Config) : List Kind :=
  Kind.all.filter fun k => c.includeVariables || k != .variable

end Config

def Index.print (i : Index) (s : Sink) : Except SystemError Unit × Sink :=
  s.emit [Bytes.ofString i.render, [Byte.lineFeed]]

def Kind.printAll (kinds : List Kind) (s : Sink) : Except SystemError Unit × Sink :=
  s.emit (kinds.flatMap fun k => [Bytes.ofString k.text, [Byte.lineFeed]])

namespace Run

def target : String := "ahk_tags::generate"

def discovered (root : Bytes) (count : Nat) : Event :=
  ⟨.debug, target, "discovered scripts",
    [("root", Utf8.decode root), ("count", toString count)]⟩

def tagged (path : Bytes) (entries : Nat) : Event :=
  ⟨.debug, target, "tagged script",
    [("file", Utf8.decode path), ("entries", toString entries)]⟩

def nothingFound : Event :=
  ⟨.debug, target, "no tags found, nothing written", []⟩

def wrote (path : Bytes) (entries : Nat) : Event :=
  ⟨.info, target, "wrote tag file",
    [("path", Utf8.decode path), ("entries", toString entries)]⟩

def collect (c : Config) (t : FileTree) (root : Bytes) : List Bytes × List Event :=
  if c.recursive then
    let found := Walk.discover t root { extensions := c.extensions }
    (c.files ++ found.files, found.log ++ [discovered root found.files.length])
  else (c.files, [])

def buildFrom (t : FileTree) (kinds : List Kind) (i : Index) :
    List Bytes → Except RunError Index × List Event
  | [] => (.ok i, [])
  | path :: rest =>
      match t.read path with
      | .error e => (.error (.read path e), [])
      | .ok text =>
          let found := Scan.extract (Utf8.decode path) text kinds
          let (result, log) := buildFrom t kinds (i.append found) rest
          (result, tagged path found.length :: log)

def build (c : Config) (t : FileTree) (files : List Bytes) : Except RunError Index × List Event :=
  buildFrom t c.kinds {} files

structure Session where
  tree : FileTree
  stdout : Sink := {}
  log : List Event := []
deriving DecidableEq, Repr

def Session.record (s : Session) (events : List Event) : Session :=
  { s with log := s.log ++ events }

inductive Outcome where
  | skipped
  | printed (entries : Nat)
  | wrote (path : Bytes) (entries : Nat)
deriving DecidableEq, Repr

def deliver (i : Index) (d : Destination) (s : Session) : Except RunError Outcome × Session :=
  if i.isEmpty then (.ok .skipped, s.record [nothingFound])
  else match d with
    | .stdout =>
        match i.print s.stdout with
        | (.error e, stdout) => (.error (.stdout e), { s with stdout })
        | (.ok (), stdout) => (.ok (.printed i.size), { s with stdout })
    | .file path =>
        match s.tree.write path (Bytes.ofString i.render) with
        | .error e => (.error (.write path e), s)
        | .ok tree => (.ok (.wrote path i.size), { s with tree }.record [wrote path i.size])

def generate (c : Config) (root : Bytes) (s : Session) : Except RunError Outcome × Session :=
  let (files, collectLog) := collect c s.tree root
  let (result, buildLog) := build c s.tree files
  let s := s.record (collectLog ++ buildLog)
  match result with
  | .error e => (.error e, s)
  | .ok i => deliver i c.destination s

end Run

end ScriptTags
