import ScriptTags.Text.Utf8

namespace ScriptTags

inductive Errno where
  | noSuchFile
  | inputOutput
  | permissionDenied
  | notDirectory
  | isDirectory
  | noSpace
  | brokenPipe
  | nameTooLong
  | linkLoop
deriving DecidableEq, Repr

namespace Errno

def all : List Errno :=
  [.noSuchFile, .inputOutput, .permissionDenied, .notDirectory, .isDirectory, .noSpace,
    .brokenPipe, .nameTooLong, .linkLoop]

def code : Errno → Nat
  | .noSuchFile => 2
  | .inputOutput => 5
  | .permissionDenied => 13
  | .notDirectory => 20
  | .isDirectory => 21
  | .noSpace => 28
  | .brokenPipe => 32
  | .nameTooLong => 36
  | .linkLoop => 40

def ofCode? (n : Nat) : Option Errno :=
  all.find? (·.code = n)

def text : Errno → String
  | .noSuchFile => "No such file or directory"
  | .inputOutput => "Input/output error"
  | .permissionDenied => "Permission denied"
  | .notDirectory => "Not a directory"
  | .isDirectory => "Is a directory"
  | .noSpace => "No space left on device"
  | .brokenPipe => "Broken pipe"
  | .nameTooLong => "File name too long"
  | .linkLoop => "Too many levels of symbolic links"

end Errno

inductive SystemError where
  | os (e : Errno)
  | nulInPath
  | writeZero
  | custom (text : String)
deriving DecidableEq, Repr

def SystemError.message : SystemError → String
  | .os e => e.text ++ " (os error " ++ toString e.code ++ ")"
  | .nulInPath => "file name contained an unexpected NUL byte"
  | .writeZero => "failed to write whole buffer"
  | .custom text => text

inductive FileError where
  | notFound (path : String)
  | system (e : SystemError)
deriving DecidableEq, Repr

namespace FileError

def message : FileError → String
  | .notFound path => "File not found: " ++ path
  | .system e => "IO error: " ++ e.message

def chain (e : FileError) : List String :=
  match e with
  | .notFound _ => [e.message]
  | .system cause => [e.message, cause.message]

end FileError

inductive RunError where
  | read (path : Bytes) (e : FileError)
  | write (path : Bytes) (e : FileError)
  | stdout (e : SystemError)
deriving DecidableEq, Repr

namespace RunError

def message : RunError → String
  | .read path e => "cannot read " ++ Utf8.decode path ++ ": " ++ e.message
  | .write path e => "cannot write " ++ Utf8.decode path ++ ": " ++ e.message
  | .stdout e => "cannot write to stdout: " ++ e.message

def causes : RunError → List String
  | .read _ e => e.chain
  | .write _ e => e.chain
  | .stdout e => [e.message]

end RunError

end ScriptTags
