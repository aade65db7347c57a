import PlotLisp.Host.Files

/-!
# Program sources

Where a program comes from: a file, an expression on the command line, or a session with the
user. Only the first two have a text to read.
-/

namespace PlotLisp

inductive SourceKind where
  | interactive
  | expression
  | file
deriving DecidableEq, Repr

/-- A kind of source, and what was given for it. -/
structure ProgramSource where
  kind : SourceKind
  path : Option String := none
  expression : Option String := none
deriving DecidableEq, Repr

/-- The text of a program, and a name for where it is from. -/
structure ProgramText where
  text : String
  origin : String
deriving DecidableEq, Repr

/-! ## Faults -/

inductive SourceError where
  | missingFile
  | missingExpression
  | unreadable (path : String) (error : FileError)
  | interactive
  | severalSources
deriving DecidableEq

def SourceError.message : SourceError → String
  | .missingFile => "file argument required"
  | .missingExpression => "-e requires an expression"
  | .unreadable path error =>
    "could not open file '" ++ path ++ "' for reading: " ++ error.message
  | .interactive => "interactive input has no program text"
  | .severalSources => "give either a file or -e <expression>, not both"

namespace ProgramSource

/-! ## Choosing and reading -/

/-- The source that the arguments ask for: at most one of a file and an expression. -/
def detect (path expression : Option String) : Except SourceError ProgramSource :=
  match path, expression with
  | some path, none => .ok { kind := .file, path := some path }
  | none, some expression => .ok { kind := .expression, expression := some expression }
  | none, none => .ok { kind := .interactive }
  | some _, some _ => .error .severalSources

/-- The text of the program. -/
def read (files : Files) (source : ProgramSource) : Except SourceError ProgramText :=
  match source.kind with
  | .file =>
    match source.path with
    | none => .error .missingFile
    | some path =>
      match files.read path with
      | .ok text => .ok ⟨text, path⟩
      | .error error => .error (.unreadable path error)
  | .expression =>
    match source.expression with
    | none => .error .missingExpression
    | some text => .ok ⟨text, "<expression>"⟩
  | .interactive => .error .interactive

end ProgramSource

end PlotLisp
