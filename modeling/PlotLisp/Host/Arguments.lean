import PlotLisp.Host.ProgramSource

/-!
# Arguments

What the arguments of the program ask for. A file and an expression exclude each other, and each
option may be given once.
-/

namespace PlotLisp

structure Arguments where
  path : Option String := none
  expression : Option String := none
  /-- The configuration file. -/
  config : Option String := none
  /-- A startup script that goes before the one of the settings. -/
  startup : Option String := none
  verbose : Bool := false
deriving DecidableEq, Repr

namespace Arguments

/-- Takes in the arguments one after another. -/
def read (arguments : Arguments) : List String → Option Arguments
  | [] => some arguments
  | "-v" :: rest | "--verbose" :: rest =>
    if arguments.verbose then none else read { arguments with verbose := true } rest
  | "-e" :: text :: rest | "--expression" :: text :: rest =>
    if arguments.expression.isSome then none
    else read { arguments with expression := some text } rest
  | "--config" :: path :: rest =>
    if arguments.config.isSome then none else read { arguments with config := some path } rest
  | "--startup" :: path :: rest =>
    if arguments.startup.isSome then none else read { arguments with startup := some path } rest
  | word :: rest =>
    if word.startsWith "-" || arguments.path.isSome then none
    else read { arguments with path := some word } rest

/-- The arguments of one run, unless they make no sense. -/
def ofList? (words : List String) : Option Arguments := read {} words

def usage : String :=
  "usage: plotscript [FILE] [-e EXPRESSION] [--config PATH] [--startup PATH] [-v]"

end Arguments

end PlotLisp
