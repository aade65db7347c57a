import PlotLisp.Host.ProgramSource
import PlotLisp.Host.Repl
import PlotLisp.Host.Startup

/-!
# The command line

One run of the program: the evaluation of a file or an expression, or an interactive session. A
run is a function of the files, the settings and the input, and gives what is written and the exit
code.
-/

namespace PlotLisp

/-- How deep evaluations may nest. A program that nests deeper has no result; no machine has the
memory for one that nests as deep as this. -/
def defaultDepth : Nat := 1000000000

def exitSuccess : Nat := 0

def exitFailure : Nat := 1

/-- Evaluates one program behind the startup script. A failure of the script is reported, and the
program is evaluated all the same. -/
def evalProgram (depth : Nat) (files : Files) (settings : Settings) (text : String) :
    Option (Nat × Output) := do
  let (started, session) ← ({} : Session).runStartup depth files settings
  let warning : Output :=
    match started with
    | .ok () => ∅
    | .error error => errorLine error.message
  match ← session.evalSource depth text with
  | (.ok value, _) => return (exitSuccess, warning ++ .line value.display)
  | (.error (.parse _), _) =>
    return (exitFailure, warning ++ errorLine "Invalid Program. Could not parse.")
  | (.error (.semantic error), _) => return (exitFailure, warning ++ errorLine error.message)

/-- Runs what a source asks for. -/
def runSource (depth : Nat) (files : Files) (settings : Settings) (source : ProgramSource)
    (input : String) : Option (Nat × Output) :=
  match source.kind with
  | .interactive => do
    let fresh ← freshEnvironment? depth files settings
    return (exitSuccess, ← repl (answerLine depth) fresh input)
  | .file | .expression =>
    match source.read files with
    | .ok program => evalProgram depth files settings program.text
    | .error error => some (exitFailure, errorLine error.message)

end PlotLisp
