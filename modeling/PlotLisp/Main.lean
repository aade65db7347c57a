import PlotLisp.Host.Arguments
import PlotLisp.Host.CommandLine

/-!
# The program

Reads the files that a run needs, and leaves everything else to the functions of the library. An
interactive session writes each answer before it reads the next line.
-/

namespace PlotLisp

/-! ## Reading and writing -/

/-- Reads a file, or gives the reason why it cannot be read. -/
def readFile (path : String) : IO (Except FileError String) := do
  try
    return .ok (← IO.FS.readFile path)
  catch error =>
    match error with
    | .noFileOrDirectory .. => return .error .notFound
    | .inappropriateType _ code _ =>
      return .error (if code = 21 then .isADirectory else .notADirectory)
    | other => return .error (.other (toString other))

/-- The files of these paths, read once. -/
def readFiles (paths : List String) : IO Files := do
  return .ofReadings (← paths.mapM fun path => do return (path, ← readFile path))

def write (output : Output) : IO Unit := do
  IO.print output.out
  IO.eprint output.err
  (← IO.getStdout).flush

/-- A failure before the program has started. -/
def giveUp (message : String) : IO UInt32 := do
  IO.eprintln ("Error: " ++ message)
  return 1

/-! ## Interactive sessions -/

/-- Answers the lines of the user until the input ends. -/
partial def converse (fresh : Environment) (kernel : Kernel) : IO Unit := do
  write { out := prompt }
  let line ← (← IO.getStdin).getLine
  if line.isEmpty then write (.line "")
  else
    match replLine (answerLine defaultDepth) fresh kernel line with
    | some (kernel, output) =>
      write output
      converse fresh kernel
    | none => write (errorLine "evaluation nests too deep")

/-! ## Runs -/

/-- The settings of a run. -/
def settingsOf (arguments : Arguments) : IO (Except Settings.Fault Settings) := do
  let path? ←
    match arguments.config with
    | some path => pure (some path)
    | none => IO.getEnv "PLOTSCRIPT_CONFIG"
  let loaded : Except Settings.Fault Settings ←
    match path? with
    | some path => do return Settings.load (← readFiles [path]) path
    | none => pure (.ok {})
  return loaded.map fun settings =>
    { settings with startupScript := arguments.startup.or settings.startupScript }

def runArguments (arguments : Arguments) : IO UInt32 := do
  match ← settingsOf arguments, ProgramSource.detect arguments.path arguments.expression with
  | .error fault, _ => giveUp fault.message
  | _, .error error => giveUp error.message
  | .ok settings, .ok source =>
    let files ← readFiles (settings.startupScript.toList ++ source.path.toList)
    match source.kind with
    | .interactive =>
      let start := do
        let fresh ← freshEnvironment? defaultDepth files settings
        return (fresh, ← ({} : Kernel).startAndSettle (answerLine defaultDepth) fresh)
      match start with
      | some (fresh, kernel) =>
        converse fresh kernel
        return 0
      | none => giveUp "evaluation nests too deep"
    | _ =>
      match runSource defaultDepth files settings source "" with
      | some (code, output) =>
        write output
        return UInt32.ofNat code
      | none => giveUp "evaluation nests too deep"

end PlotLisp

def main (words : List String) : IO UInt32 := do
  match PlotLisp.Arguments.ofList? words with
  | some arguments => PlotLisp.runArguments arguments
  | none =>
    IO.eprintln PlotLisp.Arguments.usage
    return 2
