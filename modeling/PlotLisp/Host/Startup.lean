import PlotLisp.Host.Files
import PlotLisp.Host.Settings
import PlotLisp.Session

/-!
# The startup script

A program that is run before any other, to define the primitives of drawings: points, lines and
texts, which are lists and values with properties. The settings may name another script.

A script that cannot be read or that fails is no reason to stop. What it bound before it failed
stays bound.
-/

namespace PlotLisp

/-- The script that is used unless the settings name another. -/
def bundledScript : String :=
  "; Bundled startup script: graphics primitives built from properties\n" ++
  "(begin\n" ++
  "  (define make-point\n" ++
  "    (lambda (x y)\n" ++
  "      (set-property \"size\" 0 (set-property \"object-name\" \"point\" (list x y)))))\n" ++
  "  (define make-line\n" ++
  "    (lambda (p1 p2)\n" ++
  "      (set-property \"thickness\" 1 (set-property \"object-name\" \"line\" (list p1 p2)))))\n" ++
  "  (define make-text\n" ++
  "    (lambda (str)\n" ++
  "      (set-property \"position\" (make-point 0 0) (set-property \"object-name\" \"text\" str))))\n" ++
  ")\n"

/-! ## Faults -/

inductive StartupError where
  | unreadable (path : String) (error : FileError)
  | failed (error : ProgramError)
deriving DecidableEq

def StartupError.message : StartupError → String
  | .unreadable path error => "could not open startup file '" ++ path ++ "': " ++ error.message
  | .failed error => "startup script failed: " ++ error.message

/-! ## Running the script -/

/-- The text of the script that the settings ask for. -/
def startupText (files : Files) (settings : Settings) : Except StartupError String :=
  match settings.startupScript with
  | some path => (files.read path).mapError (.unreadable path)
  | none => .ok bundledScript

/-- Runs the startup script in a session. -/
def Session.runStartup (depth : Nat) (files : Files) (settings : Settings) (session : Session) :
    Option (Except StartupError Unit × Session) :=
  match startupText files settings with
  | .error error => some (.error error, session)
  | .ok text =>
    (session.evalSource depth text).map fun (result, session) =>
      ((result.map fun _ => ()).mapError .failed, session)

/-- The environment in which the first line of a user is evaluated. -/
def freshEnvironment? (depth : Nat) (files : Files) (settings : Settings) : Option Environment :=
  (({} : Session).runStartup depth files settings).map fun (_, session) => session.environment

end PlotLisp
