import PlotLisp.Evaluation
import PlotLisp.Source.Program

/-!
# Sessions

A session is an environment and the program that was parsed last. A text is parsed first and
evaluated afterwards, and one that does not parse leaves the session without a program.

Evaluation is bounded by a depth, as everywhere, and a session that runs into it has no result.
-/

namespace PlotLisp

/-! ## Faults -/

/-- Why running a text failed. -/
inductive ProgramError where
  | parse (error : ParseError)
  | semantic (error : SemanticError)
deriving DecidableEq

def ProgramError.message : ProgramError → String
  | .parse error => error.message
  | .semantic error => error.message

/-! ## Sessions -/

structure Session where
  environment : Environment := .initial
  program : Option Expression := none

namespace Session

/-- A session on an environment that is there already. -/
def resume (environment : Environment) : Session := { environment }

/-- Parses the next program. -/
def load (session : Session) (text : String) : Except ParseError Unit × Session :=
  match parseProgram text with
  | .ok program => (.ok (), { session with program := some program })
  | .error error => (.error error, { session with program := none })

/-- Evaluates something on the environment of the session. -/
def run {α : Type} (session : Session) (computation : Evaluation α) :
    Option (Except SemanticError α × Session) :=
  (computation session.environment).map fun (result, environment) =>
    (result, { session with environment })

/-- Evaluates the program that was parsed last. -/
def evaluate (depth : Nat) (session : Session) :
    Option (Except SemanticError Expression × Session) :=
  match session.program with
  | some program => session.run (evalWithin depth program)
  | none => some (.error .noProgram, session)

/-- Parses a text and evaluates it. -/
def evalSource (depth : Nat) (session : Session) (text : String) :
    Option (Except ProgramError Expression × Session) :=
  match session.load text with
  | (.error error, session) => some (.error (.parse error), session)
  | (.ok (), session) =>
    (session.evaluate depth).map fun (result, session) => (result.mapError .semantic, session)

/-- Puts the initial environment back and forgets the program. -/
def reset (_ : Session) : Session := {}

end Session

end PlotLisp
