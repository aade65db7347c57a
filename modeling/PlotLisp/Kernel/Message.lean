import PlotLisp.Session

/-!
# Messages

The answer to a line: its value, or the text of an error. A line is answered in an environment
and leaves one behind, also when it fails.
-/

namespace PlotLisp

inductive Message where
  | value (expression : Expression)
  | error (text : String)

namespace Message

/-- What a message shows for its value, which an error has not. -/
def expression : Message → Expression
  | .value e => e
  | .error _ => .nothing

def isError : Message → Bool
  | .value _ => false
  | .error _ => true

/-- The text of an error, and none for a value. -/
def errorText : Message → String
  | .value _ => ""
  | .error text => text

/-! ## Answering a line -/

/-- The text for every line that does not parse. -/
def parseFailure : String := "Error: Invalid Expression. Could not parse."

def ofResult : Except ProgramError Expression → Message
  | .ok e => .value e
  | .error (.parse _) => .error parseFailure
  | .error (.semantic fault) => .error ("Error: " ++ fault.message)

end Message

/-- What comes of working on a line: the result of its program, or a panic in the midst of it, with
the environment that it leaves. -/
inductive Attempt where
  | completed (result : Except ProgramError Expression) (left : Environment)
  | panicked (reason : String) (left : Environment)

namespace Attempt

/-- The text for a line whose evaluation panicked. -/
def panicText (reason : String) : String := "Error: evaluation aborted: " ++ reason

def message : Attempt → Message
  | .completed result _ => .ofResult result
  | .panicked reason _ => .error (panicText reason)

/-- The environment for the next line. A panic leaves the frames of calls that never returned, and
they are dropped. -/
def environment : Attempt → Environment
  | .completed _ left => left
  | .panicked _ left => left.unwind

end Attempt

/-- What works on a line in an environment. There is no attempt at a line whose evaluation does not
end. -/
abbrev Answerer := Environment → String → Option Attempt

/-- Parses a line and evaluates it. -/
def answerLine (depth : Nat) : Answerer := fun env line =>
  ((Session.resume env).evalSource depth line).map fun (result, session) =>
    .completed result session.environment

end PlotLisp
