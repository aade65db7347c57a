import PlotLisp.Expression.Display
import PlotLisp.Host.Lines
import PlotLisp.Host.Output
import PlotLisp.Kernel.Settling

/-!
# The interactive session

Each line that a user types is sent to a kernel, and the answer is written before the next line
is read. Three lines are commands to the kernel instead. Blank lines are passed over.

The session asks the system for a thread at its start, and a line asks for one at most. What the system
says is given along with the line.
-/

namespace PlotLisp

/-! ## Commands -/

/-- What a line asks for. -/
inductive ReplCommand where
  | start
  | stop
  | reset
  | evaluate (line : String)
deriving DecidableEq

/-- The command of a line, if it is not blank. -/
def ReplCommand.ofLine? (line : String) : Option ReplCommand :=
  match trim line with
  | "" => none
  | "%start" => some .start
  | "%stop" => some .stop
  | "%reset" => some .reset
  | text => some (.evaluate text)

/-! ## Answers -/

def prompt : String := "plotscript> "

/-- The text for what only a running kernel can do. -/
def notRunningMessage : String := KernelError.notRunning.message

/-- A message as the user sees it. -/
def Message.output : Message → Output
  | .value e => .line e.display
  | .error text => .errorLine text

def infoLine (text : String) : Output := .line ("Info: " ++ text)

def errorLine (text : String) : Output := .errorLine ("Error: " ++ text)

/-- What is told of a command to the kernel. -/
def report (error? : Option KernelError) (info : String) : Output :=
  match error? with
  | none => infoLine info
  | some error => errorLine error.message

/-- Sends a line to the kernel and takes the answer. -/
def Kernel.ask (answer : Answerer) (kernel : Kernel) (line : String) :
    Option (Kernel × Output) := do
  match ← kernel.submitAndSettle? answer line with
  | none => return (kernel, errorLine notRunningMessage)
  | some kernel =>
    match kernel.receive with
    | (.message message, kernel) => return (kernel, message.output)
    | (.notRunning, kernel) => return (kernel, errorLine notRunningMessage)
    | (.pending, _) => none

/-- Carries out one command. -/
def Kernel.obey (answer : Answerer) (fresh : Environment) (kernel : Kernel) (command : ReplCommand)
    (refusal : Option String := none) : Option (Kernel × Output) :=
  match command with
  | .start => do
    let started ← kernel.startAndSettle answer fresh refusal
    return (started, report (kernel.startError? refusal) "interpreter kernel started")
  | .stop => do return (← kernel.stop answer, report none "interpreter kernel stopped")
  | .reset => do
    let renewed ← kernel.reset answer fresh refusal
    return (renewed, report (kernel.resetError? refusal) "interpreter kernel reset")
  | .evaluate line => kernel.ask answer line

/-! ## Sessions -/

/-- Answers one line of input. -/
def replLine (answer : Answerer) (fresh : Environment) (kernel : Kernel) (line : String)
    (refusal : Option String := none) : Option (Kernel × Output) :=
  match ReplCommand.ofLine? line with
  | none => some (kernel, ∅)
  | some command => kernel.obey answer fresh command refusal

/-- A line of input, and why the system refuses the thread that it asks for, if it does. -/
structure Turn where
  line : String
  refusal : Option String := none

/-- The lines of an input, each with what the system has to say to it. -/
def turnsOf (input : String) (refusals : Nat → Option String) : List Turn :=
  (linesOf input).mapIdx fun n line => ⟨line, refusals (n + 1)⟩

/-- Answers the lines of input one after another, with a prompt before each of them. -/
def replLines (answer : Answerer) (fresh : Environment) :
    Kernel → List Turn → Option (Kernel × Output)
  | kernel, [] => some (kernel, ∅)
  | kernel, turn :: rest => do
    let (kernel, answered) ← replLine answer fresh kernel turn.line turn.refusal
    let (kernel, others) ← replLines answer fresh kernel rest
    return (kernel, { out := prompt } ++ answered ++ others)

/-- What is written when a session has started its kernel, which is nothing unless the start failed. -/
def startReport : Option KernelError → Output
  | none => ∅
  | some error => errorLine error.message

/-- A whole session: what is written while the user types the given text. A last prompt finds the
end of the input. The first of the refusals is for the start, the others for one line each. -/
def repl (answer : Answerer) (fresh : Environment) (input : String)
    (refusals : Nat → Option String := fun _ => none) : Option Output := do
  let new : Kernel := {}
  let kernel ← new.startAndSettle answer fresh (refusals 0)
  let (_, answered) ← replLines answer fresh kernel (turnsOf input refusals)
  return startReport (new.startError? (refusals 0)) ++ answered ++ .line prompt

end PlotLisp
