import PlotLisp.Host.Repl
import PlotLisp.Proofs.Kernel.Interpreter

/-!
# Transcripts

What an interactive session is to write, with no kernel in sight: one interpreter answers each line
before the next is read, unless it has been told to stop. Where the system refuses the thread that it
asks for to be started, it stops as well, and begins with a fresh environment when it is started again.

* `FallsInto` says which lines a text has.
* `Respondent` is that interpreter, `Responds` what it does with one line.
* `Transcript` is what is written for lines one after another, `Writes` for a whole input.

Each of them has one result at most.
-/

namespace PlotLisp

/-! ## Lines -/

/-- A text falls into lines, each with the line feed that ends it. The last may go without one, unless
it is empty. -/
inductive FallsInto : String → List String → Prop where
  | nothing : FallsInto "" []
  | last {line} (h_line : '\n' ∉ line.toList) (h_some : line ≠ "") : FallsInto line [line]
  | line {line rest lines} (h_line : '\n' ∉ line.toList) (h_rest : FallsInto rest lines) :
      FallsInto (line ++ "\n" ++ rest) ((line ++ "\n") :: lines)

/-- The letters of a line go to those that are there. -/
theorem splitLines_of_line {line : List Char} (h_line : '\n' ∉ line) (letters rest : List Char) :
    splitLines letters (line ++ rest) = splitLines (line.reverse ++ letters) rest := by
  induction line generalizing letters with
  | nil => rfl
  | cons c line ih =>
    obtain ⟨h_c, h_rest⟩ := List.ne_and_not_mem_of_not_mem_cons h_line
    rw [List.cons_append, splitLines, if_neg (Ne.symm h_c), ih h_rest, List.reverse_cons,
      List.append_assoc, List.singleton_append]

theorem FallsInto.linesOf_eq {text : String} {lines : List String} (h_lines : FallsInto text lines) :
    linesOf text = lines := by
  induction h_lines with
  | nothing => rfl
  | @last line h_line h_some =>
    have h_letters : line.toList ≠ [] := fun h_nil => h_some (String.toList_eq_nil_iff.mp h_nil)
    have h_split := splitLines_of_line h_line [] []
    rw [List.append_nil, List.append_nil] at h_split
    rw [linesOf, h_split]
    simp [splitLines, h_letters]
  | @line line rest lines h_line h_rest ih =>
    have h_text : (line ++ "\n" ++ rest).toList = line.toList ++ '\n' :: rest.toList := by simp
    have h_first : String.ofList (line.toList ++ ['\n']) = line ++ "\n" := by
      rw [String.ofList_append, String.ofList_toList]
    rw [linesOf, h_text, splitLines_of_line h_line, splitLines, if_pos rfl, List.append_nil,
      List.reverse_cons, List.reverse_reverse, List.map_cons, h_first, ← linesOf, ih]

theorem fallsInto_splitLines {letters : List Char} (h_letters : '\n' ∉ letters) (rest : List Char) :
    FallsInto (String.ofList (letters.reverse ++ rest))
      ((splitLines letters rest).map String.ofList) := by
  induction rest generalizing letters with
  | nil =>
    rw [List.append_nil, splitLines]
    split
    case isTrue h_none =>
      rw [List.isEmpty_iff.mp h_none]
      exact .nothing
    case isFalse h_some =>
      refine .last (by simpa using h_letters) ?_
      simpa [String.ext_iff] using h_some
  | cons c rest ih =>
    rw [splitLines]
    split
    case isTrue h_end =>
      have h_text : String.ofList (letters.reverse ++ c :: rest)
          = String.ofList letters.reverse ++ "\n" ++ String.ofList rest := by
        rw [h_end]
        simp [String.append_assoc]
      have h_first : String.ofList (c :: letters).reverse = String.ofList letters.reverse ++ "\n" := by
        rw [h_end]
        simp
      rw [h_text, List.map_cons, h_first]
      exact .line (by simpa using h_letters) (ih List.not_mem_nil)
    case isFalse h_letter =>
      have h_text : letters.reverse ++ c :: rest = (c :: letters).reverse ++ rest := by simp
      rw [h_text]
      exact ih (by simpa [Ne.symm h_letter] using h_letters)

/-- The lines that are read are those that a text falls into. -/
theorem fallsInto_iff {text : String} {lines : List String} :
    FallsInto text lines ↔ linesOf text = lines := by
  refine ⟨FallsInto.linesOf_eq, ?_⟩
  rintro rfl
  have h_lines := fallsInto_splitLines List.not_mem_nil text.toList
  rwa [List.reverse_nil, List.nil_append, String.ofList_toList] at h_lines

/-! ## One interpreter -/

/-- An interpreter that answers lines, or has been told not to. -/
structure Respondent where
  isRunning : Bool
  environment : Environment

/-- What is written for one line of input, and how the line leaves the interpreter. -/
inductive Responds (fresh : Environment → Prop) (state : Respondent) (turn : Turn) :
    Output → Respondent → Prop where
  | blank (h_line : trim turn.line = "") : Responds fresh state turn ∅ state
  | started (h_line : trim turn.line = "%start")
      (h_thread : state.isRunning = true ∨ turn.refusal = none) :
      Responds fresh state turn { out := "Info: interpreter kernel started\n" }
        { state with isRunning := true }
  | startFailed {reason env} (h_line : trim turn.line = "%start") (h_stopped : state.isRunning = false)
      (h_refusal : turn.refusal = some reason) (h_fresh : fresh env) :
      Responds fresh state turn
        { err := "Error: failed to spawn interpreter kernel worker: " ++ reason ++ "\n" } ⟨false, env⟩
  | stopped (h_line : trim turn.line = "%stop") :
      Responds fresh state turn { out := "Info: interpreter kernel stopped\n" }
        { state with isRunning := false }
  | reset {env} (h_line : trim turn.line = "%reset")
      (h_thread : state.isRunning = false ∨ turn.refusal = none) (h_fresh : fresh env) :
      Responds fresh state turn { out := "Info: interpreter kernel reset\n" }
        { state with environment := env }
  | resetFailed {reason env} (h_line : trim turn.line = "%reset") (h_running : state.isRunning = true)
      (h_refusal : turn.refusal = some reason) (h_fresh : fresh env) :
      Responds fresh state turn
        { err := "Error: failed to spawn interpreter kernel worker: " ++ reason ++ "\n" } ⟨false, env⟩
  | answered {value left} (h_line : trim turn.line ∉ ["", "%start", "%stop", "%reset"])
      (h_running : state.isRunning = true)
      (h_answer : Answers state.environment (trim turn.line) (.value value) left) :
      Responds fresh state turn { out := value.display ++ "\n" } { state with environment := left }
  | failed {text left} (h_line : trim turn.line ∉ ["", "%start", "%stop", "%reset"])
      (h_running : state.isRunning = true)
      (h_answer : Answers state.environment (trim turn.line) (.error text) left) :
      Responds fresh state turn { err := text ++ "\n" } { state with environment := left }
  | refused (h_line : trim turn.line ∉ ["", "%start", "%stop", "%reset"])
      (h_stopped : state.isRunning = false) :
      Responds fresh state turn { err := "Error: interpreter kernel not running\n" } state

/-- What is written for lines one after another, each after a prompt, and how they leave the
interpreter, which begins with a fresh environment. It runs at first, if it gets a thread. -/
inductive Transcript (fresh : Environment → Prop) :
    Option String → List Turn → Respondent → Output → Prop where
  | opening {env} (h_fresh : fresh env) : Transcript fresh none [] ⟨true, env⟩ ∅
  | openingFailed {reason env} (h_fresh : fresh env) :
      Transcript fresh (some reason) [] ⟨false, env⟩
        { err := "Error: failed to spawn interpreter kernel worker: " ++ reason ++ "\n" }
  | line {refusal turns state written turn answered next}
      (h_turns : Transcript fresh refusal turns state written)
      (h_turn : Responds fresh state turn answered next) :
      Transcript fresh refusal (turns ++ [turn]) next
        (written ++ { out := "plotscript> " } ++ answered)

/-- What is written in a whole session, in which the system refuses these threads: one at the start, and
one for each line. A last prompt meets the end of the input. -/
def Writes (fresh : Environment → Prop) (refusals : Nat → Option String) (input : String)
    (output : Output) : Prop :=
  ∃ lines state written, FallsInto input lines ∧
    Transcript fresh (refusals 0) (lines.mapIdx fun n line => ⟨line, refusals (n + 1)⟩) state written ∧
    output = written ++ { out := "plotscript> \n" }

theorem writes_iff {fresh : Environment → Prop} {refusals : Nat → Option String} {input : String}
    {output : Output} :
    Writes fresh refusals input output ↔ ∃ state written,
      Transcript fresh (refusals 0) (turnsOf input refusals) state written ∧
        output = written ++ { out := "plotscript> \n" } := by
  constructor
  · rintro ⟨lines, state, written, h_lines, h_text, h_output⟩
    rw [← h_lines.linesOf_eq] at h_text
    exact ⟨state, written, h_text, h_output⟩
  · rintro ⟨state, written, h_text, h_output⟩
    exact ⟨_, state, written, fallsInto_iff.mpr rfl, h_text, h_output⟩

/-! ## Commands -/

section Commands

variable {fresh : Environment → Prop} {state : Respondent} {turn : Turn} {line text : String}

theorem ofLine?_of_not_mem (h_line : trim line ∉ ["", "%start", "%stop", "%reset"]) :
    ReplCommand.ofLine? line = some (.evaluate (trim line)) := by
  unfold ReplCommand.ofLine?
  split <;> simp_all

/-- Which lines are blank, which are commands, and which are to be answered. -/
theorem trim_of_ofLine? {command : Option ReplCommand} (h_line : ReplCommand.ofLine? line = command) :
    match command with
    | none => trim line = ""
    | some .start => trim line = "%start"
    | some .stop => trim line = "%stop"
    | some .reset => trim line = "%reset"
    | some (.evaluate text) => trim line = text ∧ trim line ∉ ["", "%start", "%stop", "%reset"] := by
  by_cases h_text : trim line ∈ ["", "%start", "%stop", "%reset"]
  · simp only [List.mem_cons, List.not_mem_nil, or_false] at h_text
    rcases h_text with h_text | h_text | h_text | h_text <;>
      simp only [ReplCommand.ofLine?, h_text] at h_line <;> subst h_line <;> exact h_text
  · rw [ofLine?_of_not_mem h_text] at h_line
    subst h_line
    exact ⟨rfl, h_text⟩

theorem errorLine_spawn (reason : String) : errorLine (KernelError.spawn reason).message
    = { err := "Error: failed to spawn interpreter kernel worker: " ++ reason ++ "\n" } := by
  have h_start : "Error: " ++ "failed to spawn interpreter kernel worker: "
      = "Error: failed to spawn interpreter kernel worker: " := by decide
  have h_text : "Error: " ++ ("failed to spawn interpreter kernel worker: " ++ reason)
      = "Error: failed to spawn interpreter kernel worker: " ++ reason := by
    rw [← String.append_assoc, h_start]
  exact congrArg Output.errorLine h_text

/-- A line that is evaluated is answered with its message. -/
theorem Responds.of_answers {message : Message} {left : Environment}
    (h_line : ReplCommand.ofLine? turn.line = some (.evaluate text)) (h_running : state.isRunning = true)
    (h_answer : Answers state.environment text message left) :
    Responds fresh state turn message.output { state with environment := left } := by
  obtain ⟨rfl, h_text⟩ := trim_of_ofLine? h_line
  cases message with
  | value => exact .answered h_text h_running h_answer
  | error => exact .failed h_text h_running h_answer

/-- What is written for such a line is the message that it is answered with. -/
theorem Responds.exists_answers {answered : Output} {next : Respondent}
    (h_turn : Responds fresh state turn answered next)
    (h_text : trim turn.line ∉ ["", "%start", "%stop", "%reset"]) (h_running : state.isRunning = true) :
    ∃ message left, Answers state.environment (trim turn.line) message left ∧
      answered = message.output := by
  cases h_turn with
  | answered _ _ h_answer | failed _ _ h_answer => exact ⟨_, _, h_answer, rfl⟩
  | refused _ h_stopped =>
    rw [h_stopped] at h_running
    cases h_running
  | blank h_line | started h_line | startFailed h_line | stopped h_line | reset h_line
  | resetFailed h_line => simp [h_line] at h_text

end Commands

/-! ## One result at most -/

section Unique

variable {fresh : Environment → Prop}
  (h_fresh : ∀ env other, fresh env → fresh other → env = other)

include h_fresh

theorem Responds.unique {state next other : Respondent} {turn : Turn} {output written : Output}
    (h_turn : Responds fresh state turn output next)
    (h_other : Responds fresh state turn written other) : output = written ∧ next = other := by
  cases h_turn with
  | blank h_line | stopped h_line | started h_line h_thread =>
    cases h_other <;> first | exact ⟨rfl, rfl⟩ | simp_all
  | reset h_line h_thread h_env | startFailed h_line h_stopped h_refusal h_env
  | resetFailed h_line h_running h_refusal h_env =>
    cases h_other with
    | reset _ _ h_env' | startFailed _ _ _ h_env' | resetFailed _ _ _ h_env' =>
      have h_same := h_fresh _ _ h_env h_env'
      simp_all
    | _ => simp_all
  | answered h_line h_running h_answer =>
    cases h_other with
    | answered _ _ h_answer' =>
      obtain ⟨⟨⟩, rfl⟩ := h_answer.unique h_answer'
      exact ⟨rfl, rfl⟩
    | failed _ _ h_answer' => cases (h_answer.unique h_answer').1
    | _ => simp_all
  | failed h_line h_running h_answer =>
    cases h_other with
    | answered _ _ h_answer' => cases (h_answer.unique h_answer').1
    | failed _ _ h_answer' =>
      obtain ⟨⟨⟩, rfl⟩ := h_answer.unique h_answer'
      exact ⟨rfl, rfl⟩
    | _ => simp_all
  | refused h_line h_stopped =>
    cases h_other with
    | refused => exact ⟨rfl, rfl⟩
    | _ => simp_all

theorem Transcript.unique {refusal : Option String} {turns : List Turn} {state other : Respondent}
    {output written : Output} (h_turns : Transcript fresh refusal turns state output)
    (h_other : Transcript fresh refusal turns other written) : output = written ∧ state = other := by
  induction h_turns generalizing other written with
  | opening h_env =>
    generalize h_none : ([] : List Turn) = turns at h_other
    cases h_other with
    | opening h_env' =>
      cases h_fresh _ _ h_env h_env'
      exact ⟨rfl, rfl⟩
    | line => simp at h_none
  | openingFailed h_env =>
    generalize h_none : ([] : List Turn) = turns at h_other
    cases h_other with
    | openingFailed h_env' =>
      cases h_fresh _ _ h_env h_env'
      exact ⟨rfl, rfl⟩
    | line => simp at h_none
  | @line refusal turns state output turn answered next _ h_turn ih =>
    generalize h_all : turns ++ [turn] = turns' at h_other
    cases h_other with
    | opening | openingFailed => simp at h_all
    | line h_turns' h_turn' =>
      obtain ⟨rfl, h_last⟩ := List.append_inj' h_all rfl
      cases h_last
      obtain ⟨rfl, rfl⟩ := ih h_turns'
      obtain ⟨rfl, rfl⟩ := h_turn.unique h_fresh h_turn'
      exact ⟨rfl, rfl⟩

theorem Writes.unique {refusals : Nat → Option String} {input : String} {output written : Output}
    (h_output : Writes fresh refusals input output) (h_written : Writes fresh refusals input written) :
    output = written := by
  obtain ⟨state, text, h_text, rfl⟩ := writes_iff.mp h_output
  obtain ⟨other, text', h_text', rfl⟩ := writes_iff.mp h_written
  rw [(h_text.unique h_fresh h_text').1]

end Unique

/-- The interpreter began with a fresh environment. -/
theorem Transcript.exists_fresh {fresh : Environment → Prop} {refusal : Option String}
    {turns : List Turn} {state : Respondent} {written : Output}
    (h_turns : Transcript fresh refusal turns state written) : ∃ env, fresh env := by
  induction h_turns with
  | opening h_fresh | openingFailed h_fresh => exact ⟨_, h_fresh⟩
  | line _ _ ih => exact ih

end PlotLisp
