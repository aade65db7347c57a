import PlotLisp.Host.CommandLine
import PlotLisp.Proofs.Evaluation.Batch
import PlotLisp.Proofs.Host.Refinement
import PlotLisp.Proofs.Source.Margins

/-!
# A program and a line

The same text can be given to the command line as a program, or be typed as the only line of an
interactive session. Both run the startup script first, and both come to the same, a value or an error,
if it is the same text that they read. The session trims its line and the command line does not trim
its program, so this holds of a text that has only blanks at its ends, or that ends in a comment. With
any other white space at its ends a program cannot be read, while the line may be one.

* `ComesTo` is what a text comes to in an environment, `StartsUp` what the startup script does.
* `Exits` is a run of the command line, `SessionWrites` a session, whatever way its steps take.
* `TellAlike` is the agreement of what they write, and `program_agrees_with_session` the conclusion.
-/

namespace PlotLisp

open Kernel

/-! ## What a text comes to -/

/-- The result of a text in an environment. -/
inductive ComesTo (env : Environment) (text : String) : Except ProgramError Expression → Prop where
  | unreadable {error} (h_parse : parseProgram text = .error error) :
      ComesTo env text (.error (.parse error))
  | evaluated {program outcome left} (h_parse : parseProgram text = .ok program)
      (h_eval : Evaluates env program outcome left) : ComesTo env text (outcome.mapError .semantic)

theorem evalSource_of_unreadable {text : String} {error : ParseError}
    (h_parse : parseProgram text = .error error) (depth : Nat) (session : Session) :
    session.evalSource depth text = some (.error (.parse error), { session with program := none }) := by
  simp only [Session.evalSource, Session.load, h_parse]

theorem evalSource_mono {depth greater : Nat} (h_depth : depth ≤ greater) {session next : Session}
    {text : String} {result : Except ProgramError Expression}
    (h_run : session.evalSource depth text = some (result, next)) :
    session.evalSource greater text = some (result, next) := by
  rcases h_parse : parseProgram text with error | program
  · rw [evalSource_of_unreadable h_parse] at h_run ⊢
    exact h_run
  · rw [evalSource_eq h_parse] at h_run ⊢
    obtain ⟨ended, h_eval, h_ended⟩ := Option.map_eq_some_iff.mp h_run
    rw [evalWithin_mono h_depth program _ ended h_eval]
    exact congrArg some h_ended

namespace ComesTo

variable {env : Environment} {text other : String} {result : Except ProgramError Expression}

theorem of_evalSource {depth : Nat} {session next : Session}
    (h_run : session.evalSource depth text = some (result, next)) :
    ComesTo session.environment text result := by
  rcases h_parse : parseProgram text with error | program
  · rw [evalSource_of_unreadable h_parse] at h_run
    cases h_run
    exact .unreadable h_parse
  · obtain ⟨outcome, h_eval, rfl⟩ := evaluates_of_evalSource h_parse h_run
    exact .evaluated h_parse h_eval

theorem exists_evalSource {session : Session} (h_result : ComesTo session.environment text result) :
    ∃ depth next, session.evalSource depth text = some (result, next) := by
  cases h_result with
  | unreadable h_parse => exact ⟨0, _, evalSource_of_unreadable h_parse 0 session⟩
  | evaluated h_parse h_eval =>
    obtain ⟨depth, h_run⟩ := PlotLisp.exists_evalSource h_parse h_eval
    exact ⟨depth, _, h_run⟩

/-- Texts that are the same program come to the same. -/
theorem congr (h_parse : parseProgram text = parseProgram other) (h_result : ComesTo env text result) :
    ComesTo env other result := by
  cases h_result with
  | unreadable h_text => exact .unreadable (h_parse ▸ h_text)
  | evaluated h_text h_eval => exact .evaluated (h_parse ▸ h_text) h_eval

theorem unique {result' : Except ProgramError Expression} (h_result : ComesTo env text result)
    (h_other : ComesTo env text result') : result = result' := by
  cases h_result with
  | unreadable h_parse =>
    cases h_other with
    | unreadable h_text =>
      cases h_parse.symm.trans h_text
      rfl
    | evaluated h_text => cases h_parse.symm.trans h_text
  | evaluated h_parse h_eval =>
    cases h_other with
    | unreadable h_text => cases h_parse.symm.trans h_text
    | evaluated h_text h_eval' =>
      cases h_parse.symm.trans h_text
      rw [(h_eval.unique h_eval').1]

/-- A line is answered with what it comes to. -/
theorem answers (h_result : ComesTo env text result) :
    ∃ left, Answers env text (.ofResult result) left := by
  have h_session : ComesTo (Session.resume env).environment text result := h_result
  obtain ⟨depth, session, h_run⟩ := h_session.exists_evalSource
  exact ⟨session.environment, .of_evalSource h_run⟩

end ComesTo

/-- What a line is answered with is what it comes to. -/
theorem Answers.exists_comesTo {env left : Environment} {text : String} {message : Message}
    (h_answer : Answers env text message left) :
    ∃ result, ComesTo env text result ∧ message = .ofResult result := by
  have h_result : ∃ result, ComesTo env text result := by
    cases h_answer with
    | rejected h_parse => exact ⟨_, .unreadable h_parse⟩
    | evaluated h_parse h_eval | failed h_parse h_eval => exact ⟨_, .evaluated h_parse h_eval⟩
  obtain ⟨result, h_result⟩ := h_result
  obtain ⟨left', h_other⟩ := h_result.answers
  exact ⟨result, h_result, (h_answer.unique h_other).1⟩

/-! ## The startup script -/

/-- What is reported of the startup script, which is nothing unless it fails. -/
def startupReport : Except StartupError Unit → Output
  | .ok () => ∅
  | .error error => errorLine error.message

/-- The startup script ends, with a report and with an environment. -/
def StartsUp (files : Files) (settings : Settings) (report : Output) (env : Environment) : Prop :=
  ∃ depth started session, ({} : Session).runStartup depth files settings = some (started, session) ∧
    report = startupReport started ∧ env = session.environment

section Startup

variable {files : Files} {settings : Settings} {report : Output} {env : Environment}

theorem runStartup_mono {depth greater : Nat} (h_depth : depth ≤ greater) {session next : Session}
    {started : Except StartupError Unit}
    (h_run : session.runStartup depth files settings = some (started, next)) :
    session.runStartup greater files settings = some (started, next) := by
  unfold Session.runStartup at h_run ⊢
  split at h_run
  · exact h_run
  · obtain ⟨⟨result, left⟩, h_eval, h_ended⟩ := Option.map_eq_some_iff.mp h_run
    rw [evalSource_mono h_depth h_eval]
    exact congrArg some h_ended

theorem isFresh_iff : IsFresh files settings env ↔ ∃ report, StartsUp files settings report env := by
  constructor
  · rintro ⟨depth, h_fresh⟩
    obtain ⟨⟨started, session⟩, h_run, rfl⟩ := Option.map_eq_some_iff.mp h_fresh
    exact ⟨_, depth, started, session, h_run, rfl, rfl⟩
  · rintro ⟨report, depth, started, session, h_run, -, rfl⟩
    refine ⟨depth, ?_⟩
    rw [freshEnvironment?, h_run]
    rfl

theorem StartsUp.environment_unique {other : Environment} {report' : Output}
    (h_start : StartsUp files settings report env) (h_other : StartsUp files settings report' other) :
    env = other :=
  IsFresh.unique (isFresh_iff.mpr ⟨report, h_start⟩) (isFresh_iff.mpr ⟨report', h_other⟩)

end Startup

/-! ## A program -/

/-- A run of the command line with this program ends with this exit code, and has written this. -/
def Exits (files : Files) (settings : Settings) (text : String) (code : Nat) (output : Output) : Prop :=
  ∃ depth, evalProgram depth files settings text = some (code, output)

/-- The exit code for a result, and what is written for it. -/
def exitOf : Except ProgramError Expression → Nat × Output
  | .ok value => (exitSuccess, .line value.display)
  | .error (.parse _) => (exitFailure, errorLine "Invalid Program. Could not parse.")
  | .error (.semantic error) => (exitFailure, errorLine error.message)

section Program

variable {files : Files} {settings : Settings} {text : String} {depth : Nat} {session next : Session}
  {started : Except StartupError Unit} {result : Except ProgramError Expression}

theorem evalProgram_of_evalSource
    (h_start : ({} : Session).runStartup depth files settings = some (started, session))
    (h_run : session.evalSource depth text = some (result, next)) :
    evalProgram depth files settings text
      = some ((exitOf result).1, startupReport started ++ (exitOf result).2) := by
  rw [evalProgram, h_start]
  simp only [Option.bind_eq_bind, Option.bind_some, h_run]
  cases started <;> rcases result with (error | error) | value <;> rfl

/-- A program ends with what it comes to in the environment that the startup script leaves. -/
theorem exits_iff {code : Nat} {output : Output} :
    Exits files settings text code output ↔ ∃ report env result, StartsUp files settings report env ∧
      ComesTo env text result ∧ code = (exitOf result).1 ∧ output = report ++ (exitOf result).2 := by
  constructor
  · rintro ⟨depth, h_exit⟩
    obtain ⟨⟨started, session⟩, h_start, h_rest⟩ := Option.bind_eq_some_iff.mp h_exit
    obtain ⟨⟨result, next⟩, h_run, -⟩ := Option.bind_eq_some_iff.mp h_rest
    rw [evalProgram_of_evalSource h_start h_run] at h_exit
    cases h_exit
    exact ⟨_, _, result, ⟨depth, started, session, h_start, rfl, rfl⟩, .of_evalSource h_run, rfl, rfl⟩
  · rintro ⟨report, env, result, ⟨depth, started, session, h_start, rfl, rfl⟩, h_result, rfl, rfl⟩
    obtain ⟨enough, next, h_run⟩ := h_result.exists_evalSource
    -- the script and the program may need different depths
    exact ⟨max depth enough, evalProgram_of_evalSource
      (runStartup_mono (Nat.le_max_left depth enough) h_start)
      (evalSource_mono (Nat.le_max_right depth enough) h_run)⟩

end Program

/-! ## A line -/

/-- A session with this input, which gets its threads, has come to its end, and this is what it has
written. -/
def SessionWrites (files : Files) (settings : Settings) (input : String) (written : Output) : Prop :=
  ∃ first last,
    Dialogue.Opens (IsFresh files settings) none (turnsOf input fun _ => none) first ∧
    Dialogue.Reaches (IsFresh files settings) first last ∧ last.stage = .ended ∧ last.output = written

theorem sessionWrites_iff {files : Files} {settings : Settings} {input : String} {written : Output} :
    SessionWrites files settings input written ↔
      Writes (IsFresh files settings) (fun _ => none) input written := by
  have h_fresh (env other) (h_env : IsFresh files settings env)
      (h_other : IsFresh files settings other) : env = other := h_env.unique h_other
  constructor
  · rintro ⟨first, last, h_opens, h_steps, h_ended, rfl⟩
    have h_faithful := Dialogue.Reaches.isFaithful h_fresh h_steps h_opens.isFaithful
    exact Dialogue.IsFaithful.writes h_faithful h_ended
  · intro h_writes
    obtain ⟨state, text, h_text, -⟩ := writes_iff.mp h_writes
    obtain ⟨env, h_env⟩ := h_text.exists_fresh
    have h_start : Kernel.Step (IsFresh files settings) Attempted {} .start
        ⟨({} : Kernel).start env, .idle⟩ := .start fun _ _ => h_env
    have h_opens : Dialogue.Opens (IsFresh files settings) none (turnsOf input fun _ => none) _ :=
      .started h_start
    obtain ⟨last, h_steps, h_ended, h_output⟩ :=
      Dialogue.IsFaithful.exists_end h_fresh h_opens.isFaithful h_writes
    exact ⟨_, last, h_opens, h_steps, h_ended, h_output⟩

/-- What a session writes whose only line gets this answer. -/
def onlyAnswer (answer : Output) : Output :=
  { out := "plotscript> " } ++ answer ++ { out := "plotscript> \n" }

/-- A text without a line feed is one line, with or without one behind it. -/
theorem linesOf_of_line {text input : String} (h_line : '\n' ∉ text.toList) (h_some : text ≠ "")
    (h_input : input = text ∨ input = text ++ "\n") : linesOf input = [input] := by
  apply FallsInto.linesOf_eq
  rcases h_input with rfl | rfl
  · exact .last h_line h_some
  · have h_one : FallsInto (text ++ "\n" ++ "") [text ++ "\n"] := .line h_line .nothing
    rwa [String.append_empty] at h_one

/-- A session with one line writes the answer to it. -/
theorem writes_line_iff {fresh : Environment → Prop} {input : String} {written : Output}
    (h_lines : linesOf input = [input]) (h_text : trim input ∉ ["", "%start", "%stop", "%reset"]) :
    Writes fresh (fun _ => none) input written ↔ ∃ env message left, fresh env ∧
      Answers env (trim input) message left ∧ written = onlyAnswer message.output := by
  have h_turns : turnsOf input (fun _ => none) = [⟨input, none⟩] := by
    rw [turnsOf, h_lines]
    rfl
  rw [writes_iff, h_turns]
  constructor
  · rintro ⟨state, output, h_transcript, rfl⟩
    generalize h_all : [(⟨input, none⟩ : Turn)] = turns at h_transcript
    cases h_transcript with
    | opening => cases h_all
    | @line _ before state _ turn _ _ h_before h_turn =>
      obtain ⟨rfl, h_last⟩ := List.append_inj' (show [] ++ [_] = before ++ [turn] from h_all) rfl
      cases h_last
      generalize h_none : ([] : List Turn) = turns at h_before
      cases h_before with
      | line => simp at h_none
      | @opening env h_env =>
        obtain ⟨message, left, h_answer, rfl⟩ := h_turn.exists_answers h_text rfl
        exact ⟨env, message, left, h_env, h_answer, by rw [Output.empty_append]; rfl⟩
  · rintro ⟨env, message, left, h_env, h_answer, rfl⟩
    have h_turn : Responds fresh ⟨true, env⟩ ⟨input, none⟩ message.output ⟨true, left⟩ :=
      .of_answers (ofLine?_of_not_mem h_text) rfl h_answer
    have h_transcript := (Transcript.opening h_env).line h_turn
    rw [Output.empty_append] at h_transcript
    exact ⟨_, _, h_transcript, rfl⟩

/-- A session with one line writes what the line comes to in the environment that the startup script
leaves. -/
theorem sessionWrites_line_iff {files : Files} {settings : Settings} {input : String}
    {written : Output} (h_lines : linesOf input = [input])
    (h_text : trim input ∉ ["", "%start", "%stop", "%reset"]) :
    SessionWrites files settings input written ↔ ∃ report env result,
      StartsUp files settings report env ∧ ComesTo env (trim input) result ∧
        written = onlyAnswer (Message.ofResult result).output := by
  rw [sessionWrites_iff, writes_line_iff h_lines h_text]
  constructor
  · rintro ⟨env, message, left, h_env, h_answer, rfl⟩
    obtain ⟨report, h_start⟩ := isFresh_iff.mp h_env
    obtain ⟨result, h_result, rfl⟩ := h_answer.exists_comesTo
    exact ⟨report, env, result, h_start, h_result, rfl⟩
  · rintro ⟨report, env, result, h_start, h_result, rfl⟩
    obtain ⟨left, h_answer⟩ := h_result.answers
    exact ⟨env, _, left, isFresh_iff.mpr ⟨report, h_start⟩, h_answer, rfl⟩

/-! ## Both together -/

/-- The session and the program tell the same of a text. They tell its value, and the program succeeds.
Or they tell that it cannot be read, or what error it ends with, and the program fails. The warning is
what the program reports of the startup script. -/
inductive TellAlike (warning : Output) : Output → Nat → Output → Prop where
  | value (value : Expression) :
      TellAlike warning (onlyAnswer { out := value.display ++ "\n" }) 0
        (warning ++ { out := value.display ++ "\n" })
  | unreadable :
      TellAlike warning (onlyAnswer { err := "Error: Invalid Expression. Could not parse.\n" }) 1
        (warning ++ { err := "Error: Invalid Program. Could not parse.\n" })
  | failed (fault : SemanticError) :
      TellAlike warning (onlyAnswer { err := "Error: " ++ fault.message ++ "\n" }) 1
        (warning ++ { err := "Error: " ++ fault.message ++ "\n" })

theorem tellAlike_of_result (warning : Output) (result : Except ProgramError Expression) :
    TellAlike warning (onlyAnswer (Message.ofResult result).output) (exitOf result).1
      (warning ++ (exitOf result).2) := by
  rcases result with (error | fault) | value
  · exact .unreadable
  · exact .failed fault
  · exact .value value

/-- A text of one line that is no command is given to the command line as a program, and to a session
as its only line. If the white space at its ends is blank, or is behind it in a comment, then one of
them comes to an end exactly when the other does, and they tell the same, whatever way the session
takes. If not, the program fails as one that cannot be read. -/
theorem program_agrees_with_session {files : Files} {settings : Settings} {text input : String}
    (h_line : '\n' ∉ text.toList) (h_text : trim text ∉ ["", "%start", "%stop", "%reset"])
    (h_input : input = text ∨ input = text ++ "\n") :
    (HasBlankMargins text →
      ((∃ written, SessionWrites files settings input written) ↔
        ∃ code output, Exits files settings text code output) ∧
      ∀ written code output, SessionWrites files settings input written →
        Exits files settings text code output →
        ∃ warning env, StartsUp files settings warning env ∧ TellAlike warning written code output) ∧
    (¬ HasBlankMargins text → ∀ code output, Exits files settings text code output ↔
      code = 1 ∧ ∃ warning env, StartsUp files settings warning env ∧
        output = warning ++ { err := "Error: Invalid Program. Could not parse.\n" }) := by
  have h_trim : trim input = trim text := by
    rcases h_input with rfl | rfl
    · rfl
    · exact trim_append_newline text
  have h_some : text ≠ "" := by
    rintro rfl
    exact h_text List.mem_cons_self
  have h_lines : linesOf input = [input] := linesOf_of_line h_line h_some h_input
  have h_input_text : trim input ∉ ["", "%start", "%stop", "%reset"] := by rwa [h_trim]
  refine ⟨fun h_margins => ?_, fun h_margins code output => ?_⟩
  · have h_parse := parseProgram_trim h_line h_margins
    simp only [sessionWrites_line_iff h_lines h_input_text, h_trim, exits_iff]
    refine ⟨⟨?_, ?_⟩, ?_⟩
    · rintro ⟨_, report, env, result, h_start, h_result, -⟩
      exact ⟨_, _, report, env, result, h_start, h_result.congr h_parse.symm, rfl, rfl⟩
    · rintro ⟨_, _, report, env, result, h_start, h_result, -, -⟩
      exact ⟨_, report, env, result, h_start, h_result.congr h_parse, rfl⟩
    · rintro _ _ _ ⟨_, env, result, h_start, h_line_result, rfl⟩
        ⟨report, env', result', h_start', h_result, rfl, rfl⟩
      obtain rfl : env = env' := h_start.environment_unique h_start'
      obtain rfl : result = result' := h_line_result.unique (h_result.congr h_parse)
      exact ⟨report, env, h_start', tellAlike_of_result report result⟩
  · have h_parse := parseProgram_of_not_hasBlankMargins h_margins
    rw [exits_iff]
    constructor
    · rintro ⟨report, env, result, h_start, h_result, rfl, rfl⟩
      cases h_result with
      | unreadable => exact ⟨rfl, report, env, h_start, rfl⟩
      | evaluated h_other => cases h_parse.symm.trans h_other
    · rintro ⟨rfl, report, env, h_start, rfl⟩
      exact ⟨report, env, _, h_start, .unreadable h_parse, rfl, rfl⟩

/-! ## White space that is not blank -/

/-- A string, behind a space at which no line is broken. -/
def spacedText : String := "\u00a0(\"s\")"

/-- The same behind a tab, and such a space in a comment behind it. -/
def commentedText : String := "\t(\"s\") ;\u00a0"

theorem toList_spacedText : spacedText.toList = ['\u00a0', '(', '"', 's', '"', ')'] := by
  simp [spacedText]

theorem toList_commentedText :
    commentedText.toList = ['\t', '(', '"', 's', '"', ')', ' ', ';', '\u00a0'] := by
  simp [commentedText]

theorem trim_spacedText : trim spacedText = "(\"s\")" := by
  rw [trim, toList_spacedText]
  rfl

theorem trim_commentedText : trim commentedText = "(\"s\") ;" := by
  rw [trim, toList_commentedText]
  rfl

theorem startsUp_missingScript :
    StartsUp noFiles missingScript
      (errorLine "could not open startup file 'startup.pls': No such file or directory (os error 2)")
      .initial :=
  ⟨0, _, _, rfl, rfl, rfl⟩

theorem comesTo_string {env : Environment} {text : String}
    (h_read : Form.read? text = some (.node (.quoted "s") [])) :
    ComesTo env text (.ok (.ofAtom (.string "s"))) := by
  have h_parse : parseProgram text = .ok (.ofAtom (.string "s")) := by
    rw [parseProgram, h_read]
    rfl
  have h_eval : Evaluates env (.ofAtom (.string "s")) (.ok (.ofAtom (.string "s"))) env := ⟨1, rfl⟩
  exact .evaluated h_parse h_eval

/-- A session answers the trimmed text with a string. -/
theorem sessionWrites_string {input : String} (h_lines : linesOf input = [input])
    (h_text : trim input ∉ ["", "%start", "%stop", "%reset"])
    (h_read : Form.read? (trim input) = some (.node (.quoted "s") [])) :
    SessionWrites noFiles missingScript input (onlyAnswer { out := "(\"s\")\n" }) := by
  rw [sessionWrites_line_iff h_lines h_text]
  exact ⟨_, .initial, _, startsUp_missingScript, comesTo_string h_read, rfl⟩

/-- Behind a space at which no line is broken, the session answers with a string, and the program cannot
be read. -/
theorem program_differs_behind_no_break_space :
    '\n' ∉ spacedText.toList ∧ trim spacedText ∉ ["", "%start", "%stop", "%reset"] ∧
      SessionWrites noFiles missingScript spacedText (onlyAnswer { out := "(\"s\")\n" }) ∧
      (∃ output, Exits noFiles missingScript spacedText 1 output) ∧
      ¬ ∃ output, Exits noFiles missingScript spacedText 0 output := by
  have h_line : '\n' ∉ spacedText.toList := by
    rw [toList_spacedText]
    decide
  have h_text : trim spacedText ∉ ["", "%start", "%stop", "%reset"] := by
    rw [trim_spacedText]
    decide
  have h_read : Form.read? (trim spacedText) = some (.node (.quoted "s") []) := by
    have h_letters : "(\"s\")".toList = ['(', '"', 's', '"', ')'] := by simp
    rw [trim_spacedText, Form.read?, Lexeme.scan?, h_letters]
    rfl
  have h_margins : ¬ HasBlankMargins spacedText := by
    intro h_margins
    have h_space : '\u00a0' ∈ leadingSpace spacedText := by
      rw [leadingSpace, toList_spacedText]
      decide
    cases h_margins.leading _ h_space
  have h_parse := parseProgram_of_not_hasBlankMargins h_margins
  refine ⟨h_line, h_text, sessionWrites_string ?_ h_text h_read, ?_, ?_⟩
  · exact linesOf_of_line h_line (by decide) (.inl rfl)
  · exact ⟨_, exits_iff.mpr ⟨_, _, _, startsUp_missingScript, .unreadable h_parse, rfl, rfl⟩⟩
  · rintro ⟨output, h_exit⟩
    obtain ⟨report, env, result, -, h_result, h_code, -⟩ := exits_iff.mp h_exit
    cases h_result with
    | unreadable => cases h_code
    | evaluated h_other => cases h_parse.symm.trans h_other

/-- Behind a tab, and before such a space in a comment, both answer with a string. -/
theorem program_agrees_before_comment :
    ∃ written output, SessionWrites noFiles missingScript (commentedText ++ "\n") written ∧
      Exits noFiles missingScript commentedText 0 output ∧
      ∃ warning env, StartsUp noFiles missingScript warning env ∧
        TellAlike warning written 0 output := by
  have h_line : '\n' ∉ commentedText.toList := by
    rw [toList_commentedText]
    decide
  have h_text : trim commentedText ∉ ["", "%start", "%stop", "%reset"] := by
    rw [trim_commentedText]
    decide
  have h_margins : HasBlankMargins commentedText := by
    constructor
    · have h_leading : leadingSpace commentedText = ['\t'] := by
        rw [leadingSpace, toList_commentedText]
        rfl
      rw [h_leading]
      exact List.forall_mem_singleton.mpr rfl
    · have h_letters : "(\"s\") ;".toList = ['(', '"', 's', '"', ')', ' ', ';'] := by simp
      rw [trim_commentedText, EndsInComment, h_letters]
      exact .inr rfl
  have h_read : Form.read? commentedText = some (.node (.quoted "s") []) := by
    rw [Form.read?, Lexeme.scan?, toList_commentedText]
    rfl
  have h_exits : Exits noFiles missingScript commentedText 0 _ :=
    exits_iff.mpr ⟨_, _, _, startsUp_missingScript, comesTo_string h_read, rfl, rfl⟩
  obtain ⟨h_ends, h_tell⟩ :=
    (program_agrees_with_session h_line h_text (.inr rfl)).1 h_margins
  obtain ⟨written, h_writes⟩ := h_ends.mpr ⟨0, _, h_exits⟩
  exact ⟨written, _, h_writes, h_exits, h_tell written 0 _ h_writes h_exits⟩

end PlotLisp
