import PlotLisp.Proofs.Kernel.Service

/-!
# The dialogue with a kernel

An interactive session step by step. The loop that reads lines is the controller of a kernel whose
worker goes on at its own pace, so that a step of the one may fall between any two of the other.

* `Dialogue` is the loop and the kernel, `Dialogue.Step` each step that one of them takes, and
  `Dialogue.Opens` how they begin.
* `Dialogue.IsFaithful` is the invariant: what has been written is the transcript of the lines that
  have been dealt with, and nothing is under way in the kernel but the line that the loop holds.
-/

namespace PlotLisp

open Kernel

/-! ## The loop -/

/-- What the loop does next. From the reading of a line to the end of what it asks for, the loop holds
the line. -/
inductive Stage where
  | prompting
  | reading
  /-- To carry out the command of a line. -/
  | commanding (turn : Turn) (command : ReplCommand)
  /-- To tell what was done, once the kernel is done with it. -/
  | informing (turn : Turn) (text : String)
  /-- To ask for the message of a line that has been submitted. -/
  | submitted (turn : Turn)
  /-- To write the message, once it is received. -/
  | receiving (turn : Turn)
  /-- To stop the kernel after the last line. -/
  | closing
  /-- To end, once the kernel has stopped. -/
  | stopping
  | ended

/-- The line that the loop holds. -/
def Stage.turn? : Stage → Option Turn
  | .commanding turn _ | .informing turn _ | .submitted turn | .receiving turn => some turn
  | _ => none

/-- The end of the input has been met. -/
def Stage.isLast : Stage → Bool
  | .closing | .stopping | .ended => true
  | _ => false

/-- What has been written since the last line was dealt with. -/
def Stage.prompted : Stage → Output
  | .prompting => ∅
  | .closing | .stopping | .ended => { out := "plotscript> \n" }
  | _ => { out := "plotscript> " }

/-- A session under way: the kernel, the loop, the lines that are still to be read, and what has been
written. -/
structure Dialogue where
  system : System
  stage : Stage := .prompting
  input : List Turn
  output : Output := ∅

namespace Dialogue

variable (fresh : Environment → Prop)

/-- One step, of the loop or of the kernel. A thread is granted or refused as the line says. -/
inductive Step : Dialogue → Dialogue → Prop where
  | kernel {system next stage input output} (h_step : StepsUnasked fresh Attempted system next) :
      Step ⟨system, stage, input, output⟩ ⟨next, stage, input, output⟩
  | prompt {system input output} :
      Step ⟨system, .prompting, input, output⟩
        ⟨system, .reading, input, output ++ { out := PlotLisp.prompt }⟩
  | blank {system turn input output} (h_line : ReplCommand.ofLine? turn.line = none) :
      Step ⟨system, .reading, turn :: input, output⟩ ⟨system, .prompting, input, output⟩
  | read {system turn command input output} (h_line : ReplCommand.ofLine? turn.line = some command) :
      Step ⟨system, .reading, turn :: input, output⟩
        ⟨system, .commanding turn command, input, output⟩
  | endOfInput {system output} :
      Step ⟨system, .reading, [], output⟩ ⟨system, .closing, [], output ++ .line ""⟩
  | start {system next turn input output} (h_step : Kernel.Step fresh Attempted system .start next)
      (h_thread : system.kernel.startError? turn.refusal = none) :
      Step ⟨system, .commanding turn .start, input, output⟩
        ⟨next, .informing turn "interpreter kernel started", input, output⟩
  | startFailed {system next turn reason input output}
      (h_step : Kernel.Step fresh Attempted system (.startFailed reason) next)
      (h_thread : turn.refusal = some reason) :
      Step ⟨system, .commanding turn .start, input, output⟩
        ⟨next, .prompting, input, output ++ errorLine (KernelError.spawn reason).message⟩
  | stop {system next turn input output} (h_step : Kernel.Step fresh Attempted system .stop next) :
      Step ⟨system, .commanding turn .stop, input, output⟩
        ⟨next, .informing turn "interpreter kernel stopped", input, output⟩
  | reset {system next turn input output} (h_step : Kernel.Step fresh Attempted system .reset next) :
      Step ⟨system, .commanding turn .reset, input, output⟩
        ⟨next, .informing turn "interpreter kernel reset", input, output⟩
  | restarted {system next turn text input output}
      (h_step : Kernel.Step fresh Attempted system .restarted next) (h_thread : turn.refusal = none) :
      Step ⟨system, .informing turn text, input, output⟩ ⟨next, .informing turn text, input, output⟩
  | resetFailed {system next turn text reason input output}
      (h_step : Kernel.Step fresh Attempted system (.resetFailed reason) next)
      (h_thread : turn.refusal = some reason) :
      Step ⟨system, .informing turn text, input, output⟩
        ⟨next, .prompting, input, output ++ errorLine (KernelError.spawn reason).message⟩
  | inform {system turn text input output} (h_done : system.controller = .idle) :
      Step ⟨system, .informing turn text, input, output⟩
        ⟨system, .prompting, input, output ++ infoLine text⟩
  | submit {system next turn text input output}
      (h_step : Kernel.Step fresh Attempted system (.submitted text) next) :
      Step ⟨system, .commanding turn (.evaluate text), input, output⟩
        ⟨next, .submitted turn, input, output⟩
  | refuse {system next turn text input output}
      (h_step : Kernel.Step fresh Attempted system (.refused text) next) :
      Step ⟨system, .commanding turn (.evaluate text), input, output⟩
        ⟨next, .prompting, input, output ++ errorLine notRunningMessage⟩
  | receive {system next turn input output} (h_step : Kernel.Step fresh Attempted system .receive next) :
      Step ⟨system, .submitted turn, input, output⟩ ⟨next, .receiving turn, input, output⟩
  | answer {system next turn message input output}
      (h_step : Kernel.Step fresh Attempted system (.received message) next) :
      Step ⟨system, .receiving turn, input, output⟩
        ⟨next, .prompting, input, output ++ message.output⟩
  | giveUp {system next turn input output}
      (h_step : Kernel.Step fresh Attempted system .notRunning next) :
      Step ⟨system, .receiving turn, input, output⟩
        ⟨next, .prompting, input, output ++ errorLine notRunningMessage⟩
  | close {system next output} (h_step : Kernel.Step fresh Attempted system .stop next) :
      Step ⟨system, .closing, [], output⟩ ⟨next, .stopping, [], output⟩
  | finish {system output} (h_done : system.controller = .idle) :
      Step ⟨system, .stopping, [], output⟩ ⟨system, .ended, [], output⟩

/-- Steps one after another. -/
def Reaches : Dialogue → Dialogue → Prop := Relation.ReflTransGen (Step fresh)

/-- A session begins with the start of its kernel. -/
inductive Opens : Option String → List Turn → Dialogue → Prop where
  | started {turns system} (h_step : Kernel.Step fresh Attempted {} .start system) :
      Opens none turns { system, input := turns }
  | failed {turns reason system} (h_step : Kernel.Step fresh Attempted {} (.startFailed reason) system) :
      Opens (some reason) turns
        { system, input := turns, output := errorLine (KernelError.spawn reason).message }

end Dialogue

/-! ## What is under way -/

variable {fresh : Environment → Prop} {state : Respondent} {refusal : Option String}
  {turns : List Turn}

/-- The kernel is busy with a command, and what is told of it is told as soon as the kernel is done, or
as soon as it is refused the thread that it still has to ask for. -/
structure Informs (fresh : Environment → Prop) (state : Respondent) (turn : Turn) (text : String)
    (next : Respondent) (system : System) : Prop where
  commanding : system.controller.isListening = false
  serves : Serves fresh next system
  rest : system.kernel.IsAtRest
  done : system.controller.willRestart = false ∨ turn.refusal = none →
    Responds fresh state turn (infoLine text) next
  failed : system.controller.willRestart → ∀ reason, turn.refusal = some reason →
    Responds fresh state turn (errorLine (KernelError.spawn reason).message)
      { next with isRunning := false }

/-- What the kernel is like in a stage, where the interpreter has answered the lines before the one
that the loop holds. -/
def Stage.Fits (fresh : Environment → Prop) (state : Respondent) (system : System) : Stage → Prop
  | .prompting | .reading | .closing => IsFree fresh state system
  | .commanding turn command =>
    ReplCommand.ofLine? turn.line = some command ∧ IsFree fresh state system
  | .informing turn text => ∃ next, Informs fresh state turn text next system
  | .submitted turn =>
    ∃ text, ReplCommand.ofLine? turn.line = some (.evaluate text) ∧ state.isRunning = true ∧
      system.controller = .idle ∧ Asked fresh state text system
  | .receiving turn =>
    ∃ text, ReplCommand.ofLine? turn.line = some (.evaluate text) ∧ state.isRunning = true ∧
      system.controller.isListening = true ∧ Asked fresh state text system
  | .stopping =>
    system.controller.isListening = false ∧ Serves fresh { state with isRunning := false } system ∧
      system.kernel.IsAtRest
  | .ended => IsFree fresh { state with isRunning := false } system

/-- What has been written is what the interpreter writes for the lines that have been dealt with, and
the kernel has no other line to answer than the one that the loop holds. -/
structure Dialogue.IsFaithful (fresh : Environment → Prop) (refusal : Option String)
    (turns : List Turn) (d : Dialogue) : Prop where
  read : ∃ read state written, turns = read ++ d.stage.turn?.toList ++ d.input ∧
    Transcript fresh refusal read state written ∧ d.output = written ++ d.stage.prompted ∧
    d.stage.Fits fresh state d.system
  last : d.stage.isLast → d.input = []

/-- A line has been dealt with once its answer is written and nothing is under way. -/
theorem Dialogue.isFaithful_of_responds {read input : List Turn} {written output answered : Output}
    {turn : Turn} {next : Respondent} {system : System} (h_turns : turns = read ++ [turn] ++ input)
    (h_text : Transcript fresh refusal read state written)
    (h_output : output = written ++ { out := "plotscript> " })
    (h_turn : Responds fresh state turn answered next) (h_free : IsFree fresh next system) :
    IsFaithful fresh refusal turns ⟨system, .prompting, input, output ++ answered⟩ where
  read := by
    rw [h_turns, h_output]
    exact ⟨read ++ [turn], next, _, by simp [Stage.turn?], h_text.line h_turn,
      (Output.append_empty _).symm, h_free⟩
  last := nofun

/-! ## Commands under way -/

section Informing

variable {turn : Turn} {text : String} {next : Respondent} {first last : System}

theorem Informs.proceed (h_informs : Informs fresh state turn text next first)
    (h_step : StepsUnasked fresh Attempted first last) : Informs fresh state turn text next last := by
  obtain ⟨h_serves, h_rest⟩ := h_informs.rest.proceed h_informs.serves h_step
  have h_listening := h_step.isListening
  obtain ⟨event, h_unasked, h_step⟩ := h_step
  have h_restart := h_step.willRestart h_unasked
  exact ⟨h_listening.trans h_informs.commanding, h_serves, h_rest,
    by rw [h_restart]; exact h_informs.done, by rw [h_restart]; exact h_informs.failed⟩

/-- What has nothing more to ask of the system will be done. -/
theorem Informs.of_responds (h_commanding : last.controller.isListening = false)
    (h_restart : last.controller.willRestart = false) (h_serves : Serves fresh next last)
    (h_rest : last.kernel.IsAtRest) (h_turn : Responds fresh state turn (infoLine text) next) :
    Informs fresh state turn text next last := by
  refine ⟨h_commanding, h_serves, h_rest, fun _ => h_turn, ?_⟩
  rw [h_restart]
  rintro ⟨⟩

/-- A reset that gets its thread is as good as done. -/
theorem Informs.restarted (h_informs : Informs fresh state turn text next first)
    (h_thread : turn.refusal = none) (h_step : Kernel.Step fresh Attempted first .restarted last) :
    Informs fresh state turn text next last := by
  obtain ⟨h_idle, h_serves⟩ := h_informs.serves.restarted h_step
  obtain ⟨h_rest, -⟩ := h_informs.rest.step h_step rfl
  exact .of_responds (by rw [h_idle]; rfl) (by rw [h_idle]; rfl) h_serves h_rest
    (h_informs.done (.inr h_thread))

/-- One that gets none has come to its end. -/
theorem Informs.resetFailed {reason : String} (h_informs : Informs fresh state turn text next first)
    (h_thread : turn.refusal = some reason)
    (h_step : Kernel.Step fresh Attempted first (.resetFailed reason) last) :
    Responds fresh state turn (errorLine (KernelError.spawn reason).message)
        { next with isRunning := false } ∧
      IsFree fresh { next with isRunning := false } last := by
  obtain ⟨h_restart, h_idle, h_serves⟩ := h_informs.serves.resetFailed h_step
  obtain ⟨h_rest, -⟩ := h_informs.rest.step h_step rfl
  exact ⟨h_informs.failed h_restart reason h_thread, h_idle, h_serves, h_rest⟩

theorem Informs.of_start (h_line : trim turn.line = "%start") (h_free : IsFree fresh state first)
    (h_thread : first.kernel.startError? turn.refusal = none)
    (h_step : Kernel.Step fresh Attempted first .start last) :
    Informs fresh state turn "interpreter kernel started" { state with isRunning := true } last := by
  obtain ⟨h_rest, -⟩ := h_free.rest.step h_step rfl
  obtain ⟨h_idle, h_serves⟩ := h_free.serves.start h_step
  have h_runs : first.kernel.isRunning = state.isRunning := h_free.isRunning
  have h_granted : state.isRunning = true ∨ turn.refusal = none := by
    rw [startError?, h_runs] at h_thread
    split at h_thread
    case isTrue h_running => exact .inl h_running
    case isFalse => exact .inr (Option.map_eq_none_iff.mp h_thread)
  exact .of_responds (by rw [h_idle]; rfl) (by rw [h_idle]; rfl) h_serves h_rest
    (.started h_line h_granted)

theorem Informs.of_stop (h_line : trim turn.line = "%stop") (h_free : IsFree fresh state first)
    (h_step : Kernel.Step fresh Attempted first .stop last) :
    Informs fresh state turn "interpreter kernel stopped" { state with isRunning := false } last := by
  obtain ⟨h_rest, -⟩ := h_free.rest.step h_step rfl
  obtain ⟨h_commanding, h_restart, h_serves⟩ := h_free.serves.stop h_step
  exact .of_responds h_commanding h_restart h_serves h_rest (.stopped h_line)

theorem Informs.of_reset {env : Environment} (h_line : trim turn.line = "%reset") (h_env : fresh env)
    (h_free : IsFree fresh state first) (h_step : Kernel.Step fresh Attempted first .reset last) :
    Informs fresh state turn "interpreter kernel reset" { state with environment := env } last := by
  obtain ⟨h_rest, -⟩ := h_free.rest.step h_step rfl
  obtain ⟨h_commanding, h_restart, h_serves⟩ := h_free.serves.reset h_env h_step
  refine ⟨h_commanding, h_serves, h_rest, ?_, ?_⟩ <;> rw [h_restart]
  · exact fun h_thread => .reset h_line h_thread h_env
  · intro h_running reason h_refusal
    rw [errorLine_spawn]
    exact .resetFailed h_line h_running h_refusal h_env

end Informing

/-! ## Steps -/

section Steps

variable (h_fresh : ∀ env other, fresh env → fresh other → env = other)

include h_fresh

/-- Whatever the kernel does unasked, it fits the stage as before. -/
theorem Stage.Fits.proceed {stage : Stage} {first last : System} (h_fits : stage.Fits fresh state first)
    (h_step : StepsUnasked fresh Attempted first last) : stage.Fits fresh state last := by
  cases stage with
  | prompting | reading | closing | ended => exact IsFree.proceed h_fits h_step
  | commanding => exact ⟨h_fits.1, h_fits.2.proceed h_step⟩
  | informing =>
    obtain ⟨next, h_informs⟩ := h_fits
    exact ⟨next, h_informs.proceed h_step⟩
  | submitted =>
    obtain ⟨text, h_line, h_running, h_idle, h_asked⟩ := h_fits
    have h_last := h_asked.proceed h_fresh (isSteady_iff.mpr (.inl h_idle)) h_step
    obtain ⟨event, h_unasked, h_step⟩ := h_step
    exact ⟨text, h_line, h_running, h_step.idle h_unasked h_idle, h_last⟩
  | receiving =>
    obtain ⟨text, h_line, h_running, h_listening, h_asked⟩ := h_fits
    have h_last := h_asked.proceed h_fresh (isSteady_iff.mpr (.inr h_listening)) h_step
    exact ⟨text, h_line, h_running, h_step.isListening.trans h_listening, h_last⟩
  | stopping =>
    obtain ⟨h_commanding, h_serves, h_rest⟩ := h_fits
    exact ⟨h_step.isListening.trans h_commanding, h_rest.proceed h_serves h_step⟩

theorem Dialogue.Step.isFaithful {d next : Dialogue} (h_step : Step fresh d next)
    (h_faithful : d.IsFaithful fresh refusal turns) : next.IsFaithful fresh refusal turns := by
  obtain ⟨⟨read, state, written, h_turns, h_text, h_output, h_fits⟩, h_last⟩ := h_faithful
  cases h_step with
  | kernel h_step =>
    exact ⟨⟨read, state, written, h_turns, h_text, h_output, h_fits.proceed h_fresh h_step⟩, h_last⟩
  | @prompt system input output =>
    refine ⟨⟨read, state, written, h_turns, h_text, ?_, h_fits⟩, nofun⟩
    have h_output' : output = written ++ ∅ := h_output
    rw [Output.append_empty] at h_output'
    rw [h_output']
    rfl
  | @blank system turn input output h_line =>
    have h_turns' : turns = read ++ [turn] ++ input := by simpa [Stage.turn?] using h_turns
    have h_blank : trim turn.line = "" := trim_of_ofLine? h_line
    have h_next := isFaithful_of_responds h_turns' h_text h_output (.blank h_blank) h_fits
    rwa [Output.append_empty] at h_next
  | @read system turn command input output h_line =>
    have h_turns' : turns = read ++ [turn] ++ input := by simpa [Stage.turn?] using h_turns
    exact ⟨⟨read, state, written, h_turns', h_text, h_output, h_line, h_fits⟩, nofun⟩
  | @endOfInput system output =>
    refine ⟨⟨read, state, written, h_turns, h_text, ?_, h_fits⟩, fun _ => rfl⟩
    have h_output' : output = written ++ { out := "plotscript> " } := h_output
    rw [h_output', Output.append_assoc]
    rfl
  | start h_step h_thread =>
    obtain ⟨h_line, h_free⟩ := h_fits
    have h_informs := Informs.of_start (trim_of_ofLine? h_line) h_free h_thread h_step
    exact ⟨⟨read, state, written, h_turns, h_text, h_output, _, h_informs⟩, nofun⟩
  | @startFailed system next turn reason input output h_step h_thread =>
    obtain ⟨h_line, h_free⟩ := h_fits
    obtain ⟨env, h_env⟩ := h_text.exists_fresh
    obtain ⟨h_stopped, h_idle, h_serves⟩ := h_free.serves.startFailed h_env h_step
    obtain ⟨h_rest, -⟩ := h_free.rest.step h_step rfl
    rw [errorLine_spawn]
    exact isFaithful_of_responds h_turns h_text h_output
      (.startFailed (trim_of_ofLine? h_line) h_stopped h_thread h_env) ⟨h_idle, h_serves, h_rest⟩
  | stop h_step =>
    obtain ⟨h_line, h_free⟩ := h_fits
    have h_informs := Informs.of_stop (trim_of_ofLine? h_line) h_free h_step
    exact ⟨⟨read, state, written, h_turns, h_text, h_output, _, h_informs⟩, nofun⟩
  | reset h_step =>
    obtain ⟨h_line, h_free⟩ := h_fits
    obtain ⟨env, h_env⟩ := h_text.exists_fresh
    have h_informs := Informs.of_reset (trim_of_ofLine? h_line) h_env h_free h_step
    exact ⟨⟨read, state, written, h_turns, h_text, h_output, _, h_informs⟩, nofun⟩
  | restarted h_step h_thread =>
    obtain ⟨next, h_informs⟩ := h_fits
    exact ⟨⟨read, state, written, h_turns, h_text, h_output, next,
      h_informs.restarted h_thread h_step⟩, nofun⟩
  | resetFailed h_step h_thread =>
    obtain ⟨next, h_informs⟩ := h_fits
    obtain ⟨h_turn, h_free⟩ := h_informs.resetFailed h_thread h_step
    exact isFaithful_of_responds h_turns h_text h_output h_turn h_free
  | inform h_done =>
    obtain ⟨next, h_informs⟩ := h_fits
    have h_turn := h_informs.done (.inl (by rw [h_done]; rfl))
    exact isFaithful_of_responds h_turns h_text h_output h_turn
      ⟨h_done, h_informs.serves, h_informs.rest⟩
  | submit h_step =>
    obtain ⟨h_line, h_free⟩ := h_fits
    obtain ⟨h_running, h_idle, -⟩ := h_free.serves.submit h_step
    exact ⟨⟨read, state, written, h_turns, h_text, h_output, _, h_line, h_running, h_idle,
      h_free.serves.ask h_free.rest h_step⟩, nofun⟩
  | refuse h_step =>
    obtain ⟨h_line, h_free⟩ := h_fits
    obtain ⟨h_stopped, rfl, -⟩ := h_free.serves.refuse h_step
    exact isFaithful_of_responds h_turns h_text h_output
      (.refused (trim_of_ofLine? h_line).2 h_stopped) h_free
  | receive h_step =>
    obtain ⟨text, h_line, h_running, -, h_asked⟩ := h_fits
    obtain ⟨-, rfl⟩ := h_step.eq_of_receive
    exact ⟨⟨read, state, written, h_turns, h_text, h_output, text, h_line, h_running, rfl,
      h_asked.receive h_step⟩, nofun⟩
  | answer h_step =>
    obtain ⟨text, h_line, h_running, -, h_asked⟩ := h_fits
    obtain ⟨left, h_answer, h_free⟩ := h_asked.received h_step
    exact isFaithful_of_responds h_turns h_text h_output (.of_answers h_line h_running h_answer) h_free
  | giveUp h_step =>
    obtain ⟨text, -, h_running, -, h_asked⟩ := h_fits
    exact absurd h_step (h_asked.not_notRunning h_running)
  | close h_step =>
    obtain ⟨h_rest, -⟩ := h_fits.rest.step h_step rfl
    obtain ⟨h_commanding, -, h_serves⟩ := h_fits.serves.stop h_step
    exact ⟨⟨read, state, written, h_turns, h_text, h_output, h_commanding, h_serves, h_rest⟩,
      fun _ => rfl⟩
  | finish h_done =>
    obtain ⟨-, h_serves, h_rest⟩ := h_fits
    exact ⟨⟨read, state, written, h_turns, h_text, h_output, h_done, h_serves, h_rest⟩, fun _ => rfl⟩

theorem Dialogue.Reaches.isFaithful {d last : Dialogue} (h_steps : Reaches fresh d last)
    (h_faithful : d.IsFaithful fresh refusal turns) : last.IsFaithful fresh refusal turns := by
  induction h_steps with
  | refl => exact h_faithful
  | tail _ h_step ih => exact h_step.isFaithful h_fresh ih

end Steps

/-! ## The start of a session -/

/-- A kernel that has never run is free, with any fresh environment. -/
theorem isFree_new {env : Environment} (h_env : fresh env) : IsFree fresh ⟨false, env⟩ {} :=
  ⟨rfl, ⟨manned_of_worker_eq_none rfl, trivial, rfl, [], rfl, .fresh h_env⟩, rfl, rfl⟩

theorem Dialogue.Opens.isFaithful {d : Dialogue} (h_opens : Opens fresh refusal turns d) :
    d.IsFaithful fresh refusal turns := by
  cases h_opens with
  | started h_step =>
    obtain ⟨env, h_fresh, -, h_last⟩ := h_step.eq_of_start
    have h_env : fresh env := h_fresh rfl rfl
    obtain ⟨h_rest, -⟩ := (isFree_new h_env).rest.step h_step rfl
    obtain ⟨h_idle, h_serves⟩ := (isFree_new h_env).serves.start h_step
    exact ⟨⟨[], ⟨true, env⟩, ∅, rfl, .opening h_env, rfl, h_idle, h_serves, h_rest⟩, nofun⟩
  | @failed turns reason system h_step =>
    obtain ⟨env, h_fresh, -⟩ := h_step.eq_of_startFailed
    have h_env : fresh env := h_fresh rfl
    obtain ⟨h_rest, -⟩ := (isFree_new h_env).rest.step h_step rfl
    obtain ⟨-, h_idle, h_serves⟩ := (isFree_new h_env).serves.startFailed h_env h_step
    refine ⟨⟨[], ⟨false, env⟩, _, rfl, .openingFailed h_env, ?_, h_idle, h_serves, h_rest⟩, nofun⟩
    rw [errorLine_spawn]
    exact (Output.append_empty _).symm

end PlotLisp
