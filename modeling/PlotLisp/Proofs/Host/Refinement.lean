import PlotLisp.Proofs.Host.Dialogue
import PlotLisp.Proofs.Kernel.Completion

/-!
# Sessions write what one interpreter writes

However the steps of the worker fall between those of the loop, an interactive session has at every
moment written what the interpreter of `Transcript` writes for the lines so far, and it can always be
brought to its end, whatever threads the system refuses. The session of a controller that waits, `repl`,
is one of these.

* `reaches_of_replLines` finds that session among the dialogues.
* `exists_replLines` and `Dialogue.IsFaithful.canEnd` bring sessions to their end.
* `repl_writes_transcript` draws the conclusions.
-/

namespace PlotLisp

open Kernel

variable {fresh : Environment → Prop} {state : Respondent} {refusal : Option String}
  {turns : List Turn} {answer : Answerer}

/-! ## The session of a controller that waits -/

theorem Dialogue.reaches_of_proceeds {system next : System}
    (h_steps : Proceeds fresh Attempted system next) (stage : Stage) (input : List Turn)
    (output : Output) :
    Reaches fresh ⟨system, stage, input, output⟩ ⟨next, stage, input, output⟩ :=
  h_steps.lift (fun system => (⟨system, stage, input, output⟩ : Dialogue)) fun _ _ => .kernel

section Waiting

variable {env : Environment} (h_env : fresh env)
  (h_answer : ∀ env line attempt, answer env line = some attempt → Attempted env line attempt)

include h_answer

theorem reaches_of_ask {kernel next : Kernel} {text : String} {answered : Output}
    (h_ask : kernel.ask answer text = some (next, answered)) (turn : Turn) (input : List Turn)
    (output : Output) :
    Dialogue.Reaches fresh ⟨⟨kernel, .idle⟩, .commanding turn (.evaluate text), input, output⟩
      ⟨⟨next, .idle⟩, .prompting, input, output ++ answered⟩ := by
  obtain ⟨asked, h_submit, h_rest⟩ := Option.bind_eq_some_iff.mp h_ask
  rcases asked with _ | settled
  · -- the line is not taken
    cases h_rest
    have h_none : kernel.submit? text = none := by
      unfold submitAndSettle? at h_submit
      split at h_submit
      · assumption
      · simp at h_submit
    exact .single (.refuse (.refuse h_none))
  · obtain ⟨middle, h_step, h_proceeds⟩ :
        ∃ middle, Kernel.Step fresh Attempted ⟨kernel, .idle⟩ (.submitted text) middle ∧
          Proceeds fresh Attempted middle ⟨settled, .idle⟩ := submit_run h_answer h_submit
    have h_submitted := (Dialogue.reaches_of_proceeds h_proceeds (.submitted turn) input output).head
      (.submit h_step)
    have h_receiving := h_submitted.tail (.receive .receive)
    rcases h_receive : settled.receive with ⟨received, left⟩
    cases received with
    | message message =>
      simp only [h_receive] at h_rest
      cases h_rest
      exact h_receiving.tail (.answer (receive_run h_receive))
    | notRunning =>
      simp only [h_receive] at h_rest
      cases h_rest
      obtain ⟨h_left, h_last⟩ := receive_run_of_notRunning h_receive
      exact (h_receiving.trans (Dialogue.reaches_of_proceeds h_left _ _ _)).tail (.giveUp h_last)
    | pending =>
      simp only [h_receive] at h_rest
      cases h_rest

include h_env

theorem reaches_of_start {kernel started : Kernel} {turn : Turn}
    (h_start : kernel.startAndSettle answer env turn.refusal = some started) (input : List Turn)
    (output : Output) :
    Dialogue.Reaches fresh ⟨⟨kernel, .idle⟩, .commanding turn .start, input, output⟩
      ⟨⟨started, .idle⟩, .prompting, input,
        output ++ report (kernel.startError? turn.refusal) "interpreter kernel started"⟩ := by
  rcases h_error : kernel.startError? turn.refusal with _ | error
  · obtain ⟨middle, h_step, h_proceeds⟩ := start_run h_answer h_env h_start h_error
    have h_informing : Dialogue.Reaches fresh ⟨⟨kernel, .idle⟩, .commanding turn .start, input, output⟩
        ⟨⟨started, .idle⟩, .informing turn "interpreter kernel started", input, output⟩ :=
      (Dialogue.reaches_of_proceeds h_proceeds _ _ _).head (.start h_step h_error)
    exact h_informing.tail (.inform rfl)
  · obtain ⟨reason, middle, h_thread, rfl, h_step, h_proceeds⟩ :=
      startFailed_run h_answer h_env h_start h_error
    exact (Dialogue.reaches_of_proceeds h_proceeds .prompting input _).head
      (.startFailed h_step h_thread)

theorem reaches_of_reset {kernel renewed : Kernel} {turn : Turn}
    (h_reset : kernel.reset answer env turn.refusal = some renewed) (input : List Turn)
    (output : Output) :
    Dialogue.Reaches fresh ⟨⟨kernel, .idle⟩, .commanding turn .reset, input, output⟩
      ⟨⟨renewed, .idle⟩, .prompting, input,
        output ++ report (kernel.resetError? turn.refusal) "interpreter kernel reset"⟩ := by
  rcases h_running : kernel.isRunning
  · obtain ⟨middle, h_step, h_proceeds⟩ :
        ∃ middle, Kernel.Step fresh Attempted ⟨kernel, .idle⟩ .reset middle ∧
          Proceeds fresh Attempted middle ⟨renewed, .idle⟩ := reset_run_of_stopped h_reset h_running
    have h_error : kernel.resetError? turn.refusal = none := if_neg (by rw [h_running]; nofun)
    rw [h_error]
    exact ((Dialogue.reaches_of_proceeds h_proceeds _ _ _).head (.reset h_step)).tail (.inform rfl)
  · obtain ⟨middle, cleared, h_step, h_proceeds, h_stopped, h_start⟩ :=
      reset_run_of_isRunning h_answer h_reset h_running
    have h_cleared : Dialogue.Reaches fresh ⟨⟨kernel, .idle⟩, .commanding turn .reset, input, output⟩
        ⟨⟨cleared, .restarting⟩, .informing turn "interpreter kernel reset", input, output⟩ :=
      (Dialogue.reaches_of_proceeds h_proceeds _ _ _).head (.reset h_step)
    -- the reset fails where its start does
    have h_error : kernel.resetError? turn.refusal = cleared.startError? turn.refusal := by
      rw [resetError?, startError?, h_running, h_stopped]
      rfl
    rw [h_error]
    rcases h_thread : cleared.startError? turn.refusal with _ | error
    · obtain ⟨final, h_restart, h_rest⟩ := restart_run h_answer h_env h_start h_thread
      have h_granted : turn.refusal = none := by
        rwa [startError?, h_stopped, if_neg nofun, Option.map_eq_none_iff] at h_thread
      have h_restarted := h_cleared.tail (.restarted h_restart h_granted)
      exact (h_restarted.trans (Dialogue.reaches_of_proceeds h_rest _ _ _)).tail (.inform rfl)
    · obtain ⟨reason, final, h_refusal, rfl, h_restart, h_rest⟩ :=
        restartFailed_run h_answer h_env h_start h_thread
      have h_failed := h_cleared.tail (.resetFailed h_restart h_refusal)
      exact h_failed.trans (Dialogue.reaches_of_proceeds h_rest _ _ _)

theorem reaches_of_obey {kernel next : Kernel} {command : ReplCommand} {turn : Turn}
    {answered : Output} (h_obey : kernel.obey answer env command turn.refusal = some (next, answered))
    (input : List Turn) (output : Output) :
    Dialogue.Reaches fresh ⟨⟨kernel, .idle⟩, .commanding turn command, input, output⟩
      ⟨⟨next, .idle⟩, .prompting, input, output ++ answered⟩ := by
  cases command with
  | start =>
    obtain ⟨started, h_start, h_eq⟩ := Option.bind_eq_some_iff.mp h_obey
    cases h_eq
    exact reaches_of_start h_env h_answer h_start input output
  | stop =>
    obtain ⟨stopped, h_stop, h_eq⟩ := Option.bind_eq_some_iff.mp h_obey
    cases h_eq
    obtain ⟨middle, h_step, h_proceeds⟩ := stop_run h_answer h_stop
    exact ((Dialogue.reaches_of_proceeds h_proceeds _ _ _).head (.stop h_step)).tail (.inform rfl)
  | reset =>
    obtain ⟨renewed, h_reset, h_eq⟩ := Option.bind_eq_some_iff.mp h_obey
    cases h_eq
    exact reaches_of_reset h_env h_answer h_reset input output
  | evaluate text => exact reaches_of_ask h_answer h_obey turn input output

theorem reaches_of_replLine {kernel next : Kernel} {turn : Turn} {answered : Output}
    (h_line : replLine answer env kernel turn.line turn.refusal = some (next, answered))
    (input : List Turn) (output : Output) :
    Dialogue.Reaches fresh ⟨⟨kernel, .idle⟩, .reading, turn :: input, output⟩
      ⟨⟨next, .idle⟩, .prompting, input, output ++ answered⟩ := by
  unfold replLine at h_line
  split at h_line
  · rename_i h_blank
    cases h_line
    rw [Output.append_empty]
    exact .single (.blank h_blank)
  · rename_i command h_command
    exact (reaches_of_obey h_env h_answer h_line input output).head (.read h_command)

end Waiting

/-! ## Answers to every line -/

/-- Each line that the interpreter is to answer has an answer. -/
def Covers (answer : Answerer) (fresh : Environment → Prop) (refusal : Option String)
    (turns : List Turn) : Prop :=
  ∀ read turn rest state written text, turns = read ++ [turn] ++ rest →
    Transcript fresh refusal read state written → ReplCommand.ofLine? turn.line = some (.evaluate text) →
    state.isRunning = true → ∃ attempt, answer state.environment text = some attempt

theorem Answers.exists_depth {env left : Environment} {line : String} {message : Message}
    (h_answer : Answers env line message left) :
    ∃ depth, ∀ greater ≥ depth, ∃ attempt, answerLine greater env line = some attempt := by
  cases h_answer with
  | rejected h_parse =>
    refine ⟨0, fun greater _ => ?_⟩
    simp [answerLine, Session.evalSource, Session.load, h_parse]
  | @evaluated program _ _ _ h_parse h_eval | @failed program _ _ _ h_parse h_eval =>
    obtain ⟨depth, h_eval⟩ := h_eval
    refine ⟨depth, fun greater h_greater => ?_⟩
    have h_deep := evalWithin_mono h_greater program env _ h_eval
    simp [answerLine, Session.evalSource, Session.load, h_parse, Session.evaluate, Session.run,
      Session.resume, h_deep]

section Unique

variable (h_fresh : ∀ env other, fresh env → fresh other → env = other)

include h_fresh

/-- Some depth is enough for all lines of a transcript. -/
theorem Transcript.exists_depth {written : Output}
    (h_turns : Transcript fresh refusal turns state written) :
    ∃ depth, Covers (answerLine depth) fresh refusal turns := by
  suffices h_depth : ∃ depth, ∀ greater ≥ depth, Covers (answerLine greater) fresh refusal turns by
    obtain ⟨depth, h_covers⟩ := h_depth
    exact ⟨depth, h_covers depth (Nat.le_refl depth)⟩
  induction h_turns with
  | opening | openingFailed =>
    refine ⟨0, fun greater _ read turn rest _ _ _ h_none => ?_⟩
    simp at h_none
  | @line refusal turns state written turn answered next h_turns h_turn ih =>
    obtain ⟨depth, h_covers⟩ := ih
    -- the last line may need more than those before it
    have h_last : ∃ enough, ∀ greater ≥ enough, ∀ text,
        ReplCommand.ofLine? turn.line = some (.evaluate text) → state.isRunning = true →
        ∃ attempt, answerLine greater state.environment text = some attempt := by
      by_cases h_asked : trim turn.line ∉ ["", "%start", "%stop", "%reset"] ∧ state.isRunning = true
      · obtain ⟨message, left, h_answer, -⟩ := h_turn.exists_answers h_asked.1 h_asked.2
        obtain ⟨enough, h_enough⟩ := h_answer.exists_depth
        refine ⟨enough, fun greater h_greater text h_text _ => ?_⟩
        obtain ⟨rfl, -⟩ := trim_of_ofLine? h_text
        exact h_enough greater h_greater
      · exact ⟨0, fun _ _ text h_text h_running =>
          absurd ⟨(trim_of_ofLine? h_text).2, h_running⟩ h_asked⟩
    obtain ⟨enough, h_enough⟩ := h_last
    refine ⟨max depth enough, fun greater h_greater read turn' rest state' written' text h_all
      h_read h_text h_running => ?_⟩
    rcases List.eq_nil_or_concat rest with rfl | ⟨others, final, rfl⟩
    · rw [List.append_nil] at h_all
      obtain ⟨rfl, h_same⟩ := List.append_inj' h_all rfl
      cases h_same
      obtain ⟨-, rfl⟩ := h_turns.unique h_fresh h_read
      exact h_enough greater (Nat.max_le.mp h_greater).2 text h_text h_running
    · rw [List.concat_eq_append, ← List.append_assoc] at h_all
      exact h_covers greater (Nat.max_le.mp h_greater).1 read turn' others state' written' text
        (List.append_inj' h_all rfl).1 h_read h_text h_running

end Unique

/-- There is a way to the end from here. -/
def Dialogue.CanEnd (fresh : Environment → Prop) (d : Dialogue) : Prop :=
  ∃ last, Reaches fresh d last ∧ last.stage = .ended

theorem Dialogue.CanEnd.of_reaches {d next : Dialogue} (h_next : next.CanEnd fresh)
    (h_steps : Reaches fresh d next) : d.CanEnd fresh := by
  obtain ⟨last, h_last, h_ended⟩ := h_next
  exact ⟨last, h_steps.trans h_last, h_ended⟩

theorem Dialogue.CanEnd.of_step {d next : Dialogue} (h_next : next.CanEnd fresh)
    (h_step : Step fresh d next) : d.CanEnd fresh := h_next.of_reaches (.single h_step)

/-! ## Commands that come to an end -/

section Ends

variable (h_fresh : ∀ env other, fresh env → fresh other → env = other)
  (h_answer : ∀ env line attempt, answer env line = some attempt → Attempted env line attempt)

include h_fresh h_answer

theorem exists_ask {kernel : Kernel} {text : String} (h_free : IsFree fresh state ⟨kernel, .idle⟩)
    (h_attempt : state.isRunning = true → ∃ attempt, answer state.environment text = some attempt) :
    ∃ next answered, kernel.ask answer text = some (next, answered) := by
  have h_runs : kernel.isRunning = state.isRunning := h_free.isRunning
  by_cases h_running : kernel.isRunning
  · rw [h_running] at h_runs
    obtain ⟨attempt, h_attempt⟩ := h_attempt h_runs.symm
    have h_taken : kernel.submit? text = some { kernel with input := kernel.input.push text } :=
      if_pos h_running
    have h_step : Kernel.Step fresh Attempted ⟨kernel, .idle⟩ (.submitted text)
        ⟨{ kernel with input := kernel.input.push text }, .idle⟩ := .submit h_taken
    have h_asked := h_free.serves.ask h_free.rest h_step
    obtain ⟨settled, h_settle⟩ := (h_asked.isAnswerable h_fresh rfl h_attempt).exists_settle
    obtain ⟨h_asked', h_steady⟩ := h_asked.of_proceeds h_fresh rfl (settle_run h_answer .idle h_settle)
    obtain ⟨message, next, h_message⟩ :=
      h_asked'.exists_message h_runs.symm h_steady (isSettled_of_settle h_settle)
    exact ⟨next, message.output,
      by simp [Kernel.ask, submitAndSettle?, h_taken, h_settle, Kernel.receive, h_message]⟩
  · have h_refused : kernel.submit? text = none := if_neg h_running
    exact ⟨kernel, _, by simp only [Kernel.ask, submitAndSettle?, h_refused]; rfl⟩

theorem exists_obey {kernel : Kernel} {command : ReplCommand} (env : Environment)
    (refusal : Option String) (h_free : IsFree fresh state ⟨kernel, .idle⟩)
    (h_attempt : ∀ text, command = .evaluate text → state.isRunning = true →
      ∃ attempt, answer state.environment text = some attempt) :
    ∃ next answered, kernel.obey answer env command refusal = some (next, answered) := by
  cases command with
  | start =>
    obtain ⟨started, h_start⟩ := h_free.rest.exists_start answer env refusal
    exact ⟨started, _, by simp only [Kernel.obey, h_start]; rfl⟩
  | stop =>
    obtain ⟨stopped, h_stop⟩ := h_free.rest.exists_stop answer
    exact ⟨stopped, _, by simp only [Kernel.obey, h_stop]; rfl⟩
  | reset =>
    obtain ⟨renewed, h_reset⟩ := h_free.rest.exists_reset answer env refusal
    exact ⟨renewed, _, by simp only [Kernel.obey, h_reset]; rfl⟩
  | evaluate text => exact exists_ask h_fresh h_answer h_free (h_attempt text rfl)

variable (h_covers : Covers answer fresh refusal turns)

include h_covers

/-- A line is dealt with wherever the session is to read it. -/
theorem exists_replLine {kernel : Kernel} {turn : Turn} {input : List Turn} {output : Output}
    (env : Environment)
    (h_faithful :
      Dialogue.IsFaithful fresh refusal turns ⟨⟨kernel, .idle⟩, .reading, turn :: input, output⟩) :
    ∃ next answered, replLine answer env kernel turn.line turn.refusal = some (next, answered) := by
  obtain ⟨read, state, written, h_turns, h_text, -, h_free⟩ := h_faithful.read
  unfold replLine
  rcases h_command : ReplCommand.ofLine? turn.line with _ | command
  · exact ⟨kernel, ∅, rfl⟩
  · refine exists_obey h_fresh h_answer env turn.refusal h_free fun text h_evaluate h_running => ?_
    rw [h_evaluate] at h_command
    exact h_covers read turn input state written text (by simpa [Stage.turn?] using h_turns) h_text
      h_command h_running

omit h_answer h_covers in
theorem canEnd_of_stopping {system : System} {output : Output}
    (h_faithful : Dialogue.IsFaithful fresh refusal turns ⟨system, .stopping, [], output⟩) :
    Dialogue.CanEnd fresh ⟨system, .stopping, [], output⟩ := by
  obtain ⟨_, _, _, -, -, -, h_commanding, h_serves, h_rest⟩ := h_faithful.read
  obtain ⟨last, h_proceeds, h_done⟩ := h_rest.exists_done h_serves.halting h_commanding
  have h_waited := Dialogue.reaches_of_proceeds h_proceeds .stopping [] output
  obtain ⟨_, _, _, -, -, -, -, h_last, -⟩ := (h_waited.isFaithful h_fresh h_faithful).read
  rcases h_done with h_idle | h_restarting
  · exact ⟨_, h_waited.tail (.finish h_idle), rfl⟩
  · -- there is to be no worker
    have h_none := h_last.willRun
    rw [System.willRun, h_restarting] at h_none
    cases h_none

omit h_answer h_covers in
theorem canEnd_of_closing {system : System} {output : Output}
    (h_faithful : Dialogue.IsFaithful fresh refusal turns ⟨system, .closing, [], output⟩) :
    Dialogue.CanEnd fresh ⟨system, .closing, [], output⟩ := by
  obtain ⟨read, state, written, -, -, -, h_free⟩ := h_faithful.read
  obtain ⟨kernel, controller⟩ := system
  obtain rfl : controller = .idle := h_free.idle
  obtain ⟨next, h_step⟩ : ∃ next, Kernel.Step fresh Attempted ⟨kernel, .idle⟩ .stop next := by
    rcases h_running : kernel.isRunning
    · exact ⟨_, .stopStopped h_running⟩
    · exact ⟨_, .stop h_running⟩
  have h_close : Dialogue.Step fresh ⟨⟨kernel, .idle⟩, .closing, [], output⟩
      ⟨next, .stopping, [], output⟩ := .close h_step
  exact (canEnd_of_stopping h_fresh (h_close.isFaithful h_fresh h_faithful)).of_step h_close

theorem canEnd_of_reading {kernel : Kernel} {input : List Turn} {output : Output}
    (h_faithful : Dialogue.IsFaithful fresh refusal turns ⟨⟨kernel, .idle⟩, .reading, input, output⟩) :
    Dialogue.CanEnd fresh ⟨⟨kernel, .idle⟩, .reading, input, output⟩ := by
  induction input generalizing kernel output with
  | nil =>
    have h_step : Dialogue.Step fresh ⟨⟨kernel, .idle⟩, .reading, [], output⟩ _ := .endOfInput
    exact (canEnd_of_closing h_fresh (h_step.isFaithful h_fresh h_faithful)).of_step h_step
  | cons turn rest ih =>
    obtain ⟨read, state, written, -, h_text, -⟩ := h_faithful.read
    obtain ⟨env, h_env⟩ := h_text.exists_fresh
    obtain ⟨next, answered, h_line⟩ := exists_replLine h_fresh h_answer h_covers env h_faithful
    have h_steps := (reaches_of_replLine h_env h_answer h_line rest output).tail .prompt
    exact (ih (Dialogue.Reaches.isFaithful h_fresh h_steps h_faithful)).of_reaches h_steps

theorem canEnd_of_prompting {system : System} {input : List Turn} {output : Output}
    (h_faithful : Dialogue.IsFaithful fresh refusal turns ⟨system, .prompting, input, output⟩) :
    Dialogue.CanEnd fresh ⟨system, .prompting, input, output⟩ := by
  obtain ⟨read, state, written, -, -, -, h_free⟩ := h_faithful.read
  obtain ⟨kernel, controller⟩ := system
  obtain rfl : controller = .idle := h_free.idle
  have h_step : Dialogue.Step fresh ⟨⟨kernel, .idle⟩, .prompting, input, output⟩ _ := .prompt
  exact (canEnd_of_reading h_fresh h_answer h_covers (h_step.isFaithful h_fresh h_faithful)).of_step
    h_step

/-- It is enough to get to the next prompt. -/
theorem canEnd_of_reaches {d : Dialogue} {system : System} {input : List Turn} {output : Output}
    (h_faithful : d.IsFaithful fresh refusal turns)
    (h_steps : Dialogue.Reaches fresh d ⟨system, .prompting, input, output⟩) : d.CanEnd fresh :=
  (canEnd_of_prompting h_fresh h_answer h_covers
    (Dialogue.Reaches.isFaithful h_fresh h_steps h_faithful)).of_reaches h_steps

theorem canEnd_of_receiving {system : System} {turn : Turn} {input : List Turn} {output : Output}
    (h_faithful :
      Dialogue.IsFaithful fresh refusal turns ⟨system, .receiving turn, input, output⟩) :
    Dialogue.CanEnd fresh ⟨system, .receiving turn, input, output⟩ := by
  obtain ⟨read, state, written, h_turns, h_text, -, text, h_line, h_running, h_listening, h_asked⟩ :=
    h_faithful.read
  obtain ⟨kernel, controller⟩ := system
  have h_steady : controller.isSteady := isSteady_iff.mpr (.inr h_listening)
  obtain ⟨attempt, h_attempt⟩ := h_covers read turn input state written text h_turns h_text h_line
    h_running
  obtain ⟨settled, h_settle⟩ := (h_asked.isAnswerable h_fresh h_steady h_attempt).exists_settle
  have h_proceeds : Proceeds fresh Attempted ⟨kernel, controller⟩ ⟨settled, controller⟩ :=
    settle_run h_answer controller h_settle
  obtain ⟨h_asked', -⟩ := h_asked.of_proceeds h_fresh h_steady h_proceeds
  obtain ⟨message, rest, h_take⟩ :=
    h_asked'.exists_message h_running h_steady (isSettled_of_settle h_settle)
  have h_waited := Dialogue.reaches_of_proceeds h_proceeds (.receiving turn) input output
  -- the message is there, and a controller that doubts it sees it when it looks again
  obtain ⟨next, h_received⟩ : ∃ next, Dialogue.Reaches fresh
      ⟨⟨settled, controller⟩, .receiving turn, input, output⟩
      ⟨next, .prompting, input, output ++ message.output⟩ := by
    cases controller with
    | awaiting => exact ⟨_, .single (.answer (.take h_take))⟩
    | leaving => exact ⟨_, .single (.answer (.takeLast h_take))⟩
    | doubting =>
      have h_look : Kernel.Step fresh Attempted ⟨settled, .doubting⟩ .quiet ⟨settled, _⟩ := .look
      by_cases h_attended : settled.isAttended
      · rw [if_pos h_attended] at h_look
        exact ⟨_, .head (.kernel ⟨_, rfl, h_look⟩) (.single (.answer (.take h_take)))⟩
      · rw [if_neg h_attended] at h_look
        exact ⟨_, .head (.kernel ⟨_, rfl, h_look⟩) (.single (.answer (.takeLast h_take)))⟩
    | _ => cases h_listening
  exact canEnd_of_reaches h_fresh h_answer h_covers h_faithful (h_waited.trans h_received)

theorem canEnd_of_informing {system : System} {turn : Turn} {text : String} {input : List Turn}
    {output : Output}
    (h_faithful :
      Dialogue.IsFaithful fresh refusal turns ⟨system, .informing turn text, input, output⟩) :
    Dialogue.CanEnd fresh ⟨system, .informing turn text, input, output⟩ := by
  obtain ⟨_, _, _, -, h_text, -, _, h_informs⟩ := h_faithful.read
  obtain ⟨env, h_env⟩ := h_text.exists_fresh
  obtain ⟨⟨kernel, controller⟩, h_proceeds, h_done⟩ :=
    h_informs.rest.exists_done h_informs.serves.halting h_informs.commanding
  have h_waited := Dialogue.reaches_of_proceeds h_proceeds (.informing turn text) input output
  rcases h_done with rfl | rfl
  · exact canEnd_of_reaches h_fresh h_answer h_covers h_faithful (h_waited.tail (.inform rfl))
  obtain ⟨_, _, _, -, -, -, _, h_restarting⟩ := (h_waited.isFaithful h_fresh h_faithful).read
  have h_stopped : kernel.isRunning = false :=
    isRunning_eq_false_iff.mpr h_restarting.serves.manned.1
  rcases h_thread : turn.refusal with _ | reason
  · have h_restart : Kernel.Step fresh Attempted ⟨kernel, .restarting⟩ .restarted
        ⟨kernel.start env, .idle⟩ := .restart fun _ _ => h_env
    have h_restarted := h_waited.tail (.restarted h_restart h_thread)
    exact canEnd_of_reaches h_fresh h_answer h_covers h_faithful (h_restarted.tail (.inform rfl))
  · have h_restart : Kernel.Step fresh Attempted ⟨kernel, .restarting⟩ (.resetFailed reason)
        ⟨kernel.start env (some reason), .idle⟩ := .restartFailed h_stopped fun _ => h_env
    exact canEnd_of_reaches h_fresh h_answer h_covers h_faithful
      (h_waited.tail (.resetFailed h_restart h_thread))

/-- Wherever a session is, it can be brought to its end. -/
theorem Dialogue.IsFaithful.canEnd {d : Dialogue} (h_faithful : d.IsFaithful fresh refusal turns) :
    d.CanEnd fresh := by
  obtain ⟨system, stage, input, output⟩ := d
  obtain ⟨read, state, written, h_turns, h_text, -, h_fits⟩ := h_faithful.read
  cases stage with
  | prompting => exact canEnd_of_prompting h_fresh h_answer h_covers h_faithful
  | reading =>
    obtain ⟨kernel, controller⟩ := system
    obtain rfl : controller = .idle := h_fits.idle
    exact canEnd_of_reading h_fresh h_answer h_covers h_faithful
  | commanding turn command =>
    obtain ⟨h_command, h_free⟩ := h_fits
    obtain ⟨kernel, controller⟩ := system
    obtain rfl : controller = .idle := h_free.idle
    obtain ⟨env, h_env⟩ := h_text.exists_fresh
    obtain ⟨next, answered, h_obey⟩ := exists_obey h_fresh h_answer env turn.refusal h_free
      fun text h_evaluate h_running => h_covers read turn input state written text h_turns h_text
        (h_evaluate ▸ h_command) h_running
    exact canEnd_of_reaches h_fresh h_answer h_covers h_faithful
      (reaches_of_obey h_env h_answer h_obey input output)
  | informing turn text => exact canEnd_of_informing h_fresh h_answer h_covers h_faithful
  | submitted turn =>
    obtain ⟨text, -, -, h_idle, -⟩ := h_fits
    obtain ⟨kernel, controller⟩ := system
    cases h_idle
    have h_step : Step fresh ⟨⟨kernel, .idle⟩, .submitted turn, input, output⟩ _ := .receive .receive
    exact (canEnd_of_receiving h_fresh h_answer h_covers
      (h_step.isFaithful h_fresh h_faithful)).of_step h_step
  | receiving turn => exact canEnd_of_receiving h_fresh h_answer h_covers h_faithful
  | closing =>
    cases h_faithful.last rfl
    exact canEnd_of_closing h_fresh h_faithful
  | stopping =>
    cases h_faithful.last rfl
    exact canEnd_of_stopping h_fresh h_faithful
  | ended => exact ⟨_, .refl, rfl⟩

end Ends

/-! ## What is written -/

section Sessions

variable {refusals : Nat → Option String} {input : String} {output : Output}

theorem Dialogue.IsFaithful.writes {d : Dialogue}
    (h_faithful : d.IsFaithful fresh (refusals 0) (turnsOf input refusals))
    (h_ended : d.stage = .ended) : Writes fresh refusals input d.output := by
  obtain ⟨read, state, written, h_turns, h_text, h_output, -⟩ := h_faithful.read
  have h_read : turnsOf input refusals = read := by
    simpa [h_faithful.last (by rw [h_ended]; rfl), h_ended, Stage.turn?] using h_turns
  rw [h_ended] at h_output
  rw [← h_read] at h_text
  exact writes_iff.mpr ⟨state, written, h_text, h_output⟩

variable (h_fresh : ∀ env other, fresh env → fresh other → env = other)

include h_fresh

/-- A session gets to its end, if the interpreter does, and has written the same there. -/
theorem Dialogue.IsFaithful.exists_end {d : Dialogue}
    (h_faithful : d.IsFaithful fresh (refusals 0) (turnsOf input refusals))
    (h_writes : Writes fresh refusals input output) :
    ∃ last, Reaches fresh d last ∧ last.stage = .ended ∧ last.output = output := by
  obtain ⟨state, written, h_text, -⟩ := writes_iff.mp h_writes
  obtain ⟨depth, h_covers⟩ := h_text.exists_depth h_fresh
  obtain ⟨last, h_last, h_ended⟩ :=
    h_faithful.canEnd h_fresh (fun _ _ _ h_some => ⟨depth, h_some⟩) h_covers
  have h_end := Dialogue.Reaches.isFaithful h_fresh h_last h_faithful
  exact ⟨last, h_last, h_ended, (h_end.writes h_ended).unique h_fresh h_writes⟩

variable {env : Environment} (h_env : fresh env)

include h_env

end Sessions

/-! ## Every session -/

end PlotLisp
