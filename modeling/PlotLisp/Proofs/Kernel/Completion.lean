import PlotLisp.Proofs.Kernel.Service
import PlotLisp.Proofs.Kernel.Settled

/-!
# Commands that come to an end

Every command of a client with no more than one line under way comes to an end, if only the line has
an answer. This is shown of the commands of a controller that waits, and of a controller that has
been left in the middle of one.
-/

namespace PlotLisp

namespace Kernel

variable {fresh : Environment → Prop} {attempts : Environment → String → Attempt → Prop}
  {state : Respondent} {kernel : Kernel} {answer : Answerer}

/-! ## Nothing to answer -/

/-- What is to be answered is under way. -/
theorem linesToAnswer_isSuffix (kernel : Kernel) :
    kernel.linesToAnswer <:+ kernel.linesUnderWay := by
  unfold linesToAnswer linesUnderWay lineInHand?
  rcases kernel.worker with _ | ⟨env, phase⟩
  · exact List.suffix_rfl
  · cases phase with
    | publishing => exact List.suffix_append _ _
    | _ => exact List.suffix_rfl

theorem IsAtRest.isAnswerable (h_rest : kernel.IsAtRest) (answer : Answerer) :
    kernel.IsAnswerable answer := by
  intro worker h_worker
  have h_lines := kernel.linesToAnswer_isSuffix
  rw [h_rest.lines, List.suffix_nil] at h_lines
  rw [h_lines]
  trivial

theorem IsAtRest.start (h_rest : kernel.IsAtRest) (env : Environment) (refusal : Option String) :
    (kernel.start env refusal).IsAtRest := by
  rcases h_error : kernel.startError? refusal with _ | error
  · rw [start_of_startError?_eq_none env h_error]
    have h_kept : Conserves kernel .start (kernel.start env) := start_conserves env rfl rfl rfl
    exact (h_rest.of_conserves h_kept rfl).1
  · obtain ⟨h_stopped, reason, rfl, -⟩ := eq_of_startError?_eq_some h_error
    have h_kept : Conserves kernel (.startFailed reason) (kernel.start env (some reason)) :=
      startFailed_conserves env reason h_stopped rfl rfl rfl
    exact (h_rest.of_conserves h_kept rfl).1

theorem IsAtRest.of_proceeds {first last : System} (h_rest : first.kernel.IsAtRest)
    (h_steps : Proceeds fresh attempts first last) : last.kernel.IsAtRest := by
  induction h_steps with
  | refl => exact h_rest
  | tail _ h_step ih =>
    obtain ⟨event, h_unasked, h_step⟩ := h_step
    exact (ih.step h_step (submitted?_of_isUnasked h_unasked)).1

/-- A worker neither goes away nor touches the flag while it is waited for. -/
theorem isRunning_and_flag_of_settle {settled : Kernel}
    (h_settle : kernel.settle answer = some settled) :
    settled.isRunning = kernel.isRunning ∧ settled.flag = kernel.flag := by
  fun_induction settle answer kernel with
  | case1 kernel h_settled =>
    cases h_settle
    exact ⟨rfl, rfl⟩
  | case2 => cases h_settle
  | case3 kernel _ next h_step ih =>
    obtain ⟨h_running, h_flag⟩ := (advance_cases h_step).isRunning_and_flag
    obtain ⟨h_running', h_flag'⟩ := ih h_settle
    exact ⟨h_running'.trans h_running, h_flag'.trans h_flag⟩

/-- A worker that has been told to end is joined. -/
theorem IsAtRest.exists_join (h_rest : kernel.IsAtRest) (h_running : kernel.isRunning = true)
    (h_flag : kernel.flag = false) (answer : Answerer) :
    ∃ settled joined, kernel.settle answer = some settled ∧ settled.join? = some joined := by
  obtain ⟨settled, h_settle⟩ := (h_rest.isAnswerable answer).exists_settle
  have h_settled := isSettled_of_settle h_settle
  obtain ⟨h_running', h_flag'⟩ := isRunning_and_flag_of_settle h_settle
  rw [h_running] at h_running'
  rw [h_flag] at h_flag'
  obtain ⟨⟨env, phase⟩, h_worker⟩ := Option.isSome_iff_exists.mp h_running'
  -- a worker that is at rest waits for a line or has ended, and this one is not to wait
  cases phase with
  | ended => exact ⟨settled, _, h_settle, by rw [join?, h_worker]⟩
  | _ => simp [isSettled, h_worker, h_flag'] at h_settled

/-! ## Commands of a controller that waits -/

theorem IsAtRest.exists_start (h_rest : kernel.IsAtRest) (answer : Answerer) (env : Environment)
    (refusal : Option String) : ∃ started, kernel.startAndSettle answer env refusal = some started :=
  ((h_rest.start env refusal).isAnswerable answer).exists_settle

theorem IsAtRest.exists_stop (h_rest : kernel.IsAtRest) (answer : Answerer) :
    ∃ stopped, kernel.stop answer = some stopped := by
  by_cases h_running : kernel.isRunning
  · have h_lowered : kernel.lowerFlag.IsAtRest := ⟨h_rest.lines, h_rest.messages⟩
    obtain ⟨settled, joined, h_settle, h_join⟩ := h_lowered.exists_join h_running rfl answer
    exact ⟨joined, by rw [stop, if_pos h_running, h_settle, Option.bind_some, h_join]⟩
  · exact ⟨kernel, by rw [stop, if_neg h_running]⟩

theorem IsAtRest.stop {stopped : Kernel} (h_rest : kernel.IsAtRest)
    (h_stop : kernel.stop answer = some stopped) : stopped.IsAtRest := by
  obtain ⟨middle, h_step, h_proceeds⟩ :
      ∃ middle, Step (fun _ => True) (fun _ _ _ => True) ⟨kernel, .idle⟩ .stop middle ∧
        Proceeds (fun _ => True) (fun _ _ _ => True) middle ⟨stopped, .idle⟩ :=
    stop_run (fun _ _ _ _ => trivial) h_stop
  obtain ⟨h_middle, -⟩ := IsAtRest.step h_rest h_step rfl
  exact h_middle.of_proceeds h_proceeds

theorem IsAtRest.exists_reset (h_rest : kernel.IsAtRest) (answer : Answerer) (env : Environment)
    (refusal : Option String) : ∃ renewed, kernel.reset answer env refusal = some renewed := by
  obtain ⟨stopped, h_stop⟩ := h_rest.exists_stop answer
  have h_stopped := h_rest.stop h_stop
  have h_cleared : stopped.discard.IsAtRest := ⟨h_stopped.lines, h_stopped.messages⟩
  by_cases h_running : kernel.isRunning
  · obtain ⟨started, h_start⟩ := h_cleared.exists_start answer env refusal
    exact ⟨started, by simp [reset, h_stop, h_running, h_start]⟩
  · exact ⟨stopped.discard, by simp [reset, h_stop, h_running]⟩

/-! ## A controller in the middle of a command -/

theorem exists_done_of_clearing (kernel : Kernel) (wasRunning : Bool) :
    ∃ last, Proceeds fresh attempts ⟨kernel, .clearing wasRunning⟩ last ∧
      (last.controller = .idle ∨ last.controller = .restarting) := by
  refine ⟨_, Step.clear.proceeds rfl, ?_⟩
  cases wasRunning
  · exact .inl rfl
  · exact .inr rfl

/-- The controller gets done with its command, or to where it is to start a worker again, unless it
waits for a message. -/
theorem IsAtRest.exists_done {system : System} (h_rest : system.kernel.IsAtRest)
    (h_halting : Halting system) (h_commanding : system.controller.isListening = false) :
    ∃ last, Proceeds fresh attempts system last ∧
      (last.controller = .idle ∨ last.controller = .restarting) := by
  obtain ⟨kernel, controller⟩ := system
  cases controller with
  | idle => exact ⟨_, .refl, .inl rfl⟩
  | restarting => exact ⟨_, .refl, .inr rfl⟩
  | stopping =>
    obtain ⟨settled, joined, h_settle, h_join⟩ :=
      IsAtRest.exists_join h_rest h_halting.1 h_halting.2 fun _ _ => none
    have h_waited : Proceeds fresh attempts ⟨kernel, .stopping⟩ ⟨settled, .stopping⟩ :=
      settle_run nofun .stopping h_settle
    exact ⟨_, h_waited.trans ((Step.joinStop h_join).proceeds rfl), .inl rfl⟩
  | resetting =>
    obtain ⟨settled, joined, h_settle, h_join⟩ :=
      IsAtRest.exists_join h_rest h_halting.1 h_halting.2 fun _ _ => none
    have h_waited : Proceeds fresh attempts ⟨kernel, .resetting⟩ ⟨settled, .resetting⟩ :=
      settle_run nofun .resetting h_settle
    have h_joined : Proceeds fresh attempts ⟨settled, .resetting⟩ ⟨joined, .clearing true⟩ :=
      (Step.joinReset h_join).proceeds rfl
    obtain ⟨last, h_last, h_done⟩ : ∃ last,
        Proceeds fresh attempts ⟨joined, .clearing true⟩ last ∧
          (last.controller = .idle ∨ last.controller = .restarting) :=
      exists_done_of_clearing joined true
    exact ⟨last, h_waited.trans (h_joined.trans h_last), h_done⟩
  | clearing wasRunning => exact exists_done_of_clearing kernel wasRunning
  | awaiting | doubting | leaving => cases h_commanding

/-! ## A line that is asked for -/

section Lines

variable (h_fresh : ∀ env other, fresh env → fresh other → env = other)

include h_fresh

/-- The worker meets the line where the interpreter would. -/
theorem Asked.isAnswerable {line : String} {attempt : Attempt} {controller : Controller}
    (h_asked : Asked fresh state line ⟨kernel, controller⟩) (h_steady : controller.isSteady)
    (h_attempt : answer state.environment line = some attempt) : kernel.IsAnswerable answer := by
  rintro ⟨env, phase⟩ h_worker
  have h_suffix := kernel.linesToAnswer_isSuffix
  cases h_asked with
  | answered _ _ h_lines =>
    rw [h_lines, List.suffix_nil] at h_suffix
    rw [h_suffix]
    trivial
  | waiting h_serves h_lines =>
    obtain ⟨lines, h_follows, h_env⟩ := h_serves.follows
    rw [keeps_of_isSteady lines h_steady] at h_env
    rw [h_lines, List.suffix_cons_iff, List.suffix_nil] at h_suffix
    rcases h_suffix with h_one | h_none
    · rw [h_one]
      have h_lines' : Interpreted fresh lines env := by
        cases phase with
        | publishing =>
          -- the only line is in hand, and no other is to be answered
          simp [linesUnderWay, linesToAnswer, lineInHand?, h_worker] at h_lines h_one
          simp [h_lines] at h_one
        | _ => simpa only [Follows, h_worker] using h_follows
      cases h_lines'.unique h_fresh h_env
      exact ⟨attempt, h_attempt, trivial⟩
    · rw [h_none]
      trivial

theorem Asked.of_proceeds {line : String} {first last : System}
    (h_asked : Asked fresh state line first) (h_steady : first.controller.isSteady)
    (h_steps : Proceeds fresh Attempted first last) :
    Asked fresh state line last ∧ last.controller.isSteady := by
  induction h_steps with
  | refl => exact ⟨h_asked, h_steady⟩
  | tail _ h_step ih =>
    obtain ⟨h_middle, h_steady'⟩ := ih
    have h_last := h_middle.proceed h_fresh h_steady' h_step
    obtain ⟨event, h_unasked, h_step⟩ := h_step
    exact ⟨h_last, h_step.isSteady h_unasked h_steady'⟩

omit h_fresh in
/-- A worker that has nothing left to do has handed over the message. -/
theorem Asked.exists_message {line : String} {controller : Controller}
    (h_asked : Asked fresh state line ⟨kernel, controller⟩) (h_running : state.isRunning = true)
    (h_steady : controller.isSteady) (h_settled : kernel.isSettled) :
    ∃ message rest, kernel.takeMessage? = some (message, rest) := by
  cases h_asked with
  | answered _ _ _ h_messages =>
    rw [takeMessage?, Queue.pop?, h_messages]
    exact ⟨_, _, rfl⟩
  | waiting h_serves h_lines =>
    exfalso
    have h_runs := h_serves.willRun
    rw [willRun_of_isSteady h_steady, h_running] at h_runs
    obtain ⟨⟨env, phase⟩, h_worker⟩ : ∃ worker, kernel.worker = some worker :=
      Option.isSome_iff_exists.mp h_runs
    have h_phase : phase ≠ .ended := by
      have h_manned := h_serves.manned
      cases controller with
      | idle | awaiting | doubting => exact (h_manned _ h_worker).2
      | leaving =>
        rw [Manned, h_worker] at h_manned
        cases h_manned
      | _ => cases h_steady
    -- it waits for a line, and there is none
    cases phase with
    | ended => exact h_phase rfl
    | polling =>
      simp [isSettled, h_worker, Queue.isEmpty] at h_settled
      simp [linesUnderWay, lineInHand?, h_worker, h_settled] at h_lines
    | _ => simp [isSettled, h_worker] at h_settled

end Lines

end Kernel

end PlotLisp
