import PlotLisp.Proofs.Host.Transcript
import PlotLisp.Proofs.Kernel.Replay

/-!
# A kernel at the service of one client

What a kernel comes to for a controller that has no more than one line under way. Once it is done with
what it was told, it runs or not, and goes on with an environment, as a `Respondent` does.

* `Serves` says so. It is about what the kernel will come to, and so it stays as it is while the
  kernel is busy, and changes where the controller asks for something.
* `IsAtRest` says that nothing is under way, and `Asked` that one line is, or its message.
-/

namespace PlotLisp

namespace Kernel

/-! ## What a kernel comes to -/

/-- Whether there will be a worker once the controller is done, if it gets the thread that it asks for. -/
def System.willRun (system : System) : Bool :=
  match system.controller with
  | .stopping => false
  | .resetting | .restarting => true
  | .clearing wasRunning => wasRunning
  | _ => system.kernel.isRunning

namespace Controller

/-- The lines that will count once the controller is done. -/
def keeps (lines : List String) : Controller → List String
  | .resetting | .clearing _ => []
  | _ => lines

/-- The controller waits for a message. -/
def isListening : Controller → Bool
  | .awaiting | .doubting | .leaving => true
  | _ => false

/-- The controller is going to start a worker again. -/
def willRestart : Controller → Bool
  | .resetting | .clearing true | .restarting => true
  | _ => false

/-- The controller is not in the middle of a command to the worker. -/
def isSteady : Controller → Bool
  | .idle => true
  | controller => controller.isListening

end Controller

/-- Where a controller waits for a worker to end, there is one that has been told to. -/
def Halting (system : System) : Prop :=
  match system.controller with
  | .stopping | .resetting => system.kernel.isRunning = true ∧ system.kernel.flag = false
  | _ => True

/-- The kernel will come to where the interpreter is. -/
structure Serves (fresh : Environment → Prop) (state : Respondent) (system : System) : Prop where
  manned : Manned system
  halting : Halting system
  willRun : system.willRun = state.isRunning
  follows : ∃ lines, Follows fresh lines system.kernel ∧
    Interpreted fresh (system.controller.keeps lines) state.environment

/-- The lines that have no message yet. -/
def linesUnderWay (kernel : Kernel) : List String :=
  kernel.lineInHand?.toList ++ kernel.input.items

/-- No line is to be answered, and no message is to be received. -/
structure IsAtRest (kernel : Kernel) : Prop where
  lines : kernel.linesUnderWay = []
  messages : kernel.output.items = []

/-- The controller does nothing, and nothing is under way. -/
structure IsFree (fresh : Environment → Prop) (state : Respondent) (system : System) : Prop where
  idle : system.controller = .idle
  serves : Serves fresh state system
  rest : system.kernel.IsAtRest

/-- A line has been submitted, and its message has not been received: either the line is under way,
and the interpreter has not been shown it, or it has its message. -/
inductive Asked (fresh : Environment → Prop) (state : Respondent) (line : String) (system : System) :
    Prop where
  | waiting (h_serves : Serves fresh state system) (h_lines : system.kernel.linesUnderWay = [line])
      (h_messages : system.kernel.output.items = [])
  | answered {message left} (h_answer : Answers state.environment line message left)
      (h_serves : Serves fresh { state with environment := left } system)
      (h_lines : system.kernel.linesUnderWay = [])
      (h_messages : system.kernel.output.items = [message])

/-! ## Steps -/

section Steps

variable {fresh : Environment → Prop} {attempts : Environment → String → Attempt → Prop}
  {first last : System} {event : Event}

theorem willRun_of_isSteady (h_steady : first.controller.isSteady) :
    first.willRun = first.kernel.isRunning := by
  obtain ⟨kernel, controller⟩ := first
  cases controller <;> first | rfl | cases h_steady

theorem IsFree.isRunning {state : Respondent} (h_free : IsFree fresh state first) :
    first.kernel.isRunning = state.isRunning := by
  rw [← h_free.serves.willRun, willRun_of_isSteady (by rw [h_free.idle]; rfl)]

theorem keeps_of_isSteady {controller : Controller} (lines : List String)
    (h_steady : controller.isSteady) : controller.keeps lines = lines := by
  cases controller <;> first | rfl | cases h_steady

theorem isRunning_start (env : Environment) (kernel : Kernel) : (kernel.start env).isRunning := by
  rcases h_worker : kernel.worker with _ | worker
  · rw [start_of_worker_eq_none env h_worker]
    rfl
  · rw [start_of_isRunning env (by rw [isRunning, h_worker]; rfl), isRunning, h_worker]
    rfl

/-- A worker does not go away, and does not touch the flag. -/
theorem Advance.isRunning_and_flag {answer : Answerer} {order : BindingOrder} {kernel next : Kernel}
    (h_step : Advance answer order kernel next) :
    next.isRunning = kernel.isRunning ∧ next.flag = kernel.flag := by
  cases h_step with
  | goOn h_worker | finish h_worker | take h_worker | timeOut h_worker | answer h_worker
  | publish h_worker | handOver h_worker =>
    simp only [isRunning, h_worker, Option.isSome_some, and_self]

/-- What is asked of a kernel is no doing of the worker. -/
theorem ne_workEvent (h_asked : event.isUnasked = false) (kernel : Kernel) :
    event ≠ kernel.workEvent := by
  rintro rfl
  rw [isUnasked_workEvent] at h_asked
  cases h_asked

theorem submitted?_of_isUnasked (h_unasked : event.isUnasked) : event.submitted? = none := by
  cases event <;> first | rfl | cases h_unasked

theorem Step.halting (h_step : Step fresh attempts first event last) (h_halting : Halting first) :
    Halting last := by
  cases h_step with
  | stop h_running | reset h_running => exact ⟨h_running, rfl⟩
  | @clear kernel wasRunning => cases wasRunning <;> trivial
  | @look kernel => cases h_attended : kernel.isAttended <;> trivial
  | @work kernel next controller _ _ _ _ h_step =>
    obtain ⟨h_running, h_flag⟩ := (advance_cases h_step).isRunning_and_flag
    cases controller with
    | stopping | resetting => exact ⟨h_running.trans h_halting.1, h_flag.trans h_halting.2⟩
    | _ => trivial
  | _ => trivial

/-- What the kernel does unasked does not change what it was told. -/
theorem Step.willRun (h_step : Step fresh attempts first event last) (h_unasked : event.isUnasked)
    (h_manned : Manned first) : last.willRun = first.willRun := by
  cases h_step with
  | joinStop h_join | joinReset h_join =>
    obtain ⟨env, -, rfl⟩ := eq_of_join? h_join
    rfl
  | @clear kernel wasRunning =>
    cases wasRunning
    · exact isRunning_eq_false_iff.mpr h_manned
    · rfl
  | waitInVain => rfl
  | @look kernel => cases h_attended : kernel.isAttended <;> rfl
  | @work kernel next controller _ _ _ _ h_step =>
    cases controller <;> first | rfl | exact (advance_cases h_step).isRunning_and_flag.1
  | _ => cases h_unasked

theorem Step.idle (h_step : Step fresh attempts first event last) (h_unasked : event.isUnasked)
    (h_idle : first.controller = .idle) : last.controller = .idle := by
  cases h_step with
  | work => exact h_idle
  | joinStop | joinReset | clear | waitInVain | look => cases h_idle
  | _ => cases h_unasked

theorem Step.isListening (h_step : Step fresh attempts first event last)
    (h_unasked : event.isUnasked) :
    last.controller.isListening = first.controller.isListening := by
  cases h_step with
  | joinStop | joinReset | waitInVain | work => rfl
  | @clear kernel wasRunning => cases wasRunning <;> rfl
  | @look kernel => cases h_attended : kernel.isAttended <;> rfl
  | _ => cases h_unasked

theorem Step.willRestart (h_step : Step fresh attempts first event last)
    (h_unasked : event.isUnasked) :
    last.controller.willRestart = first.controller.willRestart := by
  cases h_step with
  | joinStop | joinReset | waitInVain | work => rfl
  | @clear kernel wasRunning => cases wasRunning <;> rfl
  | @look kernel => cases h_attended : kernel.isAttended <;> rfl
  | _ => cases h_unasked

theorem isSteady_iff {controller : Controller} :
    controller.isSteady ↔ controller = .idle ∨ controller.isListening := by
  cases controller <;> simp [Controller.isSteady, Controller.isListening]

theorem Step.isSteady (h_step : Step fresh attempts first event last) (h_unasked : event.isUnasked)
    (h_steady : first.controller.isSteady) : last.controller.isSteady := by
  rw [isSteady_iff] at h_steady ⊢
  rw [h_step.isListening h_unasked]
  exact h_steady.imp_left (h_step.idle h_unasked)

/-- Unless a line is finished, the lines that will count stay the same. -/
theorem Step.keeps (h_step : Step fresh attempts first event last) (h_unasked : event.isUnasked)
    (h_finished : event.finished? = none) (lines : List String) :
    last.controller.keeps (event.remember Event.isLoss lines) = first.controller.keeps lines := by
  cases h_step with
  | joinStop | joinReset | waitInVain => rfl
  | @clear kernel wasRunning => cases wasRunning <;> rfl
  | @look kernel => cases h_attended : kernel.isAttended <;> rfl
  | @work kernel =>
    unfold workEvent at h_finished ⊢
    split at h_finished
    · cases h_finished
    · rfl
  | _ => cases h_unasked

end Steps

/-! ## What stays and what changes -/

section Service

variable {fresh : Environment → Prop} {state : Respondent} {first last : System} {event : Event}

/-- A step that leaves a new promise. -/
theorem Serves.of_step (next : Respondent) (h_serves : Serves fresh state first)
    (h_step : Step fresh Attempted first event last) (h_runs : last.willRun = next.isRunning)
    (h_env : ∀ lines, Interpreted fresh (first.controller.keeps lines) state.environment →
      Interpreted fresh (last.controller.keeps (event.remember Event.isLoss lines)) next.environment) :
    Serves fresh next last where
  manned := h_step.manned h_serves.manned
  halting := h_step.halting h_serves.halting
  willRun := h_runs
  follows := by
    obtain ⟨lines, h_follows, h_lines⟩ := h_serves.follows
    exact ⟨_, h_step.follows h_serves.manned h_follows, h_env lines h_lines⟩

theorem Serves.proceed (h_serves : Serves fresh state first)
    (h_step : Step fresh Attempted first event last) (h_unasked : event.isUnasked)
    (h_finished : event.finished? = none) : Serves fresh state last := by
  refine h_serves.of_step state h_step
    ((h_step.willRun h_unasked h_serves.manned).trans h_serves.willRun) fun lines h_lines => ?_
  rwa [h_step.keeps h_unasked h_finished lines]

/-- A line that is finished has been answered as the interpreter would. -/
theorem Serves.finish (h_fresh : ∀ env other, fresh env → fresh other → env = other)
    {line : String} {message : Message} {left : Environment} (h_serves : Serves fresh state first)
    (h_steady : first.controller.isSteady)
    (h_step : Step fresh Attempted first (.finished line message left) last) :
    Answers state.environment line message left ∧
      Serves fresh { state with environment := left } last := by
  obtain ⟨lines, h_follows, h_env⟩ := h_serves.follows
  have h_follows' := h_follows
  simp only [Follows, h_step.worker_of_finished] at h_follows'
  obtain ⟨env, h_lines, h_answer⟩ := h_follows'
  rw [keeps_of_isSteady lines h_steady] at h_env
  cases h_lines.unique h_fresh h_env
  refine ⟨h_answer, h_step.manned h_serves.manned, h_step.halting h_serves.halting, ?_, ?_⟩
  · exact (h_step.willRun rfl h_serves.manned).trans h_serves.willRun
  · refine ⟨lines ++ [line], h_step.follows h_serves.manned h_follows, ?_⟩
    rw [keeps_of_isSteady _ (h_step.isSteady rfl h_steady)]
    exact h_lines.line h_answer

theorem Step.eq_of_start (h_step : Step fresh Attempted first .start last) :
    ∃ env, (first.kernel.worker = none → first.kernel.snapshot = none → fresh env) ∧
      first.controller = .idle ∧ last = ⟨first.kernel.start env, .idle⟩ := by
  generalize h_event : Event.start = event at h_step
  cases h_step with
  | start h_fresh => exact ⟨_, h_fresh, rfl, rfl⟩
  | work => exact absurd h_event (ne_workEvent rfl _)
  | _ => cases h_event

theorem Serves.start (h_serves : Serves fresh state first)
    (h_step : Step fresh Attempted first .start last) :
    last.controller = .idle ∧ Serves fresh { state with isRunning := true } last := by
  obtain ⟨env, -, h_idle, h_last⟩ := h_step.eq_of_start
  refine ⟨by rw [h_last], h_serves.of_step _ h_step ?_ fun lines h_lines => ?_⟩
  · rw [h_last]
    exact isRunning_start env _
  · rw [h_last]
    rwa [h_idle] at h_lines

theorem Step.eq_of_startFailed {reason : String}
    (h_step : Step fresh Attempted first (.startFailed reason) last) :
    ∃ env, (first.kernel.snapshot = none → fresh env) ∧ first.controller = .idle ∧
      first.kernel.isRunning = false ∧ last = ⟨first.kernel.start env (some reason), .idle⟩ := by
  generalize h_event : Event.startFailed reason = event at h_step
  cases h_step with
  | startFailed h_stopped h_fresh =>
    cases h_event
    exact ⟨_, h_fresh, rfl, h_stopped, rfl⟩
  | work => exact absurd h_event (ne_workEvent rfl _)
  | _ => cases h_event

/-- A start that fails has found no worker, and leaves nothing to go on with but a fresh environment. -/
theorem Serves.startFailed {reason : String} {env : Environment} (h_env : fresh env)
    (h_serves : Serves fresh state first)
    (h_step : Step fresh Attempted first (.startFailed reason) last) :
    state.isRunning = false ∧ last.controller = .idle ∧ Serves fresh ⟨false, env⟩ last := by
  obtain ⟨made, -, h_idle, h_stopped, h_last⟩ := h_step.eq_of_startFailed
  have h_runs := h_serves.willRun
  rw [willRun_of_isSteady (by rw [h_idle]; rfl), h_stopped] at h_runs
  refine ⟨h_runs.symm, by rw [h_last],
    h_serves.of_step ⟨false, env⟩ h_step ?_ fun _ _ => ?_⟩ <;> rw [h_last]
  · show (first.kernel.start made (some reason)).isRunning = false
    rw [start_of_refused made reason h_stopped]
    exact h_stopped
  · exact .fresh h_env

/-- A reset that gets its thread is done. -/
theorem Serves.restarted (h_serves : Serves fresh state first)
    (h_step : Step fresh Attempted first .restarted last) :
    last.controller = .idle ∧ Serves fresh state last := by
  have h_runs := h_serves.willRun
  have h_next := h_serves.of_step state h_step
  generalize h_event : Event.restarted = event at h_step h_next
  cases h_step with
  | restart =>
    cases h_event
    exact ⟨rfl, h_next ((isRunning_start _ _).trans h_runs) fun _ h_lines => h_lines⟩
  | work => exact absurd h_event (ne_workEvent rfl _)
  | _ => cases h_event

/-- A reset that gets none leaves the kernel stopped. -/
theorem Serves.resetFailed {reason : String} (h_serves : Serves fresh state first)
    (h_step : Step fresh Attempted first (.resetFailed reason) last) :
    first.controller.willRestart ∧ last.controller = .idle ∧
      Serves fresh { state with isRunning := false } last := by
  have h_next := h_serves.of_step { state with isRunning := false } h_step
  generalize h_event : Event.resetFailed reason = event at h_step h_next
  cases h_step with
  | @restartFailed kernel other reason' h_stopped =>
    cases h_event
    refine ⟨rfl, rfl, h_next ?_ fun _ h_lines => h_lines⟩
    show (kernel.start other (some reason)).isRunning = false
    rw [start_of_refused other reason h_stopped]
    exact h_stopped
  | work => exact absurd h_event (ne_workEvent rfl _)
  | _ => cases h_event

theorem Serves.stop (h_serves : Serves fresh state first)
    (h_step : Step fresh Attempted first .stop last) :
    last.controller.isListening = false ∧ last.controller.willRestart = false ∧
      Serves fresh { state with isRunning := false } last := by
  have h_next := h_serves.of_step { state with isRunning := false } h_step
  generalize h_event : Event.stop = event at h_step h_next
  cases h_step with
  | stop => exact ⟨rfl, rfl, h_next rfl fun _ h_lines => h_lines⟩
  | stopStopped h_stopped => exact ⟨rfl, rfl, h_next h_stopped fun _ h_lines => h_lines⟩
  | work => exact absurd h_event (ne_workEvent rfl _)
  | _ => cases h_event

/-- A reset is to start a worker again if there was one. -/
theorem Serves.reset {env : Environment} (h_env : fresh env) (h_serves : Serves fresh state first)
    (h_step : Step fresh Attempted first .reset last) :
    last.controller.isListening = false ∧ last.controller.willRestart = state.isRunning ∧
      Serves fresh { state with environment := env } last := by
  have h_runs := h_serves.willRun
  have h_next := h_serves.of_step { state with environment := env } h_step
  generalize h_event : Event.reset = event at h_step h_next
  cases h_step with
  | reset h_running =>
    have h_same := h_running.symm.trans h_runs
    exact ⟨rfl, h_same, h_next h_same fun _ _ => .fresh h_env⟩
  | resetStopped h_stopped =>
    have h_same := h_stopped.symm.trans h_runs
    exact ⟨rfl, h_same, h_next h_same fun _ _ => .fresh h_env⟩
  | work => exact absurd h_event (ne_workEvent rfl _)
  | _ => cases h_event

/-- A line is taken where the kernel runs, and changes nothing yet. -/
theorem Serves.submit {line : String} (h_serves : Serves fresh state first)
    (h_step : Step fresh Attempted first (.submitted line) last) :
    state.isRunning = true ∧ last.controller = .idle ∧ Serves fresh state last := by
  have h_runs := h_serves.willRun
  have h_next := h_serves.of_step state h_step
  generalize h_event : Event.submitted line = event at h_step h_next
  cases h_step with
  | submit h_submit =>
    obtain ⟨h_running, rfl⟩ := eq_of_submit? h_submit
    exact ⟨h_runs.symm.trans h_running, rfl, h_next h_runs fun lines h_lines => h_lines⟩
  | work => exact absurd h_event (ne_workEvent rfl _)
  | _ => cases h_event

theorem Serves.refuse {line : String} (h_serves : Serves fresh state first)
    (h_step : Step fresh Attempted first (.refused line) last) :
    state.isRunning = false ∧ last = first ∧ last.controller = .idle := by
  have h_runs := h_serves.willRun
  generalize h_event : Event.refused line = event at h_step
  cases h_step with
  | @refuse kernel line h_submit =>
    have h_stopped : kernel.isRunning = false := by
      by_contra h_running
      rw [submit?, if_pos (Bool.not_eq_false _ ▸ h_running)] at h_submit
      cases h_submit
    exact ⟨h_runs.symm.trans h_stopped, rfl, rfl⟩
  | work => exact absurd h_event (ne_workEvent rfl _)
  | _ => cases h_event

theorem Step.eq_of_receive (h_step : Step fresh Attempted first .receive last) :
    first.controller = .idle ∧ last = ⟨first.kernel, .awaiting⟩ := by
  generalize h_event : Event.receive = event at h_step
  cases h_step with
  | receive => exact ⟨rfl, rfl⟩
  | work => exact absurd h_event (ne_workEvent rfl _)
  | _ => cases h_event

/-- A message is received, and nothing else changes. -/
theorem Serves.received {message : Message} (h_serves : Serves fresh state first)
    (h_step : Step fresh Attempted first (.received message) last) :
    last.controller = .idle ∧ Serves fresh state last := by
  have h_runs := h_serves.willRun
  have h_next := h_serves.of_step state h_step
  generalize h_event : Event.received message = event at h_step h_next
  cases h_step with
  | tryReceive h_take | take h_take | takeLast h_take =>
    obtain ⟨rest, -, rfl⟩ := eq_of_takeMessage? h_take
    exact ⟨rfl, h_next h_runs fun lines h_lines => h_lines⟩
  | work => exact absurd h_event (ne_workEvent rfl _)
  | _ => cases h_event

/-! ## One line at a time -/

/-- While nothing is under way, nothing gets under way unless a line is submitted. -/
theorem IsAtRest.of_conserves {kernel next : Kernel} (h_rest : kernel.IsAtRest)
    (h_kept : Conserves kernel event next) (h_submitted : event.submitted? = none) :
    next.IsAtRest ∧ event.finished? = none := by
  obtain ⟨h_lines, h_messages⟩ := h_kept
  rw [← linesUnderWay, h_rest.lines, h_submitted, List.append_assoc, ← linesUnderWay] at h_lines
  obtain ⟨h_none, h_last⟩ := List.nil_eq_append_iff.mp h_lines
  have h_finished : event.finished? = none :=
    Option.toList_eq_nil_iff.mp (List.map_eq_nil_iff.mp h_none)
  rw [h_rest.messages, h_finished] at h_messages
  exact ⟨⟨h_last, (List.nil_eq_append_iff.mp h_messages).2⟩, h_finished⟩

theorem IsAtRest.step {attempts : Environment → String → Attempt → Prop}
    (h_rest : first.kernel.IsAtRest) (h_step : Step fresh attempts first event last)
    (h_submitted : event.submitted? = none) :
    last.kernel.IsAtRest ∧ event.finished? = none :=
  h_rest.of_conserves h_step.conserves h_submitted

theorem StepsUnasked.isListening (h_step : StepsUnasked fresh Attempted first last) :
    last.controller.isListening = first.controller.isListening := by
  obtain ⟨event, h_unasked, h_step⟩ := h_step
  exact h_step.isListening h_unasked

/-- A promise is kept while nothing is asked. -/
theorem IsAtRest.proceed (h_rest : first.kernel.IsAtRest) (h_serves : Serves fresh state first)
    (h_step : StepsUnasked fresh Attempted first last) :
    Serves fresh state last ∧ last.kernel.IsAtRest := by
  obtain ⟨event, h_unasked, h_step⟩ := h_step
  obtain ⟨h_last, h_finished⟩ := h_rest.step h_step (submitted?_of_isUnasked h_unasked)
  exact ⟨h_serves.proceed h_step h_unasked h_finished, h_last⟩

theorem IsFree.proceed (h_free : IsFree fresh state first)
    (h_step : StepsUnasked fresh Attempted first last) : IsFree fresh state last := by
  obtain ⟨h_serves, h_rest⟩ := h_free.rest.proceed h_free.serves h_step
  obtain ⟨event, h_unasked, h_step⟩ := h_step
  exact ⟨h_step.idle h_unasked h_free.idle, h_serves, h_rest⟩

theorem Serves.ask {line : String} (h_serves : Serves fresh state first)
    (h_rest : first.kernel.IsAtRest) (h_step : Step fresh Attempted first (.submitted line) last) :
    Asked fresh state line last := by
  obtain ⟨-, -, h_last⟩ := h_serves.submit h_step
  obtain ⟨h_lines, h_messages⟩ := h_step.conserves
  rw [← linesUnderWay, h_rest.lines] at h_lines
  rw [h_rest.messages] at h_messages
  exact .waiting h_last h_lines.symm h_messages.symm

/-- A line that has been submitted stays the only one, and its message too. -/
theorem Asked.proceed (h_fresh : ∀ env other, fresh env → fresh other → env = other) {line : String}
    (h_asked : Asked fresh state line first) (h_steady : first.controller.isSteady)
    (h_step : StepsUnasked fresh Attempted first last) : Asked fresh state line last := by
  obtain ⟨event, h_unasked, h_step⟩ := h_step
  obtain ⟨h_kept, h_passed⟩ := h_step.conserves
  have h_received : event.received? = none := by cases event <;> first | rfl | cases h_unasked
  rw [← linesUnderWay, submitted?_of_isUnasked h_unasked, List.append_assoc, ← linesUnderWay] at h_kept
  rw [h_received] at h_passed
  cases h_asked with
  | waiting h_serves h_lines h_messages =>
    rw [h_lines] at h_kept
    rw [h_messages] at h_passed
    rcases h_finished : event.finished? with _ | ⟨finished, message⟩
    · rw [h_finished] at h_kept h_passed
      exact .waiting (h_serves.proceed h_step h_unasked h_finished) h_kept.symm h_passed.symm
    · -- the line that is finished is the one that was submitted
      rw [h_finished] at h_kept h_passed
      obtain ⟨left, rfl⟩ : ∃ left, event = .finished finished message left := by
        cases event <;> cases h_finished
        exact ⟨_, rfl⟩
      obtain ⟨rfl, h_none⟩ := List.cons_eq_cons.mp h_kept
      obtain ⟨h_answer, h_last⟩ := h_serves.finish h_fresh h_steady h_step
      exact .answered h_answer h_last h_none.symm h_passed.symm
  | answered h_answer h_serves h_lines h_messages =>
    rw [h_lines] at h_kept
    rw [h_messages] at h_passed
    have h_finished : event.finished? = none := by
      rcases h_some : event.finished? with _ | ⟨finished, message⟩
      · rfl
      · rw [h_some] at h_kept
        cases h_kept
    rw [h_finished] at h_kept h_passed
    exact .answered h_answer (h_serves.proceed h_step h_unasked h_finished) h_kept.symm h_passed.symm

theorem Asked.receive {line : String} (h_asked : Asked fresh state line first)
    (h_step : Step fresh Attempted first .receive last) : Asked fresh state line last := by
  obtain ⟨h_idle, rfl⟩ := h_step.eq_of_receive
  obtain ⟨kernel, controller⟩ := first
  cases h_idle
  cases h_asked with
  | waiting h_serves h_lines h_messages =>
    exact .waiting (h_serves.of_step _ h_step h_serves.willRun fun _ h => h) h_lines h_messages
  | answered h_answer h_serves h_lines h_messages =>
    exact .answered h_answer (h_serves.of_step _ h_step h_serves.willRun fun _ h => h) h_lines h_messages

/-- The message that is received is that of the line, and then nothing is under way. -/
theorem Asked.received {line : String} {message : Message} (h_asked : Asked fresh state line first)
    (h_step : Step fresh Attempted first (.received message) last) :
    ∃ left, Answers state.environment line message left ∧
      IsFree fresh { state with environment := left } last := by
  obtain ⟨h_kept, h_passed⟩ := h_step.conserves
  rw [← linesUnderWay, List.append_assoc, ← linesUnderWay] at h_kept
  cases h_asked with
  | waiting _ _ h_messages =>
    rw [h_messages] at h_passed
    cases h_passed
  | answered h_answer h_serves h_lines h_messages =>
    rw [h_messages] at h_passed
    rw [h_lines] at h_kept
    obtain ⟨rfl, h_none⟩ := List.cons_eq_cons.mp h_passed
    obtain ⟨h_idle, h_last⟩ := h_serves.received h_step
    exact ⟨_, h_answer, h_idle, h_last, h_kept.symm, h_none.symm⟩

/-- A kernel that runs does not leave a client without the message. -/
theorem Asked.not_notRunning {line : String} (h_asked : Asked fresh state line first)
    (h_running : state.isRunning = true) : ¬ Step fresh Attempted first .notRunning last := by
  intro h_step
  obtain ⟨h_leaving, h_take⟩ := h_step.of_notRunning
  cases h_asked with
  | waiting h_serves =>
    have h_manned := h_serves.manned
    have h_runs := h_serves.willRun
    rw [Manned, h_leaving] at h_manned
    rw [willRun_of_isSteady (by rw [h_leaving]; rfl), isRunning_eq_false_iff.mpr h_manned,
      h_running] at h_runs
    cases h_runs
  | answered _ _ _ h_messages =>
    rw [takeMessage?_eq_none_iff.mp h_take] at h_messages
    cases h_messages

end Service

end Kernel

end PlotLisp
