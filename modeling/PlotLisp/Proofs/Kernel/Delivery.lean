import PlotLisp.Proofs.Kernel.Run

/-!
# Delivery of lines and messages

Whatever a controller asks of a kernel and however its steps fall between those of the workers, no
line and no message is lost, doubled or moved. `lines_and_messages_kept` says where each of them is
after any run: a line is finished, in hand, or waits, in the order of submission; the message of a
finished line has been received or waits, in the same order.

The invariant of a run has two halves. `Kept` relates the trace to the queues and to the line in
hand. `Manned` relates the controller to the worker: outside of `stop` and `reset` a worker that is
there goes on, so `receive` leaves empty-handed only where there is none.
-/

namespace PlotLisp

namespace Kernel

variable {fresh : Environment → Prop} {attempts : Environment → String → Attempt → Prop}

/-! ## Traces -/

section Traces

variable (trace : List Event) (event : Event)

theorem submittedLines_snoc :
    submittedLines (trace ++ [event]) = submittedLines trace ++ event.submitted?.toList := by
  rw [submittedLines, List.filterMap_append, ← submittedLines]
  cases event <;> rfl

theorem receivedMessages_snoc :
    receivedMessages (trace ++ [event]) = receivedMessages trace ++ event.received?.toList := by
  rw [receivedMessages, List.filterMap_append, ← receivedMessages]
  cases event <;> rfl

theorem finishedLines_snoc :
    finishedLines (trace ++ [event]) = finishedLines trace ++ event.finished?.toList := by
  rw [finishedLines, List.filterMap_append, ← finishedLines]
  cases event <;> rfl

end Traces

/-! ## What a step conserves -/

/-- A step takes lines off one end of the line in hand and the input queue, and puts lines to the
other; and so with messages and the output queue. -/
structure Conserves (kernel : Kernel) (event : Event) (next : Kernel) : Prop where
  lines : kernel.lineInHand?.toList ++ kernel.input.items ++ event.submitted?.toList
    = event.finished?.toList.map Prod.fst ++ next.lineInHand?.toList ++ next.input.items
  messages : kernel.output.items ++ event.finished?.toList.map Prod.snd
    = event.received?.toList ++ next.output.items

/-- A step that touches neither the queues nor the line in hand, and that a trace is not read for. -/
theorem conserves_of_eq {kernel next : Kernel} {event : Event}
    (h_input : next.input = kernel.input) (h_output : next.output = kernel.output)
    (h_hand : next.lineInHand? = kernel.lineInHand?) (h_submitted : event.submitted? = none)
    (h_received : event.received? = none) (h_finished : event.finished? = none) :
    Conserves kernel event next where
  lines := by simp [h_input, h_hand, h_submitted, h_finished]
  messages := by simp [h_output, h_received, h_finished]

theorem takeMessage_conserves {kernel next : Kernel} {message : Message}
    (h_take : kernel.takeMessage? = some (message, next)) :
    Conserves kernel (.received message) next := by
  obtain ⟨rest, h_output, rfl⟩ := eq_of_takeMessage? h_take
  constructor <;> simp [lineInHand?, h_output, Event.submitted?, Event.received?, Event.finished?]

theorem submit_conserves {kernel next : Kernel} {line : String}
    (h_submit : kernel.submit? line = some next) : Conserves kernel (.submitted line) next := by
  obtain ⟨-, rfl⟩ := eq_of_submit? h_submit
  constructor <;> simp [lineInHand?, Event.submitted?, Event.received?, Event.finished?]

/-- A worker that has ended has no line in hand. -/
theorem join_conserves {kernel next : Kernel} (h_join : kernel.join? = some next) :
    Conserves kernel .quiet next := by
  obtain ⟨environment, h_worker, rfl⟩ := eq_of_join? h_join
  exact conserves_of_eq rfl rfl (by simp [lineInHand?, h_worker]) rfl rfl rfl

theorem start_conserves {kernel : Kernel} {event : Event} (env : Environment)
    (h_submitted : event.submitted? = none) (h_received : event.received? = none)
    (h_finished : event.finished? = none) : Conserves kernel event (kernel.start env) := by
  rcases h_worker : kernel.worker with _ | worker
  · rw [start_of_worker_eq_none env h_worker]
    exact conserves_of_eq rfl rfl (by simp [lineInHand?, h_worker]) h_submitted h_received h_finished
  · rw [start_of_isRunning env (by simp [isRunning, h_worker])]
    exact conserves_of_eq rfl rfl rfl h_submitted h_received h_finished

/-- A start that fails touches no queue, and there was no worker with a line in hand. -/
theorem startFailed_conserves {kernel : Kernel} {event : Event} (env : Environment) (reason : String)
    (h_stopped : kernel.isRunning = false) (h_submitted : event.submitted? = none)
    (h_received : event.received? = none) (h_finished : event.finished? = none) :
    Conserves kernel event (kernel.start env (some reason)) := by
  rw [start_of_refused env reason h_stopped]
  exact conserves_of_eq rfl rfl rfl h_submitted h_received h_finished

/-- A worker moves the oldest line from the queue into its hand, and from there the line goes when
its message goes to the other queue. -/
theorem Advance.conserves {answer : Answerer} {order : BindingOrder} {kernel next : Kernel}
    (h_step : Advance answer order kernel next) : Conserves kernel kernel.workEvent next := by
  cases h_step with
  | goOn h_worker | finish h_worker | timeOut h_worker =>
    have h_event : kernel.workEvent = .quiet := by rw [workEvent, h_worker]
    rw [h_event]
    exact conserves_of_eq rfl rfl (by simp [lineInHand?, h_worker]) rfl rfl rfl
  | take h_worker h_input =>
    have h_event : kernel.workEvent = .quiet := by rw [workEvent, h_worker]
    rw [h_event]
    constructor <;>
      simp [lineInHand?, h_worker, h_input, Event.submitted?, Event.received?, Event.finished?]
  | answer h_worker | publish h_worker =>
    have h_event : kernel.workEvent = .quiet := by rw [workEvent, h_worker]
    rw [h_event]
    exact conserves_of_eq rfl rfl (by simp [lineInHand?, h_worker]) rfl rfl rfl
  | @handOver environment line message h_worker =>
    have h_event : kernel.workEvent = .finished line message environment := by
      rw [workEvent, h_worker]
    rw [h_event]
    constructor <;> simp [lineInHand?, h_worker, Event.submitted?, Event.received?, Event.finished?]

theorem Step.conserves {first last : System} {event : Event}
    (h_step : Step fresh attempts first event last) : Conserves first.kernel event last.kernel := by
  cases h_step with
  | submit h_submit => exact submit_conserves h_submit
  | tryReceive h_take | take h_take | takeLast h_take => exact takeMessage_conserves h_take
  | joinStop h_join | joinReset h_join => exact join_conserves h_join
  | start | restart => exact start_conserves _ rfl rfl rfl
  | startFailed h_stopped | restartFailed h_stopped =>
    exact startFailed_conserves _ _ h_stopped rfl rfl rfl
  | work _ _ _ _ h_step => exact (advance_cases h_step).conserves
  | _ => exact conserves_of_eq rfl rfl rfl rfl rfl rfl

/-! ## What a run keeps -/

/-- Where the lines of a run are, and its messages. -/
theorem Run.conserves {start last : System} {trace : List Event}
    (h_run : Run fresh attempts start trace last) :
    start.kernel.lineInHand?.toList ++ start.kernel.input.items ++ submittedLines trace
        = (finishedLines trace).map Prod.fst ++ last.kernel.lineInHand?.toList
          ++ last.kernel.input.items ∧
      start.kernel.output.items ++ (finishedLines trace).map Prod.snd
        = receivedMessages trace ++ last.kernel.output.items := by
  induction h_run with
  | refl => exact ⟨List.append_nil _, List.append_nil _⟩
  | @snoc trace middle event last _ h_step ih =>
    obtain ⟨h_lines, h_messages⟩ := ih
    have h_kept := h_step.conserves
    rw [submittedLines_snoc, receivedMessages_snoc, finishedLines_snoc, List.map_append,
      List.map_append]
    constructor
    · rw [← List.append_assoc, h_lines]
      simpa only [List.append_assoc] using
        congrArg ((finishedLines trace).map Prod.fst ++ ·) h_kept.lines
    · rw [← List.append_assoc, h_messages]
      simpa only [List.append_assoc] using congrArg (receivedMessages trace ++ ·) h_kept.messages

/-! ## Messages answer their lines -/

/-- The message is what came of some work on the line. -/
def Answered (attempts : Environment → String → Attempt → Prop) (line : String)
    (message : Message) : Prop :=
  ∃ env attempt, attempts env line attempt ∧ attempt.message = message

/-- The message that a worker has in hand answers the line that it has in hand. -/
def HandAnswered (attempts : Environment → String → Attempt → Prop) (kernel : Kernel) : Prop :=
  ∀ environment line left message,
    kernel.worker = some ⟨environment, .publishing line left message⟩ → Answered attempts line message

theorem Advance.handAnswered {answer : Answerer} {order : BindingOrder} {kernel next : Kernel}
    (h_answer : ∀ env line attempt, answer env line = some attempt → attempts env line attempt)
    (h_step : Advance answer order kernel next) (h_hand : HandAnswered attempts kernel) :
    HandAnswered attempts next := by
  cases h_step with
  | goOn | finish | timeOut | take | handOver => rintro _ _ _ _ ⟨⟩
  | @answer environment line attempt h_worker h_attempt =>
    rintro _ _ _ _ ⟨⟩
    exact ⟨environment, attempt, h_answer _ _ _ h_attempt, rfl⟩
  | publish h_worker =>
    rintro _ _ _ _ ⟨⟩
    exact h_hand _ _ _ _ h_worker

theorem Step.handAnswered {first last : System} {event : Event}
    (h_step : Step fresh attempts first event last) (h_hand : HandAnswered attempts first.kernel) :
    HandAnswered attempts last.kernel := by
  cases h_step with
  | submit h_submit =>
    obtain ⟨-, rfl⟩ := eq_of_submit? h_submit
    exact h_hand
  | tryReceive h_take | take h_take | takeLast h_take =>
    obtain ⟨rest, -, rfl⟩ := eq_of_takeMessage? h_take
    exact h_hand
  | joinStop h_join | joinReset h_join =>
    obtain ⟨environment, -, rfl⟩ := eq_of_join? h_join
    rintro _ _ _ _ ⟨⟩
  | @start kernel env | @restart kernel env =>
    rcases h_worker : kernel.worker with _ | worker
    · rw [start_of_worker_eq_none env h_worker]
      rintro _ _ _ _ ⟨⟩
    · rwa [start_of_isRunning env (by simp [isRunning, h_worker])]
  | @startFailed _ env reason h_stopped | @restartFailed _ env reason h_stopped =>
    rwa [start_of_refused env reason h_stopped]
  | work _ _ h_answer _ h_step => exact (advance_cases h_step).handAnswered h_answer h_hand
  | _ => exact h_hand

theorem Run.handAnswered {start last : System} {trace : List Event}
    (h_run : Run fresh attempts start trace last) (h_hand : HandAnswered attempts start.kernel) :
    HandAnswered attempts last.kernel := by
  induction h_run with
  | refl => exact h_hand
  | snoc _ h_step ih => exact h_step.handAnswered ih

theorem Run.answered {start last : System} {trace : List Event}
    (h_run : Run fresh attempts start trace last) (h_hand : HandAnswered attempts start.kernel) :
    ∀ entry ∈ finishedLines trace, Answered attempts entry.1 entry.2 := by
  rintro ⟨line, message⟩ h_entry
  obtain ⟨event, h_event, h_finished⟩ := List.mem_filterMap.mp h_entry
  obtain ⟨before, after, h_trace⟩ := List.append_of_mem h_event
  obtain ⟨middle, next, h_before, h_step⟩ := h_run.exists_step h_trace
  obtain ⟨left, rfl⟩ : ∃ left, event = .finished line message left := by
    cases event <;> cases h_finished
    exact ⟨_, rfl⟩
  -- the message was in hand just before, and did not change there
  exact h_before.handAnswered h_hand _ _ _ _ h_step.worker_of_finished

/-! ## Controllers and workers -/

/-- Outside of `stop` and `reset` a worker that is there is to go on and has not ended. Where
`receive` is about to leave, and once `reset` has stopped the kernel, there is none. -/
def Manned (system : System) : Prop :=
  match system.controller with
  | .idle | .awaiting | .doubting =>
    ∀ worker, system.kernel.worker = some worker →
      system.kernel.flag = true ∧ worker.phase ≠ .ended
  | .stopping | .resetting => True
  | .clearing _ | .leaving => system.kernel.worker = none
  | .restarting => system.kernel.worker = none ∧ system.kernel.snapshot = none

theorem manned_start {kernel : Kernel} (env : Environment) (h_manned : Manned ⟨kernel, .idle⟩) :
    Manned ⟨kernel.start env, .idle⟩ := by
  rcases h_worker : kernel.worker with _ | worker
  · rw [start_of_worker_eq_none env h_worker]
    rintro _ ⟨⟩
    exact ⟨rfl, nofun⟩
  · rwa [start_of_isRunning env (by simp [isRunning, h_worker])]

theorem manned_of_worker_eq_none {kernel : Kernel} (h_worker : kernel.worker = none) :
    Manned ⟨kernel, .idle⟩ := by
  intro worker h_some
  rw [h_worker] at h_some
  cases h_some

/-- A worker ends only where the flag is down, and it does not touch the flag. -/
theorem Advance.manned {answer : Answerer} {order : BindingOrder} {kernel next : Kernel}
    (h_step : Advance answer order kernel next)
    (h_flag : kernel.flag = true) :
    ∀ worker, next.worker = some worker → next.flag = true ∧ worker.phase ≠ .ended := by
  cases h_step with
  | finish _ h_down =>
    rw [h_flag] at h_down
    cases h_down
  | _ =>
    rintro _ ⟨⟩
    exact ⟨h_flag, nofun⟩

theorem Advance.worker_ne_none {answer : Answerer} {order : BindingOrder} {kernel next : Kernel}
    (h_step : Advance answer order kernel next) : kernel.worker ≠ none := by
  cases h_step with
  | goOn h_worker | finish h_worker | take h_worker | timeOut h_worker | answer h_worker
  | publish h_worker | handOver h_worker =>
    rw [h_worker]
    nofun

theorem manned_advance {kernel next : Kernel} {controller : Controller} {answer : Answerer}
    {order : BindingOrder} (h_step : Advance answer order kernel next)
    (h_manned : Manned ⟨kernel, controller⟩) :
    Manned ⟨next, controller⟩ := by
  have h_worker := h_step.worker_ne_none
  cases controller with
  | idle | awaiting | doubting =>
    obtain ⟨worker, h_some⟩ := Option.ne_none_iff_exists'.mp h_worker
    exact h_step.manned (h_manned worker h_some).1
  | stopping | resetting => trivial
  | clearing | leaving => exact absurd h_manned h_worker
  | restarting => exact absurd h_manned.1 h_worker

theorem Step.manned {first last : System} {event : Event}
    (h_step : Step fresh attempts first event last) (h_manned : Manned first) : Manned last := by
  cases h_step with
  | start => exact manned_start _ h_manned
  | restart => exact manned_start _ (manned_of_worker_eq_none h_manned.1)
  | @startFailed _ env reason h_stopped | @restartFailed _ env reason h_stopped =>
    rw [start_of_refused env reason h_stopped]
    exact manned_of_worker_eq_none (isRunning_eq_false_iff.mp h_stopped)
  | stop | reset => trivial
  | stopStopped | refuse | tryReceiveNothing | receive | waitInVain => exact h_manned
  | joinStop h_join | joinReset h_join =>
    obtain ⟨environment, -, rfl⟩ := eq_of_join? h_join
    first | exact manned_of_worker_eq_none rfl | rfl
  | resetStopped h_stopped => exact isRunning_eq_false_iff.mp h_stopped
  | @clear kernel wasRunning =>
    cases wasRunning
    · exact manned_of_worker_eq_none h_manned
    · exact ⟨h_manned, rfl⟩
  | submit h_submit =>
    obtain ⟨-, rfl⟩ := eq_of_submit? h_submit
    exact h_manned
  | tryReceive h_take | take h_take =>
    obtain ⟨rest, -, rfl⟩ := eq_of_takeMessage? h_take
    exact h_manned
  | takeLast h_take =>
    obtain ⟨rest, -, rfl⟩ := eq_of_takeMessage? h_take
    exact manned_of_worker_eq_none h_manned
  | giveUp => exact manned_of_worker_eq_none h_manned
  | @look kernel =>
    by_cases h_attended : kernel.isAttended
    · rw [if_pos h_attended]
      exact h_manned
    · rw [if_neg h_attended]
      -- a worker that is there has not ended, so it would have been seen
      rcases h_worker : kernel.worker with _ | ⟨environment, phase⟩
      · exact h_worker
      · have h_phase := (h_manned _ h_worker).2
        cases phase <;> simp [isAttended, h_worker] at h_attended h_phase
  | work _ _ _ _ h_step => exact manned_advance (advance_cases h_step) h_manned

theorem Run.manned {start last : System} {trace : List Event}
    (h_run : Run fresh attempts start trace last) (h_manned : Manned start) : Manned last := by
  induction h_run with
  | refl => exact h_manned
  | snoc _ h_step ih => exact h_step.manned ih

/-- Only a controller that is leaving finds nothing to wait for. -/
theorem Step.of_notRunning {first last : System}
    (h_step : Step fresh attempts first .notRunning last) :
    first.controller = .leaving ∧ first.kernel.takeMessage? = none := by
  generalize h_event : Event.notRunning = event at h_step
  cases h_step with
  | giveUp h_take => exact ⟨rfl, h_take⟩
  | @work kernel =>
    unfold workEvent at h_event
    split at h_event <;> cases h_event
  | _ => cases h_event

/-! ## Every run of a new kernel -/

/-- The lines that were submitted are, in order, those that are finished, the one in hand, which
there is only while the kernel is running, and those that wait. The messages that were received and
those that wait are, in order, one for each finished line, which they answer. `receive` finds nothing
to wait for only where the kernel is stopped and no message is left. -/
theorem lines_and_messages_kept {trace : List Event} {system : System}
    (h_run : Run fresh attempts {} trace system) :
    submittedLines trace = (finishedLines trace).map Prod.fst
        ++ system.kernel.lineInHand?.toList ++ system.kernel.input.items ∧
      (system.kernel.lineInHand?.isSome → system.kernel.isRunning) ∧
      receivedMessages trace ++ system.kernel.output.items = (finishedLines trace).map Prod.snd ∧
      (∀ entry ∈ finishedLines trace, Answered attempts entry.1 entry.2) ∧
      ∀ last, Step fresh attempts system .notRunning last →
        system.kernel.isRunning = false ∧ system.kernel.output.items = [] := by
  obtain ⟨h_lines, h_messages⟩ := h_run.conserves
  have h_new : HandAnswered attempts {} := by rintro _ _ _ _ ⟨⟩
  refine ⟨h_lines, ?_, h_messages.symm, h_run.answered h_new, ?_⟩
  · intro h_hand
    unfold lineInHand? at h_hand
    unfold isRunning
    rcases h_worker : system.kernel.worker with _ | worker
    · simp [h_worker] at h_hand
    · rfl
  · intro last h_step
    obtain ⟨h_leaving, h_take⟩ := h_step.of_notRunning
    have h_manned := h_run.manned (manned_of_worker_eq_none rfl)
    rw [Manned, h_leaving] at h_manned
    exact ⟨isRunning_eq_false_iff.mpr h_manned, takeMessage?_eq_none_iff.mp h_take⟩

/-- A line is submitted and taken, `stop` waits until its message is handed over, and the message is
received of the stopped kernel. -/
theorem line_kept_across_stop :
    ∃ trace system, Run (· = ⟨∅, []⟩) Attempted {} trace system ∧
      submittedLines trace = ["(\"a\")"] ∧
      receivedMessages trace = [.value (.ofAtom (.string "a"))] := by
  have h_start : Step (· = ⟨∅, []⟩) Attempted {} .start ⟨({} : Kernel).start ⟨∅, []⟩, .idle⟩ :=
    .start fun _ _ => rfl
  have h_submit : (({} : Kernel).start ⟨∅, []⟩).submit? "(\"a\")" = some _ := rfl
  have h_work {kernel next : Kernel} {controller : Controller}
      (h_step : kernel.advance (answerLine 5) = some next) :
      Step (· = ⟨∅, []⟩) Attempted ⟨kernel, controller⟩ kernel.workEvent ⟨next, controller⟩ :=
    .work (answerLine 5) id (fun _ _ _ h => ⟨5, h⟩) (fun _ => .rfl) h_step
  have h_taken := ((h_start.run.snoc (.submit h_submit)).snoc (h_work rfl)).snoc (h_work rfl)
  have h_answered := ((h_taken.snoc (.stop rfl)).snoc (h_work rfl)).snoc (h_work rfl)
  have h_stopped := (h_answered.snoc (h_work rfl)).snoc (.joinStop rfl)
  have h_received := (h_stopped.snoc .receive).snoc (.take rfl)
  obtain ⟨h_lines, -, h_messages, -⟩ := lines_and_messages_kept h_received
  exact ⟨_, _, h_received, h_lines, h_messages⟩

end Kernel

end PlotLisp
