import Mathlib.Data.List.Basic
import Mathlib.Logic.Relation
import PlotLisp.Kernel.Settling

/-!
# Runs of a kernel

A run is any interleaving of the steps of one controller with the steps of the worker. The controller
is in the middle of at most one command, and while it waits in one the worker goes on: `stop` and
`reset` wait until the worker has ended, and `receive` until there is a message or nobody left to
send one.

* `Step` has a constructor for each indivisible step, which is one of the kernel's own operations.
  What fresh environments there are, and what may come of working on a line, are parameters. Whether the
  system grants a thread is open, and so is the order in which bindings are published.
* `Run` is a sequence of steps, with the trace of what they did. The lines submitted, the lines
  finished and the messages received are read off the trace.
* `Proceeds` is what the kernel does unasked, while its controller waits or is busy elsewhere.
* `Advance` says what a step of the worker can be, case by case.
* The commands of a controller that waits for the worker are steps of its own, after which the kernel
  proceeds: `start_run`, `stop_run`, `reset_run_of_isRunning`, `submit_run`, `receive_run`.
-/

namespace PlotLisp

namespace Kernel

/-! ## Controllers -/

/-- What a controller is in the middle of. -/
inductive Controller where
  | idle
  /-- `stop` waits for the worker to end. -/
  | stopping
  /-- `reset` does the same. -/
  | resetting
  /-- `reset` has stopped the worker, if there was one, and is to forget the environments. -/
  | clearing (wasRunning : Bool)
  /-- `reset` has forgotten them and is to start a worker again. -/
  | restarting
  /-- `receive` waits for a message. -/
  | awaiting
  /-- `receive` has waited in vain and is to see whether a worker is left. -/
  | doubting
  /-- `receive` has seen none and is to look for a message a last time. -/
  | leaving

/-- A kernel and its controller. -/
structure System where
  kernel : Kernel := {}
  controller : Controller := .idle

/-! ## Events -/

/-- What a step did. -/
inductive Event where
  | start
  /-- A start was refused the thread for a worker. -/
  | startFailed (reason : String)
  | stop
  | reset
  /-- All environments were forgotten. -/
  | cleared
  /-- A reset has started a worker again. -/
  | restarted
  /-- A reset was refused the thread to do so. -/
  | resetFailed (reason : String)
  | submitted (line : String)
  /-- A line was not taken, as the kernel was not running. -/
  | refused (line : String)
  | receive
  | received (message : Message)
  /-- There was no message, and nobody was to wait for one. -/
  | nothing
  /-- There was no message, and no worker that could send one. -/
  | notRunning
  /-- A worker was done with a line and handed over the message. It goes on with what the line left. -/
  | finished (line : String) (message : Message) (left : Environment)
  /-- Nothing of note. -/
  | quiet

namespace Event

def submitted? : Event → Option String
  | submitted line => some line
  | _ => none

def received? : Event → Option Message
  | received message => some message
  | _ => none

def finished? : Event → Option (String × Message)
  | finished line message _ => some (line, message)
  | _ => none

/-- It comes about without anything new being asked, be it of the kernel or of the system. -/
def isUnasked : Event → Bool
  | cleared | finished _ _ _ | quiet => true
  | _ => false

end Event

/-- The lines that were accepted, in order. -/
def submittedLines (trace : List Event) : List String := trace.filterMap Event.submitted?

def receivedMessages (trace : List Event) : List Message := trace.filterMap Event.received?

/-- The lines that workers were done with, each with its message, in order. -/
def finishedLines (trace : List Event) : List (String × Message) :=
  trace.filterMap Event.finished?

/-! ## Steps -/

/-- What comes of parsing and evaluating a line, however deep its evaluation goes. -/
def Attempted (env : Environment) (line : String) (attempt : Attempt) : Prop :=
  ∃ depth, answerLine depth env line = some attempt

/-- What the next step of the worker does. -/
def workEvent (kernel : Kernel) : Event :=
  match kernel.worker with
  | some ⟨env, .publishing line [] message⟩ => .finished line message env
  | _ => .quiet

section Runs

variable (fresh : Environment → Prop) (attempts : Environment → String → Attempt → Prop)

/-- One step, of the controller or of the worker. A fresh environment is made only for a worker that
there is no snapshot for, and before the system is asked for a thread. -/
inductive Step : System → Event → System → Prop where
  | start {kernel env} (h_fresh : kernel.worker = none → kernel.snapshot = none → fresh env) :
      Step ⟨kernel, .idle⟩ .start ⟨kernel.start env, .idle⟩
  | startFailed {kernel env reason} (h_stopped : kernel.isRunning = false)
      (h_fresh : kernel.snapshot = none → fresh env) :
      Step ⟨kernel, .idle⟩ (.startFailed reason) ⟨kernel.start env (some reason), .idle⟩
  | stop {kernel} (h_running : kernel.isRunning) :
      Step ⟨kernel, .idle⟩ .stop ⟨kernel.lowerFlag, .stopping⟩
  | stopStopped {kernel} (h_stopped : kernel.isRunning = false) :
      Step ⟨kernel, .idle⟩ .stop ⟨kernel, .idle⟩
  | joinStop {kernel joined} (h_join : kernel.join? = some joined) :
      Step ⟨kernel, .stopping⟩ .quiet ⟨joined, .idle⟩
  | reset {kernel} (h_running : kernel.isRunning) :
      Step ⟨kernel, .idle⟩ .reset ⟨kernel.lowerFlag, .resetting⟩
  | resetStopped {kernel} (h_stopped : kernel.isRunning = false) :
      Step ⟨kernel, .idle⟩ .reset ⟨kernel, .clearing false⟩
  | joinReset {kernel joined} (h_join : kernel.join? = some joined) :
      Step ⟨kernel, .resetting⟩ .quiet ⟨joined, .clearing true⟩
  | clear {kernel wasRunning} :
      Step ⟨kernel, .clearing wasRunning⟩ .cleared
        ⟨kernel.discard, if wasRunning then .restarting else .idle⟩
  | restart {kernel env} (h_fresh : kernel.worker = none → kernel.snapshot = none → fresh env) :
      Step ⟨kernel, .restarting⟩ .restarted ⟨kernel.start env, .idle⟩
  | restartFailed {kernel env reason} (h_stopped : kernel.isRunning = false)
      (h_fresh : kernel.snapshot = none → fresh env) :
      Step ⟨kernel, .restarting⟩ (.resetFailed reason) ⟨kernel.start env (some reason), .idle⟩
  | submit {kernel longer line} (h_submit : kernel.submit? line = some longer) :
      Step ⟨kernel, .idle⟩ (.submitted line) ⟨longer, .idle⟩
  | refuse {kernel line} (h_submit : kernel.submit? line = none) :
      Step ⟨kernel, .idle⟩ (.refused line) ⟨kernel, .idle⟩
  | tryReceive {kernel shorter message} (h_take : kernel.takeMessage? = some (message, shorter)) :
      Step ⟨kernel, .idle⟩ (.received message) ⟨shorter, .idle⟩
  | tryReceiveNothing {kernel} (h_take : kernel.takeMessage? = none) :
      Step ⟨kernel, .idle⟩ .nothing ⟨kernel, .idle⟩
  | receive {kernel} : Step ⟨kernel, .idle⟩ .receive ⟨kernel, .awaiting⟩
  | take {kernel shorter message} (h_take : kernel.takeMessage? = some (message, shorter)) :
      Step ⟨kernel, .awaiting⟩ (.received message) ⟨shorter, .idle⟩
  | waitInVain {kernel} (h_take : kernel.takeMessage? = none) :
      Step ⟨kernel, .awaiting⟩ .quiet ⟨kernel, .doubting⟩
  | look {kernel} :
      Step ⟨kernel, .doubting⟩ .quiet
        ⟨kernel, if kernel.isAttended then .awaiting else .leaving⟩
  | takeLast {kernel shorter message} (h_take : kernel.takeMessage? = some (message, shorter)) :
      Step ⟨kernel, .leaving⟩ (.received message) ⟨shorter, .idle⟩
  | giveUp {kernel} (h_take : kernel.takeMessage? = none) :
      Step ⟨kernel, .leaving⟩ .notRunning ⟨kernel, .idle⟩
  | work {kernel next controller} (answer : Answerer) (order : BindingOrder)
      (h_answer : ∀ env line attempt, answer env line = some attempt → attempts env line attempt)
      (h_order : ∀ bindings, (order bindings).Perm bindings)
      (h_step : kernel.advance answer order = some next) :
      Step ⟨kernel, controller⟩ kernel.workEvent ⟨next, controller⟩

/-- A step that is the worker's, or the next of a command that is under way. -/
def StepsUnasked (first last : System) : Prop :=
  ∃ event : Event, event.isUnasked ∧ Step fresh attempts first event last

/-- The kernel goes on by itself. -/
def Proceeds : System → System → Prop := Relation.ReflTransGen (StepsUnasked fresh attempts)

/-- Steps one after another, with the trace of what they did. -/
inductive Run (start : System) : List Event → System → Prop where
  | refl : Run start [] start
  | snoc {trace middle event last} (h_run : Run start trace middle)
      (h_step : Step fresh attempts middle event last) : Run start (trace ++ [event]) last

end Runs

variable {fresh : Environment → Prop} {attempts : Environment → String → Attempt → Prop}

theorem Run.trans {start middle last : System} {early late : List Event}
    (h_early : Run fresh attempts start early middle) (h_late : Run fresh attempts middle late last) :
    Run fresh attempts start (early ++ late) last := by
  induction h_late with
  | refl => rwa [List.append_nil]
  | snoc _ h_step ih =>
    rw [← List.append_assoc]
    exact ih.snoc h_step

theorem Step.run {first last : System} {event : Event} (h_step : Step fresh attempts first event last) :
    Run fresh attempts first [event] last := Run.snoc .refl h_step

/-- Each event of a run is that of a step, with a run before it. -/
theorem Run.exists_step {start last : System}
    {trace before after : List Event} {event : Event} (h_run : Run fresh attempts start trace last)
    (h_trace : trace = before ++ event :: after) :
    ∃ middle next, Run fresh attempts start before middle ∧ Step fresh attempts middle event next := by
  induction h_run generalizing after with
  | refl => simp at h_trace
  | @snoc trace middle event' last h_before h_step ih =>
    rcases List.eq_nil_or_concat after with rfl | ⟨rest, latest, rfl⟩
    · obtain ⟨rfl, h_event⟩ := List.append_inj' h_trace rfl
      cases h_event
      exact ⟨middle, last, h_before, h_step⟩
    · rw [List.concat_eq_append, ← List.cons_append, ← List.append_assoc] at h_trace
      exact ih (List.append_inj' h_trace rfl).1

/-- A line is finished where the worker has nothing left to publish for it. -/
theorem Step.worker_of_finished {first last : System} {line : String} {message : Message}
    {left : Environment} (h_step : Step fresh attempts first (.finished line message left) last) :
    first.kernel.worker = some ⟨left, .publishing line [] message⟩ := by
  generalize h_event : Event.finished line message left = event at h_step
  cases h_step with
  | @work kernel =>
    unfold workEvent at h_event
    split at h_event
    · rename_i h_worker
      cases h_event
      exact h_worker
    · cases h_event
  | _ => cases h_event

/-! ## Steps of the worker, case by case -/

/-- The steps that a worker can take, each from the phase that it is taken in. -/
inductive Advance (answer : Answerer) (order : BindingOrder) (kernel : Kernel) : Kernel → Prop where
  | goOn {environment} (h_worker : kernel.worker = some ⟨environment, .checking⟩)
      (h_flag : kernel.flag = true) :
      Advance answer order kernel { kernel with worker := some ⟨environment, .polling⟩ }
  | finish {environment} (h_worker : kernel.worker = some ⟨environment, .checking⟩)
      (h_flag : kernel.flag = false) :
      Advance answer order kernel { kernel with worker := some ⟨environment, .ended⟩ }
  | take {environment line rest} (h_worker : kernel.worker = some ⟨environment, .polling⟩)
      (h_input : kernel.input.items = line :: rest) :
      Advance answer order kernel
        { kernel with input := ⟨rest⟩, worker := some ⟨environment, .answering line⟩ }
  | timeOut {environment} (h_worker : kernel.worker = some ⟨environment, .polling⟩)
      (h_input : kernel.input.items = []) :
      Advance answer order kernel { kernel with worker := some ⟨environment, .checking⟩ }
  | answer {environment line attempt}
      (h_worker : kernel.worker = some ⟨environment, .answering line⟩)
      (h_attempt : answer environment line = some attempt) :
      Advance answer order kernel
        { kernel with worker := some ⟨attempt.environment,
            .publishing line (order (published attempt.message attempt.environment))
              attempt.message⟩ }
  | publish {environment line name value left message}
      (h_worker : kernel.worker = some ⟨environment, .publishing line ((name, value) :: left) message⟩) :
      Advance answer order kernel
        { kernel with
          bindings := (kernel.bindings.insert name value).2
          worker := some ⟨environment, .publishing line left message⟩ }
  | handOver {environment line message}
      (h_worker : kernel.worker = some ⟨environment, .publishing line [] message⟩) :
      Advance answer order kernel
        { kernel with
          output := kernel.output.push message
          worker := some ⟨environment, .checking⟩ }

theorem advance_cases {answer : Answerer} {order : BindingOrder} {kernel next : Kernel}
    (h_step : kernel.advance answer order = some next) : Advance answer order kernel next := by
  obtain ⟨⟨lines⟩, output, flag, bindings, worker, snapshot⟩ := kernel
  rcases worker with _ | ⟨environment, phase⟩
  · simp [advance] at h_step
  cases phase with
  | checking =>
    cases flag <;> simp only [advance, Option.some.injEq] at h_step <;> subst h_step
    · exact .finish rfl rfl
    · exact .goOn rfl rfl
  | polling =>
    cases lines <;> simp only [advance, Queue.pop?, Option.some.injEq] at h_step <;> subst h_step
    · exact .timeOut rfl rfl
    · exact .take rfl rfl
  | answering line =>
    simp only [advance, Option.map_eq_some_iff] at h_step
    obtain ⟨attempt, h_attempt, rfl⟩ := h_step
    exact .answer rfl h_attempt
  | publishing line left message =>
    rcases left with _ | ⟨⟨name, value⟩, left⟩ <;>
      simp only [advance, Option.some.injEq] at h_step <;> subst h_step
    · exact .handOver rfl
    · exact .publish rfl
  | ended => simp [advance] at h_step

theorem Advance.eq_some {answer : Answerer} {order : BindingOrder} {kernel next : Kernel}
    (h_step : Advance answer order kernel next) : kernel.advance answer order = some next := by
  cases h_step with
  | goOn h_worker h_flag | finish h_worker h_flag => simp [advance, h_worker, h_flag]
  | take h_worker h_input | timeOut h_worker h_input =>
    simp [advance, h_worker, Queue.pop?, h_input]
  | answer h_worker h_attempt => simp [advance, h_worker, h_attempt]
  | publish h_worker | handOver h_worker => simp [advance, h_worker]

/-! ## Runs that go on -/

section Answering

variable {kernel : Kernel} {env : Environment} {line : String}

/-- A step of the worker that answers no line. -/
theorem Step.workOn {next : Kernel} (controller : Controller)
    (h_step : Advance (fun _ _ => none) id kernel next) :
    Step fresh attempts ⟨kernel, controller⟩ kernel.workEvent ⟨next, controller⟩ :=
  .work (fun _ _ => none) id nofun (fun _ => .rfl) h_step.eq_some

/-- Whatever may come of a line, a worker may come to it. -/
theorem Step.answer {attempt : Attempt} (controller : Controller)
    (h_worker : kernel.worker = some ⟨env, .answering line⟩)
    (h_attempt : attempts env line attempt) :
    Step fresh attempts ⟨kernel, controller⟩ kernel.workEvent
      ⟨{ kernel with worker := some ⟨attempt.environment,
          .publishing line (published attempt.message attempt.environment) attempt.message⟩ },
        controller⟩ := by
  classical
  -- it is enough that the worker has an answer here
  let answer : Answerer := fun env' line' => if env' = env ∧ line' = line then some attempt else none
  refine .work answer id (fun env' line' attempt' h_some => ?_) (fun _ => .rfl)
    (Advance.eq_some (.answer h_worker ?_))
  · obtain ⟨⟨rfl, rfl⟩, h_eq⟩ := Option.ite_none_right_eq_some.mp h_some
    cases h_eq
    exact h_attempt
  · exact if_pos ⟨rfl, rfl⟩

/-- A worker that has answered a line publishes what there is to publish. -/
theorem publish_run {left : List (String × Expression)} {message : Message} (controller : Controller)
    (h_worker : kernel.worker = some ⟨env, .publishing line left message⟩) :
    ∃ count bindings, Run fresh attempts ⟨kernel, controller⟩ (List.replicate count .quiet)
      ⟨{ kernel with bindings, worker := some ⟨env, .publishing line [] message⟩ }, controller⟩ := by
  induction left generalizing kernel with
  | nil =>
    rw [← h_worker]
    exact ⟨0, kernel.bindings, .refl⟩
  | cons binding left ih =>
    let next : Kernel := { kernel with
      bindings := (kernel.bindings.insert binding.1 binding.2).2
      worker := some ⟨env, .publishing line left message⟩ }
    have h_first : Step fresh attempts ⟨kernel, controller⟩ kernel.workEvent ⟨next, controller⟩ :=
      .workOn controller (.publish h_worker)
    rw [workEvent, h_worker] at h_first
    have h_next : next.worker = some ⟨env, .publishing line left message⟩ := rfl
    obtain ⟨count, bindings, h_rest⟩ := ih h_next
    exact ⟨count + 1, bindings, h_first.run.trans h_rest⟩

/-- A worker that is to go on takes the oldest line, and whatever may come of it, the worker may come
to it and hand over the message. -/
theorem Run.answer {start : System} {trace : List Event} {controller : Controller}
    {rest : List String} {attempt : Attempt}
    (h_run : Run fresh attempts start trace ⟨kernel, controller⟩)
    (h_worker : kernel.worker = some ⟨env, .checking⟩) (h_flag : kernel.flag = true)
    (h_input : kernel.input.items = line :: rest) (h_attempt : attempts env line attempt) :
    ∃ count bindings, Run fresh attempts start
      (trace ++ List.replicate count .quiet
        ++ [.finished line attempt.message attempt.environment])
      ⟨{ kernel with
        input := ⟨rest⟩
        output := kernel.output.push attempt.message
        bindings
        worker := some ⟨attempt.environment, .checking⟩ }, controller⟩ := by
  let polling : Kernel := { kernel with worker := some ⟨env, .polling⟩ }
  let answering : Kernel :=
    { kernel with input := ⟨rest⟩, worker := some ⟨env, .answering line⟩ }
  let left := published attempt.message attempt.environment
  let publishing : Kernel := { kernel with
    input := ⟨rest⟩
    worker := some ⟨attempt.environment, .publishing line left attempt.message⟩ }
  have h_look : Step fresh attempts ⟨kernel, controller⟩ kernel.workEvent ⟨polling, controller⟩ :=
    .workOn controller (.goOn h_worker h_flag)
  rw [workEvent, h_worker] at h_look
  have h_take : Step fresh attempts ⟨polling, controller⟩ .quiet ⟨answering, controller⟩ :=
    .workOn controller (.take rfl h_input)
  have h_answer : Step fresh attempts ⟨answering, controller⟩ .quiet ⟨publishing, controller⟩ :=
    .answer controller rfl h_attempt
  have h_publishing : publishing.worker = some ⟨_, .publishing line left attempt.message⟩ := rfl
  obtain ⟨count, bindings, h_published⟩ := publish_run controller h_publishing
  refine ⟨count + 3, bindings, ?_⟩
  have h_all := h_run.trans (((h_look.run.snoc h_take).snoc h_answer).trans h_published)
  exact h_all.snoc (.workOn controller (.handOver rfl))

/-- Where the worker has no line in hand, it ends as soon as it sees that it is to. -/
theorem Run.stop {start : System} {trace : List Event}
    (h_run : Run fresh attempts start trace ⟨kernel, .idle⟩)
    (h_worker : kernel.worker = some ⟨env, .checking⟩) :
    Run fresh attempts start (trace ++ [.stop] ++ [.quiet] ++ [.quiet])
      ⟨{ kernel with flag := false, worker := none, snapshot := some env }, .idle⟩ := by
  have h_running : kernel.isRunning := by rw [isRunning, h_worker]; rfl
  have h_end : Step fresh attempts ⟨kernel.lowerFlag, .stopping⟩ kernel.lowerFlag.workEvent
      ⟨{ kernel.lowerFlag with worker := some ⟨env, .ended⟩ }, .stopping⟩ :=
    .workOn .stopping (.finish h_worker rfl)
  have h_event : kernel.lowerFlag.workEvent = .quiet := by rw [workEvent, lowerFlag, h_worker]
  rw [h_event] at h_end
  exact ((h_run.snoc (.stop h_running)).snoc h_end).snoc (.joinStop rfl)

theorem Run.startFresh {start : System} {trace : List Event}
    (h_run : Run fresh attempts start trace ⟨kernel, .idle⟩) (h_fresh : fresh env) :
    Run fresh attempts start (trace ++ [.start]) ⟨kernel.start env, .idle⟩ :=
  h_run.snoc (.start fun _ _ => h_fresh)

theorem Run.failToStart {start : System} {trace : List Event}
    (h_run : Run fresh attempts start trace ⟨kernel, .idle⟩) (h_fresh : fresh env)
    (h_stopped : kernel.isRunning = false) (reason : String) :
    Run fresh attempts start (trace ++ [.startFailed reason])
      ⟨{ kernel with flag := false, snapshot := none }, .idle⟩ := by
  rw [← start_of_refused env reason h_stopped]
  exact h_run.snoc (.startFailed h_stopped fun _ => h_fresh)

theorem Run.submit {start : System} {trace : List Event}
    (h_run : Run fresh attempts start trace ⟨kernel, .idle⟩) (h_running : kernel.isRunning)
    (line : String) :
    Run fresh attempts start (trace ++ [.submitted line])
      ⟨{ kernel with input := kernel.input.push line }, .idle⟩ :=
  h_run.snoc (.submit (if_pos h_running))

end Answering

/-! ## The commands of a controller that waits -/

theorem isUnasked_workEvent (kernel : Kernel) : kernel.workEvent.isUnasked := by
  unfold workEvent
  split <;> rfl

theorem Step.proceeds {first last : System} {event : Event}
    (h_step : Step fresh attempts first event last) (h_unasked : event.isUnasked) :
    Proceeds fresh attempts first last := .single ⟨event, h_unasked, h_step⟩

section Commands

variable {answer : Answerer}
  (h_answer : ∀ env line attempt, answer env line = some attempt → attempts env line attempt)

include h_answer

/-- Settling is one of the ways in which the worker may go on while the controller does nothing. -/
theorem settle_run {kernel settled : Kernel} (controller : Controller)
    (h_settle : kernel.settle answer = some settled) :
    Proceeds fresh attempts ⟨kernel, controller⟩ ⟨settled, controller⟩ := by
  fun_induction settle answer kernel with
  | case1 kernel h_settled =>
    cases h_settle
    exact .refl
  | case2 => cases h_settle
  | case3 kernel h_unsettled next h_step ih =>
    have h_first : Proceeds fresh attempts ⟨kernel, controller⟩ ⟨next, controller⟩ :=
      (Step.work answer id h_answer (fun _ => .rfl) h_step).proceeds (isUnasked_workEvent kernel)
    exact h_first.trans (ih h_settle)

section Threads

variable {kernel started : Kernel} {env : Environment} {refusal : Option String} (h_fresh : fresh env)
  (h_start : kernel.startAndSettle answer env refusal = some started)

include h_fresh h_start

theorem start_run (h_error : kernel.startError? refusal = none) :
    ∃ middle, Step fresh attempts ⟨kernel, .idle⟩ .start middle ∧
      Proceeds fresh attempts middle ⟨started, .idle⟩ := by
  rw [startAndSettle, start_of_startError?_eq_none env h_error] at h_start
  exact ⟨_, .start fun _ _ => h_fresh, settle_run h_answer .idle h_start⟩

theorem startFailed_run {error : KernelError} (h_error : kernel.startError? refusal = some error) :
    ∃ reason middle, refusal = some reason ∧ error = .spawn reason ∧
      Step fresh attempts ⟨kernel, .idle⟩ (.startFailed reason) middle ∧
      Proceeds fresh attempts middle ⟨started, .idle⟩ := by
  obtain ⟨h_stopped, reason, rfl, rfl⟩ := eq_of_startError?_eq_some h_error
  exact ⟨reason, _, rfl, rfl, .startFailed h_stopped fun _ => h_fresh,
    settle_run h_answer .idle h_start⟩

/-- The start in a reset is as any other. -/
theorem restart_run (h_error : kernel.startError? refusal = none) :
    ∃ middle, Step fresh attempts ⟨kernel, .restarting⟩ .restarted middle ∧
      Proceeds fresh attempts middle ⟨started, .idle⟩ := by
  rw [startAndSettle, start_of_startError?_eq_none env h_error] at h_start
  exact ⟨_, .restart fun _ _ => h_fresh, settle_run h_answer .idle h_start⟩

theorem restartFailed_run {error : KernelError} (h_error : kernel.startError? refusal = some error) :
    ∃ reason middle, refusal = some reason ∧ error = .spawn reason ∧
      Step fresh attempts ⟨kernel, .restarting⟩ (.resetFailed reason) middle ∧
      Proceeds fresh attempts middle ⟨started, .idle⟩ := by
  obtain ⟨h_stopped, reason, rfl, rfl⟩ := eq_of_startError?_eq_some h_error
  exact ⟨reason, _, rfl, rfl, .restartFailed h_stopped fun _ => h_fresh,
    settle_run h_answer .idle h_start⟩

end Threads

theorem stop_run {kernel stopped : Kernel} (h_stop : kernel.stop answer = some stopped) :
    ∃ middle, Step fresh attempts ⟨kernel, .idle⟩ .stop middle ∧
      Proceeds fresh attempts middle ⟨stopped, .idle⟩ := by
  unfold stop at h_stop
  split at h_stop
  case isTrue h_running =>
    obtain ⟨settled, h_settle, h_join⟩ := Option.bind_eq_some_iff.mp h_stop
    have h_waited : Proceeds fresh attempts ⟨kernel.lowerFlag, .stopping⟩ ⟨settled, .stopping⟩ :=
      settle_run h_answer .stopping h_settle
    exact ⟨_, .stop h_running, h_waited.trans ((Step.joinStop h_join).proceeds rfl)⟩
  case isFalse h_stopped =>
    cases h_stop
    exact ⟨_, .stopStopped (Bool.eq_false_iff.mpr h_stopped), .refl⟩

section Resets

variable {kernel renewed : Kernel} {env : Environment} {refusal : Option String}
  (h_reset : kernel.reset answer env refusal = some renewed)

include h_reset

omit h_answer in
theorem reset_run_of_stopped (h_stopped : kernel.isRunning = false) :
    ∃ middle, Step fresh attempts ⟨kernel, .idle⟩ .reset middle ∧
      Proceeds fresh attempts middle ⟨renewed, .idle⟩ := by
  unfold reset stop at h_reset
  simp only [h_stopped, Bool.false_eq_true, if_false, Option.bind_eq_bind, Option.bind_some,
    Option.some.injEq] at h_reset
  rw [← h_reset]
  exact ⟨_, .resetStopped h_stopped, Step.clear.proceeds rfl⟩

/-- A reset of a kernel that runs gets to where it is to start a worker again. -/
theorem reset_run_of_isRunning (h_running : kernel.isRunning) :
    ∃ middle cleared, Step fresh attempts ⟨kernel, .idle⟩ .reset middle ∧
      Proceeds fresh attempts middle ⟨cleared, .restarting⟩ ∧ cleared.isRunning = false ∧
      cleared.startAndSettle answer env refusal = some renewed := by
  unfold reset stop at h_reset
  obtain ⟨stopped, h_stop, h_rest⟩ := Option.bind_eq_some_iff.mp h_reset
  rw [if_pos h_running] at h_stop h_rest
  obtain ⟨settled, h_settle, h_join⟩ := Option.bind_eq_some_iff.mp h_stop
  have h_waited : Proceeds fresh attempts ⟨kernel.lowerFlag, .resetting⟩ ⟨settled, .resetting⟩ :=
    settle_run h_answer .resetting h_settle
  have h_joined : Proceeds fresh attempts ⟨settled, .resetting⟩ ⟨stopped, .clearing true⟩ :=
    (Step.joinReset h_join).proceeds rfl
  have h_cleared : Proceeds fresh attempts ⟨stopped, .clearing true⟩
      ⟨stopped.discard, .restarting⟩ := Step.clear.proceeds rfl
  have h_stopped : stopped.discard.isRunning = false := by
    obtain ⟨left, -, rfl⟩ := eq_of_join? h_join
    rfl
  exact ⟨_, stopped.discard, .reset h_running, h_waited.trans (h_joined.trans h_cleared), h_stopped,
    h_rest⟩

end Resets

theorem submit_run {kernel answered : Kernel} {line : String}
    (h_submit : kernel.submitAndSettle? answer line = some (some answered)) :
    ∃ middle, Step fresh attempts ⟨kernel, .idle⟩ (.submitted line) middle ∧
      Proceeds fresh attempts middle ⟨answered, .idle⟩ := by
  unfold submitAndSettle? at h_submit
  split at h_submit
  · cases h_submit
  · rename_i submitted h_taken
    obtain ⟨settled, h_settle, h_eq⟩ := Option.map_eq_some_iff.mp h_submit
    cases h_eq
    exact ⟨_, .submit h_taken, settle_run h_answer .idle h_settle⟩

end Commands

/-- A controller that asks for a message, and gets one where it asks once, need not wait. -/
theorem receive_run {kernel next : Kernel} {message : Message}
    (h_receive : kernel.receive = (.message message, next)) :
    Step fresh attempts ⟨kernel, .awaiting⟩ (.received message) ⟨next, .idle⟩ := by
  unfold receive at h_receive
  split at h_receive
  · rename_i h_take
    cases h_receive
    exact .take h_take
  · split at h_receive <;> cases h_receive

/-- Where nobody is left to send one, the controller finds that out by itself. -/
theorem receive_run_of_notRunning {kernel next : Kernel}
    (h_receive : kernel.receive = (.notRunning, next)) :
    Proceeds fresh attempts ⟨kernel, .awaiting⟩ ⟨kernel, .leaving⟩ ∧
      Step fresh attempts ⟨kernel, .leaving⟩ .notRunning ⟨next, .idle⟩ := by
  unfold receive at h_receive
  split at h_receive
  · cases h_receive
  · rename_i h_take
    split at h_receive
    case isTrue => cases h_receive
    case isFalse h_left =>
      cases h_receive
      have h_look : Step fresh attempts ⟨kernel, .doubting⟩ .quiet ⟨kernel, _⟩ := .look
      rw [if_neg h_left] at h_look
      have h_waited : Proceeds fresh attempts ⟨kernel, .awaiting⟩ ⟨kernel, .doubting⟩ :=
        (Step.waitInVain h_take).proceeds rfl
      exact ⟨h_waited.trans (h_look.proceeds rfl), .giveUp h_take⟩

end Kernel

end PlotLisp
