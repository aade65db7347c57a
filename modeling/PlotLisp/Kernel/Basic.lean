import PlotLisp.Kernel.Message
import PlotLisp.Queue
import PlotLisp.Store

/-!
# The kernel

The kernel answers lines in an environment of its own. A controller puts lines into one queue and
takes messages out of another; a worker between them takes a line, answers it, publishes what
programs have bound, and only then hands over the message.

Controller and worker run side by side. Here each of their actions is one indivisible step, and a
run of the kernel is any interleaving of them:

* the controller starts a worker, or fails to for want of a thread, lowers the flag that keeps a worker
  running, joins one that has ended, submits lines and takes messages;
* the worker looks at the flag, takes the oldest line or waits in vain, answers the line, publishes
  one binding after another, and hands over the message. That is `Kernel.advance`.

A worker that ends leaves its environment to the controller, which keeps it for the next worker. A start
hands it over before there is a thread, so that a start which fails loses it.
-/

namespace PlotLisp

/-! ## Workers -/

/-- What a worker does next. -/
inductive Phase where
  /-- Look whether to go on. -/
  | checking
  /-- Take the oldest line, or wait for one in vain. -/
  | polling
  /-- Answer a line. -/
  | answering (line : String)
  /-- Publish these bindings, and then hand over the message of a line. -/
  | publishing (line : String) (left : List (String × Expression)) (message : Message)
  /-- Nothing more. -/
  | ended

/-- A worker and the environment it answers in. -/
structure Worker where
  environment : Environment
  phase : Phase := .checking

/-! ## Errors -/

/-- Why a kernel does not do what it is asked for. -/
inductive KernelError where
  | notRunning
  /-- The system refuses a thread to the worker, for this reason. -/
  | spawn (reason : String)
deriving DecidableEq

def KernelError.message : KernelError → String
  | .notRunning => "interpreter kernel not running"
  | .spawn reason => "failed to spawn interpreter kernel worker: " ++ reason

/-! ## Kernels -/

structure Kernel where
  /-- Lines that no worker has taken. -/
  input : Queue String := ∅
  /-- Messages that nobody has received. -/
  output : Queue Message := ∅
  /-- Whether the worker is to go on. -/
  flag : Bool := false
  /-- What programs have bound, as of the last line that succeeded. -/
  bindings : Store Expression := ∅
  worker : Option Worker := none
  /-- The environment that the last worker left. -/
  snapshot : Option Environment := none

namespace Kernel

def isRunning (kernel : Kernel) : Bool := kernel.worker.isSome

/-- There is a worker that has not ended. -/
def isAttended (kernel : Kernel) : Bool :=
  match kernel.worker with
  | none | some ⟨_, .ended⟩ => false
  | some _ => true

/-- The line that a worker has taken and not yet handed over the message of. -/
def lineInHand? (kernel : Kernel) : Option String :=
  match kernel.worker with
  | some ⟨_, .answering line⟩ | some ⟨_, .publishing line _ _⟩ => some line
  | _ => none

/-! ## Steps of the controller -/

/-- Starts a worker on the snapshot, or on a fresh environment if there is none. A kernel that is
running is left alone. If the system refuses a thread, there is no worker, and the environment that it
was to have is gone. -/
def start (fresh : Environment) (kernel : Kernel) (refusal : Option String := none) : Kernel :=
  match kernel.worker, refusal with
  | some _, _ => kernel
  | none, none =>
    { kernel with
      flag := true
      worker := some { environment := kernel.snapshot.getD fresh }
      snapshot := none }
  | none, some _ => { kernel with flag := false, snapshot := none }

/-- The error of such a start, if it fails. Only a kernel that is not running asks for a thread. -/
def startError? (kernel : Kernel) (refusal : Option String) : Option KernelError :=
  if kernel.isRunning then none else refusal.map .spawn

/-- Tells the worker to end. -/
def lowerFlag (kernel : Kernel) : Kernel := { kernel with flag := false }

/-- Takes over the environment of a worker that has ended. -/
def join? (kernel : Kernel) : Option Kernel :=
  match kernel.worker with
  | some ⟨environment, .ended⟩ => some { kernel with worker := none, snapshot := some environment }
  | _ => none

/-- Forgets all environments and what they bound. The queues stay as they are. -/
def discard (kernel : Kernel) : Kernel := { kernel with snapshot := none, bindings := ∅ }

/-- Puts a line into the queue of a kernel that is running. -/
def submit? (kernel : Kernel) (line : String) : Option Kernel :=
  if kernel.isRunning then some { kernel with input := kernel.input.push line } else none

/-- What comes of asking for the next message. -/
inductive Received where
  | message (message : Message)
  /-- There is no message, and no worker that could send one. -/
  | notRunning
  /-- There is no message yet. -/
  | pending

/-- Takes the oldest message, if there is one. -/
def takeMessage? (kernel : Kernel) : Option (Message × Kernel) :=
  kernel.output.pop?.map fun (message, rest) => (message, { kernel with output := rest })

/-- Asks for the oldest message once. -/
def receive (kernel : Kernel) : Received × Kernel :=
  match kernel.takeMessage? with
  | some (message, kernel) => (.message message, kernel)
  | none => (if kernel.isAttended then .pending else .notRunning, kernel)

/-! ## What the steps of the controller do -/

section Operations

variable {kernel next : Kernel}

theorem eq_of_submit? {line : String} (h_submit : kernel.submit? line = some next) :
    kernel.isRunning ∧ next = { kernel with input := kernel.input.push line } := by
  unfold submit? at h_submit
  split at h_submit
  case isTrue h_running => exact ⟨h_running, (Option.some.inj h_submit).symm⟩
  case isFalse => cases h_submit

theorem eq_of_takeMessage? {message : Message} (h_take : kernel.takeMessage? = some (message, next)) :
    ∃ rest, kernel.output.items = message :: rest ∧ next = { kernel with output := ⟨rest⟩ } := by
  obtain ⟨⟨message', rest⟩, h_pop, h_eq⟩ := Option.map_eq_some_iff.mp h_take
  cases h_eq
  exact ⟨rest.items, Queue.pop?_eq_some_iff.mp h_pop, rfl⟩

theorem takeMessage?_eq_none_iff : kernel.takeMessage? = none ↔ kernel.output.items = [] := by
  rw [takeMessage?, Option.map_eq_none_iff, Queue.pop?_eq_none_iff]

theorem eq_of_join? (h_join : kernel.join? = some next) :
    ∃ environment, kernel.worker = some ⟨environment, .ended⟩ ∧
      next = { kernel with worker := none, snapshot := some environment } := by
  unfold join? at h_join
  split at h_join
  · rename_i environment h_worker
    exact ⟨environment, h_worker, (Option.some.inj h_join).symm⟩
  · cases h_join

theorem isRunning_eq_false_iff : kernel.isRunning = false ↔ kernel.worker = none := by
  rw [isRunning, Option.isSome_eq_false_iff, Option.isNone_iff_eq_none]

/-- A start of a kernel without a worker puts one there. -/
theorem start_of_worker_eq_none (env : Environment) (h_worker : kernel.worker = none) :
    kernel.start env = { kernel with
      flag := true
      worker := some { environment := kernel.snapshot.getD env }
      snapshot := none } := by
  simp only [start, h_worker]

theorem start_of_isRunning (env : Environment) (h_running : kernel.isRunning) :
    kernel.start env = kernel := by
  obtain ⟨worker, h_worker⟩ := Option.isSome_iff_exists.mp h_running
  simp only [start, h_worker]

/-- A start for which there is no thread leaves a kernel that has no environment. -/
theorem start_of_refused (env : Environment) (reason : String) (h_stopped : kernel.isRunning = false) :
    kernel.start env (some reason) = { kernel with flag := false, snapshot := none } := by
  simp only [start, isRunning_eq_false_iff.mp h_stopped]

/-- Without an error, it makes no difference what the system would have said. -/
theorem start_of_startError?_eq_none {refusal : Option String} (env : Environment)
    (h_error : kernel.startError? refusal = none) : kernel.start env refusal = kernel.start env := by
  rcases h_worker : kernel.worker with _ | worker
  · obtain rfl : refusal = none := by
      simpa [startError?, isRunning, h_worker] using h_error
    rfl
  · simp only [start, h_worker]

theorem eq_of_startError?_eq_some {refusal : Option String} {error : KernelError}
    (h_error : kernel.startError? refusal = some error) :
    kernel.isRunning = false ∧ ∃ reason, refusal = some reason ∧ error = .spawn reason := by
  unfold startError? at h_error
  split at h_error
  case isTrue => cases h_error
  case isFalse h_stopped =>
    obtain ⟨reason, rfl, rfl⟩ := Option.map_eq_some_iff.mp h_error
    exact ⟨Bool.eq_false_iff.mpr h_stopped, reason, rfl, rfl⟩

end Operations

/-! ## Steps of the worker -/

/-- The bindings to publish along with a message. A line that failed publishes none. -/
def published (message : Message) (environment : Environment) : List (String × Expression) :=
  if message.isError then [] else environment.userBindings

/-- An order in which bindings are gone through, which in a hash table may be any. -/
abbrev BindingOrder := List (String × Expression) → List (String × Expression)

/-- The next step of the worker. There is none without a worker, when it has ended, and when the
line it is to answer has no answer. -/
def advance (answer : Answerer) (kernel : Kernel) (order : BindingOrder := id) : Option Kernel :=
  match kernel.worker with
  | none => none
  | some worker =>
    let turn (phase : Phase) : Option Worker := some { worker with phase }
    match worker.phase with
    | .checking =>
      some { kernel with worker := turn (if kernel.flag then .polling else .ended) }
    | .polling =>
      match kernel.input.pop? with
      | some (line, rest) => some { kernel with input := rest, worker := turn (.answering line) }
      | none => some { kernel with worker := turn .checking }
    | .answering line =>
      (answer worker.environment line).map fun attempt =>
        let left := order (published attempt.message attempt.environment)
        let phase := .publishing line left attempt.message
        { kernel with worker := some { environment := attempt.environment, phase } }
    | .publishing line ((name, value) :: left) message =>
      some { kernel with
        bindings := (kernel.bindings.insert name value).2
        worker := turn (.publishing line left message) }
    | .publishing _ [] message =>
      some { kernel with output := kernel.output.push message, worker := turn .checking }
    | .ended => none

end Kernel

end PlotLisp
