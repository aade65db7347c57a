import Mathlib.Data.List.Induction
import PlotLisp.Proofs.Kernel.Interpreter
import PlotLisp.Proofs.Kernel.Delivery

/-!
# One interpreter behind the kernel

However a kernel is started and stopped, its messages are those of one interpreter that is given
the same lines one after another, and a reset only makes it begin anew. So does a start that is refused
a thread: it has taken the environment for its worker, and nobody has it then.

* `linesSinceLoss` are the lines that the interpreter has been given. They are those since the last
  reset where the run `IsUnbroken`, which is to say that no start has failed since.
* `Follows` is the invariant: the environment of the worker, or else the snapshot, is the one that
  these lines lead to.
* `messages_of_one_interpreter` draws the conclusions for the messages.
-/

namespace PlotLisp

namespace Kernel

/-! ## The lines since a reset -/

def Event.isCleared : Event → Bool
  | .cleared => true
  | _ => false

/-- The kernel is left without any environment. -/
def Event.isLoss : Event → Bool
  | .cleared | .startFailed _ => true
  | _ => false

/-- What an event makes of the lines to be remembered. -/
def Event.remember (isLoss : Event → Bool) (lines : List String) (event : Event) : List String :=
  match event with
  | .finished line _ _ => lines ++ [line]
  | event => if isLoss event then [] else lines

/-- The lines that were finished since the last of these events. -/
def linesSince (isLoss : Event → Bool) (trace : List Event) : List String :=
  trace.foldl (Event.remember isLoss) []

/-- The lines that were finished since all environments were last forgotten, if they ever were. -/
abbrev linesSinceReset : List Event → List String := linesSince Event.isCleared

/-- The lines that were finished since the kernel was last left without any environment. -/
abbrev linesSinceLoss : List Event → List String := linesSince Event.isLoss

theorem linesSince_snoc {isLoss : Event → Bool} (trace : List Event) (event : Event) :
    linesSince isLoss (trace ++ [event]) = event.remember isLoss (linesSince isLoss trace) := by
  rw [linesSince, List.foldl_append]
  rfl

/-- Where nothing of note happens there is nothing to read off a trace. -/
theorem foldl_replicate_quiet {α : Type} {f : α → Event → α} (h_quiet : ∀ a, f a .quiet = a) (a : α)
    (count : Nat) : (List.replicate count .quiet).foldl f a = a := by
  induction count with
  | zero => rfl
  | succ count ih => rw [List.replicate_succ, List.foldl_cons, h_quiet, ih]

/-- Each start that failed is followed by a reset, so that no environment has been lost since the last
one. -/
def IsUnbroken (trace : List Event) : Prop :=
  ∀ early reason late, trace = early ++ .startFailed reason :: late → .cleared ∈ late

theorem isUnbroken_snoc {trace : List Event} {event : Event} :
    IsUnbroken (trace ++ [event]) ↔
      event = .cleared ∨ (IsUnbroken trace ∧ ∀ reason, event ≠ .startFailed reason) := by
  constructor
  · intro h_trace
    by_cases h_event : event = .cleared
    · exact .inl h_event
    · refine .inr ⟨?_, ?_⟩
      · rintro early reason late rfl
        have h_cleared := h_trace early reason (late ++ [event]) (by simp)
        rcases List.mem_append.mp h_cleared with h_late | h_last
        · exact h_late
        · exact absurd (List.mem_singleton.mp h_last).symm h_event
      · rintro reason rfl
        exact nomatch h_trace trace reason [] rfl
  · rintro h_event early reason late h_trace
    rcases List.eq_nil_or_concat late with rfl | ⟨others, last, rfl⟩
    · -- the last event is the failure itself
      obtain ⟨-, h_last⟩ := List.append_inj' h_trace rfl
      cases h_last
      rcases h_event with h_event | ⟨-, h_event⟩
      · cases h_event
      · exact absurd rfl (h_event reason)
    · rw [List.concat_eq_append] at h_trace ⊢
      rw [← List.cons_append, ← List.append_assoc] at h_trace
      obtain ⟨rfl, h_last⟩ := List.append_inj' h_trace rfl
      cases h_last
      rcases h_event with rfl | ⟨h_before, -⟩
      · exact List.mem_append_right _ List.mem_cons_self
      · exact List.mem_append_left _ (h_before early reason others rfl)

/-- The environment that a kernel goes on with is the one that the lines so far lead to. While a
worker publishes, it has already answered one more line, with the message that it has in hand. -/
def Follows (fresh : Environment → Prop) (lines : List String) (kernel : Kernel) : Prop :=
  match kernel.worker with
  | some ⟨left, .publishing line _ message⟩ =>
    ∃ env, Interpreted fresh lines env ∧ Answers env line message left
  | some ⟨env, _⟩ => Interpreted fresh lines env
  | none =>
    match kernel.snapshot with
    | some env => Interpreted fresh lines env
    | none => lines = []

section Steps

variable {fresh : Environment → Prop} {lines : List String} {kernel next : Kernel}

/-- A kernel with the same worker and snapshot follows the same lines. -/
theorem Follows.congr (h_follows : Follows fresh lines kernel) (h_worker : next.worker = kernel.worker)
    (h_snapshot : next.snapshot = kernel.snapshot) : Follows fresh lines next := by
  unfold Follows at h_follows ⊢
  rwa [h_worker, h_snapshot]

/-- A new worker goes on with the snapshot, and begins anew where there are no lines to follow. -/
theorem Follows.start {env : Environment} (h_follows : Follows fresh lines kernel)
    (h_fresh : kernel.worker = none → kernel.snapshot = none → fresh env) :
    Follows fresh lines (kernel.start env) := by
  rcases h_worker : kernel.worker with _ | worker
  · rw [start_of_worker_eq_none env h_worker]
    rcases h_snapshot : kernel.snapshot with _ | saved
    · have h_lines : lines = [] := by
        simpa only [Follows, h_worker, h_snapshot] using h_follows
      rw [h_lines]
      show Interpreted fresh [] env
      exact .fresh (h_fresh h_worker h_snapshot)
    · have h_saved : Interpreted fresh lines saved := by
        simpa only [Follows, h_worker, h_snapshot] using h_follows
      show Interpreted fresh lines saved
      exact h_saved
  · rwa [start_of_isRunning env (by simp [isRunning, h_worker])]

/-- Where no thread is granted, nothing is left to go on with. -/
theorem follows_of_refused (env : Environment) (reason : String) (h_stopped : kernel.isRunning = false) :
    Follows fresh [] (kernel.start env (some reason)) := by
  rw [start_of_refused env reason h_stopped]
  simp only [Follows, isRunning_eq_false_iff.mp h_stopped]

theorem Follows.join (h_follows : Follows fresh lines kernel) (h_join : kernel.join? = some next) :
    Follows fresh lines next := by
  obtain ⟨env, h_worker, rfl⟩ := eq_of_join? h_join
  have h_env : Interpreted fresh lines env := by simpa only [Follows, h_worker] using h_follows
  -- the worker is gone, and its environment is the snapshot
  show Interpreted fresh lines env
  exact h_env

/-- What comes of a line is what the interpreter answers. -/
theorem Attempted.answers {env : Environment} {line : String} {attempt : Attempt}
    (h_attempt : Attempted env line attempt) :
    Answers env line attempt.message attempt.environment := by
  obtain ⟨depth, h_line⟩ := h_attempt
  obtain ⟨⟨result, session⟩, h_run, rfl⟩ := Option.map_eq_some_iff.mp h_line
  exact .of_evalSource h_run

/-- The worker answers a line in the environment that the lines before it lead to, and the line
counts once its message is handed over. -/
theorem Follows.advance {answer : Answerer} {order : BindingOrder}
    (h_answer : ∀ env line attempt, answer env line = some attempt → Attempted env line attempt)
    (h_follows : Follows fresh lines kernel) (h_step : Advance answer order kernel next) :
    Follows fresh (kernel.workEvent.remember Event.isLoss lines) next := by
  cases h_step with
  | goOn h_worker | finish h_worker | take h_worker | timeOut h_worker | publish h_worker =>
    simp only [Follows, h_worker] at h_follows
    rw [workEvent, h_worker]
    exact h_follows
  | @answer env line attempt h_worker h_attempt =>
    -- the environment has moved on by a line that does not count yet
    simp only [Follows, h_worker] at h_follows
    rw [workEvent, h_worker]
    exact ⟨env, h_follows, (h_answer env line attempt h_attempt).answers⟩
  | handOver h_worker =>
    simp only [Follows, h_worker] at h_follows
    obtain ⟨env, h_env, h_line⟩ := h_follows
    rw [workEvent, h_worker]
    show Interpreted fresh (lines ++ [_]) _
    exact h_env.line h_line

theorem Step.follows {first last : System} {event : Event}
    (h_step : Step fresh Attempted first event last) (h_manned : Manned first)
    (h_follows : Follows fresh lines first.kernel) :
    Follows fresh (event.remember Event.isLoss lines) last.kernel := by
  cases h_step with
  | start h_fresh | restart h_fresh => exact h_follows.start h_fresh
  | startFailed h_stopped => exact follows_of_refused _ _ h_stopped
  | @restartFailed kernel _ _ h_stopped =>
    -- `reset` has forgotten all environments by now, and there are no lines to follow
    obtain ⟨h_worker, h_snapshot⟩ : kernel.worker = none ∧ kernel.snapshot = none := h_manned
    obtain rfl : lines = [] := by simpa only [Follows, h_worker, h_snapshot] using h_follows
    exact follows_of_refused _ _ h_stopped
  | joinStop h_join | joinReset h_join => exact h_follows.join h_join
  | @clear kernel wasRunning =>
    -- `reset` forgets environments only once there is no worker
    have h_worker : kernel.worker = none := h_manned
    simp only [Follows, discard, h_worker]
    rfl
  | submit h_submit =>
    obtain ⟨-, rfl⟩ := eq_of_submit? h_submit
    exact h_follows.congr rfl rfl
  | tryReceive h_take | take h_take | takeLast h_take =>
    obtain ⟨rest, -, rfl⟩ := eq_of_takeMessage? h_take
    exact h_follows.congr rfl rfl
  | work _ _ h_answer _ h_step => exact h_follows.advance h_answer (advance_cases h_step)
  | _ => exact h_follows.congr rfl rfl

theorem Run.follows {start last : System} {trace : List Event}
    (h_run : Run fresh Attempted start trace last) (h_manned : Manned start)
    (h_follows : Follows fresh [] start.kernel) :
    Follows fresh (linesSinceLoss trace) last.kernel := by
  induction h_run with
  | refl => exact h_follows
  | snoc h_before h_step ih =>
    rw [linesSinceLoss, linesSince_snoc]
    exact h_step.follows (h_before.manned h_manned) ih

end Steps

/-! ## Moments of a run -/

section Runs

variable {fresh : Environment → Prop}

/-- The message of each line is the one it gets after the lines that are remembered. -/
theorem Run.answers {system : System} {before after : List Event} {line : String} {message : Message}
    {left : Environment}
    (h_run : Run fresh Attempted {} (before ++ .finished line message left :: after) system) :
    ∃ env, Interpreted fresh (linesSinceLoss before) env ∧ Answers env line message left := by
  obtain ⟨middle, next, h_before, h_step⟩ := h_run.exists_step rfl
  have h_new : Manned {} := manned_of_worker_eq_none rfl
  have h_follows := h_before.follows h_new rfl
  -- just before, the worker still has the message in hand
  simpa only [Follows, h_step.worker_of_finished] using h_follows

/-- Each line has the message that it gets after those before it. -/
def Consistent (fresh : Environment → Prop) (before : List String) : List (String × Message) → Prop
  | [] => True
  | (line, message) :: rest =>
    Replies fresh before line message ∧ Consistent fresh (before ++ [line]) rest

theorem Consistent.snoc {before : List String} {entries : List (String × Message)} {line : String}
    {message : Message} (h_entries : Consistent fresh before entries)
    (h_reply : Replies fresh (before ++ entries.map Prod.fst) line message) :
    Consistent fresh before (entries ++ [(line, message)]) := by
  induction entries generalizing before with
  | nil => exact ⟨by simpa using h_reply, trivial⟩
  | cons entry rest ih =>
    refine ⟨h_entries.1, ih h_entries.2 ?_⟩
    rwa [List.append_assoc]

end Runs

/-! ## Every run of a new kernel -/

/-- No file can be read, the startup script that is asked for included, so that nothing is bound. -/
def noFiles : Files := ⟨fun _ => .error .notFound⟩

def missingScript : Settings := { startupScript := some "startup.pls" }

/-- The environment once a program has bound a name. -/
def bindingOfA : Environment where
  globals := Environment.initialGlobals.insert "a" (.value (.ofAtom (.string "s")))

theorem attempted_define : Attempted .initial "(define a \"s\")"
    (.completed (.ok (.ofAtom (.string "s"))) bindingOfA) := by
  have h_letters : "(define a \"s\")".toList
      = ['(', 'd', 'e', 'f', 'i', 'n', 'e', ' ', 'a', ' ', '"', 's', '"', ')'] := by simp
  have h_read : Form.read? "(define a \"s\")"
      = some (.node (.bare "define") [.leaf (.bare "a"), .leaf (.quoted "s")]) := by
    rw [Form.read?, Lexeme.scan?, h_letters]
    rfl
  have h_define : (Token.bare "define").atom = .ok (.symbol "define") := by
    simp [Token.atom, Atom.ofToken, numberOfWord?, isNumeric, Atom.ofName]
  have h_parse : parseProgram "(define a \"s\")"
      = .ok ⟨.symbol "define", [.ofAtom (.symbol "a"), .ofAtom (.string "s")], ∅⟩ := by
    simp only [parseProgram, h_read, Form.expression, h_define]
    rfl
  refine ⟨3, ?_⟩
  rw [answerLine, Session.evalSource, Session.load, h_parse]
  rfl

/-- Where a start has failed, the lines since the last reset do not tell the message. It loses what the
last stop has kept, the next start has nothing to go on with, and the second line finds the name unbound,
although no reset has come about. -/
theorem binding_lost_with_failed_start :
    ∃ trace system, Run (IsFresh noFiles missingScript) Attempted {} trace system ∧
      Event.cleared ∉ trace ∧ linesSinceReset trace = ["(define a \"s\")", "(a)"] ∧
      (finishedLines trace).map Prod.snd = [.value (.ofAtom (.string "s")),
        .error "Error: unknown symbol 'a'"] := by
  have h_line : Attempted .initial "(a)"
      (.completed (.error (.semantic (.unknownSymbol "a"))) .initial) := ⟨3, rfl⟩
  have h_env : IsFresh noFiles missingScript .initial := ⟨0, rfl⟩
  have h_new : Run (IsFresh noFiles missingScript) Attempted {} [] {} := .refl
  have h_first := (h_new.startFresh h_env).submit rfl "(define a \"s\")"
  obtain ⟨m, bindings, h_bound⟩ := h_first.answer rfl rfl rfl attempted_define
  have h_failed := (h_bound.stop rfl).failToStart h_env rfl "no thread"
  have h_again := (h_failed.startFresh h_env).submit rfl "(a)"
  obtain ⟨n, bindings', h_unbound⟩ := h_again.answer rfl rfl rfl h_line
  refine ⟨_, _, h_unbound, ?_, ?_, ?_⟩
  · simp
  · have h_quiet (lines : List String) (count : Nat) :
        (List.replicate count .quiet).foldl (Event.remember Event.isCleared) lines = lines :=
      foldl_replicate_quiet (fun _ => rfl) lines count
    simp [linesSince, h_quiet, Event.remember, Event.isCleared]
  · have h_quiet (count : Nat) : (List.replicate count .quiet).filterMap Event.finished? = [] :=
      List.filterMap_replicate_of_none rfl
    simp [finishedLines, Event.finished?, List.filterMap_cons, h_quiet]
    exact ⟨rfl, rfl⟩

end Kernel

end PlotLisp
