import PlotLisp.Evaluation

/-!
# Outcomes of computations

What a computation gives, when it ends: a value of some sort, or an error of some sort. Where an
evaluation is concerned, something may be known of the environment that it is begun in, and the same
is then to be shown of the one that it leaves.

* `Fulfils E Q outcome` says of an outcome that it is a value with `Q` or an error with `E`.
* `Upholds I E Q computation` says that a computation begun where `I` holds ends where `I` holds,
  with an outcome of that sort.

Both have a rule for each way of combining computations.
-/

namespace PlotLisp

/-! ## Outcomes -/

section Outcomes

variable {α β : Type} {E F : SemanticError → Prop} {Q R : α → Prop}

/-- The value satisfies `Q`, or the error satisfies `E`. -/
def Fulfils (E : SemanticError → Prop) (Q : α → Prop) : Except SemanticError α → Prop
  | .ok a => Q a
  | .error error => E error

namespace Fulfils

theorem mono {outcome : Except SemanticError α} (h_outcome : Fulfils E Q outcome)
    (h_sub : ∀ a, Q a → R a) : Fulfils E R outcome := by
  cases outcome with
  | ok a => exact h_sub a h_outcome
  | error error => exact h_outcome

theorem mono_error {outcome : Except SemanticError α} (h_outcome : Fulfils E Q outcome)
    (h_sub : ∀ error, E error → F error) : Fulfils F Q outcome := by
  cases outcome with
  | ok a => exact h_outcome
  | error error => exact h_sub error h_outcome

theorem bind {outcome : Except SemanticError α} {next : α → Except SemanticError β} {S : β → Prop}
    (h_first : Fulfils E Q outcome) (h_next : ∀ a, Q a → Fulfils E S (next a)) :
    Fulfils E S (outcome >>= next) := by
  cases outcome with
  | ok a => exact h_next a h_first
  | error error => exact h_first

theorem forM {f : α → Except SemanticError Unit} {items : List α}
    (h_each : ∀ a ∈ items, Fulfils E (fun _ => R a) (f a)) :
    Fulfils E (fun _ => ∀ a ∈ items, R a) (items.forM f) := by
  induction items with
  | nil => exact nofun
  | cons a rest ih =>
    obtain ⟨h_first, h_rest⟩ := List.forall_mem_cons.mp h_each
    refine h_first.bind fun _ h_a => (ih h_rest).mono fun _ h_others => ?_
    exact List.forall_mem_cons.mpr ⟨h_a, h_others⟩

theorem foldlM {f : β → α → Except SemanticError β} {S : β → Prop} {items : List α} {start : β}
    (h_start : S start) (h_each : ∀ b, S b → ∀ a ∈ items, Fulfils E S (f b a)) :
    Fulfils E S (items.foldlM f start) := by
  induction items generalizing start with
  | nil => exact h_start
  | cons a rest ih =>
    rw [List.foldlM_cons]
    refine (h_each start h_start a List.mem_cons_self).bind fun b h_b => ?_
    exact ih h_b fun b h_b a h_a => h_each b h_b a (List.mem_cons_of_mem _ h_a)

end Fulfils

/-! ### Successes -/

/-- What is done in two steps succeeds if both succeed. -/
theorem outcome_bind_eq_ok {outcome : Except SemanticError α} {next : α → Except SemanticError β}
    {b : β} : outcome >>= next = .ok b ↔ ∃ a, outcome = .ok a ∧ next a = .ok b := by
  cases outcome with
  | error error => exact ⟨nofun, nofun⟩
  | ok a =>
    constructor
    · intro h_next
      exact ⟨a, rfl, h_next⟩
    · intro h_steps
      obtain ⟨first, h_first, h_next⟩ := h_steps
      rw [← Except.ok.inj h_first] at h_next
      exact h_next

/-- All checks pass if each of them does. -/
theorem outcome_forM_eq_ok {f : α → Except SemanticError Unit} {items : List α} :
    items.forM f = .ok () ↔ ∀ a ∈ items, f a = .ok () := by
  induction items with
  | nil => exact ⟨fun _ => nofun, fun _ => rfl⟩
  | cons a rest ih =>
    show (f a >>= fun _ => rest.forM f) = .ok () ↔ _
    rw [outcome_bind_eq_ok, List.forall_mem_cons, ih]
    exact ⟨fun ⟨_, h_checks⟩ => h_checks, fun h_checks => ⟨(), h_checks⟩⟩

end Outcomes

namespace Evaluation

variable {α β : Type} {I : Environment → Prop} {E : SemanticError → Prop} {Q R : α → Prop}

/-! ## Computations -/

/-- Begun where `I` holds, the computation ends, if it does, where `I` holds, with a value of `Q` or
an error of `E`. -/
def Upholds (I : Environment → Prop) (E : SemanticError → Prop) (Q : α → Prop)
    (computation : Evaluation α) : Prop :=
  ∀ env result left, I env → computation env = some (result, left) → I left ∧ Fulfils E Q result

namespace Upholds

theorem pure {a : α} (h_a : Q a) : Upholds I E Q (pure a : Evaluation α) := by
  intro env result left h_env h
  cases h
  exact ⟨h_env, h_a⟩

theorem fail {error : SemanticError} (h_error : E error) :
    Upholds I E Q (fail error : Evaluation α) := by
  intro env result left h_env h
  cases h
  exact ⟨h_env, h_error⟩

theorem ofExcept {outcome : Except SemanticError α} (h_outcome : Fulfils E Q outcome) :
    Upholds I E Q (ofExcept outcome) := by
  intro env result left h_env h
  cases h
  exact ⟨h_env, h_outcome⟩

/-- What is read off the environment is read off one in which `I` holds. -/
theorem environment_bind {next : Environment → Evaluation α}
    (h_next : ∀ env, I env → Upholds I E Q (next env)) : Upholds I E Q (environment >>= next) :=
  fun env result left h_env h => h_next env h_env env result left h_env h

theorem bind {computation : Evaluation α} {next : α → Evaluation β} {S : β → Prop}
    (h_first : Upholds I E Q computation) (h_next : ∀ a, Q a → Upholds I E S (next a)) :
    Upholds I E S (computation >>= next) := by
  intro env result left h_env h
  rw [bind_apply] at h
  rcases h_run : computation env with _ | ⟨error | a, middle⟩
  · simp [h_run] at h
  · rw [h_run] at h
    cases h
    exact h_first env _ _ h_env h_run
  · obtain ⟨h_middle, h_a⟩ := h_first env _ _ h_env h_run
    rw [h_run] at h
    exact h_next a h_a middle _ _ h_middle h

theorem update {change : Environment → Except SemanticError Environment}
    (h_change : ∀ env, I env → Fulfils E I (change env)) :
    Upholds I E (fun _ => True) (update change) := by
  intro env result left h_env h
  have h_changed := h_change env h_env
  rcases h_run : change env with error | changed <;>
    simp only [Evaluation.update, h_run, Option.some.injEq, Prod.mk.injEq] at h <;>
    rw [h_run] at h_changed <;> obtain ⟨rfl, rfl⟩ := h
  · exact ⟨h_env, h_changed⟩
  · exact ⟨h_changed, trivial⟩

theorem mapM {f : α → Evaluation β} {S : β → Prop} {items : List α}
    (h_each : ∀ a ∈ items, Upholds I E S (f a)) :
    Upholds I E (fun results => ∀ b ∈ results, S b) (items.mapM f) := by
  induction items with
  | nil => exact .pure nofun
  | cons a rest ih =>
    obtain ⟨h_first, h_rest⟩ := List.forall_mem_cons.mp h_each
    rw [List.mapM_cons]
    refine h_first.bind fun b h_b => (ih h_rest).bind fun others h_others => .pure ?_
    exact List.forall_mem_cons.mpr ⟨h_b, h_others⟩

theorem forM {f : α → Evaluation Unit} {items : List α}
    (h_each : ∀ a ∈ items, Upholds I E (fun _ => True) (f a)) :
    Upholds I E (fun _ => True) (items.forM f) := by
  induction items with
  | nil => exact .pure trivial
  | cons a rest ih =>
    obtain ⟨h_first, h_rest⟩ := List.forall_mem_cons.mp h_each
    exact h_first.bind fun _ _ => ih h_rest

/-- Inside of a frame something else may be known, which opening the frame makes true and from which
closing it leads back. -/
theorem inFrame {J : Environment → Prop} {computation : Evaluation α}
    (h_open : ∀ env, I env → J env.pushFrame) (h_inner : Upholds J E Q computation)
    (h_close : ∀ inner, J inner → I inner.popFrame) : Upholds I E Q (inFrame computation) := by
  intro env result left h_env h
  rw [Evaluation.inFrame] at h
  rcases h_run : computation env.pushFrame with _ | ⟨outcome, inner⟩
  · simp [h_run] at h
  · simp only [h_run, Option.some.injEq, Prod.mk.injEq] at h
    obtain ⟨rfl, rfl⟩ := h
    obtain ⟨h_left, h_outcome⟩ := h_inner _ _ _ (h_open env h_env) h_run
    exact ⟨h_close inner h_left, h_outcome⟩

end Upholds

end Evaluation

end PlotLisp
