import Mathlib.Data.List.Forall2
import PlotLisp.Evaluation

/-!
# Two runs side by side

Two computations, each on an environment of its own, that take the same course: both end or neither
does, and where they end they come to the same error or to values that are related.

* `Corresponds V` says of two outcomes that they are the same error, or values related by `V`.
* `InStep I R V` says of two computations that they take the same course wherever they are begun in
  environments related by `I`, and that `I` relates what they leave. `R` relates what each of them
  leaves to what it was begun in, with no regard to the other.

Both have a rule for each way of combining computations.
-/

namespace PlotLisp

/-! ## Outcomes -/

/-- The same error, or two values that are related. -/
inductive Corresponds {α β : Type} (V : α → β → Prop) :
    Except SemanticError α → Except SemanticError β → Prop where
  | ok {a b} (h_values : V a b) : Corresponds V (.ok a) (.ok b)
  | error (error) : Corresponds V (.error error) (.error error)

namespace Corresponds

variable {α β γ δ : Type} {V W : α → β → Prop} {S : γ → δ → Prop}
  {first : Except SemanticError α} {second : Except SemanticError β}

theorem of_eq (outcome : Except SemanticError α) : Corresponds (· = ·) outcome outcome := by
  cases outcome with
  | ok a => exact .ok rfl
  | error error => exact .error error

theorem eq {first second : Except SemanticError α} (h_outcomes : Corresponds (· = ·) first second) :
    first = second := by
  cases h_outcomes with
  | ok h_same => rw [h_same]
  | error => rfl

theorem mono (h_outcomes : Corresponds V first second) (h_sub : ∀ a b, V a b → W a b) :
    Corresponds W first second := by
  cases h_outcomes with
  | ok h_values => exact .ok (h_sub _ _ h_values)
  | error error => exact .error error

theorem bind {next : α → Except SemanticError γ} {next' : β → Except SemanticError δ}
    (h_first : Corresponds V first second)
    (h_next : ∀ a b, V a b → Corresponds S (next a) (next' b)) :
    Corresponds S (first >>= next) (second >>= next') := by
  cases h_first with
  | ok h_values => exact h_next _ _ h_values
  | error error => exact .error error

/-- What goes on from the same outcome. -/
theorem bind_of_eq {outcome outcome' : Except SemanticError α} {next : α → Except SemanticError γ}
    {next' : α → Except SemanticError δ} (h_same : outcome = outcome')
    (h_next : ∀ a, Corresponds S (next a) (next' a)) :
    Corresponds S (outcome >>= next) (outcome' >>= next') := by
  rw [← h_same]
  cases outcome with
  | ok a => exact h_next a
  | error error => exact .error error

theorem forM {f : α → Except SemanticError Unit} {g : β → Except SemanticError Unit}
    {items : List α} {others : List β} (h_items : List.Forall₂ V items others)
    (h_each : ∀ a b, V a b → Corresponds (fun _ _ => True) (f a) (g b)) :
    Corresponds (fun _ _ => True) (items.forM f) (others.forM g) := by
  induction h_items with
  | nil => exact .ok trivial
  | cons h_first _ ih => exact (h_each _ _ h_first).bind fun _ _ _ => ih

theorem foldlM {f : γ → α → Except SemanticError γ} {g : δ → β → Except SemanticError δ}
    {items : List α} {others : List β} {start : γ} {start' : δ}
    (h_items : List.Forall₂ V items others) (h_start : S start start')
    (h_each : ∀ c d a b, S c d → V a b → Corresponds S (f c a) (g d b)) :
    Corresponds S (items.foldlM f start) (others.foldlM g start') := by
  induction h_items generalizing start start' with
  | nil => exact .ok h_start
  | cons h_first _ ih =>
    rw [List.foldlM_cons, List.foldlM_cons]
    exact (h_each _ _ _ _ h_start h_first).bind fun _ _ h_next => ih h_next

end Corresponds

namespace Evaluation

variable {α β γ δ : Type} {I R : Environment → Environment → Prop} {V : α → β → Prop}

/-! ## Computations -/

/-- What a computation comes to, if it ends, against what another comes to: related by `I` and
`V`, and by `R` to the environments that the two were begun in. -/
def Ends (I R : Environment → Environment → Prop) (V : α → β → Prop) (env other : Environment) :
    Option (Except SemanticError α × Environment) →
      Option (Except SemanticError β × Environment) → Prop :=
  Option.Rel fun first second =>
    Corresponds V first.1 second.1 ∧ I first.2 second.2 ∧ R env first.2 ∧ R other second.2

/-- Begun in environments related by `I`, the two computations take the same course. -/
def InStep (I R : Environment → Environment → Prop) (V : α → β → Prop) (first : Evaluation α)
    (second : Evaluation β) : Prop :=
  ∀ env other, I env other → Ends I R V env other (first env) (second other)

/-! ## Computations that leave the environment alone -/

/-- What is read off the two environments is read off related ones. -/
theorem InStep.environment_bind {next : Environment → Evaluation α}
    {next' : Environment → Evaluation β}
    (h_next : ∀ env other, I env other → InStep I R V (next env) (next' other)) :
    InStep I R V (environment >>= next) (environment >>= next') :=
  fun env other h_env => h_next env other h_env env other h_env

section Untouched

variable [Std.Refl R]

theorem InStep.ofExcept {first : Except SemanticError α} {second : Except SemanticError β}
    (h_outcomes : Corresponds V first second) :
    InStep I R V (ofExcept first) (ofExcept second) := by
  intro env other h_env
  exact .some ⟨h_outcomes, h_env, refl env, refl other⟩

theorem InStep.pure {a : α} {b : β} (h_values : V a b) :
    InStep I R V (pure a : Evaluation α) (pure b) := InStep.ofExcept (.ok h_values)

theorem InStep.fail (error : SemanticError) :
    InStep I R V (fail error : Evaluation α) (fail error : Evaluation β) :=
  InStep.ofExcept (.error error)

/-- A change that is refused on one side is refused on the other, for the same reason. -/
theorem InStep.update {change change' : Environment → Except SemanticError Environment}
    (h_change : ∀ env other, I env other →
      Corresponds (fun changed changed' => I changed changed' ∧ R env changed ∧ R other changed')
        (change env) (change' other)) :
    InStep I R (fun _ _ => True) (update change) (update change') := by
  intro env other h_env
  have h_changed := h_change env other h_env
  unfold Evaluation.update
  generalize change env = first at h_changed
  generalize change' other = second at h_changed
  cases h_changed with
  | ok h_related => exact .some ⟨.ok trivial, h_related⟩
  | error error => exact .some ⟨.error error, h_env, refl env, refl other⟩

end Untouched

/-! ## Computations one after another -/

section Chained

variable [IsTrans Environment R] {S : γ → δ → Prop}

theorem Ends.before {env other middle middle' : Environment}
    {first : Option (Except SemanticError α × Environment)}
    {second : Option (Except SemanticError β × Environment)}
    (h_ends : Ends I R V middle middle' first second) (h_effect : R env middle)
    (h_effect' : R other middle') : Ends I R V env other first second := by
  cases h_ends with
  | none => exact .none
  | some h_both =>
    obtain ⟨h_outcomes, h_left, h_later, h_later'⟩ := h_both
    exact .some ⟨h_outcomes, h_left, IsTrans.trans _ _ _ h_effect h_later,
      IsTrans.trans _ _ _ h_effect' h_later'⟩

theorem InStep.bind {first : Evaluation α} {second : Evaluation β} {next : α → Evaluation γ}
    {next' : β → Evaluation δ} (h_first : InStep I R V first second)
    (h_next : ∀ a b, V a b → InStep I R S (next a) (next' b)) :
    InStep I R S (first >>= next) (second >>= next') := by
  intro env other h_env
  have h_ends := h_first env other h_env
  rw [bind_apply, bind_apply]
  generalize first env = end₁ at h_ends
  generalize second other = end₂ at h_ends
  cases h_ends with
  | none => exact .none
  | @some end₁ end₂ h_both =>
  obtain ⟨outcome, left⟩ := end₁
  obtain ⟨outcome', left'⟩ := end₂
  obtain ⟨h_outcomes, h_left, h_effect, h_effect'⟩ := h_both
  cases h_outcomes with
  | error error => exact .some ⟨.error error, h_left, h_effect, h_effect'⟩
  | ok h_values =>
    -- what the second part does is done to what the first part left
    exact (h_next _ _ h_values left left' h_left).before h_effect h_effect'

variable [Std.Refl R]

theorem InStep.mapM {f : α → Evaluation γ} {g : β → Evaluation δ} {items : List α}
    {others : List β} (h_items : List.Forall₂ V items others)
    (h_each : ∀ a b, V a b → InStep I R S (f a) (g b)) :
    InStep I R (List.Forall₂ S) (items.mapM f) (others.mapM g) := by
  induction h_items with
  | nil => exact .pure .nil
  | cons h_first _ ih =>
    rw [List.mapM_cons, List.mapM_cons]
    refine (h_each _ _ h_first).bind fun _ _ h_result => ?_
    exact ih.bind fun _ _ h_results => .pure (.cons h_result h_results)

theorem InStep.forM {f : α → Evaluation Unit} {g : β → Evaluation Unit} {items : List α}
    {others : List β} (h_items : List.Forall₂ V items others)
    (h_each : ∀ a b, V a b → InStep I R (fun _ _ => True) (f a) (g b)) :
    InStep I R (fun _ _ => True) (items.forM f) (others.forM g) := by
  induction h_items with
  | nil => exact .pure trivial
  | cons h_first _ ih => exact (h_each _ _ h_first).bind fun _ _ _ => ih

end Chained

/-! ## Frames -/

/-- Frames that are opened and closed around two computations leave what is outside of them
related. -/
theorem InStep.inFrame {first : Evaluation α} {second : Evaluation β}
    (h_push : ∀ env other, I env other → I env.pushFrame other.pushFrame)
    (h_pop : ∀ left left', I left left' → I left.popFrame left'.popFrame)
    (h_effect : ∀ env left, R env.pushFrame left → R env left.popFrame)
    (h_inner : InStep I R V first second) : InStep I R V (inFrame first) (inFrame second) := by
  intro env other h_env
  have h_ends := h_inner _ _ (h_push env other h_env)
  unfold Evaluation.inFrame
  generalize first env.pushFrame = end₁ at h_ends
  generalize second other.pushFrame = end₂ at h_ends
  cases h_ends with
  | none => exact .none
  | some h_both =>
    obtain ⟨h_outcomes, h_left, h_first, h_second⟩ := h_both
    exact .some ⟨h_outcomes, h_pop _ _ h_left, h_effect _ _ h_first, h_effect _ _ h_second⟩

end Evaluation

end PlotLisp
