import Mathlib.Order.Defs.Unbundled
import PlotLisp.Evaluation

/-!
# Effects of evaluations

What an evaluation may do to the environment, whatever comes of it. The rules of evaluation change
an environment in two ways only: `define` binds a name, and a call opens a frame, binds parameters
in it and closes it again. A relation that both respect, and that steps may be chained in, therefore
holds between the environment before any evaluation and the one after it.

* `Leaves R computation` says that of one computation, and has a rule for each way of combining
  computations.
* `IsEffect R` is the condition on the relation.
* `evalWithin_leaves` is the conclusion for every expression, and `callProcedure_leaves` for every
  call, which leaves what its body left less the frame of the call.
-/

namespace PlotLisp

namespace Evaluation

variable {α β : Type} {R S : Environment → Environment → Prop}

/-- Whenever the computation ends, with a value or an error, the environments before and after it
are so related. -/
def Leaves (R : Environment → Environment → Prop) (computation : Evaluation α) : Prop :=
  ∀ env result left, computation env = some (result, left) → R env left

theorem Leaves.mono {computation : Evaluation α} (h_leaves : Leaves R computation)
    (h_sub : ∀ before after, R before after → S before after) : Leaves S computation :=
  fun env result left h => h_sub env left (h_leaves env result left h)

/-! ## Computations that leave the environment alone -/

section Untouched

variable [Std.Refl R]

theorem Leaves.pure (a : α) : Leaves R (pure a : Evaluation α) := by
  intro env result left h
  rw [pure_apply] at h
  cases h
  exact refl env

theorem Leaves.fail (error : SemanticError) : Leaves R (fail error : Evaluation α) := by
  intro env result left h
  cases h
  exact refl env

theorem Leaves.ofExcept (outcome : Except SemanticError α) : Leaves R (ofExcept outcome) := by
  intro env result left h
  cases h
  exact refl env

theorem Leaves.environment : Leaves R environment := by
  intro env result left h
  cases h
  exact refl env

/-- A change that is refused is none. -/
theorem Leaves.update {change : Environment → Except SemanticError Environment}
    (h_change : ∀ env changed, change env = .ok changed → R env changed) :
    Leaves R (update change) := by
  intro env result left h
  rcases h_run : change env with error | changed
  · simp only [Evaluation.update, h_run, Option.some.injEq, Prod.mk.injEq] at h
    rw [← h.2]
    exact refl env
  · simp only [Evaluation.update, h_run, Option.some.injEq, Prod.mk.injEq] at h
    rw [← h.2]
    exact h_change env changed h_run

end Untouched

/-! ## Computations one after another -/

section Chained

variable [IsTrans Environment R]

theorem Leaves.bind {computation : Evaluation α} {next : α → Evaluation β}
    (h_first : Leaves R computation) (h_next : ∀ a, Leaves R (next a)) :
    Leaves R (computation >>= next) := by
  intro env result left h
  rw [bind_apply] at h
  rcases h_run : computation env with _ | ⟨error | a, middle⟩
  · simp [h_run] at h
  · -- an error ends the evaluation where it arose
    rw [h_run] at h
    cases h
    exact h_first env _ _ h_run
  · rw [h_run] at h
    exact IsTrans.trans _ _ _ (h_first env _ _ h_run) (h_next a middle _ _ h)

variable [Std.Refl R]

theorem Leaves.mapM {f : α → Evaluation β} (h_each : ∀ a, Leaves R (f a)) (items : List α) :
    Leaves R (items.mapM f) := by
  induction items with
  | nil => exact .pure _
  | cons a rest ih =>
    rw [List.mapM_cons]
    exact (h_each a).bind fun _ => ih.bind fun _ => .pure _

theorem Leaves.forM {f : α → Evaluation Unit} (h_each : ∀ a, Leaves R (f a)) (items : List α) :
    Leaves R (items.forM f) := by
  induction items with
  | nil => exact .pure _
  | cons a rest ih => exact (h_each a).bind fun _ => ih

end Chained

end Evaluation

open Evaluation

/-! ## Relations that the rules respect -/

/-- A relation that chains, and that holds of what `define` does, and of what a call does if it
holds of what the body does inside the frame of the call. -/
class IsEffect (R : Environment → Environment → Prop) : Prop
    extends Std.Refl R, IsTrans Environment R where
  value : ∀ {env bound name value}, env.bindValue (.symbol name) value = .ok bound →
    value.kind ≠ .lambda → R env bound
  lambda : ∀ {env bound name value}, env.bindLambda (.symbol name) value = .ok bound → R env bound
  call : ∀ {env frame inner}, R { env with frames := frame :: env.frames } inner →
    R env inner.popFrame

/-- A call leaves the environment alone, or it leaves what a body left that was evaluated inside a
frame, less the frame. -/
def CallEffect (R : Environment → Environment → Prop) (env left : Environment) : Prop :=
  left = env ∨ ∃ frame inner, R { env with frames := frame :: env.frames } inner ∧
    left = inner.popFrame

instance (R : Environment → Environment → Prop) : Std.Refl (CallEffect R) := ⟨fun _ => .inl rfl⟩

theorem CallEffect.effect {R : Environment → Environment → Prop} [IsEffect R]
    {env left : Environment} (h_call : CallEffect R env left) : R env left := by
  rcases h_call with rfl | ⟨frame, inner, h_inner, rfl⟩
  · exact refl left
  · exact IsEffect.call h_inner

/-! ## Binding parameters -/

/-- The environment, or one that differs from it in the innermost frame. -/
def SameButInnermost (before after : Environment) : Prop :=
  before = after ∨ ∃ old new outer globals,
    before = ⟨globals, old :: outer⟩ ∧ after = ⟨globals, new :: outer⟩

instance : IsPreorder Environment SameButInnermost where
  refl _ := .inl rfl
  trans := by
    intro before middle after h_first h_second
    rcases h_first with rfl | ⟨old, new, outer, globals, rfl, rfl⟩
    · exact h_second
    rcases h_second with rfl | ⟨old', new', outer', globals', h_middle, rfl⟩
    · exact .inr ⟨old, new, outer, globals, rfl, rfl⟩
    · cases h_middle
      exact .inr ⟨old, new', outer, globals, rfl, rfl⟩

theorem bindParameter_sameButInnermost {env bound : Environment} {symbol : Atom}
    {value : Expression} (h_bound : env.bindParameter symbol value = .ok bound) :
    SameButInnermost env bound := by
  obtain ⟨globals, frames⟩ := env
  cases symbol with
  | symbol name =>
    cases frames with
    | nil => simp [Environment.bindParameter] at h_bound
    | cons frame outer =>
      simp only [Environment.bindParameter, Except.ok.injEq] at h_bound
      exact .inr ⟨frame, _, outer, globals, rfl, h_bound.symm⟩
  | _ => simp [Environment.bindParameter] at h_bound

/-- Binding parameters in a frame that has just been opened fills the frame, and no more. -/
theorem bindParameters_leaves (bindings : List (Expression × Expression)) :
    Leaves SameButInnermost
      (bindings.forM fun (parameter, arg) => update (·.bindParameter parameter.head arg)) :=
  Leaves.forM (R := SameButInnermost)
    (fun _ => .update fun _ _ => bindParameter_sameButInnermost) bindings

theorem SameButInnermost.of_pushFrame {env inner : Environment}
    (h_inner : SameButInnermost env.pushFrame inner) :
    ∃ frame, inner = { env with frames := frame :: env.frames } := by
  rcases h_inner with rfl | ⟨old, new, outer, globals, h_env, rfl⟩
  · exact ⟨∅, rfl⟩
  · obtain ⟨globals', frames⟩ := env
    cases h_env
    exact ⟨new, rfl⟩

/-! ## Look-ups and calls -/

theorem evalTerminal_leaves {R : Environment → Environment → Prop} [Std.Refl R]
    [IsTrans Environment R] (e : Expression) : Leaves R (evalTerminal e) := by
  unfold evalTerminal
  split
  · refine Leaves.environment.bind fun env => ?_
    split
    · exact .pure _
    · exact .fail _
  · exact .pure _
  · exact .fail _

section Rules

variable {R : Environment → Environment → Prop} {eval : Evaluator} (h_eval : ∀ e, Leaves R (eval e))

include h_eval

theorem callLambda_leaves (name : String) (lambda : Expression) (args : List Expression) :
    Leaves (CallEffect R) (callLambda eval name lambda args) := by
  unfold callLambda
  split
  case h_2 => exact .fail _
  rename_i parameters body _
  split
  case isFalse => exact .fail _
  intro env result left h
  have h_bind := bindParameters_leaves (parameters.tail.zip args) env.pushFrame
  rw [inFrame, bind_apply] at h
  rcases h_run : ((parameters.tail.zip args).forM fun (parameter, arg) =>
      update (·.bindParameter parameter.head arg)) env.pushFrame with _ | ⟨error | _, bound⟩
  · simp [h_run] at h
  · -- a parameter that cannot be bound: the body is not reached
    obtain ⟨frame, rfl⟩ := (h_bind _ _ h_run).of_pushFrame
    simp only [h_run, Option.some.injEq, Prod.mk.injEq] at h
    exact .inl h.2.symm
  · obtain ⟨frame, rfl⟩ := (h_bind _ _ h_run).of_pushFrame
    rw [h_run] at h
    rcases h_body : eval body { env with frames := frame :: env.frames } with _ | ⟨outcome, inner⟩
    · simp [h_body] at h
    · simp only [h_body, Option.some.injEq, Prod.mk.injEq] at h
      exact .inr ⟨frame, inner, h_eval body _ _ _ h_body, h.2.symm⟩

theorem callProcedure_leaves_call (head : Atom) (args : List Expression) :
    Leaves (CallEffect R) (callProcedure eval head args) := by
  unfold callProcedure
  split
  case h_2 => exact .fail _
  rename_i name
  intro env result left h
  rw [bind_apply, environment] at h
  rcases h_found : env.procedure? name with _ | _ | _
  · exact Leaves.fail _ env result left (by simpa only [h_found] using h)
  · exact Leaves.ofExcept _ env result left (by simpa only [h_found] using h)
  · exact callLambda_leaves h_eval _ _ _ env result left (by simpa only [h_found] using h)

/-! ## Special forms and nodes -/

variable [IsEffect R]

theorem callProcedure_leaves_effect (head : Atom) (args : List Expression) :
    Leaves R (callProcedure eval head args) :=
  (callProcedure_leaves_call h_eval head args).mono fun _ _ => CallEffect.effect

theorem evalBegin_leaves (children : List Expression) : Leaves R (evalBegin eval children) := by
  induction children with
  | nil => exact .fail _
  | cons first rest ih =>
    cases rest with
    | nil => exact h_eval first
    | cons second others => exact (h_eval first).bind fun _ => ih

theorem evalDefine_leaves (children : List Expression) : Leaves R (evalDefine eval children) := by
  unfold evalDefine
  split
  case h_2 | h_3 => exact .fail _
  rename_i name _ value
  refine Leaves.environment.bind fun env => ?_
  split
  · exact .fail _
  refine (h_eval value).bind fun result => ?_
  refine Leaves.bind (.update fun before bound h_bound => ?_) fun _ => .pure _
  split at h_bound
  case isTrue => exact IsEffect.lambda h_bound
  case isFalse h_kind => exact IsEffect.value h_bound h_kind

theorem procedureAndItems_leaves (form : SpecialForm) (children : List Expression) :
    Leaves R (procedureAndItems eval form children) := by
  unfold procedureAndItems
  split
  case h_2 | h_3 => exact .fail _
  refine Leaves.environment.bind fun env => ?_
  split
  · exact .fail _
  · exact (h_eval _).bind fun _ => (Leaves.ofExcept _).bind fun _ => .pure _

theorem evalSpecialForm_leaves (form : SpecialForm) (children : List Expression) :
    Leaves R (evalSpecialForm eval form children) := by
  have h_call := callProcedure_leaves_effect h_eval
  have h_items := procedureAndItems_leaves h_eval
  cases form with
  | define => exact evalDefine_leaves h_eval children
  | begin => exact evalBegin_leaves h_eval children
  | apply => exact (h_items _ children).bind fun _ => h_call _ _
  | map =>
    exact (h_items _ children).bind fun _ =>
      (Leaves.mapM (fun _ => h_call _ _) _).bind fun _ => .pure _

theorem evalNode_leaves (e : Expression) : Leaves R (evalNode eval e) := by
  have h_args := Leaves.mapM h_eval e.tail
  unfold evalNode
  split
  · exact evalTerminal_leaves e
  · split
    · exact evalSpecialForm_leaves h_eval _ _
    · split
      · exact .ofExcept _
      · exact h_args.bind fun _ => .pure _
      · exact .pure _
      · exact h_args.bind fun _ => callProcedure_leaves_effect h_eval _ _

end Rules

/-! ## Evaluations of any depth -/

section AnyDepth

variable {R : Environment → Environment → Prop} [IsEffect R]

theorem evalWithin_leaves (depth : Nat) (e : Expression) : Leaves R (evalWithin depth e) := by
  induction depth generalizing e with
  | zero =>
    intro env result left h
    simp [evalWithin, exhausted] at h
  | succ depth ih => exact evalNode_leaves ih e

theorem callProcedure_leaves (depth : Nat) (head : Atom) (args : List Expression) :
    Leaves (CallEffect R) (callProcedure (evalWithin depth) head args) :=
  callProcedure_leaves_call (evalWithin_leaves depth) head args

end AnyDepth

end PlotLisp
