import PlotLisp.Proofs.Evaluation.Frames
import PlotLisp.Proofs.Evaluation.Roles

/-!
# Definitions

A definition is refused at once, or it succeeds as soon as its value has been evaluated. The name is
looked at twice, before the value is evaluated and when it is bound. Between the two the value may do
what it likes, define names itself, and among them this very name; but no program turns a name that may
be bound into one that may not, so that the second look finds what the first one found.

What has been defined is seen at once, with one exception: a lambda is bound among the globals even
inside of calls, and there a frame that binds the name to something else hides it.

* `RefusesDefinition` lists the refusals.
* `Environment.withDefinition` is what a definition leaves.
* `definition_is_atomic` and `definition_is_seen` are the conclusions, and
  `parameter_hides_definition` is the exception.
-/

namespace PlotLisp

open Evaluation

/-! ## Names that may be bound -/

namespace Environment

/-- Only what is bound from the start is protected, besides the special forms. -/
theorem protection?_eq_none_iff {env : Environment} {name : String} :
    env.protection? name = none
      ↔ SpecialForm.ofName? name = none ∧ env.isBuiltIn name = false := by
  unfold protection?
  rcases SpecialForm.ofName? name with _ | form <;> simp

/-- What a program binds protects no name. -/
theorem protection?_insert {env : Environment} {name other : String} {binding : Binding}
    (h_binding : binding.isBuiltIn = false) (h_free : env.protection? other = none)
    (frames : List (NameMap Expression)) :
    protection? ⟨env.globals.insert name binding, frames⟩ other = none := by
  rw [protection?_eq_none_iff] at h_free ⊢
  refine ⟨h_free.1, ?_⟩
  by_cases h_name : name = other
  · simp [isBuiltIn, h_name, h_binding]
  · simpa [isBuiltIn, NameMap.get?_insert, h_name] using h_free.2

end Environment

/-- What leaves every name free that was free. -/
def KeepsFree (before after : Environment) : Prop :=
  ∀ name, before.protection? name = none → after.protection? name = none

instance : IsEffect KeepsFree where
  refl _ _ := id
  trans _ _ _ h_first h_second name h_free := h_second name (h_first name h_free)
  value h_bound _ other h_free := by
    obtain ⟨name, -, -, ⟨-, rfl⟩ | ⟨frame, outer, -, rfl⟩⟩ := Environment.eq_of_bindValue h_bound
    · exact Environment.protection?_insert rfl h_free _
    · exact h_free
  lambda h_bound other h_free := by
    obtain ⟨name, -, -, -, rfl⟩ := Environment.eq_of_bindLambda h_bound
    exact Environment.protection?_insert rfl h_free _
  call h_inner := h_inner

/-! ## What a definition leaves -/

/-- The environment with a name defined in it: a lambda goes to the globals, and a plain value to the
innermost frame, or to the globals where there is no frame. -/
def Environment.withDefinition (env : Environment) (name : String) (value : Expression) :
    Environment :=
  if value.kind = .lambda then { env with globals := env.globals.insert name (.lambda value) }
  else
    match env.frames with
    | [] => { env with globals := env.globals.insert name (.value value) }
    | frame :: outer => { env with frames := frame.insert name value :: outer }

/-- A name that may be bound is bound without fail. -/
theorem update_eq_withDefinition {env : Environment} {name : String}
    (h_free : env.protection? name = none) (value : Expression) :
    update (fun env =>
        if value.kind = .lambda then env.bindLambda (.symbol name) value
        else env.bindValue (.symbol name) value) env
      = some (.ok (), env.withDefinition name value) := by
  have h_name : env.bindableName (.symbol name) = .ok name :=
    Environment.bindableName_eq_ok_iff.mpr ⟨rfl, h_free⟩
  unfold update Environment.withDefinition
  by_cases h_kind : value.kind = .lambda
  · simp [h_kind, Environment.bindLambda, h_name, bind, Except.bind, pure, Except.pure]
  · rcases h_frames : env.frames with _ | ⟨frame, outer⟩ <;>
      simp [h_kind, Environment.bindValue, h_name, h_frames, bind, Except.bind, pure, Except.pure]

/-! ## Refusals -/

/-- The children that `define` refuses, each with the error. -/
inductive RefusesDefinition (env : Environment) : List Expression → SemanticError → Prop where
  | count {children} (h_count : children.length ≠ 2) :
      RefusesDefinition env children (.arityMismatch "define" (.exactly 2) children.length)
  | noName {child value} (h_child : child.kind ≠ .symbol ∨ child.tail ≠ []) :
      RefusesDefinition env [child, value]
        (.typeMismatch "define" (.ofKind .symbol) (.ofKind child.kind))
  | taken {name properties value protection}
      (h_protected : env.protection? name = some protection) :
      RefusesDefinition env [⟨.symbol name, [], properties⟩, value]
        (.redefinition name protection)

section Refusals

variable {env : Environment}

/-- A refusal comes before anything is evaluated, whatever would evaluate it. -/
theorem RefusesDefinition.evalDefine_eq {children : List Expression} {error : SemanticError}
    (h_refused : RefusesDefinition env children error) (eval : Evaluator) :
    evalDefine eval children env = some (.error error, env) := by
  cases h_refused with
  | count h_count =>
    unfold evalDefine
    split
    · exact absurd rfl h_count
    · exact absurd rfl h_count
    · rfl
  | @noName child value h_child =>
    obtain ⟨head, tail, properties⟩ := child
    cases head with
    | symbol name =>
      -- a symbol is refused for its children
      cases tail with
      | nil => rcases h_child with h_kind | h_tail <;> contradiction
      | cons => rfl
    | _ => rfl
  | taken h_protected =>
    rw [evalDefine, bind_apply, environment]
    simp only [h_protected, fail]

/-- What is not refused is the definition of a free name. -/
theorem exists_refusal_or_free (env : Environment) (children : List Expression) :
    (∃ error, RefusesDefinition env children error) ∨
      ∃ name properties value, children = [⟨.symbol name, [], properties⟩, value] ∧
        env.protection? name = none := by
  by_cases h_count : children.length = 2
  case neg => exact .inl ⟨_, .count h_count⟩
  obtain ⟨⟨head, tail, properties⟩, value, rfl⟩ := List.length_eq_two.mp h_count
  by_cases h_tail : tail = []
  case neg => exact .inl ⟨_, .noName (.inr h_tail)⟩
  subst h_tail
  cases head with
  | symbol name =>
    rcases h_name : env.protection? name with _ | protection
    · exact .inr ⟨name, properties, value, rfl, h_name⟩
    · exact .inl ⟨_, .taken h_name⟩
  | _ => exact .inl ⟨_, .noName (.inl nofun)⟩

/-- A free name is bound if its value is evaluated without an error, and not otherwise. -/
theorem evalDefine_eq_some_iff {eval : Evaluator} {name : String} {value : Expression}
    {result : Outcome} {left : Environment} (h_eval : Leaves KeepsFree (eval value))
    (h_free : env.protection? name = none) (properties : NameMap Expression) :
    evalDefine eval [⟨.symbol name, [], properties⟩, value] env = some (result, left)
      ↔ (∃ error, result = .error error ∧ eval value env = some (.error error, left)) ∨
        ∃ v evaluated, result = .ok v ∧ eval value env = some (.ok v, evaluated) ∧
          left = evaluated.withDefinition name v := by
  have h_define : evalDefine eval [⟨.symbol name, [], properties⟩, value] env
      = (eval value >>= fun v => do
          update fun env =>
            if v.kind = .lambda then env.bindLambda (.symbol name) v
            else env.bindValue (.symbol name) v
          return v) env := by
    rw [evalDefine, bind_apply, environment]
    simp only [h_free]
  rw [h_define, bind_apply]
  rcases h_run : eval value env with _ | ⟨error | v, evaluated⟩
  · simp
  · simp only [Option.some.injEq, Prod.mk.injEq, Except.error.injEq, reduceCtorEq, false_and,
      and_false, exists_false, or_false]
    constructor
    · rintro ⟨rfl, rfl⟩
      exact ⟨error, rfl, rfl, rfl⟩
    · rintro ⟨_, rfl, rfl, rfl⟩
      exact ⟨rfl, rfl⟩
  · -- the name is as free as it was when it was looked at first
    have h_still := h_eval env _ _ h_run name h_free
    dsimp only
    rw [bind_apply, update_eq_withDefinition h_still]
    simp only [pure_apply, Option.some.injEq, Prod.mk.injEq, Except.ok.injEq, reduceCtorEq,
      false_and, and_false, exists_false, false_or]
    constructor
    · rintro ⟨rfl, rfl⟩
      exact ⟨v, evaluated, rfl, ⟨rfl, rfl⟩, rfl⟩
    · rintro ⟨_, _, rfl, ⟨rfl, rfl⟩, rfl⟩
      exact ⟨rfl, rfl⟩

end Refusals

/-! ## Atomicity -/

/-- A node with the head of a definition is one if it has children. -/
theorem evalNode_define (eval : Evaluator) (first : Expression) (rest : List Expression)
    (properties : NameMap Expression) :
    evalNode eval ⟨.symbol "define", first :: rest, properties⟩ = evalDefine eval (first :: rest) :=
  rfl

theorem evaluates_define_iff {env left : Environment} {name : String} {value : Expression}
    {result : Outcome} (h_free : env.protection? name = none)
    (marks properties : NameMap Expression) :
    Evaluates env ⟨.symbol "define", [⟨.symbol name, [], marks⟩, value], properties⟩ result left
      ↔ (∃ error, result = .error error ∧ Evaluates env value (.error error) left) ∨
        ∃ v evaluated, result = .ok v ∧ Evaluates env value (.ok v) evaluated ∧
          left = evaluated.withDefinition name v := by
  have h_value (depth : Nat) : Leaves KeepsFree (evalWithin depth value) :=
    evalWithin_leaves depth value
  constructor
  · rintro ⟨_ | depth, h_run⟩
    · cases h_run
    rcases (evalDefine_eq_some_iff (h_value depth) h_free marks).mp h_run with
      ⟨error, rfl, h_error⟩ | ⟨v, evaluated, rfl, h_v, rfl⟩
    · exact .inl ⟨error, rfl, depth, h_error⟩
    · exact .inr ⟨v, evaluated, rfl, ⟨depth, h_v⟩, rfl⟩
  · rintro (⟨error, rfl, depth, h_error⟩ | ⟨v, evaluated, rfl, ⟨depth, h_v⟩, rfl⟩) <;>
      refine ⟨depth + 1, (evalDefine_eq_some_iff (h_value depth) h_free marks).mpr ?_⟩
    · exact .inl ⟨error, rfl, h_error⟩
    · exact .inr ⟨v, evaluated, rfl, h_v, rfl⟩

/-- A definition, in whatever environment and with whatever children, is either refused, before any
child is evaluated and with the environment as it is; or it is one of a free name, and ends exactly as
its value does: with the same error and the environment that is left by then, or else with the value,
and with the name bound to it in the environment that is left. -/
theorem definition_is_atomic (env : Environment) (first : Expression) (rest : List Expression)
    (properties : NameMap Expression) :
    (∃ error, RefusesDefinition env (first :: rest) error ∧
      Evaluates env ⟨.symbol "define", first :: rest, properties⟩ (.error error) env ∧
      ∀ eval, evalNode eval ⟨.symbol "define", first :: rest, properties⟩ env
        = some (.error error, env)) ∨
    ∃ name marks value, first = ⟨.symbol name, [], marks⟩ ∧ rest = [value] ∧
      env.protection? name = none ∧
      ∀ result left,
        Evaluates env ⟨.symbol "define", first :: rest, properties⟩ result left ↔
          (∃ error, result = .error error ∧ Evaluates env value (.error error) left) ∨
          ∃ v evaluated, result = .ok v ∧ Evaluates env value (.ok v) evaluated ∧
            left = evaluated.withDefinition name v := by
  rcases exists_refusal_or_free env (first :: rest) with
    ⟨error, h_refused⟩ | ⟨name, marks, value, h_children, h_free⟩
  · have h_error (eval : Evaluator) :
        evalNode eval ⟨.symbol "define", first :: rest, properties⟩ env = some (.error error, env) := by
      rw [evalNode_define]
      exact h_refused.evalDefine_eq eval
    exact .inl ⟨error, h_refused, ⟨1, h_error _⟩, h_error⟩
  · cases h_children
    exact .inr ⟨name, marks, value, rfl, rfl, h_free, fun result left =>
      evaluates_define_iff h_free marks properties⟩

/-! ## Visibility -/

namespace Environment

variable {env : Environment} {name : String} {value : Expression}

/-- A plain value is found where it has been put. -/
theorem lookup?_withDefinition (h_kind : value.kind ≠ .lambda) :
    (env.withDefinition name value).lookup? name = some value := by
  have h_value : (env.withDefinition name value).value? name = some value := by
    obtain ⟨globals, _ | ⟨frame, outer⟩⟩ := env
    · simp [withDefinition, h_kind, value?, local?, Binding.value?]
    · simp [withDefinition, h_kind, value?, local?]
  rw [lookup?, h_value]

theorem globals_withDefinition (h_kind : value.kind = .lambda) :
    (env.withDefinition name value).globals.get? name = some (.lambda value) := by
  rw [withDefinition, if_pos h_kind, NameMap.get?_insert_self]

/-- A lambda among the globals is found in both places if no frame hides it. -/
theorem found_of_global (h_kind : value.kind = .lambda)
    (h_global : env.globals.get? name = some (.lambda value))
    (h_local : ∀ other, env.local? name = some other → other = value) :
    env.lookup? name = some value ∧ env.procedure? name = some (.lambda value) := by
  rcases h_found : env.local? name with _ | other
  · have h_procedure : env.procedure? name = some (.lambda value) := by
      simp [procedure?, h_found, h_global, Binding.procedure?]
    refine ⟨?_, h_procedure⟩
    simp [lookup?, value?, h_found, h_global, h_procedure, Binding.value?]
  · cases h_local other h_found
    simp [lookup?, value?, procedure?, h_found, h_kind]

end Environment

/-- The definition of a name. -/
def defineOf (name : String) (value : Expression) : Expression where
  head := .symbol SpecialForm.define.name
  tail := [.ofAtom (.symbol name), value]

theorem Evaluates.withDefinition {env left : Environment} {name : String} {e value : Expression}
    (h_defined : Evaluates env (defineOf name e) (.ok value) left) :
    ∃ evaluated : Environment, left = evaluated.withDefinition name value := by
  rcases h_name : env.protection? name with _ | protection
  · rcases (evaluates_define_iff h_name ∅ ∅).mp h_defined with ⟨error, h_error, -⟩ | h_found
    · cases h_error
    · obtain ⟨v, evaluated, h_value, -, h_left⟩ := h_found
      cases h_value
      exact ⟨evaluated, h_left⟩
  · obtain ⟨_ | depth, h_run⟩ := h_defined
    · cases h_run
    have h_taken : RefusesDefinition env [.ofAtom (.symbol name), e]
        (.redefinition name protection) := .taken h_name
    cases h_run.symm.trans (h_taken.evalDefine_eq (evalWithin depth))

/-- What a definition that ends without an error has bound is seen in the environment that it leaves, as
deep inside of calls as before. A plain value is seen in any case. A lambda is among the globals, and is
seen and called by its name unless the innermost frame that binds the name binds it to something
else. -/
theorem definition_is_seen {env left : Environment} {name : String} {e value : Expression}
    (h_defined : Evaluates env (defineOf name e) (.ok value) left) :
    left.frames.length = env.frames.length ∧
    (value.kind ≠ .lambda → Evaluates left (.ofAtom (.symbol name)) (.ok value) left) ∧
    (value.kind = .lambda → left.globals.get? name = some (.lambda value) ∧
      ((∀ other, left.local? name = some other → other = value) →
        Evaluates left (.ofAtom (.symbol name)) (.ok value) left ∧
        ∀ eval args, callProcedure eval (.symbol name) args left
          = callLambda eval name value args left)) := by
  obtain ⟨evaluated, h_left⟩ := h_defined.withDefinition
  refine ⟨h_defined.keepsFrames.depth, fun h_kind => ?_, fun h_kind => ?_⟩
  · rw [evaluates_symbol_iff, h_left]
    exact ⟨Environment.lookup?_withDefinition h_kind, rfl⟩
  · have h_global : left.globals.get? name = some (.lambda value) := by
      rw [h_left]
      exact Environment.globals_withDefinition h_kind
    refine ⟨h_global, fun h_local => ?_⟩
    obtain ⟨h_lookup, h_procedure⟩ := Environment.found_of_global h_kind h_global h_local
    refine ⟨evaluates_symbol_iff.mpr ⟨h_lookup, rfl⟩, fun eval args => ?_⟩
    rw [callProcedure, bind_apply, environment]
    simp only [h_procedure]

/-- The constant lambda, as a program writes it. -/
def constantText : Expression where
  head := .lambda
  tail := [.ofAtom (.symbol "x"), .ofAtom (.string "s")]

/-- Defines the name of the parameter it stands behind, and looks the name up. -/
def redefiningBody : Expression where
  head := .symbol SpecialForm.begin.name
  tail := [defineOf "p" constantText, .ofAtom (.symbol "p")]

/-- Inside of a call of a lambda with that body. -/
def insideRedefinition : Environment where
  globals := Environment.initialGlobals.insert "f"
    (.lambda (.lambda (.list [.ofAtom (.symbol "p")]) redefiningBody))
  frames := [NameMap.ofList [("p", .ofAtom (.string "t"))]]

theorem insideRedefinition_arises : insideRedefinition.Arises := by
  have h_defined : Evaluates .initial
      (defineOf "f" { head := .lambda, tail := [.ofAtom (.symbol "p"), redefiningBody] })
      (.ok (.lambda (.list [.ofAtom (.symbol "p")]) redefiningBody))
      { globals := insideRedefinition.globals } := ⟨3, rfl⟩
  exact (Environment.Arises.initial.evaluated h_defined).opened.boundParameter
    (show Environment.bindParameter _ (.symbol "p") (.ofAtom (.string "t")) = _ from rfl)

/-- Under a name that no frame binds, a lambda is seen inside of the call that defines it. -/
theorem definition_seen_inside_call :
    ∃ left, Evaluates insideRedefinition (defineOf "g" constantText) (.ok constantLambda) left ∧
      left.frames.length = 1 ∧
      Evaluates left (.ofAtom (.symbol "g")) (.ok constantLambda) left ∧
      callProcedure (evalWithin 1) (.symbol "g") [.ofAtom (.string "t")] left
        = some (.ok (.ofAtom (.string "s")), left) := by
  have h_defined : Evaluates insideRedefinition (defineOf "g" constantText) (.ok constantLambda) _ :=
    ⟨3, rfl⟩
  obtain ⟨h_depth, -, h_lambda⟩ := definition_is_seen h_defined
  obtain ⟨-, h_seen⟩ := h_lambda rfl
  obtain ⟨h_value, h_called⟩ := h_seen nofun
  refine ⟨_, h_defined, h_depth, h_value, ?_⟩
  rw [h_called]
  rfl

/-- Under the name of a parameter it is hidden: the name neither evaluates to the lambda nor calls it. -/
theorem parameter_hides_definition :
    insideRedefinition.Arises ∧
    ∃ left, Evaluates insideRedefinition (defineOf "p" constantText) (.ok constantLambda) left ∧
      ¬ Evaluates left (.ofAtom (.symbol "p")) (.ok constantLambda) left ∧
      Evaluates left (.ofAtom (.symbol "p")) (.ok (.ofAtom (.string "t"))) left ∧
      ∀ eval args, callProcedure eval (.symbol "p") args left
        = some (.error (.notAProcedure "p"), left) := by
  have h_defined : Evaluates insideRedefinition (defineOf "p" constantText) (.ok constantLambda) _ :=
    ⟨3, rfl⟩
  refine ⟨insideRedefinition_arises, _, h_defined, ?_, evaluates_symbol_iff.mpr ⟨rfl, rfl⟩, ?_⟩
  · rw [evaluates_symbol_iff]
    rintro ⟨⟨⟩, -⟩
  · exact fun eval args => rfl

end PlotLisp
