import PlotLisp.Proofs.Evaluation.Application
import PlotLisp.Proofs.Evaluation.Soundness

/-!
# Calls on evaluated arguments

A call evaluates its arguments from left to right and hands their values to the procedure that its name
stands for then. A built-in procedure makes a value of them at once. A lambda has its body evaluated
inside of a frame that binds its parameters to them, and nothing but the frame is gone afterwards.

* `EvaluatesEach` says what the arguments come to.
* `Evaluates.list`, `Evaluates.call_builtin` and `Evaluates.call_lambda` are the rules, without depths.
-/

namespace PlotLisp

open Evaluation

/-! ## Arguments -/

/-- The expressions have these values, each in the environment that the one before it leaves. -/
inductive EvaluatesEach :
    Environment → List Expression → List Expression → Environment → Prop where
  | nil {env} : EvaluatesEach env [] [] env
  | cons {env e rest value middle values left} (h_first : Evaluates env e (.ok value) middle)
      (h_rest : EvaluatesEach middle rest values left) :
      EvaluatesEach env (e :: rest) (value :: values) left

namespace EvaluatesEach

variable {env middle left : Environment} {args values : List Expression}

theorem pair {a b u v : Expression} (h_first : Evaluates env a (.ok u) middle)
    (h_second : Evaluates middle b (.ok v) left) : EvaluatesEach env [a, b] [u, v] left :=
  .cons h_first (.cons h_second .nil)

/-- Within the greatest depth that one of them needs, all of them end. -/
theorem exists_depth (h_each : EvaluatesEach env args values left) :
    ∃ depth, args.mapM (evalWithin depth) env = some (.ok values, left) := by
  induction h_each with
  | nil => exact ⟨0, rfl⟩
  | @cons env e rest value middle values left h_first _ ih =>
    obtain ⟨depth, h_first⟩ := h_first
    obtain ⟨depth', h_rest⟩ := ih
    refine ⟨max depth depth', ?_⟩
    have h_first := evalWithin_mono (Nat.le_max_left depth depth') e env _ h_first
    have h_rest := Extends.mapM (evalWithin_mono (Nat.le_max_right depth depth')) rest middle _ h_rest
    rw [List.mapM_cons, bind_apply, h_first]
    dsimp only
    rw [bind_apply, h_rest]
    rfl

end EvaluatesEach

/-! ## Lists and built-in procedures -/

section Rules

variable {env left : Environment} {name : String} {args values : List Expression}

theorem Evaluates.list (h_each : EvaluatesEach env args values left) :
    Evaluates env (.list args) (.ok (.list values)) left := by
  obtain ⟨depth, h_run⟩ := h_each.exists_depth
  refine ⟨depth + 1, ?_⟩
  rw [evalWithin_list, bind_apply, h_run]
  rfl

variable (h_name : ∀ form : SpecialForm, name ≠ form.name) (h_args : args ≠ [])
  (h_each : EvaluatesEach env args values left)

include h_name h_args h_each

/-- A call comes to what the procedure makes of the values, where the last argument leaves off. -/
theorem Evaluates.call {depth : Nat} {result : Outcome} {after : Environment}
    (h_call : callProcedure (evalWithin depth) (.symbol name) values left = some (result, after)) :
    Evaluates env (callOf name args) result after := by
  obtain ⟨depth', h_run⟩ := h_each.exists_depth
  refine ⟨max depth depth' + 1, ?_⟩
  have h_run := Extends.mapM (evalWithin_mono (Nat.le_max_right depth depth')) args env _ h_run
  have h_call := callProcedure_extends (evalWithin_mono (Nat.le_max_left depth depth')) (.symbol name)
    values left _ h_call
  rw [evalWithin_callOf h_name h_args, bind_apply, h_run]
  exact h_call

theorem Evaluates.call_builtin {procedure : Builtin}
    (h_procedure : left.procedure? name = some (.builtin procedure)) :
    Evaluates env (callOf name args) (procedure.call values) left := by
  have h_call : callProcedure (evalWithin 0) (.symbol name) values left
      = some (procedure.call values, left) := by
    rw [callProcedure, bind_apply, environment]
    simp only [h_procedure]
    rfl
  exact .call h_name h_args h_each h_call

end Rules

/-! ## Lambdas -/

namespace Environment

variable {env : Environment} {frame : NameMap Expression} {name : String}

/-- The environment inside of a call. -/
def inCall (env : Environment) (frame : NameMap Expression) : Environment :=
  { env with frames := frame :: env.frames }

theorem lookup?_inCall {value : Expression} (h_bound : frame.get? name = some value) :
    (env.inCall frame).lookup? name = some value := by
  have h_local : (env.inCall frame).local? name = some value := by
    rw [local?, inCall, List.findSome?_cons, h_bound]
  simp only [lookup?, value?, h_local]

/-- What the frame does not bind stands for the same as outside of the call. -/
theorem procedure?_inCall (h_free : frame.get? name = none) :
    (env.inCall frame).procedure? name = env.procedure? name := by
  have h_local : (env.inCall frame).local? name = env.local? name := by
    rw [local?, inCall, List.findSome?_cons, h_free]
    rfl
  rw [procedure?, h_local]
  rfl

end Environment

/-- The frame of a call with these parameters. -/
def frameOf (names : List String) (values : List Expression) : NameMap Expression :=
  .ofList (names.zip values)

section Frames

variable {names : List String} {values : List Expression} {name : String}

/-- A parameter stands for its own argument if no two have one name. -/
theorem get?_frameOf {value : Expression} (h_distinct : names.Nodup)
    (h_count : names.length = values.length) (h_bound : (name, value) ∈ names.zip values) :
    (frameOf names values).get? name = some value := by
  have h_names : (names.zip values).map Prod.fst = names := List.map_fst_zip (Nat.le_of_eq h_count)
  exact NameMap.get?_ofList_of_mem (h_names.symm ▸ h_distinct) h_bound

theorem get?_frameOf_eq_none (values : List Expression) (h_free : name ∉ names) :
    (frameOf names values).get? name = none := by
  apply NameMap.get?_ofList_eq_none
  intro h_bound
  obtain ⟨entry, h_entry, h_name⟩ := List.mem_map.mp h_bound
  rw [← h_name] at h_free
  exact h_free (List.of_mem_zip h_entry).1

end Frames

def symbols (names : List String) : List Expression := names.map fun name => .ofAtom (.symbol name)

/-- The parameters of a call end up in its frame. -/
theorem bindParameters_inCall (env : Environment) (names : List String) (values : List Expression)
    (frame : NameMap Expression) :
    bindParameters (symbols names) values (env.inCall frame)
      = some (.ok (), env.inCall
          ((names.zip values).foldl (fun m entry => m.insert entry.1 entry.2) frame)) := by
  induction names generalizing values frame with
  | nil => rfl
  | cons name rest ih =>
    cases values with
    | nil => rfl
    | cons value others => exact ih others (frame.insert name value)

/-- A lambda is called by evaluating its body where its parameters are bound, and closing the frame. -/
theorem callLambda_of_length {names : List String} {values : List Expression}
    (h_count : names.length = values.length) (eval : Evaluator) (name : String) (body : Expression)
    (env : Environment) :
    callLambda eval name (.lambda (.list (symbols names)) body) values env
      = (eval body (env.inCall (frameOf names values))).map fun ended =>
          (ended.1, ended.2.popFrame) := by
  have h_length : (symbols names).length = values.length := by
    rw [symbols, List.length_map, h_count]
  have h_lambda : callLambda eval name (.lambda (.list (symbols names)) body) values
      = inFrame (bindParameters (symbols names) values >>= fun _ => eval body) :=
    if_pos h_length
  have h_bound : bindParameters (symbols names) values env.pushFrame
      = some (.ok (), env.inCall (frameOf names values)) := bindParameters_inCall env names values ∅
  rw [h_lambda, inFrame, bind_apply, h_bound]
  dsimp only
  rcases eval body (env.inCall (frameOf names values)) with _ | ended
  · rfl
  · rfl

theorem Evaluates.call_lambda {env left inner : Environment} {name : String}
    {args values : List Expression} {names : List String} {body : Expression} {result : Outcome}
    (h_name : ∀ form : SpecialForm, name ≠ form.name) (h_args : args ≠ [])
    (h_each : EvaluatesEach env args values left)
    (h_procedure : left.procedure? name = some (.lambda (.lambda (.list (symbols names)) body)))
    (h_count : names.length = values.length)
    (h_body : Evaluates (left.inCall (frameOf names values)) body result inner) :
    Evaluates env (callOf name args) result inner.popFrame := by
  obtain ⟨depth, h_body⟩ := h_body
  have h_call : callProcedure (evalWithin depth) (.symbol name) values left
      = some (result, inner.popFrame) := by
    rw [callProcedure, bind_apply, environment]
    simp only [h_procedure]
    rw [callLambda_of_length h_count, h_body]
    rfl
  exact .call h_name h_args h_each h_call

end PlotLisp
