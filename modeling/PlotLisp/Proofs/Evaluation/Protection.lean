import PlotLisp.Proofs.Evaluation.Effects
import PlotLisp.Proofs.NameMap.Order
import PlotLisp.Session

/-!
# Protected names

The constants, the built-in procedures and the special forms have names that no program can bind.
Whatever has been evaluated, called and bound before, and inside of however many calls, a constant and
a procedure are still bound as they were at the start, and the name of a special form is bound to
nothing.

* `IsProtected` are these names, each with the word for why it cannot be bound.
* `Environment.Reached` are the environments of all histories, those inside of calls included.
* `Environment.IsGuarded` is the invariant, and `protected_names_kept` the conclusion.
-/

namespace PlotLisp

open Evaluation

/-! ## Protected names -/

/-- The name cannot be bound, for this reason. -/
inductive IsProtected : String → Protection → Prop where
  | form (form : SpecialForm) : IsProtected form.name .specialForm
  | constant {name value} (h_constant : (name, value) ∈ Builtin.constants) :
      IsProtected name .builtIn
  | procedure (procedure : Builtin) : IsProtected procedure.name .builtIn

/-- The names of the constants and of the built-in procedures. -/
def builtInNames : List String := Builtin.constants.map Prod.fst ++ Builtin.all.map Builtin.name

theorem builtInNames_nodup : builtInNames.Nodup := by decide

theorem ofName?_of_mem_builtInNames :
    ∀ name ∈ builtInNames, SpecialForm.ofName? name = none := by decide

theorem mem_builtInNames_constant {name : String} {value : Expression}
    (h_constant : (name, value) ∈ Builtin.constants) : name ∈ builtInNames :=
  List.mem_append_left _ (List.mem_map_of_mem h_constant)

theorem Builtin.mem_all (procedure : Builtin) : procedure ∈ Builtin.all := by
  cases procedure <;> decide

theorem mem_builtInNames_procedure (procedure : Builtin) : procedure.name ∈ builtInNames :=
  List.mem_append_right _ (List.mem_map_of_mem procedure.mem_all)

/-! ### The globals at the start -/

theorem initialGlobals_form (form : SpecialForm) :
    Environment.initialGlobals.get? form.name = none := by
  refine NameMap.get?_ofList_eq_none ?_
  rw [List.map_append, List.map_map, List.map_map]
  cases form <;> decide

theorem initialGlobals_of_mem {name : String} {binding : Binding}
    (h_entry : (name, binding) ∈
      Builtin.constants.map (fun (name, value) => (name, Binding.constant value))
        ++ Builtin.all.map fun procedure => (procedure.name, .builtin procedure)) :
    Environment.initialGlobals.get? name = some binding := by
  refine NameMap.get?_ofList_of_mem ?_ h_entry
  rw [List.map_append, List.map_map, List.map_map]
  exact builtInNames_nodup

theorem initialGlobals_constant {name : String} {value : Expression}
    (h_constant : (name, value) ∈ Builtin.constants) :
    Environment.initialGlobals.get? name = some (.constant value) :=
  initialGlobals_of_mem (List.mem_append_left _ (List.mem_map.mpr ⟨_, h_constant, rfl⟩))

theorem initialGlobals_procedure (procedure : Builtin) :
    Environment.initialGlobals.get? procedure.name = some (.builtin procedure) :=
  initialGlobals_of_mem (List.mem_append_right _ (List.mem_map.mpr ⟨_, procedure.mem_all, rfl⟩))

/-! ## The invariant -/

/-- Every protected name is bound as at the start. -/
structure Environment.IsGuarded (env : Environment) : Prop where
  ordered : env.globals.IsOrdered
  kept : ∀ {name protection}, IsProtected name protection →
    env.globals.get? name = Environment.initialGlobals.get? name

namespace Environment.IsGuarded

variable {env : Environment} {name : String}

theorem initial : Environment.initial.IsGuarded := ⟨NameMap.isOrdered_ofList _, fun _ => rfl⟩

/-- A protected name is known for one. -/
theorem protection? {protection : Protection} (h_env : env.IsGuarded)
    (h_name : IsProtected name protection) : env.protection? name = some protection := by
  have h_kept := h_env.kept h_name
  cases h_name with
  | form form => cases form <;> rfl
  | constant h_constant =>
    have h_form := ofName?_of_mem_builtInNames name (mem_builtInNames_constant h_constant)
    rw [initialGlobals_constant h_constant] at h_kept
    simp [Environment.protection?, h_form, isBuiltIn, h_kept, Binding.isBuiltIn]
  | procedure procedure =>
    have h_form := ofName?_of_mem_builtInNames _ (mem_builtInNames_procedure procedure)
    rw [initialGlobals_procedure] at h_kept
    simp [Environment.protection?, h_form, isBuiltIn, h_kept, Binding.isBuiltIn]

/-- A name that can be bound is none of the protected ones, so these stay as they are. -/
theorem insert (h_env : env.IsGuarded) (h_free : env.protection? name = none) (binding : Binding)
    (frames : List (NameMap Expression)) :
    Environment.IsGuarded ⟨env.globals.insert name binding, frames⟩ where
  ordered := h_env.ordered.insert name binding
  kept := by
    intro other protection h_other
    have h_ne : name ≠ other := by
      rintro rfl
      rw [h_env.protection? h_other] at h_free
      cases h_free
    rw [NameMap.get?_insert, if_neg h_ne]
    exact h_env.kept h_other

/-- The invariant is about the globals alone. -/
theorem congr {other : Environment} (h_env : env.IsGuarded) (h_globals : other.globals = env.globals) :
    other.IsGuarded := by
  obtain ⟨globals, frames⟩ := other
  cases h_globals
  exact ⟨h_env.ordered, h_env.kept⟩

theorem bindValue {bound : Environment} {symbol : Atom} {value : Expression} (h_env : env.IsGuarded)
    (h_bound : env.bindValue symbol value = .ok bound) : bound.IsGuarded := by
  obtain ⟨name, -, h_free, ⟨-, rfl⟩ | ⟨frame, outer, -, rfl⟩⟩ := eq_of_bindValue h_bound
  · exact h_env.insert h_free _ _
  · exact h_env.congr rfl

theorem bindLambda {bound : Environment} {symbol : Atom} {lambda : Expression}
    (h_env : env.IsGuarded) (h_bound : env.bindLambda symbol lambda = .ok bound) :
    bound.IsGuarded := by
  obtain ⟨name, -, h_free, -, rfl⟩ := eq_of_bindLambda h_bound
  exact h_env.insert h_free _ _

end Environment.IsGuarded

/-- What keeps the invariant. -/
def KeepsGuard (before after : Environment) : Prop := before.IsGuarded → after.IsGuarded

instance : IsEffect KeepsGuard where
  refl _ := id
  trans _ _ _ h_first h_second h_env := h_second (h_first h_env)
  value h_bound _ h_env := h_env.bindValue h_bound
  lambda h_bound h_env := h_env.bindLambda h_bound
  call h_inner h_env := (h_inner (h_env.congr rfl)).congr rfl

/-! ## Histories -/

/-- The environments that can be got to from the initial one: by evaluations and calls, whether they
succeed or fail, by binding names and by unwinding, and by going back to the start; and those inside
of calls, whose frames are open and have some of the parameters in them. -/
inductive Environment.Reached : Environment → Prop where
  | initial : Reached .initial
  | evaluated {env depth e result left} (h_env : Reached env)
      (h_eval : evalWithin depth e env = some (result, left)) : Reached left
  | called {env depth head args result left} (h_env : Reached env)
      (h_call : callProcedure (evalWithin depth) head args env = some (result, left)) : Reached left
  | boundValue {env symbol value bound} (h_env : Reached env)
      (h_bound : env.bindValue symbol value = .ok bound) : Reached bound
  | boundLambda {env symbol lambda bound} (h_env : Reached env)
      (h_bound : env.bindLambda symbol lambda = .ok bound) : Reached bound
  | unwound {env} (h_env : Reached env) : Reached env.unwind
  | reset {session : Session} (h_env : Reached session.environment) :
      Reached session.reset.environment
  | opened {env} (h_env : Reached env) : Reached env.pushFrame
  | boundParameter {env symbol value bound} (h_env : Reached env)
      (h_bound : env.bindParameter symbol value = .ok bound) : Reached bound
  | closed {env} (h_env : Reached env) : Reached env.popFrame

theorem Environment.Reached.isGuarded {env : Environment} (h_env : env.Reached) :
    env.IsGuarded := by
  induction h_env with
  | initial | reset => exact .initial
  | @evaluated env depth e result left _ h_eval ih =>
    exact evalWithin_leaves (R := KeepsGuard) depth e env result left h_eval ih
  | @called env depth head args result left _ h_call ih =>
    have h_effect := callProcedure_leaves (R := KeepsGuard) depth head args env result left h_call
    exact h_effect.effect ih
  | boundValue _ h_bound ih => exact ih.bindValue h_bound
  | boundLambda _ h_bound ih => exact ih.bindLambda h_bound
  | unwound _ ih | opened _ ih | closed _ ih => exact ih.congr rfl
  | boundParameter _ h_bound ih =>
    rcases bindParameter_sameButInnermost h_bound with rfl | ⟨old, new, outer, globals, rfl, rfl⟩
    · exact ih
    · exact ih.congr rfl

/-! ## Attempts to bind a protected name -/

section Attempts

variable {env : Environment} {name : String} {protection : Protection}
  (h_protected : env.protection? name = some protection)

include h_protected

/-- Neither a value nor a lambda can be bound to a protected name. -/
theorem bindableName_of_protection? :
    env.bindableName (.symbol name) = .error (.redefinition name protection) := by
  rw [Environment.bindableName, h_protected]

theorem update_bindValue_of_protection? (value : Expression) :
    update (·.bindValue (.symbol name) value) env
      = some (.error (.redefinition name protection), env) := by
  simp only [update, Environment.bindValue, bindableName_of_protection? h_protected, bind, Except.bind]

theorem update_bindLambda_of_protection? (value : Expression) :
    update (·.bindLambda (.symbol name) value) env
      = some (.error (.redefinition name protection), env) := by
  simp only [update, Environment.bindLambda, bindableName_of_protection? h_protected, bind,
    Except.bind]

/-- A definition of a protected name fails before anything is evaluated, so that nothing depends on
how that would be done. -/
theorem evalNode_define_of_protection? (eval : Evaluator) (value : Expression)
    (properties others : NameMap Expression) :
    evalNode eval ⟨.symbol "define", [⟨.symbol name, [], properties⟩, value], others⟩ env
      = some (.error (.redefinition name protection), env) := by
  change evalDefine eval [⟨.symbol name, [], properties⟩, value] env = _
  rw [evalDefine, bind_apply, environment]
  simp only [h_protected, fail]

end Attempts

/-- After any history, and inside of any calls, each constant and each built-in procedure is bound as
at the start, no special form is bound, and no program has bound a protected name. Binding one is
refused in all three ways, whatever the frames of the calls hold, and leaves the environment as it
was. A definition is refused whatever evaluates the value, so that the value is not evaluated. -/
theorem protected_names_kept {env : Environment} (h_env : env.Reached) :
    (∀ name value, (name, value) ∈ Builtin.constants →
      env.globals.get? name = some (.constant value)) ∧
    (∀ procedure : Builtin, env.globals.get? procedure.name = some (.builtin procedure)) ∧
    (∀ form : SpecialForm, env.globals.get? form.name = none) ∧
    (∀ name value protection, (name, value) ∈ env.userBindings → ¬ IsProtected name protection) ∧
    ∀ name protection, IsProtected name protection → ∀ value,
      update (·.bindValue (.symbol name) value) env
        = some (.error (.redefinition name protection), env) ∧
      update (·.bindLambda (.symbol name) value) env
        = some (.error (.redefinition name protection), env) ∧
      ∀ eval properties others,
        evalNode eval ⟨.symbol "define", [⟨.symbol name, [], properties⟩, value], others⟩ env
          = some (.error (.redefinition name protection), env) := by
  have h_guarded := h_env.isGuarded
  refine ⟨fun name value h_constant => ?_, fun procedure => ?_, fun form => ?_,
    fun name value protection h_bound h_name => ?_, fun name protection h_name value => ?_⟩
  · rw [h_guarded.kept (.constant h_constant), initialGlobals_constant h_constant]
  · rw [h_guarded.kept (.procedure procedure), initialGlobals_procedure]
  · rw [h_guarded.kept (.form form), initialGlobals_form]
  · obtain ⟨⟨name', binding⟩, h_entry, h_value⟩ := List.mem_filterMap.mp h_bound
    obtain ⟨user, h_user, h_same⟩ := Option.map_eq_some_iff.mp h_value
    cases h_same
    -- what the name is bound to at the start is nothing that a program binds
    have h_found := h_guarded.ordered.mem_entries_iff.mp h_entry
    rw [h_guarded.kept h_name] at h_found
    cases h_name with
    | form form => simp [initialGlobals_form] at h_found
    | constant h_constant =>
      rw [initialGlobals_constant h_constant] at h_found
      cases h_found
      cases h_user
    | procedure procedure =>
      rw [initialGlobals_procedure] at h_found
      cases h_found
      cases h_user
  · have h_protected := h_guarded.protection? h_name
    exact ⟨update_bindValue_of_protection? h_protected value,
      update_bindLambda_of_protection? h_protected value, fun eval properties others =>
        evalNode_define_of_protection? h_protected eval value properties others⟩

/-! ## A parameter with the name of a constant -/

/-- Inside of a call whose parameter is named like a constant, after a program that binds a name, the
constant cannot be bound either. -/
theorem constant_kept_inside_call :
    ∃ env : Environment, env.Reached ∧ env.local? "pi" = some (.ofAtom (.string "s")) ∧
      env.userBindings = [("a", .ofAtom (.string "s"))] ∧
      evalWithin 1
        ⟨.symbol "define", [.ofAtom (.symbol "pi"), .ofAtom (.string "t")], ∅⟩ env
        = some (.error (.redefinition "pi" .builtIn), env) := by
  have h_bound : Environment.initial.bindValue (.symbol "a") (.ofAtom (.string "s"))
      = .ok ⟨Environment.initialGlobals.insert "a" (.value (.ofAtom (.string "s"))), []⟩ := rfl
  have h_opened := (Environment.Reached.initial.boundValue h_bound).opened
  have h_reached := h_opened.boundParameter
    (show Environment.bindParameter _ (.symbol "pi") (.ofAtom (.string "s")) = _ from rfl)
  obtain ⟨-, -, -, -, h_refused⟩ := protected_names_kept h_reached
  obtain ⟨-, -, h_define⟩ :=
    h_refused "pi" .builtIn (.constant List.mem_cons_self) (.ofAtom (.string "t"))
  exact ⟨_, h_reached, rfl, rfl, h_define (evalWithin 0) ∅ ∅⟩

end PlotLisp
