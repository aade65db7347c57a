import PlotLisp.Evaluation.Depth

/-!
# Application through a list

A procedure can be called with its name at the head of a node, or it can be handed to `apply` with the
arguments in a list. The second form asks first whether the name stands for a procedure, and once more
after the arguments are evaluated, as these may bind the name to another one. Both forms evaluate the
same arguments in the same order and call what the name stands for then, so that they cannot be told
apart where the first question is answered with yes.

The two differ in how deep they nest: the arguments of `apply` are one level further down than its
call. So a result of one form is looked for at a greater depth in the other.
-/

namespace PlotLisp

open Evaluation

/-! ## The two forms -/

/-- A call of a procedure by its name. -/
def callOf (name : String) (args : List Expression) : Expression :=
  { head := .symbol name, tail := args }

/-- The application of a procedure to the items of a list, which is written out. -/
def applyOf (name : String) (args : List Expression) : Expression :=
  { head := .symbol SpecialForm.apply.name, tail := [.ofAtom (.symbol name), .list args] }

/-! ## Their rules -/

/-- A list that is written out evaluates to the list of the values of its items. -/
theorem evalWithin_list (depth : Nat) (items : List Expression) :
    evalWithin (depth + 1) (.list items)
      = items.mapM (evalWithin depth) >>= fun values => pure (.list values) := by
  show evalNode (evalWithin depth) (.list items) = _
  simp [evalNode, Expression.list, isFormHead, Atom.symbolName?]

theorem evalWithin_callOf {name : String} (h_name : ∀ form : SpecialForm, name ≠ form.name)
    {args : List Expression} (h_args : args ≠ []) (depth : Nat) :
    evalWithin (depth + 1) (callOf name args)
      = args.mapM (evalWithin depth) >>= callProcedure (evalWithin depth) (.symbol name) := by
  have h_none : SpecialForm.ofName? name = none := SpecialForm.ofName?_eq_none_iff.mpr h_name
  show evalNode (evalWithin depth) (callOf name args) = _
  simp [evalNode, callOf, h_args, Atom.symbolName?, h_none]

/-- Where the name stands for a procedure, a form applies it to the values of the items. -/
theorem procedureAndItems_of_procedure {name : String} {env : Environment}
    (h_procedure : (env.procedure? name).isSome) (form : SpecialForm) (items : List Expression)
    (depth : Nat) :
    procedureAndItems (evalWithin (depth + 1)) form [.ofAtom (.symbol name), .list items] env
      = (items.mapM (evalWithin depth) >>= fun values => pure (.symbol name, values)) env := by
  have h_some : ((env.procedure? name).isNone) = false := by
    rw [Option.isNone_eq_false_iff]
    exact h_procedure
  show (if (env.procedure? name).isNone then fail (.notAProcedure name)
    else evalWithin (depth + 1) (.list items) >>= fun list =>
      ofExcept (itemsOf form.name list) >>= fun values => pure (Atom.symbol name, values)) env = _
  rw [h_some, if_neg Bool.false_ne_true, evalWithin_list, bind_assoc]
  rfl

theorem evalWithin_applyOf {name : String} {env : Environment}
    (h_procedure : (env.procedure? name).isSome) (args : List Expression) (depth : Nat) :
    evalWithin (depth + 2) (applyOf name args) env
      = (args.mapM (evalWithin depth) >>=
          callProcedure (evalWithin (depth + 1)) (.symbol name)) env := by
  show (procedureAndItems (evalWithin (depth + 1)) .apply [.ofAtom (.symbol name), .list args] >>=
    fun found => callProcedure (evalWithin (depth + 1)) found.1 found.2) env = _
  rw [bind_apply, procedureAndItems_of_procedure h_procedure, ← bind_apply, bind_assoc]
  rfl

/-! ## Their agreement -/

/-- A call ends with a value or an error, and leaves an environment, exactly when `apply` ends with the
same and leaves the same, if the name stands for a procedure where they begin. -/
theorem apply_agrees_with_call {name : String} {env : Environment} {args : List Expression}
    (h_name : ∀ form : SpecialForm, name ≠ form.name)
    (h_procedure : (env.procedure? name).isSome) (h_args : args ≠ [])
    (result : Outcome) (left : Environment) :
    Evaluates env (applyOf name args) result left ↔ Evaluates env (callOf name args) result left := by
  constructor
  · rintro ⟨depth, h_apply⟩
    -- the call finds at its arguments the depth that `apply` has one level above them
    refine ⟨depth + 2, ?_⟩
    have h_deeper := evalWithin_mono (Nat.le_add_right depth 2) _ env _ h_apply
    rw [evalWithin_applyOf h_procedure] at h_deeper
    rw [evalWithin_callOf h_name h_args]
    have h_args_extend := Extends.mapM (evalWithin_extends_succ depth) args
    exact h_args_extend.bind (fun _ => .refl _) env _ h_deeper
  · rintro ⟨depth, h_call⟩
    refine ⟨depth + 2, ?_⟩
    have h_deeper := evalWithin_mono (Nat.le_succ depth) _ env _ h_call
    rw [Nat.succ_eq_add_one, evalWithin_callOf h_name h_args] at h_deeper
    rw [evalWithin_applyOf h_procedure]
    have h_call_extends := callProcedure_extends (evalWithin_extends_succ depth) (.symbol name)
    exact (Extends.refl _).bind h_call_extends env _ h_deeper

/-- Inside of a call, where `f` gives its argument back. -/
def whereIdentityIsCalled : Environment where
  globals := Environment.initialGlobals.insert "f"
    (.lambda (.lambda (.list [.ofAtom (.symbol "x")]) (.ofAtom (.symbol "x"))))
  frames := [NameMap.ofList [("x", .ofAtom (.string "s"))]]

/-- A lambda that gives the `x` of its caller, whatever its argument is. -/
def callersLambda : Expression :=
  .lambda (.list [.ofAtom (.symbol "y")]) (.ofAtom (.symbol "x"))

/-- Binds `f` anew. -/
def redefinition : Expression where
  head := .symbol "define"
  tail := [.ofAtom (.symbol "f"), callersLambda]

/-- What the argument leaves. -/
def whereCallersIsCalled : Environment where
  globals := whereIdentityIsCalled.globals.insert "f" (.lambda callersLambda)
  frames := whereIdentityIsCalled.frames

/-- An argument that binds `f` anew is handed to the new `f` in both forms. -/
theorem apply_agrees_across_redefinition :
    Evaluates whereIdentityIsCalled (applyOf "f" [redefinition]) (.ok (.ofAtom (.string "s")))
        whereCallersIsCalled ∧
      Evaluates whereIdentityIsCalled (callOf "f" [redefinition]) (.ok (.ofAtom (.string "s")))
        whereCallersIsCalled := by
  have h_name : ∀ form : SpecialForm, "f" ≠ form.name := by
    intro form
    cases form <;> decide
  have h_procedure : (whereIdentityIsCalled.procedure? "f").isSome := rfl
  have h_agrees := apply_agrees_with_call h_name h_procedure (List.cons_ne_nil redefinition [])
    (.ok (.ofAtom (.string "s"))) whereCallersIsCalled
  have h_call : Evaluates whereIdentityIsCalled (callOf "f" [redefinition])
      (.ok (.ofAtom (.string "s"))) whereCallersIsCalled := ⟨4, rfl⟩
  exact ⟨h_agrees.mpr h_call, h_call⟩

end PlotLisp
