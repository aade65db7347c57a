import PlotLisp.Proofs.Evaluation.AlikeCalls
import PlotLisp.Proofs.Evaluation.Soundness

/-!
# Failures that no program causes

Some errors are there for the case that something is wrong with the interpreter itself: a tree of a
form that no text is parsed to, a lambda whose parts are missing, a parameter where no call is under
way. `SemanticError.IsInternal` lists them. Each is ruled out by something that evaluation preserves,
and all of that is in `Environment.IsSound` and `IsText`; so no text run in any session fails in one
of these ways.

The procedures read their arguments by position, and two of them have a branch for the case that there
are too many or too few. `Builtin.body?` is a procedure as it is once its arity is checked, and has no
outcome where an argument is missing or such a branch is reached. The arity that each procedure
declares leaves no such case.
-/

namespace PlotLisp

/-! ## Arguments by position -/

/-- What a procedure does once its arity is checked. There is no outcome if an argument is missing, or
if the number of arguments is one that the procedure does not provide for. -/
def Builtin.body? (procedure : Builtin) (args : List Expression) : Option Outcome :=
  match procedure with
  | .add => some (sum args)
  | .subtract =>
    match args with
    | [x] => some (negation x)
    | [x, y] => some (difference x y)
    | _ => none
  | .multiply => some (product args)
  | .divide =>
    match args with
    | [x] => some (reciprocal x)
    | [x, y] => some (quotient x y)
    | _ => none
  | .sqrt => do return squareRoot (← args[0]?)
  | .power => do return PlotLisp.power (← args[0]?) (← args[1]?)
  | .ln => do return logarithm (← args[0]?)
  | .sin => do return sine (← args[0]?)
  | .cos => do return cosine (← args[0]?)
  | .tan => do return tangent (← args[0]?)
  | .real => do return realPart (← args[0]?)
  | .imag => do return imaginaryPart (← args[0]?)
  | .mag => do return magnitude (← args[0]?)
  | .arg => do return argument (← args[0]?)
  | .conj => do return conjugate (← args[0]?)
  | .first => do return firstItem (← args[0]?)
  | .rest => do return restItems (← args[0]?)
  | .length => do return lengthOf (← args[0]?)
  | .append => do return appendItem (← args[0]?) (← args[1]?)
  | .join => do return joinLists (← args[0]?) (← args[1]?)
  | .range => do return PlotLisp.range (← args[0]?) (← args[1]?) (← args[2]?)
  | .setProperty => do return PlotLisp.setProperty (← args[0]?) (← args[1]?) (← args[2]?)
  | .getProperty => do return PlotLisp.getProperty (← args[0]?) (← args[1]?)
  | .discretePlot => do return PlotLisp.discretePlot (← args[0]?) args[1]?
  | .continuousPlot => do return PlotLisp.continuousPlot (← args[0]?) (← args[1]?) args[2]?

/-- Where a procedure has a rule, it finds all arguments in their places. -/
theorem Builtin.body?_of_rule? {procedure : Builtin} {args : List Expression} {outcome : Outcome}
    (h_rule : procedure.rule? args = some outcome) : procedure.body? args = some outcome := by
  unfold rule? at h_rule
  split at h_rule <;> cases h_rule <;> rfl

/-- A call runs the body if the arity admits the number of arguments, and all of them are there then. -/
theorem Builtin.body?_of_accepts {procedure : Builtin} {args : List Expression}
    (h_accepts : procedure.arity.accepts args.length = true) :
    procedure.body? args = some (procedure.call args) := by
  obtain ⟨outcome, h_rule⟩ := Builtin.exists_rule? h_accepts
  have h_call : procedure.call args = outcome := by
    simp only [call, if_pos h_accepts, h_rule, Option.getD_some]
  rw [h_call]
  exact body?_of_rule? h_rule

/-! ## Sessions -/

/-- Whatever texts are run one after another in a new session, none of them fails through a fault of the
interpreter itself; and procedures run only with a number of arguments that they declare, which is one
that they provide for, as all arguments are there that they read. -/
theorem internal_failures_unreachable {runs : List (String × Except ProgramError Expression)}
    {session : Session} (h_ran : Session.Ran runs session) :
    (∀ text error, (text, .error (.semantic error)) ∈ runs → ¬ error.IsInternal) ∧
      ∀ (procedure : Builtin) (args : List Expression),
        if procedure.arity.accepts args.length then
          procedure.body? args = some (procedure.call args)
        else
          procedure.call args
            = .error (.arityMismatch procedure.name procedure.arity args.length) := by
  obtain ⟨-, h_runs⟩ := h_ran.sound (isText_isPartOfTexts _)
    fun text h_text program h_parse => ⟨text, h_text, program, h_parse, .whole⟩
  refine ⟨fun text error h_run => (h_runs _ h_run).2 error rfl, fun procedure args => ?_⟩
  split
  · rename_i h_accepts
    exact Builtin.body?_of_accepts h_accepts
  · rename_i h_refused
    rw [Builtin.call]
    exact if_neg h_refused

/-- A call of the lambda with itself, and with itself again. -/
def callWithTwo : Expression where
  head := .symbol "f"
  tail := [.ofAtom (.symbol "f"), .ofAtom (.symbol "f")]

theorem parseProgram_callWithTwo : parseProgram "(f f f)" = .ok callWithTwo := by
  have h_letters : "(f f f)".toList = ['(', 'f', ' ', 'f', ' ', 'f', ')'] := by simp
  have h_read : Form.read? "(f f f)"
      = some (.node (.bare "f") [.leaf (.bare "f"), .leaf (.bare "f")]) := by
    rw [Form.read?, Lexeme.scan?, h_letters]
    rfl
  rw [parseProgram, h_read]
  rfl

/-- A lambda is bound and called with too many arguments, which is the fault of the program; and an
argument of another sort than is wanted is there all the same. -/
theorem failing_call_is_not_internal :
    ∃ runs session, Session.Ran runs session ∧
      ("(f f f)", .error (.semantic (.arityMismatch "f" (.exactly 1) 2))) ∈ runs ∧
      ¬ (SemanticError.arityMismatch "f" (.exactly 1) 2).IsInternal ∧
      Builtin.append.body? [.list [], .nothing] = some (Builtin.append.call [.list [], .nothing]) := by
  have h_call : Session.evalSource 3 lambdaSession "(f f f)"
      = some (.error (.semantic (.arityMismatch "f" (.exactly 1) 2)),
        { lambdaSession with program := some callWithTwo }) := by
    rw [Session.evalSource, Session.load, parseProgram_callWithTwo]
    rfl
  have h_ran := (Session.Ran.new.run evalSource_lambdaProgram).run h_call
  obtain ⟨h_errors, h_calls⟩ := internal_failures_unreachable h_ran
  refine ⟨_, _, h_ran, ?_, ?_, h_calls .append [.list [], .nothing]⟩
  · exact List.mem_append_right _ (List.mem_singleton_self _)
  · exact h_errors "(f f f)" _ (List.mem_append_right _ (List.mem_singleton_self _))

end PlotLisp
