import Mathlib.Data.List.Basic
import PlotLisp.Procedure.Builtin

/-!
# Promotion

`+`, `-`, `*`, `/` and `^` take real and complex numbers, mixed as one likes. Each of them reads all its
operands from left to right before anything else can go wrong, and what it computes then is complex
exactly if one of the operands is, at whatever place. Two numbers are combined to a complex one exactly
if one of them is complex, so that a running result stays complex from the first complex operand on.

* `operands` are the arguments, read as numbers, and `Builtin.onScalars` is what a procedure makes of
  them (`Builtin.call_eq_onScalars`).
* `Scalar.Promotes` is said of an operation on two numbers, and `isComplex_foldl` of a running result.
* `arithmetic_promotes` is the conclusion.
-/

namespace PlotLisp

/-! ## Sorts of numbers -/

namespace Scalar

def isComplex : Scalar → Bool
  | .real _ => false
  | .complex _ => true

/-- The operation gives a complex number exactly if it is given one. -/
def Promotes (operation : Scalar → Scalar → Scalar) : Prop :=
  ∀ a b, (operation a b).isComplex = (a.isComplex || b.isComplex)

theorem promotes_combine (onReal : Float → Float → Float)
    (onComplex : ComplexNumber → ComplexNumber → ComplexNumber) :
    Promotes (combine onReal onComplex) := by
  intro a b
  cases a <;> cases b <;> rfl

/-- Whatever a complex base comes to, zero or not, it is a complex number. -/
theorem promotes_power : Promotes power := by
  intro a b
  have h_complex (z w : ComplexNumber) :
      (if z.isZero then Scalar.complex ⟨if w.isZero then 1.0 else 0.0, 0.0⟩
        else (Scalar.complex (z.pow w)).snapped).isComplex = true := by
    split
    · rfl
    · rfl
  cases a with
  | real x =>
    cases b with
    | real y => rfl
    | complex w => exact h_complex (.ofReal x) w
  | complex z => exact (h_complex z b.toComplex).trans (Bool.true_or _).symm

theorem isComplex_neg (a : Scalar) : (-a).isComplex = a.isComplex := by
  cases a <;> rfl

theorem isComplex_snapped (a : Scalar) : a.snapped.isComplex = a.isComplex := by
  cases a <;> rfl

/-- A running result is complex once it has been given a complex number. -/
theorem isComplex_foldl {operation : Scalar → Scalar → Scalar} (h_promotes : Promotes operation)
    (start : Scalar) (scalars : List Scalar) :
    (scalars.foldl operation start).isComplex = (start.isComplex || scalars.any isComplex) := by
  induction scalars generalizing start with
  | nil => rw [List.foldl_nil, List.any_nil, Bool.or_false]
  | cons s rest ih => rw [List.foldl_cons, ih, h_promotes, List.any_cons, Bool.or_assoc]

end Scalar

/-! ## Operands -/

/-- A number of either sort is at the head. -/
def Expression.IsNumber (e : Expression) : Prop := e.kind = .number ∨ e.kind = .complex

/-- The arguments, read as numbers one after the other. -/
def operands (operation : String) (args : List Expression) : Except SemanticError (List Scalar) :=
  args.mapM (scalarOf operation)

section Operands

variable {operation : String} {arg : Expression}

theorem scalarOf_of_isNumber (h_number : arg.IsNumber) (operation : String) :
    ∃ s, scalarOf operation arg = .ok s ∧ s.expression.head = arg.head := by
  obtain ⟨head, tail, properties⟩ := arg
  cases head with
  | number x => exact ⟨.real x, rfl, rfl⟩
  | complex z => exact ⟨.complex z, rfl, rfl⟩
  | _ => rcases h_number with h_kind | h_kind <;> cases h_kind

theorem scalarOf_of_not_isNumber (h_culprit : ¬ arg.IsNumber) (operation : String) :
    scalarOf operation arg = .error (wrongKind operation (.ofKind .number) arg) := by
  obtain ⟨head, tail, properties⟩ := arg
  cases head with
  | number x => exact absurd (.inl rfl) h_culprit
  | complex z => exact absurd (.inr rfl) h_culprit
  | _ => rfl

/-- All are read if all are numbers, each as the one that it is. -/
theorem operands_of_isNumber {args : List Expression} (h_numbers : ∀ arg ∈ args, arg.IsNumber)
    (operation : String) :
    ∃ scalars, operands operation args = .ok scalars ∧
      scalars.map (·.expression.head) = args.map (·.head) := by
  induction args with
  | nil => exact ⟨[], rfl, rfl⟩
  | cons arg rest ih =>
    obtain ⟨h_arg, h_rest⟩ := List.forall_mem_cons.mp h_numbers
    obtain ⟨s, h_read, h_head⟩ := scalarOf_of_isNumber h_arg operation
    obtain ⟨scalars, h_others, h_heads⟩ := ih h_rest
    refine ⟨s :: scalars, ?_, by rw [List.map_cons, List.map_cons, h_head, h_heads]⟩
    rw [operands] at h_others ⊢
    rw [List.mapM_cons, h_read, h_others]
    rfl

/-- The first argument that is no number ends the reading. -/
theorem operands_of_culprit {before after : List Expression} {culprit : Expression}
    (h_before : ∀ arg ∈ before, arg.IsNumber) (h_culprit : ¬ culprit.IsNumber) (operation : String) :
    operands operation (before ++ culprit :: after)
      = .error (wrongKind operation (.ofKind .number) culprit) := by
  induction before with
  | nil =>
    rw [operands, List.nil_append, List.mapM_cons, scalarOf_of_not_isNumber h_culprit]
    rfl
  | cons arg rest ih =>
    obtain ⟨h_arg, h_rest⟩ := List.forall_mem_cons.mp h_before
    obtain ⟨s, h_read, -⟩ := scalarOf_of_isNumber h_arg operation
    have h_others := ih h_rest
    rw [operands] at h_others ⊢
    rw [List.cons_append, List.mapM_cons, h_read, h_others]
    rfl

theorem operands_singleton_bind (x : Expression) (next : List Scalar → Outcome) :
    operands operation [x] >>= next = scalarOf operation x >>= fun s => next [s] := by
  rw [operands, List.mapM_cons, List.mapM_nil]
  rcases scalarOf operation x with error | s
  · rfl
  · rfl

theorem operands_pair_bind (x y : Expression) (next : List Scalar → Outcome) :
    operands operation [x, y] >>= next
      = scalarOf operation x >>= fun s => scalarOf operation y >>= fun t => next [s, t] := by
  rw [operands, List.mapM_cons, List.mapM_cons, List.mapM_nil]
  rcases scalarOf operation x with error | s
  · rfl
  · rcases scalarOf operation y with error | t
    · rfl
    · rfl

/-- To take the operands one by one into a running result is to read them all first. -/
theorem accumulate_eq (combine : Scalar → Scalar → Scalar) (start : Scalar)
    (args : List Expression) :
    accumulate operation combine start args
      = operands operation args >>= fun scalars => .ok (scalars.foldl combine start).expression := by
  rw [accumulate, operands]
  induction args generalizing start with
  | nil => rfl
  | cons arg rest ih =>
    rw [List.foldlM_cons, List.mapM_cons]
    rcases scalarOf operation arg with error | s
    · rfl
    · refine (ih (combine start s)).trans ?_
      rcases rest.mapM (scalarOf operation) with error | scalars
      · rfl
      · rfl

end Operands

/-! ## Results -/

namespace Builtin

def arithmetic : List Builtin := [.add, .subtract, .multiply, .divide, .power]

/-- What a procedure makes of numbers, as many as it takes. -/
def onScalars : Builtin → List Scalar → Outcome
  | .add, scalars => .ok (scalars.foldl (· + ·) (Scalar.real 0.0)).expression
  | .multiply, scalars => .ok (scalars.foldl (· * ·) (Scalar.real 1.0)).expression
  | .subtract, [s] => .ok (-s).expression
  | .subtract, [s, t] => .ok (s - t).expression
  | .divide, [s] => divideBy (.real 1.0) s
  | .divide, [s, t] => divideBy s t
  | .power, [s, t] => .ok (s.power t).expression
  | procedure, scalars => .error (.arityMismatch procedure.name procedure.arity scalars.length)

variable {procedure : Builtin} {args : List Expression} {scalars : List Scalar}

/-- Either one argument or two. -/
theorem eq_of_accepts_between {α : Type} {items : List α}
    (h_count : (Arity.between 1 2).accepts items.length = true) :
    (∃ x, items = [x]) ∨ ∃ x y, items = [x, y] := by
  simp only [Arity.accepts, Bool.and_eq_true, decide_eq_true_eq] at h_count
  have h_length : items.length = 1 ∨ items.length = 2 := by omega
  exact h_length.imp List.length_eq_one_iff.mp List.length_eq_two.mp

theorem eq_of_accepts_two {α : Type} {items : List α}
    (h_count : (Arity.exactly 2).accepts items.length = true) : ∃ x y, items = [x, y] :=
  List.length_eq_two.mp (beq_iff_eq.mp h_count)

theorem call_eq_onScalars (h_procedure : procedure ∈ arithmetic)
    (h_count : procedure.arity.accepts args.length = true) :
    procedure.call args = operands procedure.name args >>= procedure.onScalars := by
  have h_call {outcome : Outcome} (h_rule : procedure.rule? args = some outcome) :
      procedure.call args = outcome := by
    rw [call, if_pos h_count, h_rule, Option.getD_some]
  simp only [arithmetic, List.mem_cons, List.not_mem_nil, or_false] at h_procedure
  rcases h_procedure with rfl | rfl | rfl | rfl | rfl
  · exact (h_call rfl).trans (accumulate_eq _ _ args)
  · rcases eq_of_accepts_between h_count with ⟨x, rfl⟩ | ⟨x, y, rfl⟩
    · rw [h_call rfl, operands_singleton_bind]
      rfl
    · rw [h_call rfl, operands_pair_bind]
      rfl
  · exact (h_call rfl).trans (accumulate_eq _ _ args)
  · rcases eq_of_accepts_between h_count with ⟨x, rfl⟩ | ⟨x, y, rfl⟩
    · rw [h_call rfl, operands_singleton_bind]
      rfl
    · rw [h_call rfl, operands_pair_bind]
      rfl
  · obtain ⟨x, y, rfl⟩ := eq_of_accepts_two h_count
    rw [h_call rfl, operands_pair_bind]
    rfl

/-- What numbers come to: an error if the last of them is a zero to divide by, and otherwise a number
that is complex if one of them is. -/
def Comes (procedure : Builtin) (scalars : List Scalar) (outcome : Outcome) : Prop :=
  if procedure = .divide ∧ scalars.getLast?.any Scalar.isZero then
    outcome = .error (.divisionByZero "/")
  else ∃ s : Scalar, outcome = .ok s.expression ∧ s.isComplex = scalars.any Scalar.isComplex

theorem comes_of_ne_divide (h_procedure : procedure ≠ .divide) {s : Scalar}
    (h_complex : s.isComplex = scalars.any Scalar.isComplex) :
    procedure.Comes scalars (.ok s.expression) := by
  rw [Comes, if_neg fun h_divide => h_procedure h_divide.1]
  exact ⟨s, rfl, h_complex⟩

theorem comes_divideBy {dividend divisor : Scalar} (h_last : scalars.getLast? = some divisor)
    (h_complex : (dividend.isComplex || divisor.isComplex) = scalars.any Scalar.isComplex) :
    divide.Comes scalars (divideBy dividend divisor) := by
  rw [Comes, h_last, Option.any_some, divideBy]
  by_cases h_zero : divisor.isZero = true
  · rw [if_pos ⟨rfl, h_zero⟩, if_pos h_zero]
  · rw [if_neg fun h_both => h_zero h_both.2, if_neg h_zero]
    refine ⟨(dividend / divisor).snapped, rfl, ?_⟩
    rw [Scalar.isComplex_snapped, ← h_complex]
    exact Scalar.promotes_combine _ _ dividend divisor

theorem comes_onScalars (h_procedure : procedure ∈ arithmetic)
    (h_count : procedure.arity.accepts scalars.length = true) :
    procedure.Comes scalars (procedure.onScalars scalars) := by
  have h_pair (s t : Scalar) : [s, t].any Scalar.isComplex = (s.isComplex || t.isComplex) := by
    rw [List.any_cons, List.any_cons, List.any_nil, Bool.or_false]
  have h_single (s : Scalar) : [s].any Scalar.isComplex = s.isComplex := by
    rw [List.any_cons, List.any_nil, Bool.or_false]
  simp only [arithmetic, List.mem_cons, List.not_mem_nil, or_false] at h_procedure
  rcases h_procedure with rfl | rfl | rfl | rfl | rfl
  · -- a sum begins with a real zero
    refine comes_of_ne_divide (by decide) ?_
    exact Scalar.isComplex_foldl (Scalar.promotes_combine _ _) (.real 0.0) scalars
  · rcases eq_of_accepts_between h_count with ⟨s, rfl⟩ | ⟨s, t, rfl⟩
    · refine comes_of_ne_divide (by decide) ?_
      rw [Scalar.isComplex_neg, h_single]
    · refine comes_of_ne_divide (by decide) ?_
      rw [h_pair]
      exact Scalar.promotes_combine _ _ s t
  · refine comes_of_ne_divide (by decide) ?_
    exact Scalar.isComplex_foldl (Scalar.promotes_combine _ _) (.real 1.0) scalars
  · rcases eq_of_accepts_between h_count with ⟨s, rfl⟩ | ⟨s, t, rfl⟩
    · apply comes_divideBy rfl
      rw [h_single]
      rfl
    · apply comes_divideBy rfl
      rw [h_pair]
  · obtain ⟨s, t, rfl⟩ := eq_of_accepts_two h_count
    refine comes_of_ne_divide (by decide) ?_
    rw [h_pair]
    exact Scalar.promotes_power s t

/-- The procedure divides, and the argument that it divides by is zero: a real zero, or a complex number
with both parts zero. -/
def DividesByZero (procedure : Builtin) (args : List Expression) : Prop :=
  procedure = .divide ∧ ∃ divisor ∈ args.getLast?,
    (∃ x, divisor.head = .number x ∧ (x == 0.0) = true) ∨
      ∃ z, divisor.head = .complex z ∧ (z.re == 0.0) = true ∧ (z.im == 0.0) = true

/-! ### What is told by the heads of the arguments -/

theorem dividesByZero_iff (h_heads : scalars.map (·.expression.head) = args.map (·.head)) :
    procedure.DividesByZero args
      ↔ procedure = .divide ∧ scalars.getLast?.any Scalar.isZero = true := by
  have h_last : scalars.getLast?.map (·.expression.head) = args.getLast?.map (·.head) := by
    rw [← List.getLast?_map, h_heads, List.getLast?_map]
  rw [DividesByZero, and_congr_right_iff]
  intro _
  rcases h_divisor : args.getLast? with _ | divisor <;>
    rcases h_scalar : scalars.getLast? with _ | s <;> rw [h_divisor, h_scalar] at h_last
  · simp
  · cases h_last
  · cases h_last
  · have h_head : divisor.head = s.expression.head := (Option.some.inj h_last).symm
    simp only [Option.mem_def, Option.some.injEq, exists_eq_left', Option.any_some]
    cases s with
    | real x =>
      simp [h_head, Scalar.expression, Expression.number, Expression.ofAtom, Scalar.isZero]
    | complex z =>
      simp [h_head, Scalar.expression, Expression.complex, Expression.ofAtom, Scalar.isZero,
        ComplexNumber.isZero]

theorem any_isComplex_iff (h_heads : scalars.map (·.expression.head) = args.map (·.head)) :
    scalars.any Scalar.isComplex = true ↔ ∃ arg ∈ args, arg.kind = .complex := by
  have h_kinds : (args.map (·.head)).any (·.kind == .complex) = scalars.any Scalar.isComplex := by
    rw [← h_heads, List.any_map]
    congr 1
    funext s
    cases s <;> rfl
  rw [← h_kinds, List.any_map, List.any_eq_true]
  simp only [Function.comp_apply, beq_iff_eq]
  rfl

/-- What a call comes to whose arguments are all numbers. -/
theorem comes_of_numbers (h_procedure : procedure ∈ arithmetic)
    (h_count : procedure.arity.accepts args.length = true)
    (h_numbers : ∀ arg ∈ args, arg.IsNumber) :
    (procedure.DividesByZero args → procedure.call args = .error (.divisionByZero "/")) ∧
      (¬ procedure.DividesByZero args → ∃ s : Scalar, procedure.call args = .ok s.expression ∧
        (s.isComplex = true ↔ ∃ arg ∈ args, arg.kind = .complex)) := by
  obtain ⟨scalars, h_read, h_heads⟩ := operands_of_isNumber h_numbers procedure.name
  have h_length : scalars.length = args.length := by
    rw [← List.length_map (·.expression.head), h_heads, List.length_map]
  have h_comes := comes_onScalars h_procedure (h_length ▸ h_count)
  have h_result : procedure.call args = procedure.onScalars scalars := by
    rw [call_eq_onScalars h_procedure h_count, h_read]
    rfl
  rw [dividesByZero_iff h_heads, h_result]
  constructor
  · intro h_zero
    rwa [Comes, if_pos h_zero] at h_comes
  · intro h_nonzero
    rw [Comes, if_neg h_nonzero] at h_comes
    obtain ⟨s, h_ok, h_complex⟩ := h_comes
    exact ⟨s, h_ok, by rw [h_complex, any_isComplex_iff h_heads]⟩

end Builtin

/-! ## Promotion -/

/-- The five procedures, given as many arguments as they take. The first argument that is no number is
named by the error, whatever stands behind it. If all are numbers, a zero to divide by is an error, and
otherwise there is a result with nothing but a number: a complex one if some argument is complex, and a
real one if none is. -/
theorem arithmetic_promotes {procedure : Builtin} {args : List Expression}
    (h_procedure : procedure ∈ Builtin.arithmetic)
    (h_count : procedure.arity.accepts args.length = true) :
    (∀ before culprit after, args = before ++ culprit :: after →
      (∀ arg ∈ before, arg.IsNumber) → ¬ culprit.IsNumber →
      procedure.call args
        = .error (.typeMismatch procedure.name (.ofKind .number) (.ofKind culprit.kind))) ∧
    ((∀ arg ∈ args, arg.IsNumber) →
      (procedure.DividesByZero args → procedure.call args = .error (.divisionByZero "/")) ∧
      (¬ procedure.DividesByZero args →
        ((∃ arg ∈ args, arg.kind = .complex) → ∃ z, procedure.call args = .ok (.complex z)) ∧
        ((∀ arg ∈ args, arg.kind ≠ .complex) → ∃ x, procedure.call args = .ok (.number x)))) := by
  have h_call := Builtin.call_eq_onScalars h_procedure h_count
  constructor
  · intro before culprit after h_args h_before h_culprit
    rw [h_call, h_args, operands_of_culprit h_before h_culprit]
    rfl
  · intro h_numbers
    have h_comes := Builtin.comes_of_numbers h_procedure h_count h_numbers
    refine ⟨h_comes.1, fun h_nonzero => ?_⟩
    obtain ⟨s, h_ok, h_complex⟩ := h_comes.2 h_nonzero
    cases s with
    | real x =>
      constructor
      · intro h_some
        exact absurd (h_complex.mpr h_some) Bool.false_ne_true
      · intro _
        exact ⟨x, h_ok⟩
    | complex z =>
      constructor
      · intro _
        exact ⟨z, h_ok⟩
      · intro h_none
        obtain ⟨arg, h_arg, h_kind⟩ := h_complex.mp rfl
        exact absurd h_kind (h_none arg h_arg)

/-- A complex number in the middle makes a sum complex, whatever else is in its node. A string ends a
product before the list behind it is looked at. A complex zero is no divisor. -/
theorem complex_in_the_middle_promotes :
    (∃ z, Builtin.add.call [.number 1.0, { head := .complex ⟨0.0, 1.0⟩, tail := [.nothing] },
      .number 2.0] = .ok (.complex z)) ∧
    Builtin.multiply.call [.number 1.0, .ofAtom (.string "s"), .list []]
      = .error (.typeMismatch "*" (.ofKind .number) (.ofKind .string)) ∧
    Builtin.divide.call [.complex ⟨0.0, -0.0⟩] = .error (.divisionByZero "/") := by
  refine ⟨?_, ?_, ?_⟩
  · have h_numbers : ∀ arg ∈ [Expression.number 1.0,
        { head := .complex ⟨0.0, 1.0⟩, tail := [.nothing] }, .number 2.0], arg.IsNumber := by
      simp [Expression.IsNumber, Expression.kind, Expression.number, Expression.ofAtom, Atom.kind]
    refine (((@arithmetic_promotes .add _ (by decide) (by decide)).2 h_numbers).2 ?_).1 ?_
    · intro h_zero
      exact absurd h_zero.1 (by decide)
    · exact ⟨{ head := .complex ⟨0.0, 1.0⟩, tail := [.nothing] }, by simp, rfl⟩
  · refine (@arithmetic_promotes .multiply _ (by decide) (by decide)).1 [.number 1.0] _ [.list []]
      rfl ?_ ?_
    · intro arg h_arg
      rw [List.mem_singleton.mp h_arg]
      exact .inl rfl
    · rintro (h_kind | h_kind) <;> cases h_kind
  · have h_number : ∀ arg ∈ [Expression.complex ⟨0.0, -0.0⟩], arg.IsNumber := by
      intro arg h_arg
      rw [List.mem_singleton.mp h_arg]
      exact .inr rfl
    refine ((@arithmetic_promotes .divide _ (by decide) (by decide)).2 h_number).1 ?_
    exact ⟨rfl, _, rfl, .inr ⟨_, rfl, by decide +kernel, by decide +kernel⟩⟩

end PlotLisp
