import PlotLisp.Expression.Basic
import PlotLisp.Number.Scalar
import PlotLisp.SemanticError

/-!
# Arithmetic procedures

The procedures on numbers. Each takes its operands from left to right, and the first operand
that is no number is the one that an error names.

Sums, differences and products are given as they come out, and so is the root of a negative
real number. All other complex results are snapped.
-/

namespace PlotLisp

/-- The result of a procedure. -/
abbrev Outcome := Except SemanticError Expression

def Scalar.expression : Scalar → Expression
  | .real x => .number x
  | .complex z => .complex z

/-! ## Operands -/

/-- An error about an argument of the wrong kind. -/
def wrongKind (operation : String) (expected : Requirement) (arg : Expression) :
    SemanticError :=
  .typeMismatch operation expected (.ofKind arg.kind)

/-- An argument that has to be a number of either sort. -/
def scalarOf (operation : String) (arg : Expression) : Except SemanticError Scalar :=
  match arg.head with
  | .number x => .ok (.real x)
  | .complex z => .ok (.complex z)
  | _ => .error (wrongKind operation (.ofKind .number) arg)

/-- An argument that has to be a complex number. -/
def complexOf (operation : String) (arg : Expression) : Except SemanticError ComplexNumber :=
  match arg.head with
  | .complex z => .ok z
  | _ => .error (wrongKind operation (.ofKind .complex) arg)

/-! ## The four operations -/

/-- Takes the operands one by one into a running result. -/
def accumulate (operation : String) (combine : Scalar → Scalar → Scalar) (start : Scalar)
    (args : List Expression) : Outcome := do
  let total ← args.foldlM (fun total arg => return combine total (← scalarOf operation arg)) start
  return total.expression

def sum (args : List Expression) : Outcome := accumulate "+" (· + ·) (.real 0.0) args

def product (args : List Expression) : Outcome := accumulate "*" (· * ·) (.real 1.0) args

def negation (arg : Expression) : Outcome := do
  let value ← scalarOf "-" arg
  return (-value).expression

def difference (left right : Expression) : Outcome := do
  let left ← scalarOf "-" left
  let right ← scalarOf "-" right
  return (left - right).expression

/-- The quotient of two scalars, which only zero as a divisor has not. -/
def divideBy (dividend divisor : Scalar) : Outcome :=
  if divisor.isZero then .error (.divisionByZero "/")
  else .ok (dividend / divisor).snapped.expression

def reciprocal (arg : Expression) : Outcome := do
  divideBy (.real 1.0) (← scalarOf "/" arg)

def quotient (left right : Expression) : Outcome := do
  let left ← scalarOf "/" left
  let right ← scalarOf "/" right
  divideBy left right

/-! ## Powers and elementary functions -/

/-- Applies a function to a scalar of either sort. -/
def Scalar.through (onReal : Float → Scalar) (onComplex : ComplexNumber → ComplexNumber) :
    Scalar → Scalar
  | .real x => onReal x
  | .complex z => (Scalar.complex (onComplex z)).snapped

/-- The square root. That of a negative number is imaginary. -/
def squareRoot (arg : Expression) : Outcome := do
  let onReal (x : Float) : Scalar :=
    if x ≥ 0.0 then .real x.sqrt else .complex ⟨0.0, (-x).sqrt⟩
  return ((← scalarOf "sqrt" arg).through onReal ComplexNumber.sqrt).expression

/-- The power of two scalars. A complex zero has no logarithm to take a power through: its
power is zero, or one if the exponent is zero as well. -/
def Scalar.power : Scalar → Scalar → Scalar
  | .real x, .real y => .real (x.pow y)
  | base, exponent =>
    let z := base.toComplex
    let w := exponent.toComplex
    if z.isZero then .complex ⟨if w.isZero then 1.0 else 0.0, 0.0⟩
    else (Scalar.complex (z.pow w)).snapped

def power (base exponent : Expression) : Outcome := do
  let base ← scalarOf "^" base
  let exponent ← scalarOf "^" exponent
  return (base.power exponent).expression

/-- The natural logarithm, which a negative real number has not. -/
def logarithm (arg : Expression) : Outcome := do
  match ← scalarOf "ln" arg with
  | .real x =>
    if x < 0.0 then throw (.typeMismatch "ln" .nonNegativeNumber .negativeNumber)
    else return .number x.log
  | .complex z => return (Scalar.complex z.log).snapped.expression

/-- A function of one number, real or complex as the number is. -/
def elementary (operation : String) (onReal : Float → Float)
    (onComplex : ComplexNumber → ComplexNumber) (arg : Expression) : Outcome := do
  return ((← scalarOf operation arg).through (fun x => .real (onReal x)) onComplex).expression

def sine : Expression → Outcome := elementary "sin" Float.sin ComplexNumber.sin

def cosine : Expression → Outcome := elementary "cos" Float.cos ComplexNumber.cos

def tangent : Expression → Outcome := elementary "tan" Float.tan ComplexNumber.tan

/-! ## Parts of complex numbers -/

def realPart (arg : Expression) : Outcome := do return .number (← complexOf "real" arg).re

def imaginaryPart (arg : Expression) : Outcome := do return .number (← complexOf "imag" arg).im

def magnitude (arg : Expression) : Outcome := do return .number (← complexOf "mag" arg).norm

def argument (arg : Expression) : Outcome := do return .number (← complexOf "arg" arg).angle

def conjugate (arg : Expression) : Outcome := do
  return .complex (← complexOf "conj" arg).conjugate

end PlotLisp
