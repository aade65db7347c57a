import PlotLisp.Procedure.Plots

/-!
# Built-in procedures

The procedures that every program can use, each with its name and its arity. A call checks the
number of arguments before anything else; the rule of a procedure is stated for those numbers
of arguments that it makes sense for, and its arity admits no others.
-/

namespace PlotLisp

inductive Builtin where
  | add | subtract | multiply | divide | sqrt | power | ln | sin | cos | tan
  | real | imag | mag | arg | conj
  | first | rest | length | append | join | range
  | setProperty | getProperty
  | discretePlot | continuousPlot
deriving DecidableEq, Repr

namespace Builtin

def all : List Builtin :=
  [.add, .subtract, .multiply, .divide, .sqrt, .power, .ln, .sin, .cos, .tan,
    .real, .imag, .mag, .arg, .conj,
    .first, .rest, .length, .append, .join, .range,
    .setProperty, .getProperty, .discretePlot, .continuousPlot]

def name : Builtin → String
  | .add => "+"
  | .subtract => "-"
  | .multiply => "*"
  | .divide => "/"
  | .sqrt => "sqrt"
  | .power => "^"
  | .ln => "ln"
  | .sin => "sin"
  | .cos => "cos"
  | .tan => "tan"
  | .real => "real"
  | .imag => "imag"
  | .mag => "mag"
  | .arg => "arg"
  | .conj => "conj"
  | .first => "first"
  | .rest => "rest"
  | .length => "length"
  | .append => "append"
  | .join => "join"
  | .range => "range"
  | .setProperty => "set-property"
  | .getProperty => "get-property"
  | .discretePlot => "discrete-plot"
  | .continuousPlot => "continuous-plot"

def arity : Builtin → Arity
  | .add | .multiply => .atLeast 1
  | .subtract | .divide | .discretePlot => .between 1 2
  | .power | .append | .join | .getProperty => .exactly 2
  | .range | .setProperty => .exactly 3
  | .continuousPlot => .between 2 3
  | _ => .exactly 1

/-- The rule of a procedure, where it has one for so many arguments. -/
def rule? : Builtin → List Expression → Option Outcome
  | .add, args => some (sum args)
  | .subtract, [x] => some (negation x)
  | .subtract, [x, y] => some (difference x y)
  | .multiply, args => some (product args)
  | .divide, [x] => some (reciprocal x)
  | .divide, [x, y] => some (quotient x y)
  | .sqrt, [x] => some (squareRoot x)
  | .power, [x, y] => some (PlotLisp.power x y)
  | .ln, [x] => some (logarithm x)
  | .sin, [x] => some (sine x)
  | .cos, [x] => some (cosine x)
  | .tan, [x] => some (tangent x)
  | .real, [x] => some (realPart x)
  | .imag, [x] => some (imaginaryPart x)
  | .mag, [x] => some (magnitude x)
  | .arg, [x] => some (argument x)
  | .conj, [x] => some (conjugate x)
  | .first, [x] => some (firstItem x)
  | .rest, [x] => some (restItems x)
  | .length, [x] => some (lengthOf x)
  | .append, [x, y] => some (appendItem x y)
  | .join, [x, y] => some (joinLists x y)
  | .range, [x, y, z] => some (PlotLisp.range x y z)
  | .setProperty, [x, y, z] => some (PlotLisp.setProperty x y z)
  | .getProperty, [x, y] => some (PlotLisp.getProperty x y)
  | .discretePlot, [x] => some (PlotLisp.discretePlot x none)
  | .discretePlot, [x, y] => some (PlotLisp.discretePlot x (some y))
  | .continuousPlot, [x, y] => some (PlotLisp.continuousPlot x y none)
  | .continuousPlot, [x, y, z] => some (PlotLisp.continuousPlot x y (some z))
  | _, _ => none

/-- Calls a procedure, if the number of arguments suits it. -/
def call (procedure : Builtin) (args : List Expression) : Outcome :=
  let mismatch := .error (.arityMismatch procedure.name procedure.arity args.length)
  if procedure.arity.accepts args.length then (procedure.rule? args).getD mismatch else mismatch

/-! ## Constants -/

/-- The names that stand for numbers from the start. -/
def constants : List (String × Expression) :=
  [("pi", .number (Float.ofBits 0x400921FB54442D18)),
    ("e", .number (Float.ofBits 0x4005BF0A8B145769)),
    ("I", .complex ⟨0.0, 1.0⟩)]

end Builtin

end PlotLisp
