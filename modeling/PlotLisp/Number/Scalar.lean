import PlotLisp.Number.ComplexNumber

/-!
# Scalars

What arithmetic works on: a real number or a complex one. An operation on two scalars is real
as long as both of them are. As soon as one is complex the other is taken for complex too, and
so is the result.

Results that should be zero come out of complex arithmetic as something very small.
`Scalar.snapped` puts them right.
-/

namespace PlotLisp

inductive Scalar where
  | real (value : Float)
  | complex (value : ComplexNumber)

namespace Scalar

def toComplex : Scalar → ComplexNumber
  | .real x => .ofReal x
  | .complex z => z

def isZero : Scalar → Bool
  | .real x => x == 0.0
  | .complex z => z.isZero

/-- Combines two scalars by the operation for the kind of numbers they are. -/
def combine (onReal : Float → Float → Float)
    (onComplex : ComplexNumber → ComplexNumber → ComplexNumber) : Scalar → Scalar → Scalar
  | .real x, .real y => .real (onReal x y)
  | a, b => .complex (onComplex a.toComplex b.toComplex)

instance : Add Scalar := ⟨combine (· + ·) (· + ·)⟩

instance : Sub Scalar := ⟨combine (· - ·) (· - ·)⟩

instance : Mul Scalar := ⟨combine (· * ·) (· * ·)⟩

instance : Div Scalar := ⟨combine (· / ·) (· / ·)⟩

instance : Neg Scalar :=
  ⟨fun
    | .real x => .real (-x)
    | .complex z => .complex (-z)⟩

/-- A part of a complex number, with zero for one that is below `1e-15` in size. -/
def snap (x : Float) : Float := if x.abs < 1e-15 then 0.0 else x

/-- Snaps both parts of a complex number, and leaves a real one as it is. -/
def snapped : Scalar → Scalar
  | .real x => .real x
  | .complex z => .complex ⟨snap z.re, snap z.im⟩

end Scalar

end PlotLisp
