import PlotLisp.Number.Binary
import PlotLisp.Number.Numeral

/-!
# Complex numbers

Complex arithmetic over doubles, in Cartesian form. Each operation states the order of its
roundings, since that order decides the last digits of a result.

The elementary functions come last. They reduce to the real ones through the exponential and
the polar form, with the cases in which an infinite or zero part leaves no such form.
-/

namespace PlotLisp

/-- The number `re + im * i`. -/
structure ComplexNumber where
  re : Float
  im : Float
deriving DecidableEq

namespace ComplexNumber

/-! ## Arithmetic -/

instance : Add ComplexNumber := ⟨fun z w => ⟨z.re + w.re, z.im + w.im⟩⟩

instance : Sub ComplexNumber := ⟨fun z w => ⟨z.re - w.re, z.im - w.im⟩⟩

instance : Neg ComplexNumber := ⟨fun z => ⟨-z.re, -z.im⟩⟩

instance : Mul ComplexNumber :=
  ⟨fun z w => ⟨z.re * w.re - z.im * w.im, z.re * w.im + z.im * w.re⟩⟩

instance : Div ComplexNumber :=
  ⟨fun z w =>
    let n := w.re * w.re + w.im * w.im
    ⟨(z.re * w.re + z.im * w.im) / n, (z.im * w.re - z.re * w.im) / n⟩⟩

/-- A real number among the complex ones. -/
def ofReal (x : Float) : ComplexNumber := ⟨x, 0.0⟩

def conjugate (z : ComplexNumber) : ComplexNumber := ⟨z.re, -z.im⟩

/-- Both parts are zero, of either sign. -/
def isZero (z : ComplexNumber) : Bool := z.re == 0.0 && z.im == 0.0

/-! ## Length and direction -/

private def powerOfTwo (n : Int) : Float := Float.ofBits ((n + 1023).toNat.toUInt64 <<< 52)

/-- `√(a² + b²)` for `a ≥ b > 0` whose squares neither overflow nor vanish: the root of the
rounded sum, less the first-order effect of the rounding. -/
private def correctedRoot (a b : Float) : Float :=
  let h := (a * a + b * b).sqrt
  let (s, t) :=
    if h ≤ 2.0 * b then
      let d := h - b
      (a * (2.0 * d - a), (d - 2.0 * (a - b)) * d)
    else
      let d := h - a
      (2.0 * d * (a - 2.0 * b), (4.0 * d - b) * b + d * d)
  h - (s + t) / (2.0 * h)

/-- The length of the hypotenuse over two sides. The sides are scaled where their squares
would leave the range of a double, and a side too short to count is added instead. -/
def hypotenuse (x y : Float) : Float :=
  if x.isInf || y.isInf then infinity
  else if x.isNaN || y.isNaN then notANumber
  else
    let a := if x.abs < y.abs then y.abs else x.abs
    let b := if x.abs < y.abs then x.abs else y.abs
    let scale := powerOfTwo (-600)
    if b ≤ a * powerOfTwo (-54) then a + b
    else if a > powerOfTwo 511 then correctedRoot (a * scale) (b * scale) / scale
    else if b < powerOfTwo (-459) then correctedRoot (a / scale) (b / scale) * scale
    else correctedRoot a b

def norm (z : ComplexNumber) : Float := hypotenuse z.re z.im

/-- The angle from the positive real axis. -/
def angle (z : ComplexNumber) : Float := Float.atan2 z.im z.re

def ofPolar (radius angle : Float) : ComplexNumber :=
  ⟨radius * angle.cos, radius * angle.sin⟩

/-! ## Elementary functions -/

/-- The exponential. Where the real part is infinite the angle may not matter: an infinite
shrinking gives zero at every angle that is no finite number, and a growing one keeps the
direction of the real axis. -/
def exp (z : ComplexNumber) : ComplexNumber :=
  let finite := z.im.isFinite
  if z.re.isInf && z.re < 0.0 && !finite then ⟨0.0, 0.0⟩
  else if z.re.isInf && z.re > 0.0 && (z.im == 0.0 || !finite) then
    ⟨z.re, if z.im.isInf then notANumber else z.im⟩
  else if z.re.isNaN && z.im == 0.0 then z
  else ofPolar z.re.exp z.im

/-- The principal logarithm. -/
def log (z : ComplexNumber) : ComplexNumber := ⟨z.norm.log, z.angle⟩

/-- The principal square root, on the axes without a detour through the angle. -/
def sqrt (z : ComplexNumber) : ComplexNumber :=
  if z.im == 0.0 then
    if !signBit z.re then ⟨z.re.sqrt, z.im⟩
    else
      let root := (-z.re).sqrt
      ⟨0.0, if signBit z.im then -root else root⟩
  else if z.re == 0.0 then
    let part := (z.im.abs / 2.0).sqrt
    ⟨part, if signBit z.im then -part else part⟩
  else ofPolar z.norm.sqrt (z.angle / 2.0)

/-- The power `z ^ w`, through the logarithm of `z`. -/
def pow (z w : ComplexNumber) : ComplexNumber :=
  if w.isZero then ⟨1.0, 0.0⟩ else (w * z.log).exp

def sin (z : ComplexNumber) : ComplexNumber :=
  ⟨z.re.sin * z.im.cosh, z.re.cos * z.im.sinh⟩

def cos (z : ComplexNumber) : ComplexNumber :=
  ⟨z.re.cos * z.im.cosh, -z.re.sin * z.im.sinh⟩

def tan (z : ComplexNumber) : ComplexNumber :=
  let re := z.re + z.re
  let im := z.im + z.im
  let n := re.cos + im.cosh
  ⟨re.sin / n, im.sinh / n⟩

end ComplexNumber

end PlotLisp
