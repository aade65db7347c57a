import PlotLisp.Number.Binary

/-!
# Decimal texts of numbers

A number is shown in one of two ways, and both start from the same exact reading of it.

* `NumberFormat.shortest`: the fewest digits that read back as the same number, the nearest of
  those, and the upper one where two are equally near. The digits are written out in full,
  with zeros where the value has no digit, and never with an exponent.
* `NumberFormat.significant n`: the exact value rounded to `n` significant digits, a half going
  to the even digit, as one digit, a point, the other digits and an exponent.

`NumberFormat.text` chooses between them, and writes the values that have no digits by name.
-/

namespace PlotLisp

/-- A positive decimal `0.d₁d₂…dₙ * 10 ^ point`. -/
structure Decimal where
  digits : List Char
  point : Int

namespace Decimal

/-! ## Choosing the digits -/

/-- The decimal `digits * 10 ^ power`. -/
def ofScaled (digits : Nat) (power : Int) : Decimal :=
  let text := Nat.toDigits 10 digits
  ⟨text, power + text.length⟩

/-- Zeros at the end of the digits do not count. -/
def trimmed (d : Decimal) : Decimal :=
  ⟨(d.digits.reverse.dropWhile (· == '0')).reverse, d.point⟩

/-- The nearer of the two neighbours of `x` on the grid `10 ^ power`, among those that read
back as `x`. -/
def onGrid? (x : Binary) (power : Int) : Option Decimal :=
  let below := x.quotient power
  let above := below + 1
  match x.contains below power, x.contains above power with
  | true, true =>
    -- twice the value against the sum of the two: an exact half goes up
    if compareScaled (below + above) power (2 * x.mantissa) x.exponent == .gt then
      some (ofScaled below power)
    else some (ofScaled above power)
  | true, false => some (ofScaled below power)
  | false, true => some (ofScaled above power)
  | false, false => none

/-- The fewest digits that read back as `x`, sought on ever finer grids. Seventeen digits
are enough for a double; the exact value stands in for a search that finds none. -/
def shortest (x : Binary) : Decimal :=
  let scale := x.scale
  let found := (List.range 17).findSome? fun (n : Nat) => onGrid? x (scale - 1 - n)
  let whole := min x.exponent 0
  (found.getD (ofScaled (x.quotient whole) whole)).trimmed

/-- The value rounded to `count` significant digits, a half going to the even digit. -/
def significant (x : Binary) (count : Nat) : Decimal :=
  let power := x.scale - count
  let below := x.quotient power
  match compareScaled (2 * below + 1) power (2 * x.mantissa) x.exponent with
  | .gt => ofScaled below power
  | .lt => ofScaled (below + 1) power
  | .eq => if below % 2 = 0 then ofScaled below power else ofScaled (below + 1) power

/-! ## Laying them out -/

private def zeros (n : Nat) : List Char := List.replicate n '0'

/-- Digits in full, with a point only where a digit follows it. -/
def positional (d : Decimal) : List Char :=
  if d.point ≤ 0 then
    ['0', '.'] ++ zeros (-d.point).toNat ++ d.digits
  else if d.digits.length ≤ d.point.toNat then
    d.digits ++ zeros (d.point.toNat - d.digits.length)
  else d.digits.take d.point.toNat ++ ['.'] ++ d.digits.drop d.point.toNat

/-- One digit, a point, further digits up to `count` in all, and the exponent. -/
def scientific (d : Decimal) (count : Nat) : List Char :=
  let digits := d.digits.take count
  let fraction := digits.drop 1
  let point := if fraction.isEmpty then [] else ['.']
  digits.take 1 ++ point ++ fraction ++ ['e'] ++ (toString (d.point - 1)).toList

end Decimal

/-! ## Formats -/

/-- How numbers are written. -/
inductive NumberFormat where
  /-- The fewest digits that read back, in full. -/
  | shortest
  /-- So many significant digits, with an exponent. -/
  | significant (count : Nat)

/-- The text of a finite magnitude. -/
def NumberFormat.magnitude (format : NumberFormat) (x : Binary) : List Char :=
  match format with
  | .shortest => if x.mantissa = 0 then ['0'] else (Decimal.shortest x).positional
  | .significant count =>
    let d := if x.mantissa = 0 then ⟨List.replicate count '0', 1⟩
      else Decimal.significant x count
    d.scientific count

/-- The text of a number. A negative zero keeps its sign; a number that is none has no
sign. -/
def NumberFormat.text (format : NumberFormat) (x : Float) : String :=
  if x.isNaN then "NaN"
  else
    let body := if x.isInf then "inf" else String.ofList (format.magnitude (.ofFloat x))
    if signBit x then "-" ++ body else body

end PlotLisp
