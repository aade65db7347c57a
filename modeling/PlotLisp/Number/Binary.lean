/-!
# Binary fractions

A finite double is a whole number of units in its last place. `Binary` is that reading of
its magnitude, `mantissa * 2 ^ exponent`, and everything that writes numbers works on it in
exact arithmetic, so no rounding enters between a value and its text.

Three things live here:

* `Binary.ofFloat`, the reading of a finite magnitude from its bits;
* `compareScaled`, the exact comparison of a decimal with a binary fraction;
* `Binary.contains`, which decimals round to a given value.
-/

namespace PlotLisp

/-! ## The parts of a double -/

/-- The sign bit, which also tells `-0` from `0`. -/
def signBit (x : Float) : Bool := x.toBits >>> 63 == 1

/-- A finite magnitude, `mantissa * 2 ^ exponent`. -/
structure Binary where
  mantissa : Nat
  exponent : Int
  /-- The value below is only half as far away as the value above. -/
  narrowBelow : Bool

/-- The magnitude of a finite double. Subnormal values share the exponent of the least
normal ones and lack their leading bit. -/
def Binary.ofFloat (x : Float) : Binary :=
  let bits := x.toBits
  let power := ((bits >>> 52) &&& 0x7FF).toNat
  let fraction := (bits &&& 0xFFFFFFFFFFFFF).toNat
  if power = 0 then ⟨fraction, -1074, false⟩
  else ⟨Nat.pow 2 52 + fraction, (power : Int) - 1075, fraction == 0 && power > 1⟩

/-! ## Comparing decimals with binary fractions -/

/-- Compares `a * 10 ^ i` with `n * 2 ^ j`, both sides brought to whole numbers first. -/
def compareScaled (a : Nat) (i : Int) (n : Nat) (j : Int) : Ordering :=
  compare (a * Nat.pow 10 i.toNat * Nat.pow 2 (-j).toNat)
    (n * Nat.pow 2 j.toNat * Nat.pow 10 (-i).toNat)

/-- The decimal `digits * 10 ^ power` lies among the reals that round to `x`. They reach
half way to either neighbour, ends included exactly when the mantissa is even. -/
def Binary.contains (x : Binary) (digits : Nat) (power : Int) : Bool :=
  let low := if x.narrowBelow then 4 * x.mantissa - 1 else 4 * x.mantissa - 2
  let high := 4 * x.mantissa + 2
  let closed := x.mantissa % 2 == 0
  let below := compareScaled digits power low (x.exponent - 2)
  let above := compareScaled digits power high (x.exponent - 2)
  (below == .gt || (closed && below == .eq)) && (above == .lt || (closed && above == .eq))

/-! ## Decimal scale -/

/-- The whole part of `x / 10 ^ power`. -/
def Binary.quotient (x : Binary) (power : Int) : Nat :=
  (x.mantissa * Nat.pow 2 x.exponent.toNat * Nat.pow 10 (-power).toNat) /
    (Nat.pow 2 (-x.exponent).toNat * Nat.pow 10 power.toNat)

/-- The least `k` with `x < 10 ^ k`, for a value that is not zero. The binary logarithm
gives it within one, and two exact comparisons settle it. -/
def Binary.scale (x : Binary) : Int :=
  let bits : Int := (x.mantissa.log2 : Int) + x.exponent
  let guess := bits * 30103 / 100000
  if compareScaled 1 guess x.mantissa x.exponent == .gt then guess
  else if compareScaled 1 (guess + 1) x.mantissa x.exponent == .gt then guess + 1
  else guess + 2

end PlotLisp
