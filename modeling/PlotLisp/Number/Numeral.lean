/-!
# Reading numbers

A numeral is an optional sign, decimal digits with at most one point among or beside them,
and an optional power of ten. `Numeral.ofChars?` reads exactly these texts, and
`Numeral.toFloat` rounds the decimal it stands for to the nearest double.

`readNumber?` reads the words for infinity and for the number that is none besides.
-/

namespace PlotLisp

/-- A decimal `± mantissa * 10 ^ exponent`. -/
structure Numeral where
  negative : Bool
  mantissa : Nat
  exponent : Int

/-! ## Values without digits -/

def infinity : Float := Float.ofBits 0x7FF0000000000000

def notANumber : Float := Float.ofBits 0x7FF8000000000000

/-! ## Digits and signs -/

/-- The number that a row of digits spells. -/
def digitsValue (digits : List Char) : Nat :=
  digits.foldl (fun n c => 10 * n + (c.toNat - '0'.toNat)) 0

/-- Splits off a sign, and says whether it was a minus. -/
def takeSign : List Char → Bool × List Char
  | '-' :: rest => (true, rest)
  | '+' :: rest => (false, rest)
  | text => (false, text)

/-- Splits off a fraction: a point and the digits behind it. -/
def takeFraction : List Char → List Char × List Char
  | '.' :: rest => (rest.takeWhile Char.isDigit, rest.dropWhile Char.isDigit)
  | text => ([], text)

/-- The power of ten that ends a numeral: nothing, or a mark, a sign and digits. -/
def powerOfTen? : List Char → Option Int
  | [] => some 0
  | mark :: rest =>
    let (negative, digits) := takeSign rest
    if (mark == 'e' || mark == 'E') && !digits.isEmpty && digits.all Char.isDigit then
      some (if negative then -(digitsValue digits : Int) else digitsValue digits)
    else none

/-! ## Numerals -/

/-- Reads a whole text as a numeral. -/
def Numeral.ofChars? (text : List Char) : Option Numeral :=
  let (negative, text) := takeSign text
  let whole := text.takeWhile Char.isDigit
  let (fraction, rest) := takeFraction (text.dropWhile Char.isDigit)
  if whole.isEmpty && fraction.isEmpty then none
  else
    (powerOfTen? rest).map fun power =>
      ⟨negative, digitsValue (whole ++ fraction), power - fraction.length⟩

/-- The double nearest to a numeral's magnitude. A decimal of more than three hundred and
ten digits before the point is beyond the largest double, and one that starts more than
three hundred and thirty places behind the point is nearer to zero than to the least. -/
def Numeral.magnitude (n : Numeral) : Float :=
  let point := ((Nat.toDigits 10 n.mantissa).length : Int) + n.exponent
  if n.mantissa = 0 then 0.0
  else if point > 310 then infinity
  else if point < -330 then 0.0
  else Float.ofScientific n.mantissa (n.exponent < 0) n.exponent.natAbs

/-- The double nearest to a numeral. Zero keeps the sign. -/
def Numeral.toFloat (n : Numeral) : Float :=
  if n.negative then -n.magnitude else n.magnitude

/-- Reads a decimal numeral as a double. -/
def readDecimal? (text : List Char) : Option Float :=
  (Numeral.ofChars? text).map Numeral.toFloat

/-! ## Words for numbers -/

/-- Reads a numeral, or a word for infinity or for the number that is none in letters of
either case, with a sign or without. -/
def readNumber? (text : List Char) : Option Float :=
  let (negative, letters) := takeSign text
  let word := String.ofList (letters.map Char.toLower)
  if word = "inf" || word = "infinity" then
    some (if negative then -infinity else infinity)
  else if word = "nan" then some notANumber
  else readDecimal? text

end PlotLisp
