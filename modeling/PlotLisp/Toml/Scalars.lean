import PlotLisp.Number.Numeral
import PlotLisp.Toml.Strings
import PlotLisp.Toml.Value

/-!
# Numbers and dates of configuration files

Whole numbers have 64 bits and may be written in four bases. Underscores may stand between two
digits, and a decimal number does not start with a zero that it could do without. Dates are read
for their form and range only, since no setting is one.
-/

namespace PlotLisp.Toml

open Reader

/-- Refuses the text unless a condition holds. -/
def require (condition : Bool) : Reader Unit := if condition then return () else failure

/-! ## Whole numbers -/

/-- Digits of a class, with single underscores between them. -/
def digitsOf (inClass : Char → Bool) : Reader (List Char) := do
  let first ← runOf inClass
  let others ← many do
    char '_'
    runOf inClass
  return first ++ others.flatten

def sign : Reader Bool :=
  (do
    char '-'
    return true) <|> (do
    char '+'
    return false) <|> return false

/-- The digits of a decimal number: a lone zero, or digits that start with none. -/
def decimalDigits : Reader (List Char) :=
  (do
    let text ← rest
    require (text.head? != some '0')
    digitsOf Char.isDigit) <|> do
    char '0'
    return ['0']

/-- A whole number within 64 bits. -/
def wholeNumber (value : Int) : Reader Value := do
  require (-9223372036854775808 ≤ value && value ≤ 9223372036854775807)
  return .integer value

/-- A number in another base than ten, which has no sign. -/
def inBase (mark : Char) (base : Nat) (inClass : Char → Bool) : Reader Value := do
  exact ['0', mark]
  let digits ← digitsOf inClass
  wholeNumber (digits.foldl (fun n c => base * n + hexValue c) 0 : Nat)

def decimalInteger : Reader Value := do
  let negative ← sign
  let value := digitsValue (← decimalDigits)
  wholeNumber (if negative then -(value : Int) else value)

def integer : Reader Value :=
  inBase 'x' 16 isHexDigit <|> inBase 'o' 8 (fun c => '0' ≤ c && c ≤ '7') <|>
    inBase 'b' 2 (fun c => c == '0' || c == '1') <|> decimalInteger

/-! ## Other numbers -/

def exponent : Reader (List Char) := do
  let mark ← satisfy fun c => c == 'e' || c == 'E'
  let negative ← sign
  return [mark] ++ (if negative then ['-'] else []) ++ (← digitsOf Char.isDigit)

def fraction : Reader (List Char) := do
  char '.'
  return '.' :: (← digitsOf Char.isDigit)

/-- A number with a fraction or an exponent. It must not be beyond the largest double, though
one below the least is taken. -/
def float : Reader Value := do
  let negative ← sign
  let whole ← decimalDigits
  let tail ← exponent <|> do
    let fraction ← fraction
    return fraction ++ (← optional? exponent).getD []
  require (negative || (readDecimal? (whole ++ tail)).all (! Float.isInf ·))
  return .float

def specialFloat : Reader Value := do
  let _ ← sign
  exact ['i', 'n', 'f'] <|> exact ['n', 'a', 'n']
  return .float

def boolean : Reader Value :=
  (do
    exact "true".toList
    return .boolean true) <|> do
    exact "false".toList
    return .boolean false

/-! ## Dates and times -/

/-- A number of so many digits within bounds. -/
def numberOf (count least most : Nat) : Reader Nat := do
  let value := digitsValue (← countOf Char.isDigit count)
  require (least ≤ value && value ≤ most)
  return value

def daysOf (year month : Nat) : Nat :=
  if month = 2 then
    if year % 4 = 0 && (year % 100 != 0 || year % 400 = 0) then 29 else 28
  else if [4, 6, 9, 11].contains month then 30
  else 31

def date : Reader Unit := do
  let year ← numberOf 4 0 9999
  char '-'
  let month ← numberOf 2 1 12
  char '-'
  let _ ← numberOf 2 1 (daysOf year month)

def time : Reader Unit := do
  let _ ← numberOf 2 0 23
  char ':'
  let _ ← numberOf 2 0 59
  char ':'
  let _ ← numberOf 2 0 60
  let _ ← optional? do
    char '.'
    runOf Char.isDigit

def offset : Reader Unit :=
  (do
    let _ ← satisfy fun c => c == 'Z' || c == 'z') <|> do
    let _ ← satisfy fun c => c == '+' || c == '-'
    let _ ← numberOf 2 0 23
    char ':'
    let _ ← numberOf 2 0 59

/-- A date, a time, or both with or without an offset. -/
def dateTime : Reader Value :=
  (do
    date
    let _ ← optional? do
      let _ ← satisfy fun c => c == 'T' || c == 't' || c == ' '
      time
      optional? offset
    return .dateTime) <|> do
    time
    return .dateTime

/-- A number, a date or a truth value. -/
def scalar : Reader Value := dateTime <|> float <|> specialFloat <|> integer <|> boolean

end PlotLisp.Toml
