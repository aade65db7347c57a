import PlotLisp.Atom
import PlotLisp.Number.Numeral

/-!
# Tokens

A token is a word of a program: a quoted string, or a bare word, which is a number or a
symbol. `Atom.ofToken` classifies it.

A bare word is a number only if it is made of signs, digits, points and exponent marks, so the
words for infinity are symbols like any other. What starts with a digit and is no number is
no symbol either: it is a malformed number, and gives no atom.
-/

namespace PlotLisp

inductive Token where
  | bare (text : String)
  | quoted (text : String)
deriving DecidableEq

/-- The word as it stands in the program. -/
def Token.source : Token → String
  | .bare text => text
  | .quoted text => "\"" ++ text ++ "\""

/-! ## Numbers -/

/-- The characters that a number is written with. -/
def isNumeric (c : Char) : Bool :=
  c.isDigit || c == '+' || c == '-' || c == '.' || c == 'e' || c == 'E'

/-- The number that a bare word is. -/
def numberOfWord? (text : String) : Option Float :=
  let letters := text.toList
  if letters.all isNumeric && letters.any Char.isDigit then readNumber? letters else none

/-! ## Classification -/

/-- The atom of a token. A malformed number and the empty word give no value. -/
def Atom.ofToken : Token → Atom
  | .quoted text => .string text
  | .bare text =>
    match numberOfWord? text with
    | some value => .number value
    | none =>
      match text.toList.head? with
      | none => .nothing
      | some c => if c.isDigit then .nothing else .ofName text

end PlotLisp
