import PlotLisp.Number.ComplexNumber
import PlotLisp.Number.Decimal

/-!
# Atoms

An atom stands at the head of every node of a tree: a number, a complex number, a symbol, a
quoted string, or one of the two markers that tell a list and a lambda apart from an
application. The markers have the spellings `list` and `lambda`, and `Atom.ofName` never
gives a plain symbol of such a spelling.

Accessors answer with a default where the atom is of another kind, and comparisons rely on
those defaults.
-/

namespace PlotLisp

/-! ## Kinds -/

/-- What sort of thing an atom is. -/
inductive Kind where
  | none
  | number
  | complex
  | symbol
  | list
  | lambda
  | string
deriving DecidableEq, Repr

/-- The word for a kind in messages. -/
def Kind.word : Kind → String
  | .none => "none"
  | .number => "number"
  | .complex => "complex"
  | .symbol => "symbol"
  | .list => "list"
  | .lambda => "lambda"
  | .string => "string"

/-! ## Atoms -/

inductive Atom where
  /-- No value. -/
  | nothing
  | number (value : Float)
  | complex (value : ComplexNumber)
  | symbol (name : String)
  /-- The marker of a list. -/
  | list
  /-- The marker of a lambda. -/
  | lambda
  | string (text : String)
deriving DecidableEq

namespace Atom

instance : Inhabited Atom := ⟨.nothing⟩

/-- The atom that a name stands for: a symbol, except for the two markers. -/
def ofName (name : String) : Atom :=
  if name = "list" then .list
  else if name = "lambda" then .lambda
  else .symbol name

def kind : Atom → Kind
  | .nothing => .none
  | .number _ => .number
  | .complex _ => .complex
  | .symbol _ => .symbol
  | .list => .list
  | .lambda => .lambda
  | .string _ => .string

/-! ## Accessors -/

/-- The value of a number, and zero for any other atom. -/
def numberValue : Atom → Float
  | .number value => value
  | _ => 0.0

/-- The value of a complex number, and zero for any other atom. -/
def complexValue : Atom → ComplexNumber
  | .complex value => value
  | _ => ⟨0.0, 0.0⟩

/-- The letters of a symbol, a string or a marker, and no letters for any other atom. -/
def label : Atom → String
  | .symbol name => name
  | .string text => text
  | .list => "list"
  | .lambda => "lambda"
  | _ => ""

/-! ## Comparison -/

/-- Two numbers are near if they differ by no more than the gap above one. The difference of
two equal infinities is no number, so an infinity is near to nothing. -/
def near (x y : Float) : Bool :=
  let difference := (x - y).abs
  !difference.isNaN && difference ≤ Float.ofBits 0x3CB0000000000000

def nearComplex (z w : ComplexNumber) : Bool := near z.re w.re && near z.im w.im

/-- Two atoms agree if they are of one kind and have the same letters or near values. -/
def agrees : Atom → Atom → Bool
  | .nothing, .nothing => true
  | .number x, .number y => near x y
  | .complex z, .complex w => nearComplex z w
  | .symbol a, .symbol b => a == b
  | .string a, .string b => a == b
  | .list, .list => true
  | .lambda, .lambda => true
  | _, _ => false

/-! ## Text -/

/-- The text of an atom. A string stands in quotes, as it is. -/
def text : Atom → String
  | .nothing => "NONE"
  | .number value => NumberFormat.shortest.text value
  | .complex z =>
    "(" ++ NumberFormat.shortest.text z.re ++ "," ++ NumberFormat.shortest.text z.im ++ ")"
  | .symbol name => name
  | .list => "list"
  | .lambda => "lambda"
  | .string text => "\"" ++ text ++ "\""

end Atom

end PlotLisp
