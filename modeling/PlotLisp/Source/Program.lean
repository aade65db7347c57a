import PlotLisp.Expression.Basic
import PlotLisp.Source.Form

/-!
# Programs

A program is the text of one form. `parseProgram` gives its tree. Whether the text is a form at
all is settled first, for the whole of it; a malformed number is reported only in a text that
is one, and then the first of them.
-/

namespace PlotLisp

/-! ## Faults -/

/-- Why a text is not a program. -/
inductive ParseError where
  /-- The text is not exactly one form. -/
  | notAForm
  | malformedNumber (word : String)
deriving DecidableEq

def ParseError.message : ParseError → String
  | .notAForm => "syntax error"
  | .malformedNumber word => "malformed number '" ++ word ++ "'"

/-! ## Trees of forms -/

/-- The atom of a token in a program, which has to be one. -/
def Token.atom (token : Token) : Except ParseError Atom :=
  match Atom.ofToken token with
  | .nothing => .error (.malformedNumber token.source)
  | atom => .ok atom

mutual

/-- The tree of a form, its faults sought in the order of the text. -/
def Form.expression : Form → Except ParseError Expression
  | .leaf token => do
    let atom ← token.atom
    return .ofAtom atom
  | .node head items => do
    let atom ← head.atom
    let tail ← Form.expressions items
    return { head := atom, tail }

def Form.expressions : List Form → Except ParseError (List Expression)
  | [] => .ok []
  | form :: rest => do
    let first ← form.expression
    let others ← Form.expressions rest
    return first :: others

end

/-! ## Parsing -/

/-- The form that a text is. -/
def Form.read? (text : String) : Option Form := (Lexeme.scan? text).bind Form.ofLexemes?

/-- The tree of a program. -/
def parseProgram (text : String) : Except ParseError Expression :=
  match Form.read? text with
  | none => .error .notAForm
  | some form => form.expression

end PlotLisp
