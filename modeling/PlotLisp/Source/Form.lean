import PlotLisp.Source.Lexeme

/-!
# Forms

A form is what parentheses enclose: a token at its head, and behind it further tokens and
forms. `Form.ofLexemes?` reads a row of lexemes as exactly one form. It keeps the forms that
are still open on a stack, so the depth of nesting costs no recursion.
-/

namespace PlotLisp

/-- A token, or a form with a token at its head. -/
inductive Form where
  | leaf (token : Token)
  | node (head : Token) (items : List Form)

namespace Form

/-- A form that is still open, with its latest item first. -/
structure Unclosed where
  head : Token
  items : List Form := []

def Unclosed.push (f : Unclosed) (item : Form) : Unclosed := { f with items := item :: f.items }

def Unclosed.close (f : Unclosed) : Form := .node f.head f.items.reverse

/-- Reads on inside the open forms, the innermost first. A parenthesis opens a form only
together with a head, an item needs a form around it, and nothing may follow the form that
was opened first. -/
def readOn : List Unclosed → List Lexeme → Option Form
  | stack, .opening :: .token head :: rest => readOn ({ head } :: stack) rest
  | inner :: stack, .token token :: rest => readOn (inner.push (.leaf token) :: stack) rest
  | inner :: outer :: stack, .closing :: rest => readOn (outer.push inner.close :: stack) rest
  | [last], [.closing] => some last.close
  | _, _ => none

/-- The form that a whole row of lexemes is. -/
def ofLexemes? (lexemes : List Lexeme) : Option Form := readOn [] lexemes

end Form

end PlotLisp
