import PlotLisp.Expression.Basic

/-!
# Text of expressions

An expression is shown in parentheses, its head before its children and one space between any
two of them. The markers of lists and lambdas are left out. A complex number has its own
parentheses, and no value is shown as a word; neither shows children.

Children are written behind what is there already, so that the text of a long list grows at its
end.
-/

namespace PlotLisp

namespace Expression

mutual

def display : Expression → String
  | ⟨head, tail, _⟩ =>
    match head with
    | .nothing | .complex _ => head.text
    | .list | .lambda =>
      match tail with
      | [] => "()"
      | first :: rest => displayAfter ("(" ++ first.display) rest ++ ")"
    | _ => displayAfter ("(" ++ head.text) tail ++ ")"

/-- The children behind a text, each with a space before it. -/
def displayAfter (before : String) : List Expression → String
  | [] => before
  | e :: rest => displayAfter (before ++ " " ++ e.display) rest

end

end Expression

end PlotLisp
