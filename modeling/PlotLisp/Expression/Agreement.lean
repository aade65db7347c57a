import PlotLisp.Expression.Basic

/-!
# Agreement of expressions

Two expressions agree if their trees have the same shape and their heads agree node by node.
The right side decides how two heads are compared. Beside a complex number the left side
counts by its complex value, which is zero for every other kind, and beside a list it counts
by its label, so that the string `list` passes too. Agreement is therefore not symmetric.
-/

namespace PlotLisp

namespace Expression

/-- The head `a` agrees with the head `b` of the right side. -/
def headAgrees (a b : Atom) : Bool :=
  match b with
  | .complex w => Atom.nearComplex a.complexValue w
  | .list => a.label == Atom.list.label
  | b => a.agrees b

mutual

def agrees : Expression → Expression → Bool
  | ⟨head, tail, _⟩, ⟨otherHead, otherTail, _⟩ =>
    headAgrees head otherHead && agreesAll tail otherTail

/-- Child by child, and neither side has one over. -/
def agreesAll : List Expression → List Expression → Bool
  | [], [] => true
  | e :: rest, other :: others => e.agrees other && agreesAll rest others
  | _, _ => false

end

end Expression

end PlotLisp
