/-!
# Arities

How many arguments a procedure takes: one number of them, any number between two bounds, or any
number from a least one on.
-/

namespace PlotLisp

inductive Arity where
  | exactly (count : Nat)
  | between (least most : Nat)
  | atLeast (count : Nat)
deriving DecidableEq, Repr

namespace Arity

def accepts (arity : Arity) (count : Nat) : Bool :=
  match arity with
  | .exactly n => count == n
  | .between least most => least ≤ count && count ≤ most
  | .atLeast n => n ≤ count

/-- The words for an arity. Two neighbouring numbers are named both. -/
def text : Arity → String
  | .exactly n => toString n
  | .between least most =>
    if most = least + 1 then toString least ++ " or " ++ toString most
    else toString least ++ " to " ++ toString most
  | .atLeast n => "at least " ++ toString n

end Arity

end PlotLisp
