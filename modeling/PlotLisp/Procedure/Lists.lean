import PlotLisp.Procedure.Arithmetic

/-!
# List procedures

Procedures that take lists apart and make new ones, and those that set and read properties. A
list that is made from the items of another has no properties; one that grows keeps its own.
-/

namespace PlotLisp

/-! ## Arguments -/

/-- The items of an argument that has to be a list. -/
def itemsOf (operation : String) (arg : Expression) : Except SemanticError (List Expression) :=
  match arg.head with
  | .list => .ok arg.tail
  | _ => .error (wrongKind operation (.ofKind .list) arg)

/-- The first item of a list that must have one, and the others. -/
def firstAndRestOf (operation : String) (arg : Expression) :
    Except SemanticError (Expression × List Expression) := do
  match ← itemsOf operation arg with
  | [] => throw (.typeMismatch operation .nonEmptyList .emptyList)
  | first :: rest => return (first, rest)

/-- An argument that has to be a real number. -/
def realOf (operation : String) (arg : Expression) : Except SemanticError Float :=
  match arg.head with
  | .number x => .ok x
  | _ => .error (wrongKind operation (.ofKind .number) arg)

/-- An argument that has to be a string, to serve as a key. -/
def keyOf (operation : String) (arg : Expression) : Except SemanticError Expression :=
  match arg.head with
  | .string _ => .ok arg
  | _ => .error (wrongKind operation .stringKey arg)

/-! ## Taking lists apart -/

def firstItem (arg : Expression) : Outcome := do return (← firstAndRestOf "first" arg).1

def restItems (arg : Expression) : Outcome := do return .list (← firstAndRestOf "rest" arg).2

def lengthOf (arg : Expression) : Outcome := do
  return .number (Float.ofNat (← itemsOf "length" arg).length)

/-! ## Making lists -/

/-- Puts a number behind the items of a list. -/
def appendItem (list item : Expression) : Outcome := do
  let _ ← itemsOf "append" list
  match item.head with
  | .number _ | .complex _ => return list.append item
  | _ => throw (wrongKind "append" (.ofKind .number) item)

def joinLists (left right : Expression) : Outcome := do
  let left ← itemsOf "join" left
  let right ← itemsOf "join" right
  return .list (left ++ right)

/-- How many elements a range may have. -/
def longestRange : Nat := 1000000

/-- How far a step may fall short of the end of a range and still be taken for reaching it. -/
def rangeTolerance : Float := 1e-9

/-- The numbers from one on, a step apart, that do not pass the end by more than the tolerance.
The number of steps is settled before any is taken, so that each element has one rounding of
its own. -/
def rangeFrom (first last step : Float) : Outcome :=
  if first ≥ last then .error .emptyRange
  else if step ≤ 0.0 then .error .rangeWithoutIncrement
  else
    let steps := (last - first) / step + rangeTolerance
    if steps.isNaN || steps ≥ Float.ofNat longestRange then .error (.rangeTooLong longestRange)
    else
      .ok (.list ((List.range (steps.toUInt64.toNat + 1)).map fun k =>
        .number (first + Float.ofNat k * step)))

def range (first last step : Expression) : Outcome := do
  let first ← realOf "range" first
  let last ← realOf "range" last
  let step ← realOf "range" step
  rangeFrom first last step

/-! ## Properties -/

def setProperty (key value target : Expression) : Outcome := do
  let key ← keyOf "set-property" key
  return target.addProperty key value

def getProperty (key target : Expression) : Outcome := do
  let key ← keyOf "get-property" key
  return target.getProperty key

end PlotLisp
