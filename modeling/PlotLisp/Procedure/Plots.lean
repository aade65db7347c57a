import PlotLisp.Procedure.Lists

/-!
# Plots

A plot is a node with the name of its procedure at the head. A discrete plot has points for
children, a continuous one a function and the bounds of its argument. Options, pairs of a key
and a value, become properties of the plot; of two for one key the later counts.
-/

namespace PlotLisp

/-- The plot with one more option. -/
def addOption (operation : String) (plot option : Expression) : Outcome := do
  match ← itemsOf operation option with
  | [key, value] => return plot.addProperty (← keyOf operation key) value
  | _ => throw (.typeMismatch operation .optionPair .listOfAnotherLength)

/-- The plot with the options of a list, if one is given. -/
def addOptions (operation : String) (plot : Expression) : Option Expression → Outcome
  | none => .ok plot
  | some options => do (← itemsOf operation options).foldlM (addOption operation) plot

/-! ## Pairs of numbers -/

/-- Whether a row is two numbers can be told from the heads. -/
theorem eq_pair_of_heads {items : List Expression} {x y : Float}
    (h_heads : items.map Expression.head = [.number x, .number y]) :
    ∃ tail properties tail' properties',
      items = [⟨.number x, tail, properties⟩, ⟨.number y, tail', properties'⟩] := by
  obtain ⟨⟨_, tail, properties⟩, rest, rfl, rfl, h_rest⟩ := List.map_eq_cons_iff.mp h_heads
  obtain ⟨⟨_, tail', properties'⟩, others, rfl, rfl, h_others⟩ := List.map_eq_cons_iff.mp h_rest
  cases List.map_eq_nil_iff.mp h_others
  exact ⟨tail, properties, tail', properties', rfl⟩

/-! ## Discrete plots -/

/-- A point is a list of two numbers. -/
def checkPoint (point : Expression) : Except SemanticError Unit := do
  match ← itemsOf "discrete-plot" point with
  | [⟨.number _, _, _⟩, ⟨.number _, _, _⟩] => return ()
  | _ => throw (wrongKind "discrete-plot" .listOfTwoNumbers point)

def discretePlot (data : Expression) (options : Option Expression) : Outcome := do
  let points ← itemsOf "discrete-plot" data
  points.forM checkPoint
  addOptions "discrete-plot" { head := .ofName "discrete-plot", tail := points } options

/-! ## Continuous plots -/

/-- Bounds are a list of two numbers, the lower one first. -/
def checkBounds (bounds : Expression) : Except SemanticError Unit := do
  match ← itemsOf "continuous-plot" bounds with
  | [⟨.number low, _, _⟩, ⟨.number high, _, _⟩] =>
    if low < high then return () else throw .plotBoundsOutOfOrder
  | _ => throw (wrongKind "continuous-plot" .boundsOfTwoNumbers bounds)

def continuousPlot (function bounds : Expression) (options : Option Expression) : Outcome := do
  match function.head with
  | .lambda =>
    checkBounds bounds
    addOptions "continuous-plot" { head := .ofName "continuous-plot", tail := [function, bounds] }
      options
  | _ => throw (wrongKind "continuous-plot" (.ofKind .lambda) function)

end PlotLisp
