/-!
# Values of configuration files

The values that a key of a TOML document can have. Tables keep track of how they came to be, for
that decides whether they may still grow: a table under a header of its own is complete with the
lines below it, one that dotted keys opened takes further dotted keys, and one that is only a
step on the way to another has not been defined yet.
-/

namespace PlotLisp.Toml

/-- How a table came to be. -/
inductive Origin where
  /-- By a header, or by braces. -/
  | defined
  /-- By the first parts of a header. -/
  | implied
  /-- By the first parts of a dotted key. -/
  | dotted
deriving DecidableEq, Repr

inductive Value where
  | string (text : String)
  | integer (value : Int)
  | float
  | boolean (value : Bool)
  | dateTime
  | array (items : List Value)
  /-- A table in braces, which is closed. -/
  | inlineTable (entries : List (String × Value))
  | table (origin : Origin) (entries : List (String × Value))
  /-- The tables under headers in double brackets, the latest first. -/
  | tables (latest : List (String × Value)) (earlier : List (List (String × Value)))

/-- The entries of a table. -/
abbrev Entries := List (String × Value)

/-! ## Entries -/

/-- Changes the value of a key, or puts a first one behind the others. -/
def modifyEntry (key : String) (change : Option Value → Option Value) :
    Entries → Option Entries
  | [] => (change none).map fun value => [(key, value)]
  | (other, old) :: rest =>
    if other = key then (change (some old)).map fun value => (other, value) :: rest
    else (modifyEntry key change rest).map ((other, old) :: ·)

/-- Puts a value under a key that has none. -/
def addEntry (key : String) (value : Value) : Entries → Option Entries :=
  modifyEntry key fun
    | none => some value
    | some _ => none

/-! ## Growing tables -/

/-- Puts a value where a dotted key leads, inside a table that was opened like the key. -/
def addDotted (key : String) (value : Value) : List String → Entries → Option Entries
  | [], entries => addEntry key value entries
  | step :: rest, entries =>
    modifyEntry step
      (fun
        | none => (addDotted key value rest []).map (.table .dotted)
        | some (.table .dotted inner) => (addDotted key value rest inner).map (.table .dotted)
        | some (.table .implied inner) =>
          -- a table on the way to a header may be passed through, but not added to
          if rest.isEmpty then none
          else (addDotted key value rest inner).map (.table .implied)
        | some (.tables latest earlier) =>
          if rest.isEmpty then none
          else (addDotted key value rest latest).map (.tables · earlier)
        | _ => none)
      entries

/-- Changes the entries of the table that the parts of a header lead to. -/
def changeAt (change : Entries → Option Entries) : List String → Entries → Option Entries
  | [], entries => change entries
  | step :: rest, entries =>
    modifyEntry step
      (fun
        | none => (changeAt change rest []).map (.table .implied)
        | some (.table origin inner) => (changeAt change rest inner).map (.table origin)
        | some (.tables latest earlier) => (changeAt change rest latest).map (.tables · earlier)
        | _ => none)
      entries

/-- Defines the table of a header. It must not be defined already. -/
def defineTable (key : String) : Entries → Option Entries :=
  modifyEntry key fun
    | none => some (.table .defined [])
    | some (.table .implied inner) => some (.table .defined inner)
    | some _ => none

/-- Starts another table under a header in double brackets. -/
def startTable (key : String) : Entries → Option Entries :=
  modifyEntry key fun
    | none => some (.tables [] [])
    | some (.tables latest earlier) => some (.tables [] (latest :: earlier))
    | some _ => none

end PlotLisp.Toml
