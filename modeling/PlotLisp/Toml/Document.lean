import PlotLisp.Toml.Scalars

/-!
# Configuration documents

A document is a row of lines: headers, which open tables, and keys with values, which go into
the table opened last. `document?` reads a whole text; it refuses a text that breaks the rules of
the format anywhere, be it in a key that nobody asks for.
-/

namespace PlotLisp.Toml

open Reader

/-! ## Keys -/

def isBareKey (c : Char) : Bool := c.isAlphanum || c == '_' || c == '-'

def simpleKey : Reader String :=
  basicString <|> literalString <|> do
    return String.ofList (← runOf isBareKey)

/-- How deep keys and values may nest. -/
def deepest : Nat := 79

/-- The parts of a dotted key, with the last one apart. -/
def key : Reader (List String × String) := do
  let first ← simpleKey
  let others ← many do
    skipSpaces
    char '.'
    skipSpaces
    simpleKey
  require (others.length < deepest)
  match others.getLast? with
  | none => return ([], first)
  | some last => return (first :: others.dropLast, last)

/-! ## Values -/

/-- A key and its value, by a reader of values. -/
def pair (value : Reader Value) : Reader ((List String × String) × Value) := do
  let key ← key
  skipSpaces
  char '='
  skipSpaces
  let value ← value
  return (key, value)

/-- Values between brackets, over as many lines as it takes, and with a comma at the end or
without. -/
def array (value : Reader Value) : Reader Value := do
  char '['
  let item : Reader Value := do
    skipLines
    value
  let first ← optional? item
  let others ← many do
    skipLines
    char ','
    item
  require (first.isSome || others.isEmpty)
  if first.isSome then
    let _ ← optional? do
      skipLines
      char ','
  skipLines
  char ']'
  return .array (first.toList ++ others)

/-- Pairs between braces, on one line. -/
def inlineTable (value : Reader Value) : Reader Value := do
  char '{'
  skipSpaces
  let first ← optional? (pair value)
  let others ← many do
    skipSpaces
    char ','
    skipSpaces
    pair value
  require (first.isSome || others.isEmpty)
  skipSpaces
  char '}'
  let entries : Option Entries := (first.toList ++ others).foldlM
    (fun entries ((path, key), value) => addDotted key value path entries) []
  return .inlineTable (← (entries : Option Entries))

/-- A value without brackets or braces. -/
def simpleValue : Reader Value := Value.string <$> anyString <|> scalar

/-- A value with so many levels of brackets and braces at most. -/
def value : Nat → Reader Value
  | 0 => simpleValue
  | depth + 1 => array (value depth) <|> inlineTable (value depth) <|> simpleValue

/-! ## Lines -/

inductive Line where
  | pair (path : List String) (key : String) (value : Value)
  /-- A header in brackets. -/
  | header (path : List String) (key : String)
  /-- A header in double brackets. -/
  | repeatedHeader (path : List String) (key : String)

def headerKey : Reader (List String × String) := do
  skipSpaces
  let key ← key
  skipSpaces
  return key

def line : Reader Line :=
  (do
    exact ['[', '[']
    let (path, key) ← headerKey
    exact [']', ']']
    return .repeatedHeader path key) <|> (do
    char '['
    let (path, key) ← headerKey
    char ']'
    return .header path key) <|> do
    let ((path, key), value) ← pair (value deepest)
    return .pair path key value

/-- One line, which may be empty, up to its end. -/
def lineToEnd : Reader (Option Line) := do
  skipSpaces
  let line ← optional? line
  skipSpaces
  let _ ← optional? comment
  newline <|> finish
  return line

/-- All lines of a text. A mark of the byte order in front does not count. -/
def lines? (text : String) : Option (List Line) :=
  let letters := text.toList
  let letters := if letters.head? = some '\uFEFF' then letters.drop 1 else letters
  match many lineToEnd letters with
  | some (lines, []) => some (lines.filterMap id)
  | _ => none

/-! ## Documents -/

/-- What has been read: all entries, and the path of the table that is open. -/
structure Document where
  entries : Entries := []
  opened : List String := []

/-- Takes in one more line. -/
def Document.add (document : Document) : Line → Option Document
  | .pair path key value => do
    let entries ← changeAt (addDotted key value path) document.opened document.entries
    return { document with entries }
  | .header path key => do
    let entries ← changeAt (defineTable key) path document.entries
    return { entries, opened := path ++ [key] }
  | .repeatedHeader path key => do
    let entries ← changeAt (startTable key) path document.entries
    return { entries, opened := path ++ [key] }

/-- The entries of a whole document. -/
def document? (text : String) : Option Entries := do
  let lines ← lines? text
  let document ← lines.foldlM Document.add {}
  return document.entries

end PlotLisp.Toml
