/-!
# Readers

A reader takes something off the front of a text, or refuses the text. Readers are run one after
another in `do` blocks, and `p <|> q` tries `q` on the same text where `p` refuses it.
-/

namespace PlotLisp.Toml

/-- Takes an `α` off the front of a text. -/
abbrev Reader (α : Type) := StateT (List Char) Option α

namespace Reader

variable {α : Type}

/-- The text that is left, which stays. -/
def rest : Reader (List Char) := get

/-- The next character, if it is of a class. -/
def satisfy (inClass : Char → Bool) : Reader Char := fun text =>
  match text with
  | c :: rest => if inClass c then some (c, rest) else none
  | [] => none

def char (c : Char) : Reader Unit := do
  let _ ← satisfy (· == c)

/-- Exactly these characters. -/
def exact (word : List Char) : Reader Unit := word.forM char

/-- As many characters of a class as there are. -/
def spanOf (inClass : Char → Bool) : Reader (List Char) := fun text =>
  some (text.takeWhile inClass, text.dropWhile inClass)

/-- As many characters of a class as there are, and at least one. -/
def runOf (inClass : Char → Bool) : Reader (List Char) := do
  let first ← satisfy inClass
  return first :: (← spanOf inClass)

/-- So many characters of a class. -/
def countOf (inClass : Char → Bool) : Nat → Reader (List Char)
  | 0 => return []
  | n + 1 => do
    let c ← satisfy inClass
    return c :: (← countOf inClass n)

/-- Nothing, where there is nothing left. -/
def finish : Reader Unit := fun text => if text.isEmpty then some ((), text) else none

/-- What a reader takes, if it takes anything. -/
def optional? (reader : Reader α) : Reader (Option α) := some <$> reader <|> pure none

/-- Runs a reader as often as it takes something off. -/
def many (reader : Reader α) (text : List Char) : Option (List α × List Char) :=
  match reader text with
  | none => some ([], text)
  | some (a, rest) =>
    if rest.length < text.length then
      (many reader rest).map fun (others, rest) => (a :: others, rest)
    else some ([a], rest)
termination_by text.length

end Reader

end PlotLisp.Toml
