import PlotLisp.Toml.Reader

/-!
# Blanks, comments and strings of configuration files

A string in double quotes has escapes, one in single quotes has none. Three quotes open a string
that goes on over lines: a newline right behind them does not count, and up to two quotes may
stand before the three that close it.
-/

namespace PlotLisp.Toml

open Reader

/-! ## Characters -/

def isSpace (c : Char) : Bool := c == ' ' || c == '\t'

/-- What comments and strings may hold: a tab, but no other control character. -/
def isPlain (c : Char) : Bool := c == '\t' || (0x20 ≤ c.toNat && c.toNat != 0x7F)

def skipSpaces : Reader Unit := do
  let _ ← spanOf isSpace

/-- The end of a line, with a carriage return or without. -/
def newline : Reader Unit := exact ['\n'] <|> exact ['\r', '\n']

def comment : Reader Unit := do
  char '#'
  let _ ← spanOf isPlain

/-- Spaces, comments and ends of lines. -/
def skipLines : Reader Unit := do
  let _ ← many (do
    skipSpaces
    let _ ← optional? comment
    newline)
  skipSpaces
  let _ ← optional? comment

/-! ## Escapes -/

def hexValue (c : Char) : Nat :=
  if c.isDigit then c.toNat - '0'.toNat else c.toLower.toNat - 'a'.toNat + 10

def isHexDigit (c : Char) : Bool :=
  c.isDigit || ('a' ≤ c.toLower && c.toLower ≤ 'f')

/-- The character of a code point, which must not be half of a pair. -/
def codePoint? (digits : List Char) : Option Char :=
  let code := digits.foldl (fun n c => 16 * n + hexValue c) 0
  if code.isValidChar then some (Char.ofNat code) else none

/-- The character that an escape stands for, behind the backslash. -/
def escaped : Reader Char := do
  match ← satisfy fun _ => true with
  | 'b' => return '\x08'
  | 't' => return '\t'
  | 'n' => return '\n'
  | 'f' => return '\x0c'
  | 'r' => return '\r'
  | '"' => return '"'
  | '\\' => return '\\'
  | 'u' => (codePoint? (← countOf isHexDigit 4) : Option Char)
  | 'U' => (codePoint? (← countOf isHexDigit 8) : Option Char)
  | _ => failure

/-! ## Strings on one line -/

/-- Plain characters, or one that an escape stands for. -/
def basicPiece : Reader (List Char) :=
  runOf (fun c => isPlain c && c != '"' && c != '\\') <|> do
    char '\\'
    return [← escaped]

def basicString : Reader String := do
  char '"'
  let pieces ← many basicPiece
  char '"'
  return String.ofList pieces.flatten

def literalString : Reader String := do
  char '\''
  let letters ← spanOf fun c => isPlain c && c != '\''
  char '\''
  return String.ofList letters

/-! ## Strings over lines -/

/-- One or two quotes that do not belong to the three that close a string. -/
def innerQuotes (quote : Char) : Reader (List Char) := do
  let quotes := (← rest).takeWhile (· == quote)
  if quotes.length < 3 then countOf (· == quote) (max quotes.length 1) else failure

/-- Two, one or no quotes, and the three that close a string. -/
def closingQuotes (quote : Char) : Reader (List Char) := do
  let quotes := (← rest).takeWhile (· == quote)
  let inner ← countOf (· == quote) (min (quotes.length - 3) 2)
  exact [quote, quote, quote]
  return inner

/-- An end of a line inside a string, which is a line feed however it is written. -/
def innerNewline : Reader (List Char) := do
  newline
  return ['\n']

/-- A backslash at the end of a line takes away all blanks up to the next character. -/
def joinedLines : Reader (List Char) := do
  char '\\'
  skipSpaces
  newline
  let _ ← many (newline <|> do
    let _ ← satisfy isSpace)
  return []

/-- The inside of a string over lines, made of the given pieces. -/
def linesBetween (quote : Char) (piece : Reader (List Char)) : Reader String := do
  exact [quote, quote, quote]
  let _ ← optional? newline
  let pieces ← many piece
  let last ← closingQuotes quote
  return String.ofList (pieces.flatten ++ last)

def basicLines : Reader String :=
  linesBetween '"' (joinedLines <|> basicPiece <|> innerNewline <|> innerQuotes '"')

def literalLines : Reader String :=
  linesBetween '\''
    (runOf (fun c => isPlain c && c != '\'') <|> innerNewline <|> innerQuotes '\'')

/-- A string of any of the four sorts. -/
def anyString : Reader String := basicLines <|> literalLines <|> basicString <|> literalString

end PlotLisp.Toml
