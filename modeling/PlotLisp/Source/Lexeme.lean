import PlotLisp.Source.Token

/-!
# Lexemes

The text of a program is a row of lexemes: parentheses and tokens. Blanks and comments stand
between them and mean nothing.

`Scanner` reads the text one character at a time. It knows what it is in the middle of and
which lexemes it has found, and nothing else, so reading one text after another is reading
both as one.
-/

namespace PlotLisp

inductive Lexeme where
  | opening
  | closing
  | token (token : Token)
deriving DecidableEq

/-! ## Characters -/

def isBlank (c : Char) : Bool := c == ' ' || c == '\t' || c == '\r' || c == '\n'

/-- The characters that end a bare word. -/
def endsWord (c : Char) : Bool := isBlank c || c == '(' || c == ')' || c == '"' || c == ';'

/-! ## The scanner -/

/-- What the scanner is in the middle of. The letters of a word are the latest first. -/
inductive ScanState where
  | between
  | comment
  | quoted (letters : List Char)
  | bare (letters : List Char)

/-- A scanner and the lexemes it has found, the latest first. -/
structure Scanner where
  state : ScanState := .between
  found : List Lexeme := []

namespace Scanner

/-- Starts on whatever a character begins. -/
def begin (found : List Lexeme) (c : Char) : Scanner :=
  if isBlank c then ⟨.between, found⟩
  else if c = '(' then ⟨.between, .opening :: found⟩
  else if c = ')' then ⟨.between, .closing :: found⟩
  else if c = '"' then ⟨.quoted [], found⟩
  else if c = ';' then ⟨.comment, found⟩
  else ⟨.bare [c], found⟩

def bareWord (letters : List Char) : Lexeme := .token (.bare (String.ofList letters.reverse))

def quotedWord (letters : List Char) : Lexeme :=
  .token (.quoted (String.ofList letters.reverse))

def next (s : Scanner) (c : Char) : Scanner :=
  match s.state with
  | .between => begin s.found c
  | .comment => if c = '\n' then ⟨.between, s.found⟩ else s
  | .quoted letters =>
    if c = '"' then ⟨.between, quotedWord letters :: s.found⟩
    else ⟨.quoted (c :: letters), s.found⟩
  | .bare letters =>
    if endsWord c then begin (bareWord letters :: s.found) c
    else ⟨.bare (c :: letters), s.found⟩

/-- The lexemes of the whole text. A string that is still open at its end is an error. -/
def finish? (s : Scanner) : Option (List Lexeme) :=
  match s.state with
  | .between | .comment => some s.found.reverse
  | .bare letters => some (bareWord letters :: s.found).reverse
  | .quoted _ => none

end Scanner

/-- The lexemes of a text, unless it breaks off within a string. -/
def Lexeme.scan? (text : String) : Option (List Lexeme) :=
  (text.toList.foldl Scanner.next {}).finish?

end PlotLisp
