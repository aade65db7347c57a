/-!
# Lines

How a stream of text falls into lines, and what a line is without the white space around it.
White space is what has the property of that name among all characters, line ends and
non-breaking spaces included.
-/

namespace PlotLisp

/-! ## White space -/

/-- The ranges of characters that are white space. -/
def whiteSpaceRanges : List (Nat × Nat) :=
  [(0x09, 0x0D), (0x20, 0x20), (0x85, 0x85), (0xA0, 0xA0), (0x1680, 0x1680), (0x2000, 0x200A),
    (0x2028, 0x2029), (0x202F, 0x202F), (0x205F, 0x205F), (0x3000, 0x3000)]

def isWhiteSpace (c : Char) : Bool :=
  whiteSpaceRanges.any fun (first, last) => first ≤ c.toNat && c.toNat ≤ last

/-- A text without the white space at its ends. -/
def trim (text : String) : String :=
  let letters := text.toList.dropWhile isWhiteSpace
  String.ofList (letters.reverse.dropWhile isWhiteSpace).reverse

/-! ## Lines -/

/-- Splits behind every line feed. The letters of the line under way are the latest first; a last
line without a line feed counts if it has any letters. -/
def splitLines (letters : List Char) : List Char → List (List Char)
  | [] => if letters.isEmpty then [] else [letters.reverse]
  | c :: rest =>
    if c = '\n' then (c :: letters).reverse :: splitLines [] rest
    else splitLines (c :: letters) rest

/-- The lines of a text, each with its line feed. -/
def linesOf (text : String) : List String := (splitLines [] text.toList).map String.ofList

end PlotLisp
