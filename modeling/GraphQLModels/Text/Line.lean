/-!
# Lines

Cutting a text at its line breaks, and indenting all lines but the first.
-/

namespace GraphQLModels.Text

/-- The characters that end a line; a carriage return with a line feed is one break. -/
def isLineBreak (c : Char) : Bool :=
  let n := c.toNat
  (10 ≤ n && n ≤ 13) || (28 ≤ n && n ≤ 30) || n == 0x85 || n == 0x2028 || n == 0x2029

/-- The lines of a text with what was read of the current line so far, in reverse. -/
def linesFrom (current : List Char) : List Char → List (List Char)
  | [] => if current.isEmpty then [] else [current.reverse]
  | '\r' :: '\n' :: rest => current.reverse :: linesFrom [] rest
  | c :: rest =>
    if isLineBreak c then current.reverse :: linesFrom [] rest else linesFrom (c :: current) rest

/-- The lines of a text without their breaks; a break at the end opens no further line. -/
def lines (s : String) : List String :=
  (linesFrom [] s.toList).map String.ofList

/-- Indents every line but the first by four columns, leaves empty lines empty, and writes a line
feed for every break. -/
def indent (s : String) : String :=
  match lines (s ++ "\n") with
  | [] => ""
  | first :: rest =>
    "\n".intercalate (first :: rest.map fun line => if line.isEmpty then "" else "    " ++ line)

end GraphQLModels.Text
