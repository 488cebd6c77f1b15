/-!
# Blank characters

White space in the sense of the Unicode property, and trimming it from the ends of a text.
-/

namespace GraphQLModels.Text

/-- White space: the bidirectional classes WS, B and S together with the space separators. -/
def isBlank (c : Char) : Bool :=
  let n := c.toNat
  (9 ≤ n && n ≤ 13) || (28 ≤ n && n ≤ 32) || n == 0x85 || n == 0xa0 || n == 0x1680 ||
    (0x2000 ≤ n && n ≤ 0x200a) || n == 0x2028 || n == 0x2029 || n == 0x202f || n == 0x205f ||
    n == 0x3000

/-- Drops characters from the end as long as they satisfy the test. -/
def dropEndWhile (p : Char → Bool) (cs : List Char) : List Char :=
  (cs.reverse.dropWhile p).reverse

/-- The text without white space at its ends. -/
def trim (s : String) : String :=
  String.ofList (dropEndWhile isBlank (s.toList.dropWhile isBlank))

/-- The text without white space at its end. -/
def trimEnd (s : String) : String :=
  String.ofList (dropEndWhile isBlank s.toList)

/-- The text without line feeds at its end. -/
def trimLineFeeds (s : String) : String :=
  String.ofList (dropEndWhile (· == '\n') s.toList)

/-- The part before the first separator and the part after it. -/
def splitFirst (sep : Char) (s : String) : Option (String × String) :=
  let cs := s.toList
  match cs.dropWhile (· != sep) with
  | [] => none
  | _ :: rest => some (String.ofList (cs.takeWhile (· != sep)), String.ofList rest)

/-- The part before the last separator and the part after it. -/
def splitLast (sep : Char) (s : String) : Option (String × String) :=
  let cs := s.toList.reverse
  match cs.dropWhile (· != sep) with
  | [] => none
  | _ :: rest =>
    some (String.ofList rest.reverse, String.ofList (cs.takeWhile (· != sep)).reverse)

end GraphQLModels.Text
