/-!
# Tokens of the generated source

Words, numbers, string literals, signs, and the tokens that lines and their indentation give.
-/

namespace GraphQLModels.Source

/-- What a string literal holds. -/
inductive LiteralKind where
  | plain | bytes | formatted
deriving DecidableEq, Repr

/-- How a string literal begins. -/
structure LiteralStart where
  kind : LiteralKind
  /-- Whether backslashes stand for themselves. -/
  raw : Bool
deriving DecidableEq, Repr

/-- A token. A literal has a body only if it is a formatted one. -/
inductive Token where
  | word (text : String)
  | number (imaginary : Bool)
  | literal (start : LiteralStart) (body : List Char)
  | sign (text : String)
  | newline
  | indent
  | dedent
deriving DecidableEq, Repr

/-- How much there is to read in tokens: themselves, and what they hold. -/
def Token.weight : List Token → Nat
  | [] => 0
  | .literal _ body :: rest => body.length + 1 + weight rest
  | _ :: rest => 1 + weight rest

namespace LiteralStart

/-- The letters before the quotes, in lower case, that begin a literal. -/
def ofLetters? (letters : List Char) : Option LiteralStart :=
  match letters.map Char.toLower with
  | [] | ['u'] => some ⟨.plain, false⟩
  | ['r'] => some ⟨.plain, true⟩
  | ['b'] => some ⟨.bytes, false⟩
  | ['b', 'r'] | ['r', 'b'] => some ⟨.bytes, true⟩
  | ['f'] => some ⟨.formatted, false⟩
  | ['f', 'r'] | ['r', 'f'] => some ⟨.formatted, true⟩
  | _ => none

end LiteralStart

def singleSigns : List Char :=
  ['+', '-', '*', '/', '%', '@', '&', '|', '^', '~', '<', '>', '=', '.', ',', ':', ';', '!',
    '(', ')', '[', ']', '\x7b', '\x7d']

/-- The signs of two and three characters. -/
def longSigns : List String :=
  ["**", "//", "<<", ">>", "<=", ">=", "==", "!=", "<>", "->", "+=", "-=", "*=", "/=", "%=", "@=",
    "&=", "|=", "^=", ":=", "**=", "//=", "<<=", ">>=", "..", "..."]

def closingOf? : Char → Option Char
  | '(' => some ')'
  | '[' => some ']'
  | '\x7b' => some '\x7d'
  | _ => none

def isClosing (c : Char) : Bool := c == ')' || c == ']' || c == '\x7d'

end GraphQLModels.Source
