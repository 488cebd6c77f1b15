import GraphQLModels.Json.Reader
import GraphQLModels.Json.Display

/-!
# JSON files

A file, like the answer of a server, may hold texts in which half of a pair of code units stands
alone, while its integers are of limited length. What stands where a text belongs is taken for a text
at first, whatever it is.
-/

namespace GraphQLModels.Json

/-- Why the text of a file is no value. -/
inductive FileError where
  | notJson
  | longInteger
deriving DecidableEq, Repr

def isFirstHalf (unit : Nat) : Bool := 0xd800 ≤ unit && unit < 0xdc00

def isSecondHalf (unit : Nat) : Bool := 0xdc00 ≤ unit && unit < 0xe000

/-- The escape of a half that stands alone, spelled out. A half is no character; in its place stand a
null character, which no module can hold, and its number. -/
def spelledHalf (unit : Nat) : List Char := "\\u0000".toList ++ Text.hexDigits 4 unit

/-- A document in which no half stands alone. -/
def spellHalves : List Char → List Char
  | '\\' :: 'u' :: a :: b :: c :: d :: rest =>
    match hex4? a b c d with
    | none => '\\' :: 'u' :: a :: b :: c :: d :: spellHalves rest
    | some unit =>
      if isSecondHalf unit then spelledHalf unit ++ spellHalves rest
      else if !isFirstHalf unit then '\\' :: 'u' :: a :: b :: c :: d :: spellHalves rest
      else
        match rest with
        | '\\' :: 'u' :: e :: f :: g :: h :: after =>
          -- What follows a first half may itself be a first half that is followed by its other.
          if (hex4? e f g h).any isSecondHalf then
            '\\' :: 'u' :: a :: b :: c :: d :: '\\' :: 'u' :: e :: f :: g :: h :: spellHalves after
          else spelledHalf unit ++ spellHalves ('\\' :: 'u' :: e :: f :: g :: h :: after)
        | rest => spelledHalf unit ++ spellHalves rest
  | '\\' :: c :: rest => '\\' :: c :: spellHalves rest
  | c :: rest => c :: spellHalves rest
  | [] => []

/-- How many digits an integer in a file may have. -/
def maxDigits : Nat := 4300

/-- A document without what stands between quotes. -/
def outsideQuotes (within : Bool) : List Char → List Char
  | '"' :: rest => '"' :: outsideQuotes (!within) rest
  | '\\' :: c :: rest => if within then outsideQuotes true rest else '\\' :: c :: rest
  | c :: rest => if within then outsideQuotes true rest else c :: outsideQuotes false rest
  | [] => []

/-- How an integer of more digits is complained about. -/
def FileError.limit : String :=
  s!"Exceeds the limit ({maxDigits} digits) for integer string conversion"

/-- Whether there is an integer of too many digits, after so many digits of a number that is whole so
far or not. -/
def hasLongInteger (digits : Nat) (isWhole : Bool) : List Char → Bool
  | [] => isWhole && maxDigits < digits
  | c :: rest =>
    if c.isDigit then hasLongInteger (digits + 1) isWhole rest
    else if c == '.' || c == 'e' || c == 'E' then hasLongInteger digits false rest
    -- The sign of an exponent belongs to its number.
    else if (c == '+' || c == '-') && !isWhole then hasLongInteger digits false rest
    else (isWhole && maxDigits < digits) || hasLongInteger 0 true rest

/-- Reads the text of a file. -/
def load (text : String) : Except FileError Json :=
  match parse? (String.ofList (spellHalves text.toList)) with
  | none => .error .notJson
  | some value =>
    if hasLongInteger 0 true (outsideQuotes false text.toList) then .error .longInteger
    else .ok value

/-- The text for a value in the place of a text. One that is no text is not looked at until it is
written; it stands for a text that no module can hold. -/
def asText : Json → String
  | .str s => s
  | value => "\x00" ++ value.inspect

end GraphQLModels.Json
