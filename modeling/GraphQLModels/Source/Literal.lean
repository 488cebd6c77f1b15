import GraphQLModels.Source.Token
import GraphQLModels.Text.CharacterName

/-!
# String and number literals

Which escapes a string literal may hold, and where a number ends.
-/

namespace GraphQLModels.Source

/-- Whether a character is a hexadecimal digit. -/
def isHexDigit (c : Char) : Bool :=
  c.isDigit || ('a' ≤ c && c ≤ 'f') || ('A' ≤ c && c ≤ 'F')

/-- Whether a text begins with a count of hexadecimal digits. -/
def beginsWithHex (count : Nat) (cs : List Char) : Bool :=
  count ≤ cs.length && (cs.take count).all isHexDigit

/-- Whether eight hexadecimal digits are within the range of code points. -/
def isCodePoint (cs : List Char) : Bool :=
  match cs with
  | '0' :: '0' :: '0' :: _ => true
  | '0' :: '0' :: '1' :: '0' :: _ => true
  | _ => false

/-- Whether a name between braces stands at the front and names a character. -/
def beginsWithName : List Char → Bool
  | '\x7b' :: rest =>
    rest.contains '\x7d' && Text.isCharacterName (String.ofList (rest.takeWhile (· != '\x7d')))
  | _ => false

/-- Whether every escape in the body of a literal is complete. -/
def escapesHold (bytes : Bool) : List Char → Bool
  | '\\' :: c :: rest =>
    (if c == 'x' then beginsWithHex 2 rest
      else if bytes then true
      else if c == 'u' then beginsWithHex 4 rest
      else if c == 'U' then beginsWithHex 8 rest && isCodePoint rest
      else if c == 'N' then beginsWithName rest
      else true) && escapesHold bytes rest
  | _ :: rest => escapesHold bytes rest
  | [] => true

/-- Whether a literal is well formed: bytes are ASCII, and escapes are complete unless backslashes
stand for themselves. -/
def literalHolds (start : LiteralStart) (body : List Char) : Bool :=
  match start.kind with
  | .bytes => body.all (fun c => c.toNat < 128) && (start.raw || escapesHold true body)
  | .plain => start.raw || escapesHold false body
  | .formatted => true

/-- The rest after digits that follow a digit, single underscores between them. -/
def afterDigits (isDigit : Char → Bool) : List Char → Option (List Char)
  | '_' :: c :: rest => if isDigit c then afterDigits isDigit rest else none
  | ['_'] => none
  | c :: rest => if isDigit c then afterDigits isDigit rest else some (c :: rest)
  | [] => some []

/-- The rest after at least one digit, perhaps with an underscore in front. -/
def afterRadixDigits (isDigit : Char → Bool) : List Char → Option (List Char)
  | '_' :: c :: rest => if isDigit c then afterDigits isDigit rest else none
  | c :: rest => if isDigit c then afterDigits isDigit rest else none
  | [] => none

/-- The rest after the mark of an imaginary number, if it is there. -/
def afterImaginary : List Char → List Char
  | c :: rest => if c == 'j' || c == 'J' then rest else c :: rest
  | [] => []

/-- The rest after an exponent, if there is one; a sign must have digits behind it. -/
def afterExponent (cs : List Char) : Option (List Char) :=
  match cs with
  | e :: rest =>
    if e == 'e' || e == 'E' then
      match rest with
      | c :: d :: more =>
        if c == '+' || c == '-' then if d.isDigit then afterDigits Char.isDigit more else none
        else if c.isDigit then afterDigits Char.isDigit (d :: more)
        else some cs
      | [c] => if c == '+' || c == '-' then none else if c.isDigit then some [] else some cs
      | [] => some cs
    else some cs
  | [] => some []

/-- The rest after the digits behind a point. -/
def afterFraction : List Char → Option (List Char)
  | c :: rest => if c.isDigit then afterDigits Char.isDigit rest else some (c :: rest)
  | [] => some []

/-- The rest after a decimal whose whole part is read, and whether it is more than that part. -/
def afterWhole (cs : List Char) : Option (List Char × Bool) := do
  let rest ← match cs with
    | '.' :: rest => afterFraction rest
    | rest => some rest
  let rest := afterImaginary (← afterExponent rest)
  return (rest, rest.length != cs.length)

/-- The rest after a number, if one stands at the front. Zeros in front of a whole number are not
allowed unless it is zero. -/
def afterNumber (cs : List Char) : Option (List Char) :=
  match cs with
  | '0' :: c :: rest =>
    if c == 'x' || c == 'X' then afterRadixDigits isHexDigit rest
    else if c == 'o' || c == 'O' then afterRadixDigits (fun c => '0' ≤ c && c ≤ '7') rest
    else if c == 'b' || c == 'B' then afterRadixDigits (fun c => c == '0' || c == '1') rest
    else do
      let tail ← afterDigits Char.isDigit (c :: rest)
      let whole := (c :: rest).take ((c :: rest).length - tail.length)
      let (after, more) ← afterWhole tail
      if more || whole.all (fun c => c == '0' || c == '_') then some after else none
  | '.' :: rest => do
    let (after, _) ← afterWhole ('.' :: rest)
    return after
  | c :: rest =>
    if c.isDigit then do
      let (after, _) ← afterWhole (← afterDigits Char.isDigit rest)
      return after
    else none
  | [] => none

/-- Whether what directly follows a number may stand there: a keyword that goes on with an
expression. -/
def mayFollowNumber (cs : List Char) : Bool :=
  cs.isEmpty || ["and", "else", "for", "if", "in", "is", "or", "not"].any fun word =>
    word.toList.isPrefixOf cs

end GraphQLModels.Source
