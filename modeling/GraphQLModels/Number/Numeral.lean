import GraphQLModels.Json.Reader
import GraphQLModels.Number.Decimal
import GraphQLModels.Text.Blank

/-!
# Numerals in texts

Numbers that arrive as texts: integers, floating-point numbers and decimals, with a sign and with
white space around them.
-/

namespace GraphQLModels.Number

open Json (digitsValue)

/-- White space around a numeral: that of the Unicode property, without the separators of
information. -/
def isMargin (c : Char) : Bool := Text.isBlank c && !(28 ≤ c.toNat && c.toNat ≤ 31)

/-- The characters of a text without white space at the ends. -/
def trimmed (s : String) : List Char :=
  Text.dropEndWhile isMargin (s.toList.dropWhile isMargin)

/-- A sign in front, if there is one, and the rest. -/
def readSign : List Char → Bool × List Char
  | '-' :: rest => (true, rest)
  | '+' :: rest => (false, rest)
  | cs => (false, cs)

/-- The characters without single underscores between others; none if underscores stand
otherwise. -/
def joinParts : List Char → Option (List Char)
  | [] => some []
  | ['_'] => none
  | '_' :: _ => none
  | c :: '_' :: rest =>
    match rest with
    | '_' :: _ => none
    | [] => none
    | _ => (joinParts rest).map (c :: ·)
  | c :: rest => (joinParts rest).map (c :: ·)

/-- The characters without a point and zeros at the end. -/
def withoutZeroFraction (cs : List Char) : List Char :=
  match cs.dropWhile (· != '.') with
  | _ :: fraction => if fraction.all (· == '0') then cs.takeWhile (· != '.') else cs
  | [] => cs

/-- The integer a text writes. Digits may be joined by underscores, and a fraction of zeros is
dropped. -/
def integer? (s : String) : Option Int :=
  let (negative, cs) := readSign (trimmed s)
  match joinParts (withoutZeroFraction cs) with
  | some ds =>
    if ds.isEmpty || !ds.all Char.isDigit then none
    else
      let n : Int := digitsValue ds
      some (if negative then -n else n)
  | none => none

/-- The digits before and after a point and the exponent of an unsigned numeral. -/
def readDigits (cs : List Char) : Option (List Char × List Char × Int) :=
  let whole := cs.takeWhile Char.isDigit
  let rest := cs.dropWhile Char.isDigit
  let (fraction, rest) := match rest with
    | '.' :: rest => (rest.takeWhile Char.isDigit, rest.dropWhile Char.isDigit)
    | rest => ([], rest)
  if whole.isEmpty && fraction.isEmpty then none
  else if rest.isEmpty then some (whole, fraction, 0)
  else
    match Json.readExponent rest with
    | some (exponent, []) => some (whole, fraction, exponent)
    | _ => none

/-- The letters of a text in lower case. -/
def lowered (cs : List Char) : String := String.ofList (cs.map Char.toLower)

def float? (s : String) : Option Binary64 := do
  let (negative, cs) := readSign (← joinParts (trimmed s))
  let word := lowered cs
  if word == "inf" || word == "infinity" then return .infinite negative
  else if word == "nan" then return .nan
  else
    let (whole, fraction, exponent) ← readDigits cs
    return Binary64.ofDecimal negative (digitsValue (whole ++ fraction))
      (exponent - fraction.length)

/-- What a text writes as a decimal: a finite number, or one of the words for what is not finite. -/
inductive DecimalReading where
  | finite (d : Decimal)
  | notFinite
deriving DecidableEq, Repr

/-- Whether a text is a word for what is not finite, in lower case. -/
def isNotFinite (word : List Char) : Bool :=
  let isWord (start : String) : Bool :=
    start.toList.isPrefixOf word && (word.drop start.length).all Char.isDigit
  word == "inf".toList || word == "infinity".toList || isWord "nan" || isWord "snan"

/-- The decimal a text writes. Underscores count for nothing. -/
def decimal? (s : String) : Option DecimalReading :=
  let (negative, cs) := readSign ((Text.trim s).toList.filter (· != '_'))
  if isNotFinite (cs.map Char.toLower) then some .notFinite
  else
    match readDigits cs with
    | some (whole, fraction, exponent) =>
      some (.finite {
        negative, coefficient := digitsValue (whole ++ fraction)
        exponent := exponent - fraction.length })
    | none => none

end GraphQLModels.Number
