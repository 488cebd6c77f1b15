import GraphQLModels.Model.Problem
import GraphQLModels.Model.Value

/-!
# Scalars

The types of values without parts, and how each is read from a JSON value: numbers may arrive as
texts, and words stand for truth values.
-/

namespace GraphQLModels.Model

open Number (Binary64 Decimal)
open Time (Clock Date Moment)

/-- A type of values without parts, or of any value. -/
inductive ScalarType where
  | text | int | float | bool | decimal | moment | date | clock | uuid | any
deriving DecidableEq, Repr

/-- Where decoded values come from: the text of a document, or the arguments of a call. -/
inductive Form where
  | document | arguments
deriving DecidableEq, Repr

namespace ScalarType

/-- Whether every value of the first type is one of the second. -/
def isDerived (type base : ScalarType) : Bool :=
  type == base || (type == .moment && base == .date) || (type == .bool && base == .int)

/-- The name of the class of a scalar type. -/
def className : ScalarType → String
  | .text => "str"
  | .int => "int"
  | .float => "float"
  | .bool => "bool"
  | .decimal => "Decimal"
  | .moment => "datetime"
  | .date => "date"
  | .clock => "time"
  | .uuid => "UUID"
  | .any => "Any"

def isWord (n : Int) : Bool := n.natAbs < Nat.pow 2 63

def readText : Json → Decoded Value
  | .str s => .ok (.text s)
  | _ => .problem .stringType

/-- The integer that a floating-point number equals, within 64 bits. -/
def wholeNumber (x : Binary64) : Decoded Int :=
  match x with
  | .finite _ _ _ =>
    match x.toInt? with
    | some n => if isWord n then .ok n else .problem .intParsingSize
    | none => .problem .intFromFloat
  | _ => .problem .finiteNumber

def readInt : Json → Decoded Value
  | .int n => .ok (.int n)
  | .bool b => .ok (.int (if b then 1 else 0))
  | .float x => (wholeNumber x).map .int
  | .str s =>
    -- The limit is on the whole text, blanks and signs included.
    if 4300 < s.length then .problem .intParsingSize
    else
      match Number.integer? s with
      | some n => .ok (.int n)
      | none => .problem .intParsing
  | _ => .problem .intType

def readFloat : Json → Decoded Value
  | .float x => .ok (.float x)
  | .int n => .ok (.float (Binary64.ofInt n))
  | .bool b => .ok (.float (Binary64.ofInt (if b then 1 else 0)))
  | .str s =>
    match Number.float? s with
    | some x => .ok (.float x)
    | none => .problem .floatParsing
  | _ => .problem .floatType

/-- The truth value that a number stands for. -/
def truthOfInt (n : Int) : Decoded Value :=
  if n == 0 then .ok (.bool false)
  else if n == 1 then .ok (.bool true) else .problem .boolParsing

def trueWords : List String := ["1", "on", "t", "true", "y", "yes"]

def falseWords : List String := ["0", "off", "f", "false", "n", "no"]

def readBool : Json → Decoded Value
  | .bool b => .ok (.bool b)
  | .int n => if isWord n then truthOfInt n else .problem .boolType
  | .float x =>
    match wholeNumber x with
    | .ok n => truthOfInt n
    | .error _ => .problem .boolType
  | .str s =>
    let word := Number.lowered s.toList
    if trueWords.contains word then .ok (.bool true)
    else if falseWords.contains word then .ok (.bool false)
    else .problem .boolParsing
  | _ => .problem .boolType

/-- Reads a decimal number from a text. -/
def readDecimalText (s : String) : Decoded Value :=
  match Number.decimal? s with
  | some (.finite d) => .ok (.decimal d)
  | some .notFinite => .problem .finiteNumber
  | none => .problem .decimalParsing

/-- Reads a decimal number. A floating-point number in a document has a fraction only if it needs
one; among arguments it has the digits of its display. -/
def readDecimal (form : Form) : Json → Decoded Value
  | .int n => .ok (.decimal (Decimal.ofInt n))
  | .float x =>
    match form, Decimal.ofBinary? x with
    | .document, some d => .ok (.decimal d)
    | .arguments, some _ => readDecimalText x.display
    | _, none => .problem .finiteNumber
  | .str s => readDecimalText s
  | _ => .problem .decimalType

/-- A moment, or a problem for want of one. -/
def momentOr (kind : ProblemKind) : Option Moment → Decoded Value
  | some m => .ok (.moment m)
  | none => .problem kind

def readMoment : Json → Decoded Value
  | .str s => momentOr .momentParsing (Moment.ofText s)
  | .int n => if isWord n then momentOr .momentRange (Moment.ofInt n) else .problem .momentType
  | .float x => momentOr .momentRange (Moment.ofBinary x)
  | _ => .problem .momentType

/-- The day of a moment at midnight. -/
def dayOf : Option Moment → Decoded Value
  | some m => if m.isMidnight then .ok (.date m.date) else .problem .dateInexact
  | none => .problem .dateParsing

/-- Reads a day: a moment counts as its day only at midnight. -/
def readDate : Json → Decoded Value
  | .str s => dayOf (Moment.ofText s)
  | .int n => if isWord n then dayOf (Moment.ofInt n) else .problem .dateType
  | .float x => dayOf (Moment.ofBinary x)
  | _ => .problem .dateType

/-- The time of day that a number of seconds after midnight means. -/
def clockOfSeconds (x : Binary64) : Decoded Value :=
  match x with
  | .finite negative mantissa exponent =>
    let (num, den) := Binary64.quotient mantissa exponent
    let micros := Binary64.roundQuotient (num * 1000000) den
    -- A negative number that rounds to nothing is midnight.
    if (negative && micros != 0) || 86400000000 ≤ micros then .problem .clockParsing
    else .ok (.clock (Clock.ofSeconds (micros / 1000000) (micros % 1000000) none))
  | _ => .problem .clockParsing

def readClock : Json → Decoded Value
  | .str s =>
    match Clock.read s.toList with
    | some c => .ok (.clock c)
    | none => .problem .clockParsing
  | .int n => if isWord n then clockOfSeconds (Binary64.ofInt n) else .problem .clockType
  | .float x => clockOfSeconds x
  | _ => .problem .clockType

/-- The hexadecimal digits of an identifier in lower case, if the text writes one. -/
def uuidDigits? (s : String) : Option (List Char) :=
  let cs := (s.toList.map Char.toLower)
  let cs := match cs with
    | '\x7b' :: rest => if rest.getLast? == some '\x7d' then rest.dropLast else cs
    | cs => if "urn:uuid:".toList.isPrefixOf cs then cs.drop 9 else cs
  -- Hyphens stand all in their places or not at all.
  let hyphens := (cs.zipIdx.filter fun (c, _) => c == '-').map (·.2)
  let ds := cs.filter (· != '-')
  if ds.length == 32 && ds.all (fun c => (Json.hexValue? c).isSome) &&
      (hyphens.isEmpty || hyphens == [8, 13, 18, 23]) then
    some ds
  else none

/-- The text of an identifier, in groups of digits. -/
def uuidText (ds : List Char) : String :=
  let group (start count : Nat) : String := String.ofList ((ds.drop start).take count)
  "-".intercalate [group 0 8, group 8 4, group 12 4, group 16 4, group 20 12]

def readUuid : Json → Decoded Value
  | .str s =>
    match uuidDigits? s with
    | some ds => .ok (.uuid (uuidText ds))
    | none => .problem .uuidParsing
  | _ => .problem .uuidType

/-- Reads a value of a scalar type. -/
def read (form : Form) : ScalarType → Json → Decoded Value
  | .text => readText
  | .int => readInt
  | .float => readFloat
  | .bool => readBool
  | .decimal => readDecimal form
  | .moment => readMoment
  | .date => readDate
  | .clock => readClock
  | .uuid => readUuid
  | .any => fun value => .ok (Value.ofJson value)

end ScalarType

end GraphQLModels.Model
