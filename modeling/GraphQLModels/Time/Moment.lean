import GraphQLModels.Number.Numeral
import GraphQLModels.Time.Date

/-!
# Times of day and moments

A time of day has microseconds and perhaps an offset from universal time. A moment is a day with a
time of day. Both are read in the form of the Internet's profile of ISO 8601; a moment also as the
number of seconds, or of milliseconds if it is large, since the beginning of 1970.
-/

namespace GraphQLModels.Time

open Number (Binary64)

/-- A time of day, with its offset from universal time in minutes. -/
structure Clock where
  hour : Nat
  minute : Nat
  second : Nat := 0
  micro : Nat := 0
  offset : Option Int := none
deriving DecidableEq, Repr

namespace Clock

/-- Reads a fraction of a second as microseconds; digits after the sixth are dropped. -/
def readFraction (cs : List Char) : Option (Nat × List Char) :=
  match cs with
  | '.' :: rest | ',' :: rest =>
    let ds := rest.takeWhile Char.isDigit
    let six := ds.take 6 ++ List.replicate (6 - ds.length) '0'
    if ds.isEmpty then none else (number? six).map fun n => (n, rest.dropWhile Char.isDigit)
  | cs => some (0, cs)

/-- Reads an offset from universal time that ends the text. -/
def readOffset : List Char → Option (Option Int)
  | [] => some none
  | ['Z'] | ['z'] => some (some 0)
  | sign :: a :: b :: rest => do
    let ds := match rest with
      | ':' :: rest => rest
      | rest => rest
    let hours ← number? [a, b]
    let minutes ← if ds.length == 2 then number? ds else none
    if 24 ≤ hours || 60 ≤ minutes then none
    let amount : Int := 60 * hours + minutes
    if sign == '+' then return some amount
    else if sign == '-' || sign == '\u2212' then return some (-amount)
    else none
  | _ => none

/-- Reads `HH:MM`, perhaps with seconds, a fraction and an offset, up to the end of the text. -/
def read : List Char → Option Clock
  | a :: b :: ':' :: c :: d :: rest => do
    let hour ← number? [a, b]
    let minute ← number? [c, d]
    let (second, micro, rest) ← match rest with
      | ':' :: e :: f :: rest => do
        let (micro, rest) ← readFraction rest
        pure (← number? [e, f], micro, rest)
      | rest => pure (0, 0, rest)
    let offset ← readOffset rest
    if 24 ≤ hour || 60 ≤ minute || 60 ≤ second then none
    return { hour, minute, second, micro, offset }
  | _ => none

/-- The time of day without its offset. -/
def clockText (c : Clock) : String :=
  let fraction := if c.micro == 0 then "" else "." ++ padded 6 c.micro
  s!"{padded 2 c.hour}:{padded 2 c.minute}:{padded 2 c.second}" ++ fraction

def offsetText (offset : Int) : String :=
  let sign := if offset < 0 then "-" else "+"
  s!"{sign}{padded 2 (offset.natAbs / 60)}:{padded 2 (offset.natAbs % 60)}"

/-- The time of day in a document: universal time is marked by a letter. -/
def text (c : Clock) : String :=
  c.clockText ++
    match c.offset with
    | none => ""
    | some 0 => "Z"
    | some offset => offsetText offset

/-- The time of day in a display. -/
def display (c : Clock) : String := c.clockText ++ (c.offset.map offsetText).getD ""

/-- The time of day a number of seconds after midnight. -/
def ofSeconds (seconds micro : Nat) (offset : Option Int) : Clock where
  hour := seconds / 3600
  minute := seconds / 60 % 60
  second := seconds % 60
  micro
  offset

end Clock

/-- A day with a time of day. -/
structure Moment where
  date : Date
  clock : Clock
deriving DecidableEq, Repr

namespace Moment

/-- Reads a day and a time of day with a letter, a space or an underscore between them. -/
def read (cs : List Char) : Option Moment :=
  match Date.read cs with
  | some (date, sep :: rest) =>
    if ['T', 't', ' ', '_'].contains sep then (Clock.read rest).map (⟨date, ·⟩) else none
  | _ => none

/-- The moment a number of microseconds after the beginning of 1970 in universal time. -/
def ofEpochMicros (micros : Int) : Option Moment := do
  let day : Int := 86400000000
  let date ← Date.ofEpochDays (micros / day)
  let rest := (micros % day).toNat
  return ⟨date, Clock.ofSeconds (rest / 1000000) (rest % 1000000) (some 0)⟩

/-- Beyond this many seconds a number is one of milliseconds. -/
def watershed : Int := 20000000000

/-- The moment that a number of seconds or milliseconds means. -/
def ofInt (n : Int) : Option Moment :=
  if n.natAbs ≤ watershed.natAbs then ofEpochMicros (n * 1000000) else ofEpochMicros (n * 1000)

/-- The nearest count of microseconds to a number of seconds or milliseconds. -/
def ofBinary : Binary64 → Option Moment
  | .finite negative mantissa exponent =>
    let (num, den) := Binary64.quotient mantissa exponent
    -- The watershed is compared with the exact value, before anything is rounded.
    let scale := if num ≤ watershed.natAbs * den then 1000000 else 1000
    let micros : Int := Binary64.roundQuotient (num * scale) den
    ofEpochMicros (if negative then -micros else micros)
  | _ => none

/-- The moment that a text means: in the form of a moment, a number, or a day alone. -/
def ofText (s : String) : Option Moment :=
  let cs := s.toList
  match read cs, Date.read cs with
  | some m, _ => some m
  | none, some (date, []) => some ⟨date, { hour := 0, minute := 0 }⟩
  | none, _ =>
    -- An exponent or a word such as `nan` makes a number, but no moment.
    let isNumeral := cs.all fun c => c.isDigit || c == '.' || c == '-' || c == '+'
    if !isNumeral then none
    else
      match Number.integer? s, Number.float? s with
      | some n, _ => ofInt n
      | none, some x => ofBinary x
      | none, none => none

def text (m : Moment) : String := m.date.text ++ "T" ++ m.clock.text

def display (m : Moment) : String := m.date.text ++ " " ++ m.clock.display

/-- Whether the time of day is midnight. -/
def isMidnight (m : Moment) : Bool :=
  m.clock.hour == 0 && m.clock.minute == 0 && m.clock.second == 0 && m.clock.micro == 0

end Moment

end GraphQLModels.Time
