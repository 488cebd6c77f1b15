/-!
# Dates

Days of the calendar with leap years at every fourth year, but not at every hundredth, unless it is
a four-hundredth.
-/

namespace GraphQLModels.Time

/-- A day of the calendar. -/
structure Date where
  year : Nat
  month : Nat
  day : Nat
deriving DecidableEq, Repr

/-- Whether a year has a leap day. -/
def isLeapYear (year : Nat) : Bool := year % 4 == 0 && (year % 100 != 0 || year % 400 == 0)

/-- The number of days of a month. -/
def daysOfMonth (year month : Nat) : Nat :=
  if month == 2 then (if isLeapYear year then 29 else 28)
  else if month == 4 || month == 6 || month == 9 || month == 11 then 30 else 31

def number? (cs : List Char) : Option Nat :=
  if !cs.isEmpty && cs.all Char.isDigit then
    some (cs.foldl (fun n c => 10 * n + (c.toNat - 48)) 0)
  else none

/-- A number in at least the given count of digits. -/
def padded (width n : Nat) : String :=
  let ds := Nat.toDigits 10 n
  String.ofList (List.replicate (width - ds.length) '0' ++ ds)

namespace Date

/-- The day of a year, a month and a day of the month, if there is one. -/
def of? (year month day : Nat) : Option Date :=
  if 1 ≤ year && year ≤ 9999 && 1 ≤ month && month ≤ 12 && 1 ≤ day &&
      day ≤ daysOfMonth year month then
    some ⟨year, month, day⟩
  else none

def read : List Char → Option (Date × List Char)
  | a :: b :: c :: d :: '-' :: e :: f :: '-' :: g :: h :: rest => do
    let date ← of? (← number? [a, b, c, d]) (← number? [e, f]) (← number? [g, h])
    return (date, rest)
  | _ => none

def text (d : Date) : String := s!"{padded 4 d.year}-{padded 2 d.month}-{padded 2 d.day}"

/-- The day a number of days after the first of January of a year. -/
def ofDays : Nat → Nat → Nat → Nat → Option Date
  | 0, _, _, _ => none
  | fuel + 1, year, month, days =>
    let length := daysOfMonth year month
    if days < length then of? year month (days + 1)
    else if month == 12 then ofDays fuel (year + 1) 1 (days - length)
    else ofDays fuel year (month + 1) (days - length)

/-- The day a number of days after the first of January 1970. Whole cycles of 400 years are counted
off first. -/
def ofEpochDays (days : Int) : Option Date :=
  let cycle : Int := 146097
  let shifted := days + 719162
  if shifted < 0 then none
  else
    let cycles := (shifted / cycle).toNat
    (ofDays 4900 1 1 (shifted % cycle).toNat).bind fun d =>
      of? (d.year + 400 * cycles) d.month d.day

end Date

end GraphQLModels.Time
