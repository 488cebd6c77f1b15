import GraphQLModels.Number.Binary64

/-!
# The shortest decimal of a binary number

Of all decimals that read back as the number, the one with the fewest digits, and of those the
nearest. How its digits are laid out is a style of its own.
-/

namespace GraphQLModels.Number

/-- A decimal `digits * 10 ^ exponent`. -/
structure Decimal10 where
  digits : Nat
  exponent : Int
deriving DecidableEq, Repr

namespace Binary64

/-- The least `k` with `num / den < 10 ^ k`, sought downwards from an upper bound. -/
def decimalOrder (num den : Nat) : Nat → Int → Int
  | 0, k => k
  | fuel + 1, k =>
    let below :=
      if k - 1 ≥ 0 then decide (num < den * Nat.pow 10 (k - 1).toNat)
      else decide (num * Nat.pow 10 (1 - k).toNat < den)
    if below then decimalOrder num den fuel (k - 1) else k

/-- The two neighbours of a quotient on the grid of multiples of `10 ^ exponent`, the nearer one
first and of two equally near ones the even one, as counts of grid steps. -/
def gridNeighbours (num den : Nat) (exponent : Int) : List Nat :=
  let (num, den) :=
    if exponent ≥ 0 then (num, den * Nat.pow 10 exponent.toNat)
    else (num * Nat.pow 10 (-exponent).toNat, den)
  let low := num / den
  let rest := num % den
  if rest = 0 then [low]
  else if 2 * rest < den || (2 * rest = den && low % 2 = 0) then [low, low + 1]
  else [low + 1, low]

/-- The decimal with the fewest digits, from `count` on, that reads back as the number. -/
def shortestFrom (target : Binary64) (num den : Nat) (order : Int) : Nat → Nat → Option Decimal10
  | 0, _ => none
  | fuel + 1, count =>
    let exponent := order - count
    -- The nearer neighbour comes first. If neither reads back, no decimal of so many digits does.
    match (gridNeighbours num den exponent).find? fun n => ofDecimal false n exponent == target with
    | some n => some ⟨n, exponent⟩
    | none => shortestFrom target num den order fuel (count + 1)

/-- The shortest decimal of a finite number without its sign. -/
def shortest (mantissa : Nat) (exponent : Int) : Decimal10 :=
  let (num, den) := quotient mantissa exponent
  -- The counts of digits bound the order from above and miss it by one at most; seventeen digits
  -- always read back.
  let bound : Int := digitCount num - digitCount den + 1
  let order := decimalOrder num den 3 bound
  (shortestFrom (.finite false mantissa exponent) num den order 17 1).getD ⟨num, 0⟩

end Binary64

/-- How the digits of a decimal are laid out. -/
structure DecimalStyle where
  /-- The least position of the point, counted from before the first digit, that is written
  without an exponent. -/
  leastPoint : Int
  /-- Whether a positive exponent carries a plus sign. -/
  plusSign : Bool
  /-- The least count of digits of an exponent. -/
  exponentWidth : Nat

namespace DecimalStyle

/-- Decimals in messages and displays: `0.0001`, `1e-05`, `1e+16`. -/
def display : DecimalStyle := ⟨-3, true, 2⟩

def document : DecimalStyle := ⟨-4, false, 1⟩

/-- The greatest position of the point that is written without an exponent. -/
def greatestPoint : Int := 16

/-- Removes zeros from the end of the digits. -/
def trimZeros (ds : List Char) : List Char :=
  (ds.reverse.dropWhile (· == '0')).reverse

def layOut (style : DecimalStyle) (d : Decimal10) : String :=
  let all := Nat.toDigits 10 d.digits
  let point : Int := all.length + d.exponent
  let ds := trimZeros all
  if point < style.leastPoint || greatestPoint < point then
    let exponent := point - 1
    let shown := Nat.toDigits 10 exponent.natAbs
    let sign := if exponent < 0 then "-" else if style.plusSign then "+" else ""
    let fraction := if ds.length ≤ 1 then [] else '.' :: ds.drop 1
    String.ofList (ds.take 1 ++ fraction) ++ "e" ++ sign ++
      String.ofList (List.replicate (style.exponentWidth - shown.length) '0' ++ shown)
  else if point ≤ 0 then
    String.ofList ('0' :: '.' :: List.replicate (-point).toNat '0' ++ ds)
  else
    let whole := point.toNat
    let fraction := ds.drop whole
    String.ofList (ds.take whole ++ List.replicate (whole - ds.length) '0' ++ '.' ::
      (if fraction.isEmpty then ['0'] else fraction))

def render (style : DecimalStyle) (negative : Bool) (mantissa : Nat) (exponent : Int) : String :=
  let text := if mantissa = 0 then "0.0" else style.layOut (Binary64.shortest mantissa exponent)
  if negative then "-" ++ text else text

end DecimalStyle

/-- The text of a number in a message or display. -/
def Binary64.display : Binary64 → String
  | .finite negative mantissa exponent => DecimalStyle.display.render negative mantissa exponent
  | .infinite negative => if negative then "-inf" else "inf"
  | .nan => "nan"

end GraphQLModels.Number
