import GraphQLModels.Number.Shortest

/-!
# Decimal numbers

Decimals that keep the digits they were written with: `12.50` is not `12.5`. The exponent of the
last digit decides how one is written.
-/

namespace GraphQLModels.Number

/-- The decimal `± coefficient * 10 ^ exponent`. -/
structure Decimal where
  negative : Bool := false
  coefficient : Nat
  exponent : Int := 0
deriving DecidableEq, Repr

namespace Decimal

def ofInt (n : Int) : Decimal := { negative := n < 0, coefficient := n.natAbs }

/-- The decimal with the fewest digits that reads back as a finite number; whole numbers have no
fraction. -/
def ofBinary? : Binary64 → Option Decimal
  | .finite negative mantissa exponent =>
    if mantissa = 0 then some { negative, coefficient := 0 }
    else
      let short := Binary64.shortest mantissa exponent
      if short.exponent ≥ 0 then
        some { negative, coefficient := short.digits * Nat.pow 10 short.exponent.toNat }
      else some { negative, coefficient := short.digits, exponent := short.exponent }
  | _ => none

/-- The digits with a point after the given number of them, zeros filled in where they run out. -/
def withPoint (ds : List Char) (point : Int) : List Char :=
  if point ≤ 0 then '0' :: '.' :: List.replicate (-point).toNat '0' ++ ds
  else if ds.length ≤ point.toNat then ds ++ List.replicate (point.toNat - ds.length) '0'
  else ds.take point.toNat ++ '.' :: ds.drop point.toNat

/-- The text of a decimal: with an exponent only if the exponent of its last digit is positive or
more than six zeros would follow the point. -/
def text (d : Decimal) : String :=
  let ds := Nat.toDigits 10 d.coefficient
  let point : Int := ds.length + d.exponent
  let sign := if d.negative then "-" else ""
  if d.exponent ≤ 0 && -6 < point then sign ++ String.ofList (withPoint ds point)
  else
    let shift := point - 1
    let mark := if shift = 0 then "" else if shift < 0 then "E-" else "E+"
    let amount := if shift = 0 then "" else toString shift.natAbs
    sign ++ String.ofList (withPoint ds 1) ++ mark ++ amount

end Decimal

end GraphQLModels.Number
