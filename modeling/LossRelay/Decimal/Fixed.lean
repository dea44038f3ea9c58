import LossRelay.Decimal.Dyadic
import LossRelay.Decimal.Rounding
import LossRelay.Text.Numeral

/-!
# A fixed number of places

The exact value of a double, rounded once to the wanted number of decimal places.
-/

namespace LossRelay.Decimal

/-- A count of units of `10 ^ -places`, written with that many places (at least one). -/
def pointed (places units : Nat) : List Char :=
  let ds := Numeral.padded (places + 1) units
  ds.take (ds.length - places) ++ '.' :: ds.drop (ds.length - places)

/-- The value of a number in units of `10 ^ -places`, rounded to the nearest unit, ties to even. -/
def fixedUnits (places : Nat) (d : Dyadic) : Nat :=
  roundHalfEven (d.num * Nat.pow 10 places) d.den

def fixed (places : Nat) (x : Float) : String :=
  match doubleKind x with
  | .finite negative d _ =>
    String.ofList ((if negative then ['-'] else []) ++ pointed places (fixedUnits places d))
  | .infinite negative => if negative then "-inf" else "inf"
  | .notANumber => "NaN"

end LossRelay.Decimal
