/-!
# Doubles as exact numbers

A finite double is a sign and a number `significand · 2 ^ exponent`.  `Dyadic.ofFloat?` takes a
double apart by its bits; what is computed from a `Dyadic` is exact arithmetic on naturals.
-/

namespace LossRelay

/-- A number `significand · 2 ^ exponent`. -/
structure Dyadic where
  significand : Nat
  exponent : Int
  deriving DecidableEq, Inhabited

namespace Dyadic

def num (d : Dyadic) : Nat := d.significand * Nat.pow 2 d.exponent.toNat

def den (d : Dyadic) : Nat := Nat.pow 2 (-d.exponent).toNat

end Dyadic

/-- A double by its kind. -/
inductive DoubleKind where
  | finite (negative : Bool) (size : Dyadic) (lowestBinadeEdge : Bool)
  | infinite (negative : Bool)
  | notANumber
  deriving DecidableEq

/-- The kind of a double.  The last part of a finite one says whether the gap below it is half the
gap above it, which is so at a power of two above the smallest normal number. -/
def doubleKind (x : Float) : DoubleKind :=
  let bits : Nat := x.toBits.toNat
  let negative := decide (0x8000000000000000 ≤ bits)
  let biased : Nat := bits / 0x10000000000000 % 0x800
  let fraction : Nat := bits % 0x10000000000000
  if biased = 2047 then
    if fraction = 0 then .infinite negative else .notANumber
  else if biased = 0 then
    .finite negative ⟨fraction, -1074⟩ false
  else
    .finite negative ⟨0x10000000000000 + fraction, (biased : Int) - 1075⟩
      (fraction == 0 && biased != 1)

end LossRelay
