import LossRelay.Decimal.Dyadic
import LossRelay.Text.Numeral

/-!
# The fewest digits that read back

A double owns an interval of numbers: those nearer to it than to any other double, with the two
ends when its significand is even.  `shortest` looks at grids of one, two, … seventeen significant
digits; the first grid with a point in the interval gives the digits, and of two such points the
nearer one, or the even one of two equally near.
-/

namespace LossRelay

/-- A decimal number `units · 10 ^ exponent`. -/
structure Decimal where
  units : Nat
  exponent : Int
  deriving DecidableEq, Inhabited

namespace Decimal

def num (d : Decimal) : Nat := d.units * Nat.pow 10 d.exponent.toNat

def den (d : Decimal) : Nat := Nat.pow 10 (-d.exponent).toNat

/-- The interval of a positive double: four times the value is `4 · significand · 2 ^ exponent`,
and the ends lie two quarters above and two quarters, or one, below. -/
structure Interval where
  value : Dyadic
  narrowBelow : Bool

namespace Interval

def upper (i : Interval) : Dyadic := ⟨4 * i.value.significand + 2, i.value.exponent - 2⟩

def lower (i : Interval) : Dyadic :=
  ⟨4 * i.value.significand - (if i.narrowBelow then 1 else 2), i.value.exponent - 2⟩

def holds (i : Interval) (d : Decimal) : Bool :=
  let low := i.lower.num * d.den
  let high := i.upper.num * d.den
  let here := d.num
  if i.value.significand % 2 = 0 then
    decide (low ≤ here * i.lower.den) && decide (here * i.upper.den ≤ high)
  else
    decide (low < here * i.lower.den) && decide (here * i.upper.den < high)

end Interval

/-- The power of ten of the leading digit of `num / den`, found by shifting a fraction below one
to the left at most `fuel` times. -/
def leadingExponent (fuel num den : Nat) : Int :=
  match fuel with
  | 0 => 0
  | fuel + 1 =>
    if den ≤ num then ((Numeral.digits (num / den)).length : Int) - 1
    else leadingExponent fuel (num * 10) den - 1

/-- The point of the grid of multiples of `10 ^ exponent` that stands for the value of the
interval, if one of the value's two neighbours on that grid lies inside. -/
def Interval.onGrid (i : Interval) (exponent : Int) : Option Decimal :=
  let num := i.value.num * Nat.pow 10 (-exponent).toNat
  let den := i.value.den * Nat.pow 10 exponent.toNat
  let below : Decimal := ⟨num / den, exponent⟩
  let above : Decimal := ⟨num / den + 1, exponent⟩
  match i.holds below, i.holds above with
  | false, false => none
  | true, false => some below
  | false, true => some above
  | true, true =>
    let rest := 2 * (num % den)
    if rest < den then some below
    else if den < rest then some above
    else if num / den % 2 = 0 then some below
    else some above

/-- The first grid with a hit, from `digits` significant digits on, `fuel` grids at most. -/
def Interval.search (i : Interval) (lead : Int) (fuel digits : Nat) : Option Decimal :=
  match fuel with
  | 0 => none
  | fuel + 1 =>
    match i.onGrid (lead + 1 - digits) with
    | some d => some d
    | none => i.search lead fuel (digits + 1)

/-- Zeros at the end of the digits move into the exponent. -/
def trimmed (fuel : Nat) (d : Decimal) : Decimal :=
  match fuel with
  | 0 => d
  | fuel + 1 =>
    if d.units ≠ 0 ∧ d.units % 10 = 0 then trimmed fuel ⟨d.units / 10, d.exponent + 1⟩ else d

/-- The shortest decimal number that reads back as the given positive double. -/
def shortest (value : Dyadic) (narrowBelow : Bool) : Decimal :=
  let i : Interval := ⟨value, narrowBelow⟩
  match i.search (leadingExponent 400 value.num value.den) 17 1 with
  | some d => trimmed 20 d
  | none => ⟨0, 0⟩

end Decimal

end LossRelay
