import LossRelay.Decimal.Shortest

/-!
# Layouts of a decimal number

A `Layout` says when a number is written positionally and how it is written otherwise; `write`
lays out the shortest digits of a double accordingly.
-/

namespace LossRelay.Decimal

/-- How a decimal number is laid out: the exponents of the leading digit that are written
positionally, and the mark in front of an exponent that is not negative. -/
structure Layout where
  leastPositional : Int
  greatestPositional : Int
  positiveMark : List Char

/-- The digits of a number with the point placed after `whole` of them; zeros fill what is
missing on either side, and one zero follows a bare point. -/
def positional (ds : List Char) (whole : Int) : List Char :=
  if whole ≤ 0 then
    '0' :: '.' :: (List.replicate (-whole).toNat '0' ++ ds)
  else if (ds.length : Int) ≤ whole then
    ds ++ List.replicate (whole - ds.length).toNat '0' ++ ['.', '0']
  else
    ds.take whole.toNat ++ '.' :: ds.drop whole.toNat

/-- One digit before the point, the others behind it, and the exponent. -/
def scientific (layout : Layout) (ds : List Char) (exponent : Int) : List Char :=
  ds.take 1 ++ (if ds.length ≤ 1 then [] else '.' :: ds.drop 1) ++ 'e' ::
    ((if exponent < 0 then ['-'] else layout.positiveMark) ++ Numeral.digits exponent.natAbs)

def Layout.lay (layout : Layout) (d : Decimal) : List Char :=
  let ds := Numeral.digits d.units
  let lead := d.exponent + ds.length - 1
  if layout.leastPositional ≤ lead ∧ lead ≤ layout.greatestPositional then positional ds (lead + 1)
  else scientific layout ds lead

/-- A double in a layout; a zero keeps its sign. -/
def Layout.write (layout : Layout) (x : Float) : String :=
  match doubleKind x with
  | .finite negative d narrow =>
    String.ofList ((if negative then ['-'] else []) ++
      if d.significand = 0 then ['0', '.', '0'] else layout.lay (shortest d narrow))
  | .infinite negative => if negative then "-inf" else "inf"
  | .notANumber => "NaN"

end LossRelay.Decimal
