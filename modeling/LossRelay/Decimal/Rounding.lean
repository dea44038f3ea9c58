/-!
# Rounding a quotient

`roundHalfEven num den` is the natural number nearest to `num / den`; a quotient halfway between
two numbers goes to the even one.
-/

namespace LossRelay.Decimal

/-- The nearest natural number to a quotient, ties to even. -/
def roundHalfEven (num den : Nat) : Nat :=
  let low := num / den
  let rest := num % den
  if 2 * rest < den then low
  else if den < 2 * rest then low + 1
  else if low % 2 = 0 then low
  else low + 1

end LossRelay.Decimal
