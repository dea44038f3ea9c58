/-!
# Decimal numerals

`Numeral.digits` writes a natural number in base ten and `Numeral.value` reads a run of digits
back.  `Numeral.read?` is the rule for a bounded number typed by a person: one optional plus sign,
at least one ASCII digit, leading zeros allowed, and a value within the bound.
-/

namespace LossRelay.Numeral

/-- The base ten digits of a number, most significant first, without leading zeros. -/
def digits (n : Nat) : List Char := Nat.toDigits 10 n

def value (cs : List Char) : Nat := Nat.ofDigitChars 10 cs 0

def text (n : Nat) : String := String.ofList (digits n)

theorem text_eq (n : Nat) : text n = toString n := rfl

@[simp] theorem value_digits (n : Nat) : value (digits n) = n := Nat.ofDigitChars_ten_toDigits

theorem isDigit_of_mem_digits {n : Nat} {c : Char} (h : c ∈ digits n) : c.isDigit = true :=
  Nat.isDigit_of_mem_toDigits (by decide) (by decide) h

/-! ### Typed numbers -/

/-- The characters after one leading plus sign, if there is one. -/
def dropPlus : List Char → List Char
  | '+' :: cs => cs
  | cs => cs

/-- A bounded number as a person types it. -/
def read? (bound : Nat) (cs : List Char) : Option Nat :=
  let ds := dropPlus cs
  if ds ≠ [] ∧ ds.all Char.isDigit ∧ value ds ≤ bound then some (value ds) else none

def readWord? (cs : List Char) : Option UInt64 := (read? 18446744073709551615 cs).map UInt64.ofNat

/-! ### Padding -/

/-- The digits of `n` with zeros in front up to the given width. -/
def padded (width n : Nat) : List Char := List.leftpad width '0' (digits n)

end LossRelay.Numeral
