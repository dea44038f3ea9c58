import LossRelay.Json.Reader

/-!
# Number literals

A literal without point and exponent is an integer if it fits a 64 bit word, unsigned or signed;
all others are doubles.  A double is computed from the leading digits that fit a 64 bit word: they
are converted, then multiplied or divided by a power of ten, each step rounded.  `skipNumber`
checks the shape of a literal and computes nothing.
-/

namespace LossRelay.Json

inductive Number where
  | natural (n : UInt64)
  | negative (n : Int)
  | real (x : Float)

def Number.found : Number → Found
  | .natural n => .integer n.toNat
  | .negative n => .integer n
  | .real x => .real x

def greatestWord : Nat := 18446744073709551615

/-- The digits that a significand still takes, and the digits that would overflow it. -/
def absorb (significand : Nat) : List Char → Nat × List Char
  | [] => (significand, [])
  | c :: cs =>
    let next := significand * 10 + (c.toNat - 48)
    if next ≤ greatestWord then absorb next cs else (significand, c :: cs)

/-! ### Scaling -/

def tenPower (e : Nat) : Float := Float.ofScientific 1 false e

/-- `x · 10 ^ e` in steps of at most `10 ^ 308`; `none` beyond the range of doubles. -/
def scale (fuel : Nat) (x : Float) (e : Int) : Option Float :=
  match fuel with
  | 0 => some x
  | fuel + 1 =>
    if e.natAbs ≤ 308 then
      if 0 ≤ e then
        let y := x * tenPower e.natAbs
        if y.isInf then none else some y
      else some (x / tenPower e.natAbs)
    else if x == 0.0 then some x
    else if 0 ≤ e then none
    else scale fuel (x / tenPower 308) (e + 308)

/-- The double of a significand and a power of ten, with its sign. -/
def realOf (negative : Bool) (significand : Nat) (e : Int) : Except Error Number :=
  match scale (e.natAbs / 308 + 2) significand.toUInt64.toFloat e with
  | some x => .ok (.real (if negative then -x else x))
  | none => malformed .numberRange

/-- The integer of a significand, or a double where no word holds it: minus zero, or below the
least signed word. -/
def integerOf (negative : Bool) (significand : Nat) : Number :=
  if negative then
    if significand = 0 ∨ 0x8000000000000000 < significand then .real (-significand.toUInt64.toFloat)
    else .negative (-(significand : Int))
  else .natural significand.toUInt64

/-! ### Parts of a literal -/

/-- The digits at the front of a text, and the rest. -/
def digitRun (s : List Char) : List Char × List Char :=
  (s.takeWhile Char.isDigit, s.dropWhile Char.isDigit)

/-- The digits before the point: one zero, or digits without a leading zero. -/
def wholePart (s : List Char) : Except Error (List Char × List Char) :=
  match s with
  | [] => unfinished .value
  | c :: r =>
    if c = '0' then
      match r with
      | [] => .ok (['0'], [])
      | d :: _ => if d.isDigit then malformed .badNumber else .ok (['0'], r)
    else if c.isDigit then .ok (digitRun (c :: r))
    else malformed .badNumber

/-- At least one digit, after a point or in an exponent. -/
def someDigits (s : List Char) : Except Error (List Char × List Char) :=
  match digitRun s with
  | ([], []) => unfinished .value
  | ([], _ :: _) => malformed .badNumber
  | (d :: ds, r) => .ok (d :: ds, r)

def fraction (s : List Char) : Except Error (Option (List Char) × List Char) :=
  match s with
  | '.' :: r => do
    let (ds, t) ← someDigits r
    .ok (some ds, t)
  | _ => .ok (none, s)

def exponentSign : List Char → Bool × List Char
  | '-' :: r => (true, r)
  | '+' :: r => (false, r)
  | s => (false, s)

def exponent (s : List Char) : Except Error (Option Int × List Char) :=
  match s with
  | [] => .ok (none, [])
  | c :: r =>
    if c = 'e' ∨ c = 'E' then do
      let (negative, t) := exponentSign r
      let (ds, t) ← someDigits t
      .ok (some (if negative then -(Numeral.value ds : Int) else Numeral.value ds), t)
    else .ok (none, s)

/-- The number of the parts of a literal.  Digits before the point that do not fit the significand
raise the power of ten; digits behind it that do not fit are dropped. -/
def assemble (negative : Bool) (whole : List Char) (frac : Option (List Char))
    (e : Option Int) : Except Error Number :=
  let (significand, beyond) := absorb 0 whole
  if frac = none ∧ e = none ∧ beyond = [] then .ok (integerOf negative significand)
  else
    let places := frac.getD []
    let (significand, dropped) := absorb significand places
    realOf negative significand
      (beyond.length - ((places.length : Int) - dropped.length) + e.getD 0)

def number : Reader Number := fun s => do
  let (negative, r) := match s with
    | '-' :: r => (true, r)
    | _ => (false, s)
  let (whole, r) ← wholePart r
  let (frac, r) ← fraction r
  let (e, r) ← exponent r
  let n ← assemble negative whole frac e
  .ok (n, r)

/-! ### Literals that are passed over -/

/-- At least one digit, in a literal that is passed over. -/
def skipDigits (s : List Char) : Except Error (List Char) :=
  match digitRun s with
  | ([], _) => malformed .badNumber
  | (_ :: _, r) => .ok r

def skipExponent (s : List Char) : Except Error (List Char) :=
  match s with
  | [] => .ok []
  | c :: r => if c = 'e' ∨ c = 'E' then skipDigits (exponentSign r).2 else .ok s

/-- The text after a number literal whose minus sign is gone. -/
def skipNumber (s : List Char) : Except Error (List Char) := do
  let r ← match s with
    | '0' :: r =>
      match r with
      | [] => .ok []
      | d :: _ => if d.isDigit then malformed .badNumber else .ok r
    | _ => skipDigits s
  let r ← match r with
    | '.' :: t => skipDigits t
    | _ => .ok r
  skipExponent r

end LossRelay.Json
