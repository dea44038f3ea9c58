import LossRelay.Json.Reader

/-!
# String literals

`string` reads a literal after its opening quote and gives its characters; escaped code units
beyond the basic plane must come in pairs.  `skipString` only looks for the end of a literal: an
escape has to have the right shape, but the code units need not pair up.
-/

namespace LossRelay.Json

def hexDigit? (c : Char) : Option Nat :=
  if '0' ≤ c ∧ c ≤ '9' then some (c.toNat - 48)
  else if 'a' ≤ c ∧ c ≤ 'f' then some (c.toNat - 87)
  else if 'A' ≤ c ∧ c ≤ 'F' then some (c.toNat - 55)
  else none

/-- The number of octets of a text in its stored form. -/
def octets (s : List Char) : Nat := s.foldr (fun c n => c.utf8Size + n) 0

/-- Four hexadecimal digits.  A text with fewer than four octets left has ended too early,
whatever they are. -/
def codeUnit (s : List Char) : Except Error (Nat × List Char) :=
  match s with
  | a :: b :: c :: d :: r =>
    match hexDigit? a, hexDigit? b, hexDigit? c, hexDigit? d with
    | some a, some b, some c, some d => .ok (((a * 16 + b) * 16 + c) * 16 + d, r)
    | _, _, _, _ => malformed .badEscape
  | _ => if octets s < 4 then unfinished .string else malformed .badEscape

/-- A code unit that opens a pair. -/
def isLeading (n : Nat) : Bool := decide (0xD800 ≤ n) && decide (n ≤ 0xDBFF)

/-- A code unit that closes a pair. -/
def isTrailing (n : Nat) : Bool := decide (0xDC00 ≤ n) && decide (n ≤ 0xDFFF)

def pairChar (lead trail : Nat) : Char :=
  Char.ofNat (0x10000 + (lead - 0xD800) * 0x400 + (trail - 0xDC00))

/-- The trailing unit of a pair, written as an escape of its own. -/
def trailingUnit (s : List Char) : Except Error (Nat × List Char) :=
  match s with
  | [] => unfinished .string
  | '\\' :: [] => unfinished .string
  | '\\' :: 'u' :: r => do
    let (n, r) ← codeUnit r
    if isTrailing n then .ok (n, r) else malformed .loneSurrogate
  | _ :: _ => malformed .surrogateCut

/-- The character of an escape by code units, after its first letter. -/
def unitEscape (s : List Char) : Except Error (Char × List Char) := do
  let (n, r) ← codeUnit s
  if isTrailing n then malformed .loneSurrogate
  else if isLeading n then
    let (m, t) ← trailingUnit r
    .ok (pairChar n m, t)
  else .ok (Char.ofNat n, r)

def letterEscape? (c : Char) : Option Char :=
  if c = '"' then some '"'
  else if c = '\\' then some '\\'
  else if c = '/' then some '/'
  else if c = 'b' then some '\x08'
  else if c = 'f' then some '\x0c'
  else if c = 'n' then some '\n'
  else if c = 'r' then some '\r'
  else if c = 't' then some '\t'
  else none

/-- The character of an escape, after its backslash. -/
def escape (s : List Char) : Except Error (Char × List Char) :=
  match s with
  | [] => unfinished .string
  | 'u' :: r => unitEscape r
  | c :: r =>
    match letterEscape? c with
    | some d => .ok (d, r)
    | none => malformed .badEscape

/-- The characters up to the closing quote, at most `fuel` of them. -/
def stringChars (fuel : Nat) (s : List Char) : Except Error (List Char × List Char) :=
  match fuel with
  | 0 => unfinished .string
  | fuel + 1 =>
    match s with
    | [] => unfinished .string
    | c :: r =>
      if c = '"' then .ok ([], r)
      else if c = '\\' then do
        let (d, t) ← escape r
        let (ds, t) ← stringChars fuel t
        .ok (d :: ds, t)
      else if c.toNat < 0x20 then malformed .controlCharacter
      else do
        let (ds, t) ← stringChars fuel r
        .ok (c :: ds, t)

def string : Reader String := fun s => do
  let (cs, r) ← stringChars (s.length + 1) s
  .ok (String.ofList cs, r)

/-! ### Literals that are passed over -/

/-- The shape of an escape, after its backslash. -/
def skipEscape (s : List Char) : Except Error (List Char) :=
  match s with
  | [] => unfinished .string
  | 'u' :: r => do
    let (_, t) ← codeUnit r
    .ok t
  | c :: r => if (letterEscape? c).isSome then .ok r else malformed .badEscape

/-- The text after the closing quote, at most `fuel` characters ahead. -/
def skipChars (fuel : Nat) (s : List Char) : Except Error (List Char) :=
  match fuel with
  | 0 => unfinished .string
  | fuel + 1 =>
    match s with
    | [] => unfinished .string
    | c :: r =>
      if c = '"' then .ok r
      else if c = '\\' then do
        let t ← skipEscape r
        skipChars fuel t
      else if c.toNat < 0x20 then malformed .controlCharacter
      else skipChars fuel r

def skipString (s : List Char) : Except Error (List Char) := skipChars (s.length + 1) s

end LossRelay.Json
