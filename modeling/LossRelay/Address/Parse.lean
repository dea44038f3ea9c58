import LossRelay.Address.Basic

/-!
# Reading addresses

Octets have at most three digits and no leading zero.  Groups have at most four hexadecimal
digits; a double colon stands for one or more zero groups; four octets may take the place of the
last two groups.  Ports and scopes may have leading zeros.
-/

namespace LossRelay

/-- The value of a digit in a base up to sixteen. -/
def baseDigit? (base : Nat) (c : Char) : Option Nat :=
  let n :=
    if '0' ≤ c ∧ c ≤ '9' then c.toNat - 48
    else if 'a' ≤ c ∧ c ≤ 'f' then c.toNat - 87
    else if 'A' ≤ c ∧ c ≤ 'F' then c.toNat - 55
    else base
  if n < base then some n else none

/-- What a number inside an address may look like. -/
structure NumberForm where
  base : Nat
  mostDigits : Option Nat
  leadingZeros : Bool
  bound : Nat

/-- The four forms of numbers. -/
def octetForm : NumberForm := ⟨10, some 3, false, 255⟩

@[inherit_doc octetForm] def groupForm : NumberForm := ⟨16, some 4, true, 65535⟩

@[inherit_doc octetForm] def portForm : NumberForm := ⟨10, none, true, 65535⟩

@[inherit_doc octetForm] def scopeForm : NumberForm := ⟨10, none, true, 4294967295⟩

/-- A number at the front of a text: all the digits there, which must obey the form. -/
def NumberForm.read (form : NumberForm) (s : List Char) : Option (Nat × List Char) :=
  let ds := s.takeWhile fun c => (baseDigit? form.base c).isSome
  let n := ds.foldl (fun n c => n * form.base + (baseDigit? form.base c).getD 0) 0
  if ds.isEmpty then none
  else if form.mostDigits.any (· < ds.length) then none
  else if !form.leadingZeros && ds.head? == some '0' && 1 < ds.length then none
  else if form.bound < n then none
  else some (n, s.drop ds.length)

def expect (c : Char) : List Char → Option (List Char)
  | [] => none
  | d :: s => if d = c then some s else none

/-! ### Addresses -/

def IPv4.read (s : List Char) : Option (IPv4 × List Char) := do
  let (a, s) ← octetForm.read s
  let s ← expect '.' s
  let (b, s) ← octetForm.read s
  let s ← expect '.' s
  let (c, s) ← octetForm.read s
  let s ← expect '.' s
  let (d, s) ← octetForm.read s
  some (⟨a.toUInt8, b.toUInt8, c.toUInt8, d.toUInt8⟩, s)

namespace IPv6

/-- The colon in front of every group but the first. -/
def separator (first : Bool) (s : List Char) : Option (List Char) :=
  if first then some s else expect ':' s

/-- The two groups that hold four octets. -/
def groupsOfOctets (ip : IPv4) : List UInt16 :=
  [ip.a.toUInt16 * 256 + ip.b.toUInt16, ip.c.toUInt16 * 256 + ip.d.toUInt16]

/-- At most `room` groups at the front of a text, whether four octets ended them, and the rest.
Octets need room for two groups. -/
def readGroups (room : Nat) (first : Bool) (s : List Char) : List UInt16 × Bool × List Char :=
  match room with
  | 0 => ([], false, s)
  | room + 1 =>
    match if room = 0 then none else separator first s >>= IPv4.read with
    | some (ip, r) => (groupsOfOctets ip, true, r)
    | none =>
      match separator first s >>= groupForm.read with
      | some (g, r) =>
        let (gs, octets, r) := readGroups room false r
        (g.toUInt16 :: gs, octets, r)
      | none => ([], false, s)

/-- Groups on both sides of a double colon, with zeros between them. -/
def spread (front back : List UInt16) : List UInt16 :=
  front ++ List.replicate (8 - front.length - back.length) 0 ++ back

def ofGroups? (gs : List UInt16) : Option IPv6 :=
  if h : gs.length = 8 then some ⟨gs, h⟩ else none

def read (s : List Char) : Option (IPv6 × List Char) := do
  let (front, octets, r) := readGroups 8 true s
  if front.length = 8 then
    let ip ← ofGroups? front
    some (ip, r)
  else if octets then none
  else
    let r ← expect ':' r
    let r ← expect ':' r
    let (back, _, r) := readGroups (7 - front.length) true r
    let ip ← ofGroups? (spread front back)
    some (ip, r)

end IPv6

/-! ### Endpoints -/

def readPort (s : List Char) : Option UInt16 := do
  let s ← expect ':' s
  let (port, rest) ← portForm.read s
  if rest.isEmpty then some port.toUInt16 else none

def readScope (s : List Char) : UInt32 × List Char :=
  match expect '%' s >>= scopeForm.read with
  | some (scope, r) => (scope.toUInt32, r)
  | none => (0, s)

def Endpoint.parseV4? (s : List Char) : Option Endpoint := do
  let (ip, r) ← IPv4.read s
  let port ← readPort r
  some (.v4 ip port)

/-- An endpoint with an address of eight groups in brackets. -/
def Endpoint.parseV6? (s : List Char) : Option Endpoint := do
  let r ← expect '[' s
  let (ip, r) ← IPv6.read r
  let (scope, r) := readScope r
  let r ← expect ']' r
  let port ← readPort r
  some (.v6 ip port scope)

def Endpoint.parse? (s : List Char) : Option Endpoint :=
  (Endpoint.parseV4? s).orElse fun _ => Endpoint.parseV6? s

end LossRelay
