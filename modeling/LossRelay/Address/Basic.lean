import LossRelay.Text.Numeral

/-!
# Addresses

Internet addresses of four octets or of eight groups, endpoints made of an address and a port, and
their text.  In an address of eight groups the first longest run of two or more zero groups is
written as a double colon, and an address that embeds one of four octets shows it in that form.
-/

namespace LossRelay

structure IPv4 where
  a : UInt8
  b : UInt8
  c : UInt8
  d : UInt8
  deriving DecidableEq, Inhabited

structure IPv6 where
  groups : List UInt16
  length_groups : groups.length = 8
  deriving DecidableEq

/-- An address and a port; an address of eight groups may carry a scope. -/
inductive Endpoint where
  | v4 (host : IPv4) (port : UInt16)
  | v6 (host : IPv6) (port : UInt16) (scope : UInt32)
  deriving DecidableEq

def Endpoint.isV4 : Endpoint → Bool
  | .v4 .. => true
  | .v6 .. => false

/-- The address that stands for all interfaces. -/
def IPv4.unspecified : IPv4 := ⟨0, 0, 0, 0⟩

def IPv4.loopback : IPv4 := ⟨127, 0, 0, 1⟩

instance : Inhabited Endpoint := ⟨.v4 .unspecified 0⟩

/-! ### Text -/

def IPv4.chars (ip : IPv4) : List Char :=
  Numeral.digits ip.a.toNat ++ '.' :: (Numeral.digits ip.b.toNat ++ '.' ::
    (Numeral.digits ip.c.toNat ++ '.' :: Numeral.digits ip.d.toNat))

def IPv4.text (ip : IPv4) : String := String.ofList ip.chars

namespace IPv6

/-- A group in lowercase hexadecimal digits. -/
def groupChars (g : UInt16) : List Char := Nat.toDigits 16 g.toNat

/-- Groups between colons. -/
def joined : List UInt16 → List Char
  | [] => []
  | [g] => groupChars g
  | g :: gs => groupChars g ++ ':' :: joined gs

def zerosAhead (gs : List UInt16) : Nat := (gs.takeWhile (· == 0)).length

/-- Where the first longest run of zero groups starts, and its length. -/
def longestZeros (gs : List UInt16) : Nat × Nat :=
  (List.range gs.length).foldl
    (fun best i =>
      let n := zerosAhead (gs.drop i)
      if best.2 < n then (i, n) else best)
    (0, 0)

/-- The address of four octets that the last two groups hold. -/
def lastOctets (g h : UInt16) : IPv4 :=
  ⟨(g / 256).toUInt8, (g % 256).toUInt8, (h / 256).toUInt8, (h % 256).toUInt8⟩

/-- The groups of an address, with the double colon or the embedded octets. -/
def chars (ip : IPv6) : List Char :=
  match ip.groups with
  | [0, 0, 0, 0, 0, 0xFFFF, g, h] =>
    [':', ':', 'f', 'f', 'f', 'f', ':'] ++ (lastOctets g h).chars
  | gs =>
    let (start, run) := longestZeros gs
    if 1 < run then joined (gs.take start) ++ ':' :: ':' :: joined (gs.drop (start + run))
    else joined gs

end IPv6

/-- The text of an endpoint; eight groups stand in brackets, with the scope unless it is zero. -/
def Endpoint.chars : Endpoint → List Char
  | .v4 host port => host.chars ++ ':' :: Numeral.digits port.toNat
  | .v6 host port scope =>
    '[' :: (host.chars ++
      ((if scope = 0 then [] else '%' :: Numeral.digits scope.toNat) ++
        ']' :: ':' :: Numeral.digits port.toNat))

def Endpoint.text (e : Endpoint) : String := String.ofList e.chars

end LossRelay
