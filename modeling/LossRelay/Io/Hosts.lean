import LossRelay.Address.Parse
import LossRelay.Config.Route

/-!
# Numeric hosts

A host may be given as one to four numbers between points.  Every number but the last is an octet,
and the last one fills the octets that are left, so that `127.1` and `2130706433` both name
`127.0.0.1`.  A number is decimal, octal after a leading zero, or hexadecimal after `0x`.  Such hosts
are known without asking anybody.
-/

namespace LossRelay

/-- The value of a run of digits in a base, if there are any and all belong to it. -/
def baseValue? (base : Nat) (ds : List Char) : Option Nat :=
  if ds.isEmpty then none
  else ds.foldlM (fun n c => (baseDigit? base c).map fun d => n * base + d) 0

namespace IPv4

def partValue? : List Char → Option Nat
  | '0' :: c :: ds => if c = 'x' ∨ c = 'X' then baseValue? 16 ds else baseValue? 8 (c :: ds)
  | ds => baseValue? 10 ds

/-- The number that an address of `room` octets is, from the numbers it is made of. -/
def gather? : Nat → List Nat → Option Nat
  | 0, _ => none
  | _ + 1, [] => none
  | room + 1, [n] => if n < Nat.pow 256 (room + 1) then some n else none
  | room + 1, n :: ns =>
    if n < 256 then (gather? room ns).map fun rest => n * Nat.pow 256 room + rest else none

/-- The four octets of a number, the most significant first. -/
def ofNat (n : Nat) : IPv4 :=
  ⟨(n / 0x1000000).toUInt8, (n / 0x10000).toUInt8, (n / 0x100).toUInt8, n.toUInt8⟩

def ofHost? (s : List Char) : Option IPv4 := do
  let parts ← (Text.cut '.' s).mapM partValue?
  let n ← gather? 4 parts
  some (ofNat n)

example : ofHost? "127.1".toList = some .loopback := by decide +kernel

example : ofHost? "0x7f.0.01".toList = some .loopback := by decide +kernel

example : ofHost? "1.2.3.4.0".toList = none := by decide +kernel

end IPv4

/-- Knows numeric hosts and no others. -/
def Resolver.numeric : Resolver := fun host port =>
  match IPv4.ofHost? host.toList with
  | some ip => .ok [.v4 ip port]
  | none => .error (.described "Name or service not known")

end LossRelay
