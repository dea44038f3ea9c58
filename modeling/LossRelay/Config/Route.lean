import LossRelay.Address.Basic
import LossRelay.Config.Error
import LossRelay.Text.Blank
import LossRelay.Text.Cut

/-!
# Routes

A route `localPort:remoteHost:remotePort` says where a relay listens, on all interfaces, and where
it sends to.  Blanks around its three parts do not count.
-/

namespace LossRelay

/-- What looking up a host gives: endpoints with the port asked for, the preferred one first. -/
abbrev Resolver := String → UInt16 → Except IoFault (List Endpoint)

/-- A local port, and the host and port of the destination. -/
structure Route where
  localPort : UInt16
  host : String
  remotePort : UInt16
  deriving DecidableEq

namespace Route

def readPort (cs : List Char) : Except ConfigError UInt16 :=
  match Numeral.read? 65535 (Text.trim cs) with
  | some n => .ok n.toUInt16
  | none => .error (.badPort (String.ofList cs))

/-- The route of a text.  The number of parts is checked first, then the local port, the remote
port, which must not be zero, and the host, which must not be blank. -/
def parse (text : String) : Except ConfigError Route :=
  match Text.cut ':' text.toList with
  | [l, h, p] => do
    let localPort ← readPort l
    let remotePort ← readPort p
    if remotePort = 0 then .error (.badPort (String.ofList p))
    else if Text.trim h = [] then .error (.notARoute text)
    else .ok ⟨localPort, String.ofList (Text.trim h), remotePort⟩
  | _ => .error (.notARoute text)

/-- The text of a route. -/
def text (r : Route) : String :=
  String.ofList (Numeral.digits r.localPort.toNat ++ ':' ::
    (r.host.toList ++ ':' :: Numeral.digits r.remotePort.toNat))

/-- Where the relay listens: the local port on all interfaces. -/
def listen (r : Route) : Endpoint := .v4 .unspecified r.localPort

/-- Where the relay sends to: the first endpoint of the host that the listening socket can reach,
which knows addresses of four octets only. -/
def destination (r : Route) (resolve : Resolver) : Except ConfigError Endpoint :=
  match resolve r.host r.remotePort with
  | .error _ => .error (.unknownHost r.host r.remotePort)
  | .ok found =>
    match found.find? Endpoint.isV4 with
    | some remote => .ok remote
    | none => .error (.unknownHost r.host r.remotePort)

end Route

end LossRelay
