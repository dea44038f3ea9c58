import LossRelay.Address.Basic
import LossRelay.Io.Fault
import LossRelay.Relay.Tally
import LossRelay.Trace.Event

/-!
# Log entries

What a relay tells its operator, with the level and the text of each entry.  The lines of the trace
are entries of their own kind, so that they can be told from the rest.
-/

namespace LossRelay

/-- How urgent an entry is. -/
inductive LogLevel where
  | trace | debug | info | warn
  deriving DecidableEq

def LogLevel.name : LogLevel → String
  | .trace => "TRACE"
  | .debug => "DEBUG"
  | .info => "INFO"
  | .warn => "WARN"

/-- One entry of the log. -/
inductive LogEntry where
  | received (size : UInt64) (source : Endpoint)
  | droppedPacket (index size : UInt64)
  | oversizePacket (index limit : UInt64)
  | receiveFailed (streak : UInt32) (fault : IoFault)
  | shortSend (remote : Endpoint) (sent size : UInt64)
  | sendFailed (remote : Endpoint) (fault : IoFault)
  | traced (event : TraceEvent)
  | publishing (endpoint : Endpoint)
  | relaying (listen remote : Endpoint) (policy : String)
  | ready
  | summary (tally : Tally)
  | traceLost (events : UInt64)
  deriving DecidableEq

namespace LogEntry

def level : LogEntry → LogLevel
  | .received .. => .trace
  | .droppedPacket .. | .oversizePacket .. => .debug
  | .receiveFailed .. | .shortSend .. | .sendFailed .. => .warn
  | .traced _ | .publishing _ | .relaying .. | .ready | .summary _ | .traceLost _ => .info

/-- The entry is a line of the trace, which the trace queue writes; this has nothing to do with the
level of the same name. -/
def isTrace : LogEntry → Bool
  | .traced _ => true
  | _ => false

def message : LogEntry → String
  | .received size source => counterText size ++ " bytes from " ++ source.text
  | .droppedPacket index size =>
    "Dropped packet " ++ counterText index ++ " (" ++ counterText size ++ " bytes)"
  | .oversizePacket index limit =>
    "Packet " ++ counterText index ++ " longer than " ++ counterText limit ++
      " bytes, forwarding the first " ++ counterText limit
  | .receiveFailed streak fault =>
    "Receive failed (" ++ Numeral.text streak.toNat ++ " in a row): " ++ fault.message
  | .shortSend remote sent size =>
    "Short send to " ++ remote.text ++ ": " ++ counterText sent ++ " of " ++ counterText size ++
      " bytes"
  | .sendFailed remote fault => "Send to " ++ remote.text ++ " failed: " ++ fault.message
  | .traced event => event.line
  | .publishing endpoint => "Metrics exporter listening on " ++ endpoint.text
  | .relaying listen remote policy =>
    "Relaying " ++ listen.text ++ " -> " ++ remote.text ++ " with " ++ policy ++ " policy"
  | .ready => "All set."
  | .summary tally => tally.summary
  | .traceLost events => counterText events ++ " trace lines discarded"

end LogEntry

end LossRelay
