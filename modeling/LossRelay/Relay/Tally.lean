import LossRelay.Decimal.Fixed
import LossRelay.Json.Typed

/-!
# The tally of a relay

What a relay counts over its life, its share of drops, and the line that sums it up.
-/

namespace LossRelay

/-- The counters of a relay. -/
structure Tally where
  received : UInt64 := 0
  forwarded : UInt64 := 0
  dropped : UInt64 := 0
  bytesReceived : UInt64 := 0
  bytesForwarded : UInt64 := 0
  sendFailures : UInt64 := 0
  receiveFailures : UInt64 := 0
  truncated : UInt64 := 0
  traceDiscarded : UInt64 := 0
  deriving DecidableEq

namespace Tally

def zero : Tally := {}

instance : Inhabited Tally := ⟨zero⟩

/-- The share of received datagrams that were dropped, in percent; zero if none was received. -/
def dropRate (t : Tally) : Float :=
  if t.received = 0 then 0.0 else t.dropped.toFloat / t.received.toFloat * 100.0

/-- The line that sums up a tally; the share of drops has one place. -/
def summary (t : Tally) : String :=
  "Relay: " ++ Numeral.text t.received.toNat ++ " recv, " ++ Numeral.text t.forwarded.toNat ++
    " fwd, " ++ Numeral.text t.dropped.toNat ++ " drop (" ++ Decimal.fixed 1 t.dropRate ++
    "% dropped), " ++ Numeral.text t.sendFailures.toNat ++ " send errors, " ++
    Numeral.text t.receiveFailures.toNat ++ " recv errors"

def counterField (name : String) (store : Tally → UInt64 → Tally) : Json.Field Tally :=
  ⟨name, fun t s => do
    let (n, r) ← Json.natural64 s
    .ok (store t n, r)⟩

/-- The tally as a document, which must give every counter. -/
def record : Json.Record Tally where
  title := "RelayStats"
  fields :=
    [counterField "datagrams_received" fun t n => { t with received := n },
      counterField "datagrams_forwarded" fun t n => { t with forwarded := n },
      counterField "datagrams_dropped" fun t n => { t with dropped := n },
      counterField "bytes_received" fun t n => { t with bytesReceived := n },
      counterField "bytes_forwarded" fun t n => { t with bytesForwarded := n },
      counterField "send_failures" fun t n => { t with sendFailures := n },
      counterField "recv_failures" fun t n => { t with receiveFailures := n },
      counterField "datagrams_truncated" fun t n => { t with truncated := n },
      counterField "trace_discarded" fun t n => { t with traceDiscarded := n }]
  start := zero
  complete := true

def ofDocument (text : String) : Except Json.Error Tally := Json.document record.read text

end Tally

end LossRelay
