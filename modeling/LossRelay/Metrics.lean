import LossRelay.Address.Basic
import LossRelay.Text.Numeral

/-!
# Metrics

The measurements that a relay takes, the counters and the gauge that keep them, and the names and
descriptions under which they are published.  A metric that was never touched is not published.
-/

namespace LossRelay

/-- A socket operation that can fail. -/
inductive SocketOp where
  | receive | send
  deriving DecidableEq

def SocketOp.label : SocketOp → String
  | .receive => "recv"
  | .send => "send"

/-- One measurement. -/
inductive Measurement where
  | received (bytes : UInt64)
  | forwarded (bytes : UInt64)
  | dropped (policy : String)
  | failed (op : SocketOp)
  | blockFinished
  | blockSize (lastSymbol : UInt64)
  deriving DecidableEq

/-- The values of all metrics; drops are counted by the name of the policy. -/
structure Metrics where
  datagramsReceived : Option UInt64 := none
  bytesReceived : Option UInt64 := none
  datagramsForwarded : Option UInt64 := none
  bytesForwarded : Option UInt64 := none
  datagramsDropped : List (String × UInt64) := []
  receiveErrors : Option UInt64 := none
  sendErrors : Option UInt64 := none
  blocksFinished : Option UInt64 := none
  blockSize : Option UInt64 := none
  deriving DecidableEq

namespace Metrics

def untouched : Metrics := {}

instance : Inhabited Metrics := ⟨untouched⟩

def raise (counter : Option UInt64) (amount : UInt64) : Option UInt64 :=
  some (counter.getD 0 + amount)

/-- The counter of a name goes up by one. -/
def raiseNamed (name : String) : List (String × UInt64) → List (String × UInt64)
  | [] => [(name, 1)]
  | (other, n) :: rest =>
    if other = name then (other, n + 1) :: rest else (other, n) :: raiseNamed name rest

def record (m : Metrics) : Measurement → Metrics
  | .received bytes =>
    { m with
      datagramsReceived := raise m.datagramsReceived 1
      bytesReceived := raise m.bytesReceived bytes }
  | .forwarded bytes =>
    { m with
      datagramsForwarded := raise m.datagramsForwarded 1
      bytesForwarded := raise m.bytesForwarded bytes }
  | .dropped policy => { m with datagramsDropped := raiseNamed policy m.datagramsDropped }
  | .failed .receive => { m with receiveErrors := raise m.receiveErrors 1 }
  | .failed .send => { m with sendErrors := raise m.sendErrors 1 }
  | .blockFinished => { m with blocksFinished := raise m.blocksFinished 1 }
  | .blockSize n => { m with blockSize := some n }

def recordAll (m : Metrics) (ms : List Measurement) : Metrics := ms.foldl record m

/-! ### Publication -/

/-- The kinds of metrics. -/
inductive Kind where
  | counter | gauge
  deriving DecidableEq

def Kind.name : Kind → String
  | .counter => "counter"
  | .gauge => "gauge"

/-- A published value: counters are whole numbers and a gauge is a double. -/
inductive Value where
  | count (n : UInt64)
  | level (x : Float)

/-- A published metric: its name, its label if it has one, and its value. -/
structure Sample where
  name : String
  label : Option (String × String)
  value : Value

/-- The sample of a counter that was touched. -/
def countSample (name : String) (label : Option (String × String)) :
    Option UInt64 → List Sample
  | some n => [⟨name, label, .count n⟩]
  | none => []

def samples (m : Metrics) : List Sample :=
  countSample "fec_sieve_datagrams_received_total" none m.datagramsReceived ++
  countSample "fec_sieve_bytes_received_total" none m.bytesReceived ++
  countSample "fec_sieve_datagrams_forwarded_total" none m.datagramsForwarded ++
  countSample "fec_sieve_bytes_forwarded_total" none m.bytesForwarded ++
  (m.datagramsDropped.map fun (policy, n) =>
    ⟨"fec_sieve_datagrams_dropped_total", some ("policy", policy), .count n⟩) ++
  countSample "fec_sieve_io_errors_total" (some ("op", SocketOp.receive.label)) m.receiveErrors ++
  countSample "fec_sieve_io_errors_total" (some ("op", SocketOp.send.label)) m.sendErrors ++
  countSample "fec_sieve_blocks_detected_total" none m.blocksFinished ++
  (match m.blockSize with
    | some n => [⟨"fec_sieve_symbols_per_block", none, .level n.toFloat⟩]
    | none => [])

/-- What a published metric means. -/
structure Description where
  name : String
  kind : Kind
  meaning : String

def descriptions : List Description :=
  [⟨"fec_sieve_datagrams_received_total", .counter, "Datagrams read from the listening socket"⟩,
    ⟨"fec_sieve_datagrams_forwarded_total", .counter, "Datagrams written to the destination"⟩,
    ⟨"fec_sieve_datagrams_dropped_total", .counter, "Datagrams discarded by the loss policy"⟩,
    ⟨"fec_sieve_bytes_received_total", .counter, "Payload bytes received"⟩,
    ⟨"fec_sieve_bytes_forwarded_total", .counter, "Payload bytes forwarded"⟩,
    ⟨"fec_sieve_io_errors_total", .counter, "Failed socket operations, by operation"⟩,
    ⟨"fec_sieve_blocks_detected_total", .counter, "Block boundaries inferred from silence gaps"⟩,
    ⟨"fec_sieve_symbols_per_block", .gauge, "Block size learned from the first block"⟩]

/-- Where metrics are published unless another endpoint is asked for. -/
def usualEndpoint : Endpoint := .v4 .unspecified 9090

inductive Error where
  | setup (text : String)
  | alreadyRunning
  deriving DecidableEq

def Error.message : Error → String
  | .setup text => "Failed to setup metrics: " ++ text
  | .alreadyRunning => "Metrics already initialized"

end Metrics

end LossRelay
