import LossRelay.Address.Parse
import LossRelay.Config.Error
import LossRelay.Json.Typed

/-!
# Relay settings

Where a relay listens and sends to, and its three limits.  A document must give every field.
-/

namespace LossRelay

/-- Where a relay listens, where it sends to, the longest payload it passes on, the number of trace
events that may wait, and the number of receive errors in a row that make it give up. -/
structure RelaySettings where
  listen : Endpoint
  remote : Endpoint
  payloadLimit : UInt64
  traceCapacity : UInt64
  errorLimit : UInt32
  deriving DecidableEq

namespace RelaySettings

/-- The usual limits between two endpoints. -/
def between (listen remote : Endpoint) : RelaySettings := ⟨listen, remote, 32768, 1024, 64⟩

instance : Inhabited RelaySettings := ⟨between default default⟩

/-- The settings can run: the payload limit is positive and fits 16 bits, and the two other limits
are positive. -/
def validate (settings : RelaySettings) : Except ConfigError Unit :=
  if settings.payloadLimit = 0 ∨ 65535 < settings.payloadLimit then
    .error (.unfit (.bufferSize settings.payloadLimit))
  else if settings.traceCapacity = 0 then .error (.unfit .noTraceCapacity)
  else if settings.errorLimit = 0 then .error (.unfit .noErrorLimit)
  else .ok ()

def readEndpoint : Json.Reader Endpoint := fun s => do
  let (text, r) ← Json.text "socket address" s
  match Endpoint.parse? text.toList with
  | some e => .ok (e, r)
  | none => Json.mismatch .notAnAddress

def record : Json.Record RelaySettings where
  title := "RelayConfig"
  fields :=
    [⟨"bind_addr", fun settings s => do
        let (listen, r) ← readEndpoint s
        .ok ({ settings with listen }, r)⟩,
      ⟨"remote_addr", fun settings s => do
        let (remote, r) ← readEndpoint s
        .ok ({ settings with remote }, r)⟩,
      ⟨"recv_buffer_size", fun settings s => do
        let (n, r) ← Json.size s
        .ok ({ settings with payloadLimit := n }, r)⟩,
      ⟨"trace_capacity", fun settings s => do
        let (n, r) ← Json.size s
        .ok ({ settings with traceCapacity := n }, r)⟩,
      ⟨"max_consecutive_io_errors", fun settings s => do
        let (n, r) ← Json.natural32 s
        .ok ({ settings with errorLimit := n }, r)⟩]
  start := default
  complete := true

/-- The settings of a document, which need not be fit to run. -/
def ofDocument (text : String) : Except Json.Error RelaySettings := Json.document record.read text

end RelaySettings

end LossRelay
