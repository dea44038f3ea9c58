import LossRelay.Policy.Basic
import LossRelay.Relay.Log
import LossRelay.Trace.Queue

/-!
# The ledger of a relay

Everything a relay keeps about its datagrams, without any socket: the policy, the counters, the
metrics, the log, the trace events that have not been flushed, and the trace queue.  The owner of
the socket reports one datagram at a time: `judge`, then `forwarded` or `failed` for the send, then
`flush`.
-/

namespace LossRelay

/-- The books of a relay whose policy has states `π`. -/
structure Ledger (π : Type) where
  policy : π
  queue : TraceQueue
  tally : Tally := .zero
  pending : List TraceEvent := []
  metrics : Metrics := .untouched
  log : List LogEntry := []

namespace Ledger

variable {π : Type}

def fresh (policy : π) (queue : TraceQueue) : Ledger π := { policy, queue }

def note (l : Ledger π) (entry : LogEntry) : Ledger π := { l with log := l.log ++ [entry] }

def countArrival (l : Ledger π) (size : UInt64) : Ledger π :=
  { l with
    tally := { l.tally with
      received := l.tally.received + 1
      bytesReceived := l.tally.bytesReceived + size }
    metrics := l.metrics.record (.received size) }

/-- The outcome of a decision. -/
def adopt (l : Ledger π) (d : Decision π) : Ledger π :=
  { l with
    policy := d.next
    pending := l.pending ++ d.events
    metrics := l.metrics.recordAll d.measurements }

def countDrop (l : Ledger π) (policy : String) (index size : UInt64) : Ledger π :=
  { l with
    tally := { l.tally with dropped := l.tally.dropped + 1 }
    metrics := l.metrics.record (.dropped policy)
    log := l.log ++ [.droppedPacket index size] }

/-- Counts an arrival and gives the verdict on it.  The number of the datagram is the number of
those received before it. -/
def judge [LossPolicy π] (l : Ledger π) (size : UInt64) (time : Span) : Ledger π × Verdict :=
  let index := l.tally.received
  let d := LossPolicy.decide l.policy ⟨index, time, size⟩
  let l := (l.countArrival size).adopt d
  match d.verdict with
  | .forward => (l, .forward)
  | .drop => (l.countDrop (LossPolicy.name l.policy) index size, .drop)

def forwarded (l : Ledger π) (bytes : UInt64) : Ledger π :=
  { l with
    tally := { l.tally with
      forwarded := l.tally.forwarded + 1
      bytesForwarded := l.tally.bytesForwarded + bytes }
    metrics := l.metrics.record (.forwarded bytes) }

/-- The datagram that is about to be judged is longer than the limit. -/
def oversize (l : Ledger π) (limit : UInt64) : Ledger π :=
  { l with
    tally := { l.tally with truncated := l.tally.truncated + 1 }
    log := l.log ++ [.oversizePacket l.tally.received limit] }

/-- A socket operation has failed. -/
def failed (l : Ledger π) : SocketOp → Ledger π
  | .receive =>
    { l with
      tally := { l.tally with receiveFailures := l.tally.receiveFailures + 1 }
      metrics := l.metrics.record (.failed .receive) }
  | .send =>
    { l with
      tally := { l.tally with sendFailures := l.tally.sendFailures + 1 }
      metrics := l.metrics.record (.failed .send) }

def flush (l : Ledger π) : Ledger π :=
  { l with pending := [], queue := l.queue.emitAll l.pending }

/-- The tally, with the events that the queue has lost. -/
def stats (l : Ledger π) : Tally := { l.tally with traceDiscarded := l.queue.discarded }

end Ledger

end LossRelay
