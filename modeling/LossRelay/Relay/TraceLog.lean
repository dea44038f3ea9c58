import LossRelay.Relay.Log
import LossRelay.Trace.Queue

/-!
# Logging the trace

A reader that writes a log entry for every event it takes from the trace queue.
-/

namespace LossRelay.TraceQueue

/-- Offers events in order and tells of each whether it was queued. -/
def offer (q : TraceQueue) : List TraceEvent → TraceQueue × List Bool
  | [] => (q, [])
  | e :: es =>
    let (q, queued) := q.emit e
    let (q, rest) := q.offer es
    (q, queued :: rest)

/-- A batch of events is offered while the reader sleeps, and then the reader catches up. -/
def logBatch (q : TraceQueue) (batch : List TraceEvent) :
    TraceQueue × List Bool × List LogEntry :=
  let (q, queued) := q.offer batch
  let (q, events) := q.drain
  (q, queued, events.map .traced)

end LossRelay.TraceQueue
