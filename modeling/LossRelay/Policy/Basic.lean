import LossRelay.Config.Error
import LossRelay.Metrics
import LossRelay.Trace.Event

/-!
# Loss policies

A loss policy sees every datagram once, in order of arrival, and decides its fate; it never sees
the payload.  With the verdict it gives its next state, the events to trace, and the measurements
it took.
-/

namespace LossRelay

/-- What a policy knows of a datagram: its number in the life of the relay, the time since the
relay was started, and its size in bytes. -/
structure Arrival where
  index : UInt64
  time : Span
  size : UInt64
  deriving DecidableEq

/-- A decision of a policy with states `π`. -/
structure Decision (π : Type) where
  verdict : Verdict
  next : π
  events : List TraceEvent
  measurements : List Measurement

/-- A loss policy with states `π`. -/
class LossPolicy (π : Type) where
  /-- The name in logs and metric labels. -/
  name : π → String
  /-- The parameters can be run with. -/
  validate : π → Except ConfigError Unit
  /-- The decision on the next arrival. -/
  decide : π → Arrival → Decision π

namespace LossPolicy

variable {π : Type} [LossPolicy π]

/-- The decisions on arrivals in order, and the state after them. -/
def decideAll (p : π) : List Arrival → List (Decision π) × π
  | [] => ([], p)
  | a :: as =>
    let d := LossPolicy.decide p a
    let (ds, last) := decideAll d.next as
    (d :: ds, last)

end LossPolicy

end LossRelay
