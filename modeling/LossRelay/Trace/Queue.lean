import LossRelay.Trace.Event

/-!
# The trace queue

Trace events go through a queue of bounded length to a reader.  Offering an event never waits: an
event that finds the queue full is lost, and the first event that finds the reader gone disables
the queue for good.  Both losses are counted.
-/

namespace LossRelay

/-- The shared part of a queue: at most `capacity` events wait for a reader, who may have left. -/
structure Channel where
  capacity : UInt64
  waiting : List TraceEvent
  readerOpen : Bool
  deriving DecidableEq

/-- The sending side of a queue, if it is still enabled, and the number of events lost. -/
structure TraceQueue where
  channel : Option Channel
  discarded : UInt64
  deriving DecidableEq

namespace TraceQueue

/-- A queue that ignores every event. -/
def disabled : TraceQueue := ⟨none, 0⟩

/-- The greatest number of events that a queue can be opened for. -/
def greatestCapacity : UInt64 := 2305843009213693951

/-- A queue for the given number of events, but at least one.  It can be had only up to
`greatestCapacity` (`open?`), so what holds of it for greater numbers is about no queue that runs. -/
def bounded (capacity : UInt64) : TraceQueue :=
  ⟨some ⟨if capacity = 0 then 1 else capacity, [], true⟩, 0⟩

/-- A queue for the given number of events, unless the number is too great to open one. -/
def open? (capacity : UInt64) : Option TraceQueue :=
  if greatestCapacity < capacity then none else some (bounded capacity)

/-- The queue takes events: it was not disabled by a lost reader. -/
def isEnabled (q : TraceQueue) : Bool := q.channel.isSome

/-- Offers an event and tells whether it was queued. -/
def emit (q : TraceQueue) (e : TraceEvent) : TraceQueue × Bool :=
  match q.channel with
  | none => (q, false)
  | some c =>
    if !c.readerOpen then (⟨none, q.discarded + 1⟩, false)
    else if c.capacity.toNat ≤ c.waiting.length then (⟨some c, q.discarded + 1⟩, false)
    else (⟨some { c with waiting := c.waiting ++ [e] }, q.discarded⟩, true)

def emitAll (q : TraceQueue) (es : List TraceEvent) : TraceQueue :=
  es.foldl (fun q e => (q.emit e).1) q

/-! ### The reader -/

/-- The events that wait, oldest first. -/
def waiting (q : TraceQueue) : List TraceEvent :=
  match q.channel with
  | some c => if c.readerOpen then c.waiting else []
  | none => []

/-- The reader takes at most `most` events. -/
def take (q : TraceQueue) (most : Nat) : TraceQueue × List TraceEvent :=
  match q.channel with
  | some c =>
    if c.readerOpen then
      (⟨some { c with waiting := c.waiting.drop most }, q.discarded⟩, c.waiting.take most)
    else (q, [])
  | none => (q, [])

def drain (q : TraceQueue) : TraceQueue × List TraceEvent := q.take q.waiting.length

/-- The reader leaves; what waits for it is gone. -/
def close (q : TraceQueue) : TraceQueue :=
  { q with channel := q.channel.map fun c => { c with waiting := [], readerOpen := false } }

end TraceQueue

end LossRelay
