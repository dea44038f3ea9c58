import LossRelay.Proofs.Relay.Books
import LossRelay.Proofs.Relay.History

/-!
# Entries in any order

The operations on the books of a relay as data, mixed with what the reader of the trace does, so
that they can come in any order and with any arguments.  `Ledger.enterAll` makes a list of entries,
and `Ledger.collect` gathers what each of them yields in the books it finds.
-/

namespace LossRelay

/-- An operation on the books, or an act of the reader of the trace. -/
inductive Entry where
  | judge (size : UInt64) (time : Span)
  | forwarded (bytes : UInt64)
  | oversize (limit : UInt64)
  | failed (op : SocketOp)
  | flush
  | reading (act : Reading)
  deriving DecidableEq

namespace Ledger

variable {π α : Type} [LossPolicy π]

/-- The books after an entry. -/
def enter (l : Ledger π) : Entry → Ledger π
  | .judge size time => (l.judge size time).1
  | .forwarded bytes => l.forwarded bytes
  | .oversize limit => l.oversize limit
  | .failed op => l.failed op
  | .flush => l.flush
  | .reading act => { l with queue := (l.queue.react act).1 }

def enterAll (l : Ledger π) (es : List Entry) : Ledger π := es.foldl enter l

/-- What entries in order yield, if each yields something in the books it finds. -/
def collect (yield : Ledger π → Entry → List α) (l : Ledger π) : List Entry → List α
  | [] => []
  | e :: es => yield l e ++ collect yield (l.enter e) es

/-- The events that the policy reports. -/
def reports (l : Ledger π) : Entry → List TraceEvent
  | .judge size time => (l.decision size time).events
  | _ => []

theorem enterAll_cons (l : Ledger π) (e : Entry) (es : List Entry) :
    l.enterAll (e :: es) = (l.enter e).enterAll es := rfl

end Ledger

end LossRelay
