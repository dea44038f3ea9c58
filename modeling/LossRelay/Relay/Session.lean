import LossRelay.Config.Relay
import LossRelay.Relay.Error
import LossRelay.Relay.Ledger

/-!
# The relay loop

A relay receives, decides and sends, one datagram after the other.  What the socket will deliver is
a list, the script of a run, and so is what it will answer to sends; the list of attempts is what
the relay did.  A run ends when the script is used up, which stands for the order to stop, or when
too many receives in a row have failed.
-/

namespace LossRelay

/-- What one receive gives: a datagram with its payload, its time of arrival and the endpoint it
came from, or a failure. -/
inductive Delivery where
  | datagram (payload : List UInt8) (time : Span) (source : Endpoint)
  | fault (fault : IoFault)
  deriving DecidableEq

/-- What one send answers: all bytes were sent, so many were, or it failed. -/
inductive SendOutcome where
  | whole
  | counted (bytes : UInt64)
  | fault (fault : IoFault)
  deriving DecidableEq

/-- A send that was tried. -/
structure Attempt where
  remote : Endpoint
  payload : List UInt8
  deriving DecidableEq

/-- A relay: its settings and its books. -/
structure Relay (π : Type) where
  settings : RelaySettings
  ledger : Ledger π

/-- What a run changes: the books, the receive buffer, the number of failed receives in a row, the
answers to sends that are left, and the attempts so far. -/
structure Session (π : Type) where
  ledger : Ledger π
  buffer : List UInt8
  streak : UInt32
  outcomes : List SendOutcome
  attempts : List Attempt

namespace Session

variable {π : Type}

/-- The buffer after a receive: the bytes of the datagram that fit overwrite the first ones. -/
def overwrite (buffer payload : List UInt8) : List UInt8 :=
  let fitting := payload.take buffer.length
  fitting ++ buffer.drop fitting.length

/-- The number of bytes that a receive reports. -/
def reported (buffer payload : List UInt8) : UInt64 :=
  UInt64.ofNat (min payload.length buffer.length)

/-- The answer to the next send; a socket without further answers sends everything. -/
def nextOutcome : List SendOutcome → SendOutcome × List SendOutcome
  | [] => (.whole, [])
  | o :: os => (o, os)

/-- A received datagram is put into the buffer, logged with its source, and judged; the result is
the payload to send, if it is to be sent.  The buffer has one byte more than the payload limit, so
that a datagram that is too long can be told from one that just fits. -/
def accept [LossPolicy π] (settings : RelaySettings) (s : Session π) (payload : List UInt8)
    (time : Span) (source : Endpoint) : Session π × Option (List UInt8) :=
  let length := reported s.buffer payload
  let buffer := overwrite s.buffer payload
  let limit := settings.payloadLimit
  let ledger := s.ledger.note (.received length source)
  let ledger := if limit < length then ledger.oversize limit else ledger
  let size := if limit < length then limit else length
  let (ledger, verdict) := ledger.judge size time
  ({ s with ledger, buffer, streak := 0 },
    match verdict with
    | .forward => some (buffer.take size.toNat)
    | .drop => none)

/-- The answer to the send of a payload is entered in the books. -/
def conclude (s : Session π) (remote : Endpoint) (payload : List UInt8) (outcome : SendOutcome) :
    Session π :=
  let size := UInt64.ofNat payload.length
  let s := { s with attempts := s.attempts ++ [Attempt.mk remote payload] }
  match outcome with
  | .whole => { s with ledger := s.ledger.forwarded size }
  | .counted bytes =>
    let ledger := if bytes = size then s.ledger else s.ledger.note (.shortSend remote bytes size)
    { s with ledger := ledger.forwarded bytes }
  | .fault fault => { s with ledger := (s.ledger.failed .send).note (.sendFailed remote fault) }

def flush (s : Session π) : Session π := { s with ledger := s.ledger.flush }

/-- Sends a payload; the socket gives the next of its answers. -/
def send (s : Session π) (remote : Endpoint) (payload : List UInt8) : Session π :=
  let (outcome, outcomes) := nextOutcome s.outcomes
  { s with outcomes }.conclude remote payload outcome

/-- A received datagram is judged, sent if the verdict says so, and traced. -/
def receive [LossPolicy π] (settings : RelaySettings) (s : Session π) (payload : List UInt8)
    (time : Span) (source : Endpoint) : Session π :=
  match s.accept settings payload time source with
  | (s, some bytes) => (s.send settings.remote bytes).flush
  | (s, none) => s.flush

/-- A receive failed. -/
def receiveFailed (s : Session π) (fault : IoFault) : Session π :=
  { s with
    streak := s.streak + 1
    ledger := (s.ledger.failed .receive).note (.receiveFailed (s.streak + 1) fault) }

/-- The loop over a script: the session at its end, what is unread, and why it ended. -/
def run [LossPolicy π] (settings : RelaySettings) (s : Session π) :
    List Delivery → Session π × List Delivery × Except RelayError Unit
  | [] => (s, [], .ok ())
  | .datagram payload time source :: rest =>
    run settings (s.receive settings payload time source) rest
  | .fault fault :: rest =>
    let s := s.receiveFailed fault
    if settings.errorLimit ≤ s.streak then (s, rest, .error (.socketUnusable s.streak fault))
    else run settings s rest

end Session

/-- What came of a run: the relay, the attempts, what is unread, the answers that are left, and
the final tally or the reason for giving up. -/
structure Run (π : Type) where
  relay : Relay π
  attempts : List Attempt
  unread : List Delivery
  outcomes : List SendOutcome
  result : Except RelayError Tally

namespace Relay

variable {π : Type}

/-- A relay over a socket that is open already: the settings and the policy must be fit to run. -/
def onSocket [LossPolicy π] (settings : RelaySettings) (policy : π) (queue : TraceQueue) :
    Except RelayError (Relay π) :=
  match settings.validate with
  | .error e => .error (.config e)
  | .ok () =>
    match LossPolicy.validate policy with
    | .error e => .error (.config e)
    | .ok () => .ok ⟨settings, .fresh policy queue⟩

/-- A relay that opens its socket itself, which may fail. -/
def bind [LossPolicy π] (settings : RelaySettings) (policy : π) (queue : TraceQueue)
    (opened : Except IoFault Unit) : Except RelayError (Relay π) :=
  match onSocket settings policy queue with
  | .error e => .error e
  | .ok relay =>
    match opened with
    | .error fault => .error (.bind settings.listen fault)
    | .ok () => .ok relay

def stats (r : Relay π) : Tally := r.ledger.stats

/-- The session at the start of a run: the buffer is cleared and no receive has failed. -/
def session (r : Relay π) (outcomes : List SendOutcome) : Session π where
  ledger := r.ledger
  buffer := List.replicate (r.settings.payloadLimit.toNat + 1) 0
  streak := 0
  outcomes
  attempts := []

/-- Runs the relay over a script. -/
def run [LossPolicy π] (r : Relay π) (script : List Delivery) (outcomes : List SendOutcome) :
    Run π :=
  let (s, unread, ending) := (r.session outcomes).run r.settings script
  { relay := { r with ledger := s.ledger }
    attempts := s.attempts
    unread
    outcomes := s.outcomes
    result := ending.map fun _ => s.ledger.stats }

end Relay

end LossRelay
