import LossRelay.Config.Policy
import LossRelay.Policy.Basic

/-!
# The block policy

The sender emits a block as a burst and is silent while it prepares the next one, so a silence
longer than the rule's ends a block.  The last position of the first block is learned once and
kept.  If it is the size that the rule is tuned for, one position of every later block is dropped.
-/

namespace LossRelay

/-- What the policy has seen of the stream: the position of the latest packet in its block, the
number of blocks finished, the last position of the first block once it is finished, the time of
the latest packet, and the number of packets. -/
structure BlockState where
  symbol : UInt64
  block : UInt64
  learned : Option UInt64
  latest : Option Span
  packets : UInt64
  deriving DecidableEq

/-- The end of a block: the packets before it, the last position, and the silence. -/
structure Boundary where
  packetsBefore : UInt64
  lastSymbol : UInt64
  gap : Span
  deriving DecidableEq

namespace BlockState

/-- Nothing has been seen. -/
def initial : BlockState := ⟨0, 0, none, none, 0⟩

instance : Inhabited BlockState := ⟨initial⟩

/-- The silence before a packet; none before the first one. -/
def gapBefore (s : BlockState) (now : Span) : Span :=
  match s.latest with
  | some latest => now.since latest
  | none => .zero

/-- Counts a packet.  A silence before it that is longer than `silence` ends the block, and the
packet is the first of the next one. -/
def observe (s : BlockState) (now silence : Span) : BlockState × Option Boundary :=
  let packets := s.packets + 1
  let gap := s.gapBefore now
  if 1 < packets ∧ silence < gap then
    ({ s with packets, symbol := 0, block := s.block + 1 },
      some ⟨packets - 1, s.symbol, gap⟩)
  else if 1 < packets then ({ s with packets, symbol := s.symbol + 1 }, none)
  else ({ s with packets }, none)

end BlockState

/-- A policy that runs the block rule. -/
structure BlockPolicy where
  rule : BlockRule
  state : BlockState := .initial
  deriving DecidableEq

namespace BlockPolicy

/-- The size of a block is the one that the rule is tuned for. -/
def isTuned (rule : BlockRule) (lastSymbol : UInt64) : Bool := lastSymbol == rule.tunedSize

/-- The state after the end of a block, with the events and measurements that it causes: the first
end of a block fixes the size. -/
def learn (rule : BlockRule) (s : BlockState) (b : Boundary) :
    BlockState × List TraceEvent × List Measurement :=
  let finished : TraceEvent := .blockFinished b.packetsBefore b.lastSymbol b.gap
  match s.learned with
  | some _ => (s, [finished], [.blockFinished])
  | none =>
    ({ s with learned := some b.lastSymbol },
      [finished, .blockSizeLearned b.lastSymbol
        (if isTuned rule b.lastSymbol then some rule.offset else none)],
      [.blockFinished, .blockSize b.lastSymbol])

/-- The latest packet is the one that the rule drops. -/
def isTarget (rule : BlockRule) (s : BlockState) : Bool :=
  match s.learned with
  | some lastSymbol => isTuned rule lastSymbol && s.symbol == rule.offset
  | none => false

def decide (p : BlockPolicy) (a : Arrival) : Decision BlockPolicy :=
  let (seen, boundary) := p.state.observe a.time p.rule.silence
  let (s, events, measurements) :=
    match boundary with
    | some b => learn p.rule seen b
    | none => (seen, [], [])
  let next : BlockPolicy := { p with state := { s with latest := some a.time } }
  if isTarget p.rule s then
    ⟨.drop, next, events ++ [.symbolDropped s.symbol s.block], measurements⟩
  else ⟨.forward, next, events, measurements⟩

end BlockPolicy

instance : LossPolicy BlockPolicy where
  name _ := PolicyKind.byBlock.name
  validate p := p.rule.validate
  decide := BlockPolicy.decide

end LossRelay
