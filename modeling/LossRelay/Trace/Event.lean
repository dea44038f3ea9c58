import LossRelay.Decimal.Fixed
import LossRelay.Policy.Verdict
import LossRelay.Span

/-!
# Trace events

What a loss policy reports about its decisions, and the line written for each event.
-/

namespace LossRelay

/-- An event in the life of a loss policy. -/
inductive TraceEvent where
  /-- The index rule decided on a packet. -/
  | packet (index : UInt64) (verdict : Verdict)
  /-- A silence of length `gap` ended a block; `packets` came before it, and `lastSymbol` is the
  position of the last one in its block. -/
  | blockFinished (packets lastSymbol : UInt64) (gap : Span)
  /-- The first block showed the last position of a block; `target` is the position that will be
  dropped, if a block of that size is what the rule is tuned for. -/
  | blockSizeLearned (lastSymbol : UInt64) (target : Option UInt64)
  /-- A position of a block was dropped. -/
  | symbolDropped (symbol block : UInt64)
  deriving DecidableEq

def counterText (n : UInt64) : String := Numeral.text n.toNat

/-- The line for an event; a silence is given in milliseconds with three places. -/
def TraceEvent.line : TraceEvent → String
  | .packet index verdict => "Packet " ++ counterText index ++ ": " ++ verdict.outcome
  | .blockFinished packets lastSymbol gap =>
    "Packets: " ++ counterText packets ++ " Symbol: " ++ counterText lastSymbol ++
      " --- time lapse --- (" ++ Decimal.fixed 3 gap.millis ++ " ms)"
  | .blockSizeLearned lastSymbol (some target) =>
    "Block size " ++ counterText lastSymbol ++ " matches calibration, dropping symbol " ++
      counterText target ++ " of every block"
  | .blockSizeLearned lastSymbol none =>
    "Block size " ++ counterText lastSymbol ++ " has no tuned drop rule, forwarding everything"
  | .symbolDropped symbol block =>
    "Packet " ++ counterText symbol ++ " of block " ++ counterText block ++ " DROPPED!"

end LossRelay
