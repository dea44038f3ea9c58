import LossRelay.Json.Typed

/-!
# Verdicts

What happens to one datagram: it passes or it is dropped.
-/

namespace LossRelay

/-- The fate of one datagram. -/
inductive Verdict where
  | forward | drop
  deriving DecidableEq, Inhabited

namespace Verdict

def isDrop : Verdict → Bool
  | .forward => false
  | .drop => true

/-- The word for a verdict in a trace line. -/
def outcome : Verdict → String
  | .forward => "PASSED"
  | .drop => "DROPPED"

def name : Verdict → String
  | .forward => "Forward"
  | .drop => "Drop"

def choice : Json.Choice Verdict := ⟨name .forward, .forward, name .drop, .drop⟩

def ofDocument (text : String) : Except Json.Error Verdict := Json.document choice.read text

end Verdict

end LossRelay
