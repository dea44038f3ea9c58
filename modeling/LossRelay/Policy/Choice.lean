import LossRelay.Policy.Block
import LossRelay.Policy.Index

/-!
# The policy of the settings

A relay runs one of the two policies, as its settings say.
-/

namespace LossRelay

inductive AnyPolicy where
  | index (policy : IndexPolicy)
  | block (policy : BlockPolicy)
  deriving DecidableEq

namespace AnyPolicy

/-- A decision of one policy as a decision of either. -/
def lift {π : Type} (wrap : π → AnyPolicy) (d : Decision π) : Decision AnyPolicy :=
  ⟨d.verdict, wrap d.next, d.events, d.measurements⟩

instance : LossPolicy AnyPolicy where
  name
    | .index p => LossPolicy.name p
    | .block p => LossPolicy.name p
  validate
    | .index p => LossPolicy.validate p
    | .block p => LossPolicy.validate p
  decide
    | .index p, a => lift .index (LossPolicy.decide p a)
    | .block p, a => lift .block (LossPolicy.decide p a)

/-- What the block policy has seen, if it runs. -/
def blockState? : AnyPolicy → Option BlockState
  | .index _ => none
  | .block p => some p.state

end AnyPolicy

/-- The policy that the settings select, before it has seen anything. -/
def PolicySettings.policy (settings : PolicySettings) : AnyPolicy :=
  match settings.kind with
  | .byIndex => .index ⟨settings.indexRule⟩
  | .byBlock => .block ⟨settings.blockRule, .initial⟩

end LossRelay
