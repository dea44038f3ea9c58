import LossRelay.Config.Policy
import LossRelay.Policy.Basic

/-!
# The index policy

A policy without memory: the index alone decides.  Targets are dropped; up to the end of the
window everything else passes, and past it only the exempt indices do.
-/

namespace LossRelay

namespace IndexRule

/-- The fate of an index. -/
def verdict (rule : IndexRule) (index : UInt64) : Verdict :=
  if index ∈ rule.targets then .drop
  else if rule.windowEnd < index ∧ index ∉ rule.exempt then .drop
  else .forward

/-- An index is dropped if it is a target, or past the window and not exempt. -/
theorem verdict_eq_drop_iff {rule : IndexRule} {index : UInt64} :
    rule.verdict index = .drop ↔
      index ∈ rule.targets ∨ rule.windowEnd < index ∧ index ∉ rule.exempt := by
  unfold verdict
  split
  · rename_i h; simp [h]
  · rename_i h
    split
    · rename_i h'; simp [h']
    · rename_i h'; simp [h, h']

end IndexRule

structure IndexPolicy where
  rule : IndexRule
  deriving DecidableEq

instance : LossPolicy IndexPolicy where
  name _ := PolicyKind.byIndex.name
  validate _ := .ok ()
  decide p a :=
    let verdict := p.rule.verdict a.index
    ⟨verdict, p, [.packet a.index verdict], []⟩

end LossRelay
