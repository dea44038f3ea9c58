import LossRelay.Config.Policy
import LossRelay.Proofs.Json.Conversion

/-!
# What a policy document gives

A policy document may leave out any field.  `GivenSettings` are the fields that a document has
given, read with the same names by the same readers, and `GivenSettings.filledFrom` fills in the
others.  For every text the settings are the reference settings with the given fields replaced, at
all levels (`document_eq_given`).
-/

namespace LossRelay

open Json

/-! ### The index rule -/

/-- Parameters of the index rule that have been given. -/
@[ext]
structure GivenIndexRule where
  windowEnd : Option UInt64 := none
  targets : Option IndexSet := none
  exempt : Option IndexSet := none
  deriving DecidableEq

namespace GivenIndexRule

/-- The parameters, where those that have not been given are those of `base`. -/
def filledFrom (given : GivenIndexRule) (base : IndexRule) : IndexRule where
  windowEnd := given.windowEnd.getD base.windowEnd
  targets := given.targets.getD base.targets
  exempt := given.exempt.getD base.exempt

def record : Record GivenIndexRule where
  title := IndexRule.record.title
  fields :=
    [⟨"kappa", fun given s => do
        let (n, r) ← natural64 s
        .ok ({ given with windowEnd := some n }, r)⟩,
      ⟨"target_source", fun given s => do
        let (xs, r) ← IndexRule.readIndices s
        .ok ({ given with targets := some xs }, r)⟩,
      ⟨"payload_repair", fun given s => do
        let (xs, r) ← IndexRule.readIndices s
        .ok ({ given with exempt := some xs }, r)⟩]
  start := {}
  complete := false

theorem converts : Record.Converts (·.filledFrom .reference) record IndexRule.record where
  title := rfl
  complete := rfl
  start := rfl
  fields := by
    refine .cons ⟨rfl, fun given s => ?_⟩ (.cons ⟨rfl, fun given s => ?_⟩
      (.cons ⟨rfl, fun given s => ?_⟩ .nil))
    all_goals exact bind_map fun _ => rfl

end GivenIndexRule

/-! ### The block rule -/

/-- Parameters of the block rule that have been given. -/
@[ext]
structure GivenBlockRule where
  silenceMs : Option UInt64 := none
  tunedSize : Option UInt64 := none
  offset : Option UInt64 := none
  deriving DecidableEq

namespace GivenBlockRule

@[inherit_doc GivenIndexRule.filledFrom]
def filledFrom (given : GivenBlockRule) (base : BlockRule) : BlockRule where
  silenceMs := given.silenceMs.getD base.silenceMs
  tunedSize := given.tunedSize.getD base.tunedSize
  offset := given.offset.getD base.offset

def record : Record GivenBlockRule where
  title := BlockRule.record.title
  fields :=
    [⟨"encoding_overhead_ms", fun given s => do
        let (n, r) ← natural64 s
        .ok ({ given with silenceMs := some n }, r)⟩,
      ⟨"calibrated_block_size", fun given s => do
        let (n, r) ← natural64 s
        .ok ({ given with tunedSize := some n }, r)⟩,
      ⟨"target_offset", fun given s => do
        let (n, r) ← natural64 s
        .ok ({ given with offset := some n }, r)⟩]
  start := {}
  complete := false

theorem converts : Record.Converts (·.filledFrom .reference) record BlockRule.record where
  title := rfl
  complete := rfl
  start := rfl
  fields := by
    refine .cons ⟨rfl, fun given s => ?_⟩ (.cons ⟨rfl, fun given s => ?_⟩
      (.cons ⟨rfl, fun given s => ?_⟩ .nil))
    all_goals exact bind_map fun _ => rfl

end GivenBlockRule

/-! ### All settings -/

/-- Settings that have been given. -/
@[ext]
structure GivenSettings where
  kind : Option PolicyKind := none
  indexRule : GivenIndexRule := {}
  blockRule : GivenBlockRule := {}
  deriving DecidableEq

namespace GivenSettings

/-- The settings, where those that have not been given are those of `base`. -/
def filledFrom (given : GivenSettings) (base : PolicySettings) : PolicySettings where
  kind := given.kind.getD base.kind
  indexRule := given.indexRule.filledFrom base.indexRule
  blockRule := given.blockRule.filledFrom base.blockRule

def record : Record GivenSettings where
  title := PolicySettings.record.title
  fields :=
    [⟨"kind", fun given s => do
        let (kind, r) ← PolicyKind.choice.read s
        .ok ({ given with kind := some kind }, r)⟩,
      ⟨"static_drop", fun given s => do
        let (indexRule, r) ← GivenIndexRule.record.read s
        .ok ({ given with indexRule }, r)⟩,
      ⟨"adaptive", fun given s => do
        let (blockRule, r) ← GivenBlockRule.record.read s
        .ok ({ given with blockRule }, r)⟩]
  start := {}
  complete := false

theorem converts : Record.Converts (·.filledFrom .reference) record PolicySettings.record where
  title := rfl
  complete := rfl
  start := rfl
  fields := by
    refine .cons ⟨rfl, fun given s => ?_⟩ (.cons ⟨rfl, fun given s => ?_⟩
      (.cons ⟨rfl, fun given s => ?_⟩ .nil))
    · exact bind_map fun _ => rfl
    · change (IndexRule.record.read s >>= _) = _
      rw [GivenIndexRule.converts.read]
      exact convert_bind fun _ _ => rfl
    · change (BlockRule.record.read s >>= _) = _
      rw [GivenBlockRule.converts.read]
      exact convert_bind fun _ _ => rfl

def ofDocument (text : String) : Except Json.Error GivenSettings := document record.read text

end GivenSettings

namespace PolicySettings

/-- **The settings of a document**, whatever its text, are the reference settings with the given
fields replaced. -/
theorem document_eq_given (text : String) :
    document record.read text = (GivenSettings.ofDocument text).map (·.filledFrom .reference) :=
  GivenSettings.converts.document text

/-- The outcome of a document are its settings if they are fit to run. -/
theorem ofDocument_eq_ok {text : String} {settings : PolicySettings} :
    ofDocument text = .ok settings ↔
      document record.read text = .ok settings ∧ settings.validate = .ok () := by
  unfold ofDocument
  cases document record.read text with
  | error e => simp
  | ok read =>
    dsimp only
    cases hfit : read.validate with
    | error e =>
      refine ⟨nofun, ?_⟩
      rintro ⟨⟨⟩, hok⟩
      rw [hfit] at hok
      cases hok
    | ok _ =>
      refine ⟨?_, ?_⟩
      · rintro ⟨⟩
        exact ⟨rfl, hfit⟩
      · rintro ⟨⟨⟩, -⟩
        rfl

end PolicySettings

end LossRelay
