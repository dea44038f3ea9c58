import LossRelay.Config.Error
import LossRelay.Config.IndexSet
import LossRelay.Json.Typed
import LossRelay.Span

/-!
# Policy settings

Which loss policy runs, and the parameters of both.  The index rule drops chosen packets of the
stream; the block rule finds the blocks of the stream by its silences and drops one position of
every block of the size it is tuned for.  A document may leave out any field.
-/

namespace LossRelay

inductive PolicyKind where
  | byIndex | byBlock
  deriving DecidableEq, Inhabited

namespace PolicyKind

def name : PolicyKind → String
  | .byIndex => "static"
  | .byBlock => "adaptive"

/-- The policy of a name, in capital or small letters. -/
def parse (s : String) : Except ConfigError PolicyKind :=
  let small := String.ofList (s.toList.map Char.toLower)
  if small = name .byIndex then .ok .byIndex
  else if small = name .byBlock then .ok .byBlock
  else .error (.unknownPolicy small)

def choice : Json.Choice PolicyKind := ⟨name .byIndex, .byIndex, name .byBlock, .byBlock⟩

end PolicyKind

/-- Parameters of the index rule: the targets are dropped; past the end of the window everything
else is dropped but the exempt indices. -/
structure IndexRule where
  windowEnd : UInt64
  targets : IndexSet
  exempt : IndexSet
  deriving DecidableEq

/-- Parameters of the block rule: a silence longer than `silenceMs` milliseconds opens a block, and
in a stream of blocks whose last position is `tunedSize` the position `offset` is dropped. -/
structure BlockRule where
  silenceMs : UInt64
  tunedSize : UInt64
  offset : UInt64
  deriving DecidableEq

/-- Which policy runs, and the parameters of both. -/
structure PolicySettings where
  kind : PolicyKind
  indexRule : IndexRule
  blockRule : BlockRule
  deriving DecidableEq

namespace IndexRule

def reference : IndexRule := ⟨10, .ofList [0, 4, 8], .ofList [10, 11, 12]⟩

instance : Inhabited IndexRule := ⟨reference⟩

def readIndices : Json.Reader IndexSet := fun s => do
  let (xs, r) ← Json.list Json.natural64 s
  .ok (.ofList xs, r)

def record : Json.Record IndexRule where
  title := "StaticDropConfig"
  fields :=
    [⟨"kappa", fun rule s => do
        let (n, r) ← Json.natural64 s
        .ok ({ rule with windowEnd := n }, r)⟩,
      ⟨"target_source", fun rule s => do
        let (xs, r) ← readIndices s
        .ok ({ rule with targets := xs }, r)⟩,
      ⟨"payload_repair", fun rule s => do
        let (xs, r) ← readIndices s
        .ok ({ rule with exempt := xs }, r)⟩]
  start := reference
  complete := false

end IndexRule

namespace BlockRule

def reference : BlockRule := ⟨500, 453, 100⟩

instance : Inhabited BlockRule := ⟨reference⟩

/-- The longest silence inside a block. -/
def silence (rule : BlockRule) : Span := .ofMillis rule.silenceMs

/-- The rule can run: there is a silence to wait for, and the dropped position exists in a block
of the tuned size, whose positions run from zero to that size. -/
def validate (rule : BlockRule) : Except ConfigError Unit :=
  if rule.silenceMs = 0 then .error (.unfit .noSilence)
  else if rule.tunedSize < rule.offset then
    .error (.unfit (.offsetOutside rule.offset rule.tunedSize))
  else .ok ()

def record : Json.Record BlockRule where
  title := "AdaptiveConfig"
  fields :=
    [⟨"encoding_overhead_ms", fun rule s => do
        let (n, r) ← Json.natural64 s
        .ok ({ rule with silenceMs := n }, r)⟩,
      ⟨"calibrated_block_size", fun rule s => do
        let (n, r) ← Json.natural64 s
        .ok ({ rule with tunedSize := n }, r)⟩,
      ⟨"target_offset", fun rule s => do
        let (n, r) ← Json.natural64 s
        .ok ({ rule with offset := n }, r)⟩]
  start := reference
  complete := false

end BlockRule

namespace PolicySettings

def reference : PolicySettings := ⟨.byIndex, .reference, .reference⟩

instance : Inhabited PolicySettings := ⟨reference⟩

/-- The settings can run; the block rule is checked whether it runs or not. -/
def validate (settings : PolicySettings) : Except ConfigError Unit := settings.blockRule.validate

def record : Json.Record PolicySettings where
  title := "PolicyConfig"
  fields :=
    [⟨"kind", fun settings s => do
        let (kind, r) ← PolicyKind.choice.read s
        .ok ({ settings with kind }, r)⟩,
      ⟨"static_drop", fun settings s => do
        let (indexRule, r) ← IndexRule.record.read s
        .ok ({ settings with indexRule }, r)⟩,
      ⟨"adaptive", fun settings s => do
        let (blockRule, r) ← BlockRule.record.read s
        .ok ({ settings with blockRule }, r)⟩]
  start := reference
  complete := false

/-- The settings of a document, which must be fit to run. -/
def ofDocument (text : String) : Except ConfigError PolicySettings :=
  match Json.document record.read text with
  | .error e => .error (.document e)
  | .ok settings =>
    match settings.validate with
    | .error e => .error e
    | .ok () => .ok settings

end PolicySettings

end LossRelay
