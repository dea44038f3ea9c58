import LossRelay.CommandLine.Scan
import LossRelay.Config.File
import LossRelay.Config.Route
import LossRelay.Policy.Choice
import LossRelay.Relay.Session

/-!
# Starting up

From a command line to a relay that is ready to listen.  Flags override the policy file field by
field; the file must be fit to run as it is, and so must the result.  The first thing wrong ends
the start: the command line, the policy, the route, its host, the trace queue, the relay settings.
-/

namespace LossRelay

/-- Why policy settings cannot be had; the path is that of the file that could not be loaded. -/
structure SettingsError where
  path : Option String
  cause : ConfigError

namespace Flags

/-- The settings with the given fields replaced; a list replaces the whole set. -/
def override (f : Flags) (base : PolicySettings) : PolicySettings where
  kind := f.policy.getD base.kind
  indexRule :=
    { windowEnd := f.windowEnd.getD base.indexRule.windowEnd
      targets := (f.targets.map IndexSet.ofList).getD base.indexRule.targets
      exempt := (f.exempt.map IndexSet.ofList).getD base.indexRule.exempt }
  blockRule :=
    { silenceMs := f.silenceMs.getD base.blockRule.silenceMs
      tunedSize := f.tunedSize.getD base.blockRule.tunedSize
      offset := f.offset.getD base.blockRule.offset }

end Flags

namespace Invocation

/-- The settings to start from: those of the policy file, or the reference settings. -/
def baseSettings (inv : Invocation) (read : FileReader) : Except SettingsError PolicySettings :=
  match inv.flags.config with
  | none => .ok .reference
  | some path =>
    match PolicySettings.ofFile read path with
    | .ok settings => .ok settings
    | .error cause => .error ⟨some path, cause⟩

/-- The policy settings of an invocation. -/
def policySettings (inv : Invocation) (read : FileReader) : Except SettingsError PolicySettings := do
  let base ← inv.baseSettings read
  let settings := inv.flags.override base
  match settings.validate with
  | .ok () => .ok settings
  | .error cause => .error ⟨none, cause⟩

end Invocation

/-- Why the program stops before it relays. -/
inductive StartupError where
  | usage (cause : UsageError)
  | settings (cause : SettingsError)
  | route (cause : ConfigError)
  | queueTooLong (capacity : UInt64)
  | relay (cause : RelayError)

/-- A relay that is ready to listen, and where its metrics are to be published. -/
structure Startup where
  relay : Relay AnyPolicy
  metrics : Option Endpoint
  verbose : Bool

namespace Startup

/-- What stops an invocation from relaying, or the relay. -/
def prepare (inv : Invocation) (read : FileReader) (resolve : Resolver) :
    Except StartupError Startup := do
  let settings ← (inv.policySettings read).mapError .settings
  let route ← (Route.parse inv.route).mapError .route
  let remote ← (route.destination resolve).mapError .route
  let usual := RelaySettings.between route.listen remote
  let relaySettings := { usual with traceCapacity := inv.traceCapacity }
  match TraceQueue.open? inv.traceCapacity with
  | none => .error (.queueTooLong inv.traceCapacity)
  | some queue =>
    let relay ← (Relay.onSocket relaySettings settings.policy queue).mapError .relay
    .ok ⟨relay, inv.flags.metrics, inv.flags.verbose⟩

def ofCommandLine (args : List String) (path : Option String) (read : FileReader)
    (resolve : Resolver) : Except StartupError Startup := do
  let inv ← (Invocation.parse args path).mapError .usage
  prepare inv read resolve

end Startup

/-! ### Reports -/

/-- The texts of an error and of what caused it, outermost first. -/
def ConfigError.chain (e : ConfigError) : List String :=
  match e with
  | .document cause => [e.message, cause.message]
  | .file cause => [e.message, cause.message]
  | _ => [e.message]

@[inherit_doc ConfigError.chain] def RelayError.chain (e : RelayError) : List String :=
  match e with
  | .bind _ fault => [e.message, fault.message]
  | .config cause => e.message :: cause.chain
  | .io fault => [e.message, fault.message]
  | .socketUnusable .. => [e.message]

@[inherit_doc ConfigError.chain] def SettingsError.chain (e : SettingsError) : List String :=
  match e.path with
  | some path => ("Failed to load " ++ path) :: e.cause.chain
  | none => e.cause.chain

namespace Report

/-- A text with a mark before its first line and another one before every other line. -/
def indented (first other : String) (text : String) : String :=
  first ++ String.intercalate ("\n" ++ other) (text.splitOn "\n")

/-- The causes of an error: one is indented, several are numbered. -/
def causes : List String → List String
  | [] => []
  | [cause] => [indented "    " "    " cause]
  | several =>
    several.zipIdx.map fun (cause, n) =>
      indented (String.ofList (List.leftpad 5 ' ' (Numeral.digits n)) ++ ": ") "       " cause

def ofChain : List String → String
  | [] => ""
  | [top] => "Error: " ++ top
  | top :: rest => "Error: " ++ top ++ "\n\nCaused by:\n" ++ String.intercalate "\n" (causes rest)

end Report

namespace StartupError

def exitStatus : StartupError → UInt32
  | .usage cause => cause.exitStatus
  | .queueTooLong _ => 101
  | _ => 1

/-- The report on what stopped the program; the command line reports on itself. -/
def report : StartupError → Option String
  | .usage _ | .queueTooLong _ => none
  | .settings cause => some (Report.ofChain cause.chain)
  | .route cause => some (Report.ofChain cause.chain)
  | .relay cause => some (Report.ofChain cause.chain)

end StartupError

namespace Startup

/-! ### The log of the program -/

/-- The entries before the first datagram. -/
def opening (s : Startup) (listen : Endpoint) : List LogEntry :=
  (s.metrics.map LogEntry.publishing).toList ++
    [.relaying listen s.relay.settings.remote (LossPolicy.name s.relay.ledger.policy), .ready]

/-- The entries after an orderly end. -/
def closing (t : Tally) : List LogEntry :=
  .summary t :: (if t.traceDiscarded = 0 then [] else [.traceLost t.traceDiscarded])

/-- The entry is shown: decisions on datagrams only when asked for, their arrivals never. -/
def shows (verbose : Bool) (entry : LogEntry) : Bool :=
  match entry.level with
  | .trace => false
  | .debug => verbose
  | .info | .warn => true

end Startup

end LossRelay
