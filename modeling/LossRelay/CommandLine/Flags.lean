import LossRelay.Address.Parse
import LossRelay.Config.Policy
import LossRelay.Text.Cut

/-!
# Flags

The options of the command line with a value, the switches without one, and what has been given of
both.  A value is checked when it is stored.
-/

namespace LossRelay

/-- Why a command line is not acted on. -/
inductive UsageError where
  | helpWanted | versionWanted
  | valueMissing | valueUnfit | repeated | unknownArgument | valueOnSwitch | routeMissing
  deriving DecidableEq

def UsageError.exitStatus : UsageError → UInt32
  | .helpWanted | .versionWanted => 0
  | _ => 2

def versionLine : String := "fec-sieve 0.1.0\n"

/-- An option with a value. -/
inductive Setting where
  | policy | config | windowEnd | targets | exempt | silence | tunedSize | offset
  | metrics | traceCapacity
  deriving DecidableEq

namespace Setting

def all : List Setting :=
  [policy, config, windowEnd, targets, exempt, silence, tunedSize, offset, metrics, traceCapacity]

def name : Setting → String
  | policy => "policy"
  | config => "config"
  | windowEnd => "kappa"
  | targets => "target-source"
  | exempt => "payload-repair"
  | silence => "encoding-overhead-ms"
  | tunedSize => "calibrated-block-size"
  | offset => "target-offset"
  | metrics => "metrics-addr"
  | traceCapacity => "trace-capacity"

def ofName? (s : List Char) : Option Setting := all.find? fun o => o.name.toList == s

end Setting

/-- An option without a value. -/
inductive Switch where
  | verbose | help | version
  deriving DecidableEq

namespace Switch

def all : List Switch := [verbose, help, version]

def name : Switch → String
  | verbose => "verbose"
  | help => "help"
  | version => "version"

def letter : Switch → Char
  | verbose => 'v'
  | help => 'h'
  | version => 'V'

def ofName? (s : List Char) : Option Switch := all.find? fun w => w.name.toList == s

def ofLetter? (c : Char) : Option Switch := all.find? fun w => w.letter == c

end Switch

/-- What a command line has given. -/
structure Flags where
  policy : Option PolicyKind := none
  config : Option String := none
  windowEnd : Option UInt64 := none
  targets : Option (List UInt64) := none
  exempt : Option (List UInt64) := none
  silenceMs : Option UInt64 := none
  tunedSize : Option UInt64 := none
  offset : Option UInt64 := none
  metrics : Option Endpoint := none
  traceCapacity : Option UInt64 := none
  verbose : Bool := false
  route : Option String := none
  deriving DecidableEq

namespace Flags

def none : Flags := {}

instance : Inhabited Flags := ⟨none⟩

def numberValue (value : String) : Except UsageError UInt64 :=
  match Numeral.readWord? value.toList with
  | some n => .ok n
  | Option.none => .error .valueUnfit

/-- The value of a list of numbers between commas. -/
def numbersValue (value : String) : Except UsageError (List UInt64) :=
  (Text.cut ',' value.toList).mapM fun p => numberValue (String.ofList p)

def policyValue (value : String) : Except UsageError PolicyKind :=
  match PolicyKind.parse value with
  | .ok kind => .ok kind
  | .error _ => .error .valueUnfit

def endpointValue (value : String) : Except UsageError Endpoint :=
  match Endpoint.parse? value.toList with
  | some e => .ok e
  | Option.none => .error .valueUnfit

/-- The value of a path, which must not be empty. -/
def pathValue (value : String) : Except UsageError String :=
  if value = "" then .error .valueMissing else .ok value

/-- A value that may be given once; that it is given twice is noticed before it is read. -/
def once {α : Type} (given : Option α) (read : String → Except UsageError α) (value : String) :
    Except UsageError (Option α) :=
  match given with
  | some _ => .error .repeated
  | Option.none => do
    let a ← read value
    .ok (some a)

/-- A list that grows with every time it is given. -/
def more (given : Option (List UInt64)) (value : String) :
    Except UsageError (Option (List UInt64)) := do
  let xs ← numbersValue value
  .ok (some (given.getD [] ++ xs))

def store (f : Flags) (option : Setting) (value : String) : Except UsageError Flags :=
  match option with
  | .policy => do .ok { f with policy := ← once f.policy policyValue value }
  | .config => do .ok { f with config := ← once f.config pathValue value }
  | .windowEnd => do .ok { f with windowEnd := ← once f.windowEnd numberValue value }
  | .targets => do .ok { f with targets := ← more f.targets value }
  | .exempt => do .ok { f with exempt := ← more f.exempt value }
  | .silence => do .ok { f with silenceMs := ← once f.silenceMs numberValue value }
  | .tunedSize => do .ok { f with tunedSize := ← once f.tunedSize numberValue value }
  | .offset => do .ok { f with offset := ← once f.offset numberValue value }
  | .metrics => do .ok { f with metrics := ← once f.metrics endpointValue value }
  | .traceCapacity => do .ok { f with traceCapacity := ← once f.traceCapacity numberValue value }

def throw (f : Flags) : Switch → Except UsageError Flags
  | .verbose => if f.verbose then .error .repeated else .ok { f with verbose := true }
  | .help => .error .helpWanted
  | .version => .error .versionWanted

end Flags

end LossRelay
