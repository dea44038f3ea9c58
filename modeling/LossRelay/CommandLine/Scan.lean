import LossRelay.CommandLine.Flags

/-!
# Reading a command line

Words are taken from left to right.  An option written without an equals sign is pending: the next
word is its value unless it looks like an option, and the value is stored when the next option,
switch or route comes, or at the end.  What is wrong with a pending value therefore shows later
than what is wrong with a word that is no argument at all.
-/

namespace LossRelay

/-- How far the reading of a command line has come: what has been given, and the option that is
pending, with its value if that has been seen. -/
structure Scan where
  flags : Flags := .none
  pending : Option (Setting × Option String) := none
  deriving DecidableEq

namespace Scan

/-- Stores the pending value, which must be there. -/
def settle (s : Scan) : Except UsageError Flags :=
  match s.pending with
  | none => .ok s.flags
  | some (_, none) => .error .valueMissing
  | some (option, some value) => s.flags.store option value

/-- The name of an option and the value behind its first equals sign. -/
def splitValue : List Char → List Char × Option (List Char)
  | [] => ([], none)
  | c :: cs =>
    if c = '=' then ([], some cs)
    else
      let (name, value) := splitValue cs
      (c :: name, value)

/-- A word that starts with two hyphens, which are gone. -/
def long (s : Scan) (word : List Char) : Except UsageError Scan :=
  let (name, value) := splitValue word
  match Setting.ofName? name, Switch.ofName? name, value with
  | some option, _, none => do
    let flags ← s.settle
    .ok ⟨flags, some (option, none)⟩
  | some option, _, some value => do
    let flags ← s.settle
    let flags ← flags.store option (String.ofList value)
    .ok ⟨flags, none⟩
  | none, some switch, none => do
    let flags ← s.settle
    let flags ← flags.throw switch
    .ok ⟨flags, none⟩
  | none, some _, some _ => .error .valueOnSwitch
  | none, none, _ => .error .unknownArgument

/-- The letters of a word that starts with one hyphen. -/
def cluster (s : Scan) : List Char → Except UsageError Scan
  | [] => .ok s
  | c :: cs =>
    match Switch.ofLetter? c with
    | none => .error .unknownArgument
    | some switch => do
      let flags ← s.settle
      let flags ← flags.throw switch
      cluster ⟨flags, none⟩ cs

/-- A word that is no option: the route, which is given once. -/
def positional (s : Scan) (word : String) : Except UsageError Scan :=
  match s.flags.route with
  | some _ => .error .unknownArgument
  | none => do
    let flags ← s.settle
    .ok ⟨{ flags with route := some word }, none⟩

/-- A word that does not look like an option: the value that is waited for, or the route. -/
def plain (s : Scan) (word : String) : Except UsageError Scan :=
  match s.pending with
  | some (option, none) => .ok { s with pending := some (option, some word) }
  | _ => s.positional word

/-- All words; after a word of two hyphens no word is an option or a value. -/
def words (s : Scan) : List String → Except UsageError Scan
  | [] => .ok s
  | word :: rest =>
    match word.toList with
    | ['-', '-'] => rest.foldlM positional s
    | '-' :: '-' :: name => do
      let s ← s.long name
      s.words rest
    | '-' :: letter :: letters => do
      let s ← s.cluster (letter :: letters)
      s.words rest
    | _ => do
      let s ← s.plain word
      s.words rest

end Scan

/-- A command line that can be acted on: the route, and what else has been given. -/
structure Invocation where
  route : String
  flags : Flags
  deriving DecidableEq

namespace Invocation

/-- The path of the policy file: the one given, else that of the environment. -/
def withEnvironment (flags : Flags) (path : Option String) : Except UsageError Flags :=
  match flags.config, path with
  | none, some path => do .ok { flags with config := some (← Flags.pathValue path) }
  | _, _ => .ok flags

def parse (args : List String) (path : Option String) : Except UsageError Invocation := do
  let s ← Scan.words {} args
  let flags ← s.settle
  let flags ← withEnvironment flags path
  match flags.route with
  | some route => .ok ⟨route, flags⟩
  | none => .error .routeMissing

def traceCapacity (inv : Invocation) : UInt64 := inv.flags.traceCapacity.getD 1024

end Invocation

end LossRelay
