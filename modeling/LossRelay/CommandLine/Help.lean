import LossRelay.CommandLine.Flags

/-!
# Help

What is printed about the command line itself.
-/

namespace LossRelay

def usageLine : String := "Usage: fec-sieve [OPTIONS] <ROUTE>\n"

def Setting.purpose : Setting → String
  | .policy => "loss policy, static or adaptive"
  | .config => "policy file; the other options override its values"
  | .windowEnd => "static policy: last index of the forwarded window"
  | .targets => "static policy: indices always dropped, comma separated"
  | .exempt => "static policy: indices past the window that still pass, comma separated"
  | .silence => "adaptive policy: silence in milliseconds that opens a block"
  | .tunedSize => "adaptive policy: block size the drop is tuned for"
  | .offset => "adaptive policy: position dropped in each tuned block"
  | .metrics => "address to publish metrics on"
  | .traceCapacity => "trace lines that may wait for the log"

def helpText : String :=
  "Relay datagrams while dropping the ones a loss policy picks\n\n" ++ usageLine ++ "\n" ++
    String.join (Setting.all.map fun o => "  --" ++ o.name ++ " <VALUE>  " ++ o.purpose ++ "\n") ++
    "  -v, --verbose  log every decision\n  -h, --help\n  -V, --version\n"

def UsageError.text : UsageError → String
  | .helpWanted => helpText
  | .versionWanted => versionLine
  | .valueMissing => "error: a value is missing\n\n" ++ usageLine
  | .valueUnfit => "error: a value cannot be read\n\n" ++ usageLine
  | .repeated => "error: an option is given twice\n\n" ++ usageLine
  | .unknownArgument => "error: an argument is unknown\n\n" ++ usageLine
  | .valueOnSwitch => "error: a switch takes no value\n\n" ++ usageLine
  | .routeMissing => "error: the route is missing\n\n" ++ usageLine

end LossRelay
