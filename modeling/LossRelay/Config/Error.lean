import LossRelay.Io.Fault
import LossRelay.Json.Error

/-!
# Configuration errors

Every way in which a route, a policy or a relay configuration can be refused, with its text.
-/

namespace LossRelay

/-- Why a set of parameters cannot be run with. -/
inductive Unfit where
  | noSilence
  | offsetOutside (offset size : UInt64)
  | bufferSize (size : UInt64)
  | noTraceCapacity
  | noErrorLimit
  | described (text : String)
  deriving DecidableEq

def Unfit.message : Unfit → String
  | .noSilence => "encoding_overhead_ms must be greater than zero"
  | .offsetOutside offset size =>
    "target_offset " ++ Numeral.text offset.toNat ++ " lies outside a block of " ++
      Numeral.text size.toNat ++ " symbols"
  | .bufferSize size => "recv_buffer_size " ++ Numeral.text size.toNat ++ " out of range 1..=65535"
  | .noTraceCapacity => "trace_capacity must be at least 1"
  | .noErrorLimit => "max_consecutive_io_errors must be at least 1"
  | .described text => text

/-- Why a configuration is refused. -/
inductive ConfigError where
  | notARoute (text : String)
  | badPort (text : String)
  | unknownHost (host : String) (port : UInt16)
  | unknownPolicy (name : String)
  | unfit (cause : Unfit)
  | document (cause : Json.Error)
  | file (cause : IoFault)

def ConfigError.message : ConfigError → String
  | .notARoute text => "Usage: localPort:remoteHost:remotePort (got '" ++ text ++ "')"
  | .badPort text => "Invalid port number: " ++ text
  | .unknownHost host port =>
    "Cannot resolve remote host " ++ host ++ ":" ++ Numeral.text port.toNat
  | .unknownPolicy name =>
    "Unknown policy '" ++ name ++ "' (expected 'static' or 'adaptive')"
  | .unfit cause => "Invalid configuration: " ++ cause.message
  | .document cause => "Config file error: " ++ cause.message
  | .file cause => "IO error: " ++ cause.message

end LossRelay
