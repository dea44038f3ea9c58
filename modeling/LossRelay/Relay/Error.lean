import LossRelay.Address.Basic
import LossRelay.Config.Error

/-!
# Relay errors

Why a relay cannot be set up, or has given up.
-/

namespace LossRelay

/-- Why a relay does not run. -/
inductive RelayError where
  | bind (listen : Endpoint) (fault : IoFault)
  | socketUnusable (failures : UInt32) (last : IoFault)
  | config (cause : ConfigError)
  | io (fault : IoFault)

def RelayError.message : RelayError → String
  | .bind listen fault => "Failed to bind on " ++ listen.text ++ ": " ++ fault.message
  | .socketUnusable failures last =>
    "Socket unusable after " ++ Numeral.text failures.toNat ++ " consecutive receive errors: " ++
      last.message
  | .config cause => "Invalid configuration: " ++ cause.message
  | .io fault => "IO error: " ++ fault.message

end LossRelay
