import LossRelay.Config.Policy
import LossRelay.Io.Files

/-!
# Policy files

A policy file is a document of policy settings.  What matters of the world outside is only what
reading a path gives.
-/

namespace LossRelay

/-- What reading each path gives. -/
abbrev FileReader := String → Except IoFault String

def PolicySettings.ofFile (read : FileReader) (path : String) : Except ConfigError PolicySettings :=
  match read path with
  | .error fault => .error (.file fault)
  | .ok text => ofDocument text

end LossRelay
