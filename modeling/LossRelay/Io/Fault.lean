/-!
# Failures of the outside world

What a socket or a file answers instead of doing what it was asked to do, and the text for it.
-/

namespace LossRelay

inductive IoFault where
  | connectionRefused | connectionReset | addressInUse | wouldBlock | timedOut
  | permissionDenied | interrupted | unspecified
  | noSuchFile | isDirectory | notDirectory | nameTooLong | notUtf8 | nulInPath
  | described (text : String)
  deriving DecidableEq

def IoFault.message : IoFault → String
  | .connectionRefused => "connection refused"
  | .connectionReset => "connection reset"
  | .addressInUse => "address in use"
  | .wouldBlock => "operation would block"
  | .timedOut => "timed out"
  | .permissionDenied => "permission denied"
  | .interrupted => "operation interrupted"
  | .unspecified => "other error"
  | .noSuchFile => "No such file or directory (os error 2)"
  | .isDirectory => "Is a directory (os error 21)"
  | .notDirectory => "Not a directory (os error 20)"
  | .nameTooLong => "File name too long (os error 36)"
  | .notUtf8 => "stream did not contain valid UTF-8"
  | .nulInPath => "file name contained an unexpected NUL byte"
  | .described text => text

end LossRelay
