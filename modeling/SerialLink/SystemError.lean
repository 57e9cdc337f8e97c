/-!
# Errors of the operating system

The reasons for which a request to the operating system fails, as far as a link meets them.
-/

namespace SerialLink

/-- A reason for which the operating system refuses a request. -/
inductive SystemError
  | interrupted
  | permissionDenied
  | invalidArgument
  | tooManyFiles
  | brokenPipe
  | addressInUse
  | addressUnavailable
  | networkUnreachable
  | connectionAborted
  | connectionReset
  | noBufferSpace
  | notConnected
  | timedOut
  | connectionRefused
  | hostUnreachable
  deriving DecidableEq, Inhabited, Repr

/-- The system's own text for an error. -/
def SystemError.message : SystemError → String
  | interrupted => "Interrupted system call"
  | permissionDenied => "Permission denied"
  | invalidArgument => "Invalid argument"
  | tooManyFiles => "Too many open files"
  | brokenPipe => "Broken pipe"
  | addressInUse => "Address already in use"
  | addressUnavailable => "Cannot assign requested address"
  | networkUnreachable => "Network is unreachable"
  | connectionAborted => "Software caused connection abort"
  | connectionReset => "Connection reset by peer"
  | noBufferSpace => "No buffer space available"
  | notConnected => "Transport endpoint is not connected"
  | timedOut => "Connection timed out"
  | connectionRefused => "Connection refused"
  | hostUnreachable => "No route to host"

end SerialLink
