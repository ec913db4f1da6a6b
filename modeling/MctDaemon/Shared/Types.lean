import MctDaemon.Lib.Machine

/-!
Return codes and sizes of the packed structures shared by the daemon and the
library (`mct_types.h`, `mct_common.h`).
-/

namespace MctDaemon.Shared

inductive MctReturnValue where
  | fileSzErr
  | loggingDisabled
  | userBufferFull
  | wrongParameter
  | bufferFull
  | pipeFull
  | pipeError
  | error
  | ok
  | true
  deriving DecidableEq, Repr

/-- The enumerator's value, for the functions that return an `int`. -/
def MctReturnValue.code : MctReturnValue → Int
  | fileSzErr => -8
  | loggingDisabled => -7
  | userBufferFull => -6
  | wrongParameter => -5
  | bufferFull => -4
  | pipeFull => -3
  | pipeError => -2
  | error => -1
  | ok => 0
  | true => 1

def mctIdSize : Nat := 4

end MctDaemon.Shared
