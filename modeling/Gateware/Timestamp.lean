/-!
# Times

The time at which a file was last changed, in seconds since the epoch and the nanoseconds beyond.
-/

namespace Gateware

structure Timestamp where
  seconds : Int
  nanos : Nat := 0
deriving DecidableEq

end Gateware
