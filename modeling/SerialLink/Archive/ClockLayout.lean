import SerialLink.Archive.Layout
import SerialLink.Clock

/-!
# How a clock is kept

Kept are the time of this side and the cycles since its last step.  Both are reduced to their range when
they are read.  What the peer told is not kept.
-/

namespace SerialLink.Clock

open Archive

/-- The parts of a clock that are kept. -/
def layout : Layout Clock :=
  [{ path := [Bytes.ofString "timestamp"]
     kind := .u32
     get := fun c => c.timestamp
     set := fun v c => { c with timestamp := v &&& timestampMask } },
   { path := [Bytes.ofString "timestampCycles"]
     kind := .u32
     get := fun c => c.cycles
     set := fun v c => { c with cycles := v &&& cycleMask } }]

end SerialLink.Clock
