import SerialLink.Packet

/-!
# The clock of a link

Time on a link is counted in steps of `2 ^ 21` cycles on a ring of `2 ^ 31` steps.  Each side keeps its
own time and the time that it last heard from the peer; it waits while it is strictly ahead, where
"ahead" means less than half the ring in front.
-/

namespace SerialLink

/-- The time of one side. -/
structure Clock where
  /-- The steps that this side has counted. -/
  timestamp : UInt32 := 0
  /-- The cycles since the last step. -/
  cycles : UInt32 := 0
  /-- The time that the peer last told. -/
  received : UInt32 := 0
  deriving DecidableEq, Inhabited, Repr

namespace Clock

/-- A step is `2 ^ 21` cycles. -/
def stepShift : UInt64 := 21

/-- The cycles of a step. -/
def cyclesPerStep : UInt32 := 0x200000

/-- The mask that reduces a number of cycles to those since the last step. -/
def cycleMask : UInt32 := cyclesPerStep - 1

/-- Half the steps of the ring. -/
def halfRing : UInt32 := 0x40000000

/-- The clock at the start of a link. -/
def start : Clock := {}

/-- Lets cycles pass. -/
def advance (cycles : UInt32) (c : Clock) : Clock :=
  let total := c.cycles.toUInt64 + cycles.toUInt64
  let steps := (total >>> stepShift).toUInt32
  { c with
    timestamp := if steps = 0 then c.timestamp else (c.timestamp + steps) &&& timestampMask
    cycles := (total &&& cycleMask.toUInt64).toUInt32 }

/-- The steps that lie between a remote and a later local time on the ring. -/
def distance (here there : UInt32) : UInt32 := (here - there) &&& timestampMask

/-- Whether the first time is strictly ahead of the second one. -/
def isAhead (here there : UInt32) : Bool :=
  distance here there != 0 && distance here there < halfRing

/-- A side is ready to exchange a bit unless it is ahead of the peer. -/
def isReady (c : Clock) : Bool := !isAhead c.timestamp c.received

/-- Takes note of the time that the peer tells. -/
def hear (timestamp : UInt32) (c : Clock) : Clock :=
  { c with received := timestamp &&& timestampMask }

end Clock

end SerialLink
