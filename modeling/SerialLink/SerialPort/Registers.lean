import SerialLink.Protocol

/-!
# The registers of the serial port

The data register is shifted bit by bit while a byte is exchanged.  The bits that answer the peer are
not taken from it directly: a byte is copied from it and its eight bits go out, highest first, before
the next copy is made, so that an answer does not change with the shifting.
-/

namespace SerialLink

/-- The registers of the port, and what belongs to them. -/
structure Registers where
  /-- The data register. -/
  data : UInt8 := 0xff
  /-- The control register. -/
  control : UInt8 := 0
  /-- The byte whose bits answer the peer. -/
  answer : UInt8 := 0xff
  /-- How many of its bits have gone out. -/
  answered : Nat := 0
  /-- Whether a bit was sent to the peer and is unanswered. -/
  pending : Bool := false
  /-- Whether the port waits for a bit of the peer. -/
  waiting : Bool := false
  deriving DecidableEq, Inhabited, Repr

namespace Registers

/-- The bit of the control register that starts a transfer and stays set until it is over. -/
def transferBit : UInt8 := 0x80

/-- The bit of the control register by which this side drives the clock. -/
def internalClockBit : UInt8 := 0x01

/-- Whether a transfer is under way. -/
def isTransferring (r : Registers) : Bool := r.control &&& transferBit != 0

/-- Whether this side drives the clock of a transfer that is under way. -/
def drivesClock (r : Registers) : Bool :=
  r.control &&& (transferBit ||| internalClockBit) == transferBit ||| internalClockBit

/-- Takes a byte to answer with. -/
def loadAnswer (byte : UInt8) (r : Registers) : Registers :=
  { r with answer := byte, answered := 0 }

/-- The next bit to answer with.  When a whole byte has gone out, the data register is copied. -/
def takeAnswer (r : Registers) : UInt8 × Registers :=
  let r := if r.answered = 8 then r.loadAnswer r.data else r
  ((r.answer >>> UInt8.ofNat (7 - r.answered)) &&& 1, { r with answered := r.answered + 1 })

/-- The highest bit of the data register, which goes out next. -/
def outgoing (r : Registers) : UInt8 := (r.data >>> 7) &&& 1

/-- Shifts a bit in at the low end of the data register. -/
def shiftIn (bit : UInt8) (r : Registers) : Registers :=
  { r with data := (r.data <<< 1) ||| (bit &&& 1) }

/-- The time that the port tells.  A side that waits is never ahead of its peer; it tells the peer's
time if that is later, so that a peer that ran ahead may go on. -/
def time (clock : Clock) (r : Registers) : UInt32 :=
  if r.waiting && Clock.isAhead clock.received clock.timestamp then clock.received
  else clock.timestamp

instance : Responder Registers where
  takeRequest r := (r.pending, { r with pending := false })
  takeBit r := r.takeAnswer
  control r := (r.control, r)
  timestamp clock r := (r.time clock, r)
  takeHangUp r := (false, r)

end Registers

end SerialLink
