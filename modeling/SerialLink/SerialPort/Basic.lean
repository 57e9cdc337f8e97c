import SerialLink.SerialPort.Registers
import SerialLink.Session

/-!
# The serial port

The serial port of the machine, with the link that may be plugged into it.  A port without a link is
disabled: its data register reads as all ones.  This module holds the state and the registers as the
machine sees them; transfers are in `SerialPort.Transfer`.
-/

namespace SerialLink

/-- Where the port is in a transfer. -/
inductive SerialPort.Phase
  /-- There is no link. -/
  | disabled
  /-- The port counts cycles until the next bit is due. -/
  | armed
  /-- A bit is being exchanged: the port waits for the peer's. -/
  | exchanging
  /-- The last tick has finished a byte. -/
  | complete
  deriving DecidableEq, Inhabited, Repr

/-- The serial port and its link. -/
structure SerialPort extends Session Registers where
  /-- Whether there is someone to whom the interrupt goes. -/
  hasListener : Bool := false
  /-- Whether a finished byte raises the interrupt. -/
  interruptBased : Bool := false
  /-- How many milliseconds to wait for a bit of the peer; zero means for ever. -/
  transferTimeout : UInt32 := 0
  phase : SerialPort.Phase := .disabled
  /-- Why there is no link, as far as the port itself knows. -/
  lastError : Option Failure := none
  /-- How many bits of the byte under way were exchanged. -/
  transferredBits : Nat := 0
  /-- The cycles since the last bit. -/
  cycleCount : UInt32 := 0

namespace SerialPort

/-! ### Constants -/

/-- The cycles of the machine in a second. -/
def cpuFrequency : UInt32 := 4213440

/-- The bits that the port exchanges in a second. -/
def serialFrequency : UInt32 := 8192

/-- The cycles between two bits. -/
def cyclesPerBit : UInt32 := cpuFrequency / serialFrequency

/-- What a port that has no bit to exchange tells as the cycles until the next one. -/
def idleCycles : UInt32 := 0x10000

/-- The address of the data register. -/
def dataAddress : UInt16 := 0xff01

/-- The address of the control register. -/
def controlAddress : UInt16 := 0xff02

/-! ### State -/

/-- The port of a machine that was just switched on. -/
def new : SerialPort := { port := {} }

/-- Whether there is a link. -/
def isEnabled (p : SerialPort) : Bool := p.phase != .disabled

/-- The role of this side. -/
def role (p : SerialPort) : Role := if p.isEnabled then p.connection.role else .disabled

/-- Why the link was lost or could not be made: what the port itself knows, or else the reason for which
the receiver has ended. -/
def error (p : SerialPort) : Option Failure := p.lastError <|> p.receiver.error

/-- The reason for which the receiver has ended; that the connection has ended is always true. -/
def receiverError (p : SerialPort) : Failure := p.receiver.error.getD .connectionTerminated

/-- The cycles until the next bit is due. -/
def cyclesToTransmit (p : SerialPort) : UInt32 :=
  if !p.isEnabled || !p.port.isTransferring then idleCycles
  else if p.cycleCount < cyclesPerBit then cyclesPerBit - p.cycleCount
  else 0

/-- The port with other registers. -/
def withRegisters (f : Registers → Registers) (p : SerialPort) : SerialPort :=
  { p with port := f p.port }

/-! ### Registers as the machine sees them -/

/-- What the machine reads from the data register. -/
def readData (p : SerialPort) : UInt8 := if p.isEnabled then p.port.data else 0xff

/-- The machine writes the data register, which also is the next byte to answer with.  Without a link
that has no effect. -/
def writeData (byte : UInt8) (p : SerialPort) : SerialPort :=
  if p.isEnabled then p.withRegisters fun r => { r with data := byte }.loadAnswer byte else p

/-- What the machine reads from the control register; the bits that it does not have are ones. -/
def readControl (p : SerialPort) : UInt8 := p.port.control ||| 0x7e

/-- The machine writes the control register; setting the transfer bit starts a byte. -/
def writeControl (byte : UInt8) (p : SerialPort) : SerialPort :=
  let before := p.port.isTransferring
  let p := p.withRegisters fun r => { r with control := byte }
  if !before && p.port.isTransferring then { p with transferredBits := 0, cycleCount := 0 } else p

/-- What the machine reads at an address. -/
def read (address : UInt16) (p : SerialPort) : UInt8 :=
  if address = dataAddress then p.readData
  else if address = controlAddress then p.readControl
  else 0xff

/-- The machine writes at an address. -/
def write (address : UInt16) (byte : UInt8) (p : SerialPort) : SerialPort :=
  if address = dataAddress then p.writeData byte
  else if address = controlAddress then p.writeControl byte
  else p

/-! ### Resetting and losing the link -/

/-- Resets the registers; the link stays. -/
def reset (p : SerialPort) : SerialPort :=
  let data : UInt8 := if p.isEnabled then 0 else 0xff
  { p with
    port := { p.port with data, control := 0, answer := data, answered := 0, pending := false }
    transferredBits := 0
    cycleCount := 0
    phase := if p.phase = .complete then .armed else p.phase }

/-- The port with another session. -/
def withSession (s : Session Registers) (p : SerialPort) : SerialPort :=
  { p with toSession := s }

/-- The link is lost: the connection is closed, and the port is without a link from now on. -/
def disable (reason : Failure) (p : SerialPort) : Traced SerialPort := do
  Traced.note (.linkDisabled reason)
  let s ← p.toSession.stop
  return { p.withSession s with
    connection := s.connection.close
    port := { s.port with data := 0xff, pending := false, waiting := false }
    phase := .disabled
    lastError := p.lastError <|> some reason
    transferredBits := 0
    cycleCount := 0 }

/-- Something comes from the peer. -/
def arrive (segment : Tcp.Segment) (p : SerialPort) : Traced SerialPort := do
  return p.withSession (← p.toSession.arrive segment)

end SerialPort

end SerialLink
