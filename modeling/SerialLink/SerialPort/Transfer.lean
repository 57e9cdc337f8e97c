import SerialLink.SerialPort.Basic

/-!
# Transfers

The machine lets cycles pass with `tick`.  When a bit is due and this side is not ahead of its peer, the
bit is exchanged: a side that drives the clock sends its bit, and then either side waits for the peer's.
If that is not there yet the port is blocked.  It goes on with `resume` once something has come, or
gives up with `timeOut`.
-/

namespace SerialLink.SerialPort

/-- How far a tick has come. -/
inductive Progress
  /-- The tick is over. -/
  | idle
  /-- The tick is over, and with it a byte. -/
  | completed
  /-- The tick waits for a bit of the peer. -/
  | blocked
  deriving DecidableEq, Inhabited, Repr

/-- The sum of two numbers of cycles, or the highest number if there is no room for it. -/
def addCycles (a b : UInt32) : UInt32 := UInt32.ofNat (min (a.toNat + b.toNat) (UInt32.size - 1))

/-- Lets cycles pass. -/
def elapse (cycles : UInt32) (p : SerialPort) : SerialPort :=
  { p with
    phase := if p.phase = .complete then .armed else p.phase
    cycleCount := addCycles p.cycleCount cycles
    clock := p.clock.advance cycles }

/-- Whether a bit can be exchanged now: it is due, and this side is not ahead of its peer. -/
def isDue (p : SerialPort) : Bool := p.cyclesToTransmit == 0 && p.clock.isReady

/-- The packet with which this side sends its next bit. -/
def syncPacket (p : SerialPort) : Packet :=
  .sync p.connection.role p.port.outgoing p.port.control p.clock.timestamp

/-- A side that drives the clock sends its bit.  If that fails the connection is closed; the receiver
then closes the queue. -/
def offerBit (p : SerialPort) : Traced SerialPort := do
  if !p.port.drivesClock then return p
  else
    let p := p.withRegisters fun r => { r with pending := true }
    let sync := p.syncPacket
    let (ok, connection) ← p.connection.send sync
    let p := { p with connection }
    if ok then
      Traced.emit (.clockedOut sync)
      return p
    else
      let p := p.withRegisters fun r => { r with pending := false }
      return p.withSession (← p.toSession.close)

/-- A bit of the peer is shifted in.  The eighth one finishes the byte. -/
def takeBit (bit : UInt8) (p : SerialPort) : Traced (Progress × SerialPort) := do
  let port := p.port.shiftIn bit
  Traced.emit (.clockedIn (port.data &&& 1))
  if p.transferredBits + 1 < 8 then
    return (.idle, { p with
      port
      cycleCount := 0
      transferredBits := p.transferredBits + 1
      phase := .armed })
  else
    if p.interruptBased && p.hasListener then Traced.emit .interrupted
    return (.completed, { p with
      port := { port with control := port.control &&& ~~~Registers.transferBit }
      cycleCount := 0
      transferredBits := 0
      phase := .complete })

/-- Takes the peer's bit, if it is there. -/
def awaitBit (p : SerialPort) : Traced (Progress × SerialPort) := do
  match p.queue.pop with
  | (.item item, queue) =>
    takeBit item.data { p with queue, port := { p.port with waiting := false } }
  | (.closed, _) => return (.idle, ← p.disable p.receiverError)
  | (.empty, _) => return (.blocked, p)

/-- Exchanges a bit. -/
def exchange (p : SerialPort) : Traced (Progress × SerialPort) := do
  let p ← { p with phase := .exchanging }.offerBit
  (p.withRegisters fun r => { r with waiting := true }).awaitBit

/-- Lets cycles pass, and exchanges a bit if one is due.  A port whose receiver has ended exchanges the
bits that are still there and is then without a link.  A port that is blocked stays so. -/
def tick (cycles : UInt32) (p : SerialPort) : Traced (Progress × SerialPort) := do
  match p.phase with
  | .disabled => return (.idle, p.withRegisters fun r => { r with data := 0xff })
  | .exchanging => return (.blocked, p)
  | .armed | .complete =>
    if p.queue.isExhausted then return (.idle, ← p.disable p.receiverError)
    else
      let p := p.elapse cycles
      if p.isDue then p.exchange else return (.idle, p)

/-- A blocked port looks for the peer's bit again. -/
def resume (p : SerialPort) : Traced (Progress × SerialPort) :=
  if p.phase = .exchanging then p.awaitBit else return (.idle, p)

/-- A blocked port gives up.  Here that is done in one piece: the receiver is stopped before anything else comes. -/
def timeOut (p : SerialPort) : Traced SerialPort := do
  if p.phase = .exchanging then
    Traced.note (.peerSilent p.transferTimeout)
    p.disable .transferTimeout
  else return p

end SerialLink.SerialPort
