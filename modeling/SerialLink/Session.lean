import SerialLink.Connection
import SerialLink.Protocol

/-!
# Sessions

A session is what lives on one connection: the receiver, which reads the peer's packets one after the
other, has the protocol handle each, and sends the answer; and the clock and the queue that it fills.
The receiver runs until the connection ends.  It then leaves the reason behind and closes the queue, so
that whoever waits there learns of it.

The receiver reads whatever has come: `pump` lets it go on until it waits for more, or has ended.
-/

namespace SerialLink

/-- The receiver of a session. -/
structure Receiver where
  /-- Whether the receiver was started and nobody has stopped it since. -/
  started : Bool := false
  /-- Whether the receiver is at work. -/
  running : Bool := false
  /-- Why the receiver has ended, if it has. -/
  error : Option Failure := none
  /-- The number of packets that were handled. -/
  packetCount : UInt32 := 0
  deriving DecidableEq, Inhabited, Repr

/-- What lives on one connection, with the port that answers for this side. -/
structure Session (π : Type) where
  connection : Connection := {}
  protocol : Protocol := {}
  clock : Clock := {}
  queue : BitQueue := {}
  receiver : Receiver := {}
  port : π
  deriving Inhabited

namespace Session

variable {π : Type}

/-- The receiver ends: it tells why, and closes the connection and the queue. -/
def finish (reason : Failure) (s : Session π) : Traced (Session π) := do
  Traced.note <|
    if reason = .connectionTerminated then .connectionClosed else .connectionAborted (some reason)
  return { s with
    receiver := { s.receiver with error := some reason, running := false }
    connection := s.connection.close
    queue := s.queue.close }

/-- A packet that is not understood is passed over; any other failure ends the connection. -/
def isFatal (reason : Option Failure) : Option Failure :=
  if reason = some .unknownPacketKind then none else reason

/-- What the protocol makes of a packet that has come. -/
def outcome [Responder π] (packet : Packet) (s : Session π) : Traced (Protocol.Outcome π) :=
  s.protocol.handle packet (s.clock.hear packet.timestamp) s.queue s.port

/-- The session after a packet was handled.  The port may have hung up meanwhile. -/
def handled [Responder π] (packet : Packet) (outcome : Protocol.Outcome π) (s : Session π) :
    Session π :=
  let (hungUp, port) := Responder.takeHangUp outcome.port
  { s with
    clock := s.clock.hear packet.timestamp
    protocol := outcome.protocol
    queue := outcome.queue
    port
    receiver := { s.receiver with packetCount := s.receiver.packetCount + 1 }
    connection := if hungUp then s.connection.close else s.connection }

/-- Goes on after a packet, unless the answer to it could not be sent or the connection ends with it. -/
def proceed (answered : Bool) (failure : Option Failure) (s : Session π) : Traced (Session π) :=
  if !answered then s.finish .connectionTerminated
  else
    match isFatal failure with
    | some reason => s.finish reason
    | none => return s

/-- Handles a packet that has come, and sends the answer. -/
def takePacket [Responder π] (packet : Packet) (s : Session π) : Traced (Session π) := do
  let outcome ← s.outcome packet
  Traced.emit (.handled packet outcome.reply)
  let s := s.handled packet outcome
  let (answered, connection) ← s.connection.answer outcome.reply
  { s with connection }.proceed answered outcome.failure

/-- The receiver reads once: whether it goes on reading, and the session afterwards. -/
def receiveNext [Responder π] (s : Session π) : Traced (Bool × Session π) := do
  if !s.receiver.running then return (false, s)
  else
    let (arrival, connection) ← s.connection.receive
    let s := { s with connection }
    match arrival with
    | .packet packet =>
      let s ← s.takePacket packet
      return (s.receiver.running, s)
    | .failure reason =>
      let s ← s.finish (if s.connection.established then reason else .connectionTerminated)
      return (false, s)
    | .waiting => return (false, s)

/-- The receiver reads at most so many times. -/
def pumpUpTo [Responder π] : Nat → Session π → Traced (Session π)
  | 0, s => return s
  | bound + 1, s => do
    let (more, s) ← s.receiveNext
    if more then pumpUpTo bound s else return s

/-- The receiver reads until it waits for more, or has ended.  Each read but the last takes a packet out
of what has come. -/
def pump [Responder π] (s : Session π) : Traced (Session π) :=
  s.pumpUpTo (s.connection.unread / Packet.size + 1)

/-- Starts the receiver on an open connection, unless an earlier one was not stopped.  The receiver
first tells the version of the protocol. -/
def start [Responder π] (s : Session π) : Traced (Bool × Session π) := do
  if s.receiver.started || !s.connection.established then return (false, s)
  else
    let s := { s with receiver := { started := true, running := true } }
    let (ok, connection) ← s.connection.send (Packet.version 0)
    let s := { s with connection }
    let s ← if ok then s.pump else s.finish .connectionTerminated
    return (true, s)

/-- Closes the connection, which ends the receiver if it is at work. -/
def close [Responder π] (s : Session π) : Traced (Session π) :=
  { s with connection := s.connection.close }.pump

/-- Stops the receiver, which closes the connection, if it was started. -/
def stop [Responder π] (s : Session π) : Traced (Session π) := do
  if s.receiver.started then
    let s ← s.close
    return { s with receiver := { s.receiver with started := false } }
  else return s

/-- Something comes from the peer. -/
def arrive [Responder π] (segment : Tcp.Segment) (s : Session π) : Traced (Session π) :=
  { s with connection := s.connection.arrive segment }.pump

/-- Something comes to the end of a number. -/
def arriveAt [Responder π] (tag : Nat) (segment : Tcp.Segment) (s : Session π) :
    Traced (Session π) :=
  { s with connection := s.connection.arriveAt tag segment }.pump

end Session

end SerialLink
