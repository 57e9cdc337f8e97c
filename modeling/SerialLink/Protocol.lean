import SerialLink.BitQueue
import SerialLink.Clock
import SerialLink.Traced

/-!
# The link protocol

What a side does with a packet of its peer.  A version is checked, and the first right one is answered
with the status of this side; a status is answered with a status; `Sync3` comes back as it is.  A packet
that brings a bit is either the answer to a bit that this side has sent, or it is answered with the next
bit of this side; either way the bit goes into the queue.  The answer is put together before the bit is
queued, because the port may go on as soon as the bit is there.
-/

namespace SerialLink

/-- Where the protocol gets what it answers with.  Looking may change the state of the port. -/
class Responder (σ : Type) where
  /-- Whether this side has sent a bit that is still unanswered; from then on it counts as answered. -/
  takeRequest : σ → Bool × σ
  /-- The next bit of this side. -/
  takeBit : σ → UInt8 × σ
  /-- The serial control register. -/
  control : σ → UInt8 × σ
  /-- The time that this side tells, given its clock. -/
  timestamp : Clock → σ → UInt32 × σ
  /-- Whether the port has hung up the connection since it was last asked this. -/
  takeHangUp : σ → Bool × σ

/-- The state of the protocol on one connection. -/
structure Protocol where
  /-- The role of this side; an unlinked side has no protocol to follow. -/
  role : Role := .disabled
  /-- Whether the peer's version was found right. -/
  acknowledged : Bool := false
  deriving DecidableEq, Inhabited, Repr

namespace Protocol

/-- The protocol of a side that is not linked. -/
def idle : Protocol := {}

/-- The protocol at the start of a connection; an unlinked side has none. -/
def start? (role : Role) : Option Protocol :=
  if role = .disabled then none else some ⟨role, false⟩

/-- Forgets the peer's version. -/
def reset (p : Protocol) : Protocol := { p with acknowledged := false }

/-- What handling a packet leads to. -/
structure Outcome (σ : Type) where
  protocol : Protocol
  queue : BitQueue
  port : σ
  /-- What is to be sent back. -/
  reply : Option Packet := none
  /-- What is wrong with the packet, or why the connection ends with it. -/
  failure : Option Failure := none

/-- Whether there is an answer, and what a place that held a packet then holds. -/
def Outcome.replyInto {σ : Type} (place : Packet) (o : Outcome σ) : Bool × Packet :=
  match o.reply with
  | some reply => (true, reply)
  | none => (false, place)

variable {σ : Type} [Responder σ]

/-- A packet that tells that this side runs. -/
def statusReply (clock : Clock) (port : σ) : Packet × σ :=
  let (time, port) := Responder.timestamp clock port
  (Packet.status Packet.running time, port)

/-- A packet with the next bit of this side. -/
def bitReply (role : Role) (clock : Clock) (port : σ) : Packet × σ :=
  let (bit, port) := Responder.takeBit port
  let (control, port) := Responder.control port
  let (time, port) := Responder.timestamp clock port
  (Packet.sync role bit control time, port)

/-- The answer to a bit of the peer; there is none if the bit itself is an answer. -/
def syncReply (role : Role) (clock : Clock) (port : σ) : Option Packet × σ :=
  let (answered, port) := Responder.takeRequest port
  if answered then (none, port)
  else
    let (reply, port) := bitReply role clock port
    (some reply, port)

/-- The entry of the queue that a packet brings. -/
def itemOf (packet : Packet) : BitQueue.Item := ⟨packet.b2, packet.timestamp⟩

/-- Handles the peer's version. -/
def handleVersion (packet : Packet) (clock : Clock) (p : Protocol) (queue : BitQueue) (port : σ) :
    Traced (Outcome σ) := do
  Traced.note (.peerVersion packet.b2 packet.b3 packet.b4)
  if (packet.b2, packet.b3, packet.b4) != Packet.protocolVersion then
    Traced.note (.versionMismatch packet.b2 packet.b3 packet.b4)
    return { protocol := p, queue, port, failure := some .versionMismatch }
  else if p.acknowledged then
    return { protocol := p, queue, port }
  else
    let (reply, port) := statusReply clock port
    return { protocol := { p with acknowledged := true }, queue, port, reply := some reply }

/-- Handles a bit of the peer. -/
def handleSync (packet : Packet) (clock : Clock) (p : Protocol) (queue : BitQueue) (port : σ) :
    Outcome σ :=
  let (reply, port) := syncReply p.role clock port
  { protocol := p, queue := queue.push (itemOf packet), port, reply }

/-- Handles a packet that comes back as it is, with the time of this side. -/
def handleEcho (packet : Packet) (clock : Clock) (p : Protocol) (queue : BitQueue) (port : σ) :
    Outcome σ :=
  let (time, port) := Responder.timestamp clock port
  { protocol := p, queue, port,
    reply := some (.make Packet.Kind.sync3.code packet.b2 packet.b3 packet.b4 time) }

/-- Handles the peer's status. -/
def handleStatus (packet : Packet) (clock : Clock) (p : Protocol) (queue : BitQueue) (port : σ) :
    Traced (Outcome σ) := do
  Traced.note (.peerStatus (Packet.hasFlag packet.b2 Packet.running)
    (Packet.hasFlag packet.b2 Packet.paused) (Packet.hasFlag packet.b2 Packet.supportsReconnect))
  let (reply, port) := statusReply clock port
  return { protocol := p, queue, port, reply := some reply }

/-- Handles a packet of the peer. -/
def handle (packet : Packet) (clock : Clock) (p : Protocol) (queue : BitQueue) (port : σ) :
    Traced (Outcome σ) :=
  match packet.kind? with
  | some .version => handleVersion packet clock p queue port
  | some .joypadUpdate => return { protocol := p, queue, port }
  | some .sync1 | some .sync2 => return handleSync packet clock p queue port
  | some .sync3 => return handleEcho packet clock p queue port
  | some .status => handleStatus packet clock p queue port
  | some .wantDisconnect => do
    Traced.note .disconnectRequested
    return { protocol := p, queue, port, failure := some .connectionTerminated }
  | none => do
    Traced.note (.unknownPacket packet.kind)
    return { protocol := p, queue, port, failure := some .unknownPacketKind }

end Protocol

end SerialLink
