import SerialLink.Failure
import SerialLink.Packet
import SerialLink.Tcp.Socket

/-!
# The connection to the peer

A connection is made by waiting for the peer or by calling it.  It carries packets until it is closed;
closing it lets the other side know but keeps the sockets, so that what has come can still be read.
-/

namespace SerialLink

open Tcp

/-- The connection of a link. -/
structure Connection where
  /-- The socket on which the peer is waited for. -/
  listener : Socket := .closed
  /-- The socket that is connected to the peer. -/
  stream : Socket := .closed
  /-- Whether the link may send. -/
  established : Bool := false
  role : Role := .disabled
  /-- How the operating system will answer the next requests. -/
  host : Host := {}
  deriving DecidableEq, Inhabited, Repr

namespace Connection

/-- A connection that was never made. -/
def none : Connection := {}

/-- Waits for the peer at an address. -/
def listen (address : Address) (c : Connection) : Traced (Bool × Connection) := do
  Traced.note (.binding address.host address.port)
  let (ok, listener, host) ← c.listener.listen address c.host
  return (ok, { c with listener, host })

/-- Makes the connection usable in a role.  Each bit travels in a packet of its own, so packets have to
leave at once. -/
def establish (role : Role) (c : Connection) : Traced (Bool × Connection) := do
  let (ok, host) ← c.stream.setNoDelay c.host
  if ok then return (true, { c with host, role, established := true })
  else return (false, { c with host })

/-- Accepts the peer's call. -/
def accept (c : Connection) : Traced (Bool × Connection) := do
  let accepted ← c.listener.accept c.host
  match accepted.endpoint with
  | .none => return (false, { c with listener := accepted.socket, host := accepted.host })
  | some e =>
    let (ok, c) ← establish .master
      { c with listener := .closed, stream := .stream e, host := accepted.host }
    if ok then Traced.note .peerConnected
    return (ok, c)

/-- Waits for the peer at an address and accepts its call. -/
def bindAndAccept (address : Address) (c : Connection) : Traced (Bool × Connection) := do
  let (ok, c) ← c.listen address
  if ok then c.accept else return (false, c)

/-- Calls the peer. -/
def connect (address : Address) (c : Connection) : Traced (Bool × Connection) := do
  Traced.note (.connecting address.host address.port)
  let (ok, stream, host) ← c.stream.connect address c.host
  if !ok then return (false, { c with stream, host })
  else
    let (ok, c) ← establish .slave { c with stream, host }
    if ok then Traced.note .connected
    return (ok, c)

/-- Closes the connection; the peer learns of it. -/
def close (c : Connection) : Connection :=
  { c with
    established := false
    stream := c.stream.shutdown
    listener := c.listener.shutdown }

/-- Gives the sockets back. -/
def destroy (c : Connection) : Connection :=
  { c with established := false, stream := .closed, listener := .closed, role := .disabled }

/-- Sends a packet. -/
def send (packet : Packet) (c : Connection) : Traced (Bool × Connection) := do
  if !c.established then
    Traced.emit (.refused packet)
    return (false, c)
  else
    let (ok, stream, host) ← c.stream.send packet.encode c.host
    Traced.emit (if ok then .sent packet else .refused packet)
    return (ok, { c with stream, host })

/-- Sends an answer, if there is one. -/
def answer (reply : Option Packet) (c : Connection) : Traced (Bool × Connection) :=
  match reply with
  | some packet => c.send packet
  | Option.none => return (true, c)

/-- What comes of reading a packet. -/
inductive Arrival
  | packet (packet : Packet)
  | failure (reason : Failure)
  /-- The packet is not complete, but more may come. -/
  | waiting
  deriving DecidableEq, Inhabited, Repr

/-- Reads a packet. -/
def receive (c : Connection) : Traced (Arrival × Connection) := do
  let received ← c.stream.receive Packet.size c.host
  let arrival : Arrival := match received.status with
    | .ok =>
      match Packet.decode? received.bytes with
      | some packet => .packet packet
      | Option.none => .failure .malformedPacket
    | .truncated => .failure .malformedPacket
    | .closed | .error => .failure .connectionTerminated
    | .waiting => .waiting
  return (arrival, { c with stream := received.socket, host := received.host })

/-- Whether the connection waits for the peer at some port. -/
def isListening (c : Connection) : Bool := (c.listener.hasPort {}).1

/-- The number of bytes that have come and were not read. -/
def unread (c : Connection) : Nat :=
  match c.stream with
  | .stream e => e.inbox.length
  | _ => 0

/-! ### The peer -/

/-- The peer calls, if it is waited for where the machine calls itself. -/
def call (e : Endpoint) (c : Connection) : Bool × Connection :=
  match c.listener with
  | .listener host backlog =>
    if answersAt home host then (true, { c with listener := .listener host (backlog ++ [e]) })
    else (false, c)
  | _ => (false, c)

/-- Something comes to the end of a number, which may be that of a call that was not accepted yet. -/
def arriveAt (tag : Nat) (segment : Segment) (c : Connection) : Connection :=
  let change (e : Endpoint) : Endpoint := if e.tag = tag then (e.arrive segment).2 else e
  match c.stream, c.listener with
  | .stream e, .listener host backlog =>
    { c with stream := .stream (change e), listener := .listener host (backlog.map change) }
  | .stream e, _ => { c with stream := .stream (change e) }
  | _, .listener host backlog => { c with listener := .listener host (backlog.map change) }
  | _, _ => c

/-- Something comes from the peer. -/
def arrive (segment : Segment) (c : Connection) : Connection :=
  match c.stream with
  | .stream e => { c with stream := .stream (e.arrive segment).2 }
  | _ => c

end Connection

end SerialLink
