import SerialLink.Tcp.Socket

/-!
# Sockets that call each other

A `Network` holds the sockets of one machine, which reach each other by their ports.  Whatever a socket
sends comes to the other end at once, which may be a call that was not accepted yet; an end that is no
longer there answers by giving the connection up.  The side that ends a connection first keeps the port
from which it called in use, also when its socket is closed, until the other side gives the connection up.
-/

namespace SerialLink.Tcp

/-- A socket with its local port. -/
structure Slot where
  socket : Socket := .closed
  port : UInt16 := 0
  deriving Inhabited

/-- An end of a connection that is still known when its socket is closed. -/
structure Remnant where
  /-- The number of the end. -/
  tag : Nat
  port : UInt16
  deriving DecidableEq, Inhabited, Repr

/-- The sockets of a machine. -/
structure Network where
  slots : List Slot
  /-- The callers' ends that keep their ports in use without a socket. -/
  remnants : List Remnant := []
  /-- The next port that nobody has. -/
  nextPort : UInt16 := 40000
  /-- The number of connections that were made. -/
  connections : Nat := 0
  deriving Inhabited

namespace Network

/-- A network of closed sockets. -/
def ofSize (count : Nat) : Network := { slots := List.replicate count {} }

/-- A socket of the network. -/
def slot (i : Nat) (n : Network) : Slot := n.slots.getD i {}

/-- The network with one socket changed. -/
def setSlot (i : Nat) (s : Slot) (n : Network) : Network := { n with slots := n.slots.set i s }

/-- The network with one socket changed that keeps its port. -/
def setSocket (i : Nat) (s : Socket) (n : Network) : Network :=
  n.setSlot i { n.slot i with socket := s }

/-- The port of a socket; a closed one has none. -/
def port (i : Nat) (n : Network) : UInt16 :=
  if (n.slot i).socket.isOpen then (n.slot i).port else 0

/-! ### Ends of connections -/

/-- Changes the end of a number in a list of ends. -/
def changeIn (tag : Nat) (f : Endpoint → Endpoint) (ends : List Endpoint) : List Endpoint :=
  ends.map fun e => if e.tag = tag then f e else e

/-- Changes the end of a number, wherever it is. -/
def change (tag : Nat) (f : Endpoint → Endpoint) (n : Network) : Network :=
  { n with
    slots := n.slots.map fun s =>
      { s with
        socket := match s.socket with
          | .stream e => .stream (if e.tag = tag then f e else e)
          | .listener host backlog => .listener host (changeIn tag f backlog)
          | other => other } }

/-- The ends that a socket has. -/
def endsOf : Socket → List Endpoint
  | .stream e => [e]
  | .listener _ backlog => backlog
  | _ => []

/-- The end of a number, if it is still there. -/
def endpoint? (tag : Nat) (n : Network) : Option Endpoint :=
  (n.slots.flatMap fun s => endsOf s.socket).find? (·.tag = tag)

/-- Forgets the end of a number that has no socket any more. -/
def forget (tag : Nat) (n : Network) : Network :=
  { n with remnants := n.remnants.filter (·.tag != tag) }

/-- Keeps what is left of an end whose socket is closed, if anything is. -/
def keepRemnant (left : Bool) (e : Endpoint) (port : UInt16) (n : Network) : Network :=
  if left && e.isCaller then { n with remnants := ⟨e.tag, port⟩ :: n.remnants } else n

/-- Has a segment come to the end of a number. -/
def deliver (tag : Nat) (segment : Segment) (n : Network) : Network :=
  match n.endpoint? tag with
  | none =>
    match segment with
    | .data _ => (n.forget tag).change (tag ^^^ 1) fun e => (e.arrive .reset).2
    | .reset => n.forget tag
    | .finish => n
  | some e =>
    let n := n.change tag fun e => (e.arrive segment).2
    if (e.arrive segment).1 then n.change (tag ^^^ 1) fun e => (e.arrive .reset).2 else n

/-- Sends from an end what there is to send. -/
def sendFrom (e : Endpoint) (segment : Option Segment) (n : Network) : Network :=
  match segment with
  | some segment => n.deliver e.otherTag segment
  | none => n

/-- Closes a socket. -/
def close (i : Nat) (n : Network) : Network :=
  let before := n.slot i
  let n := n.setSlot i {}
  match before.socket with
  | .stream e => (n.keepRemnant e.lingers e before.port).sendFrom e e.closing
  | .listener _ backlog => backlog.foldl (fun n e => n.sendFrom e e.aborting) n
  | _ => n

/-- Closes a socket so that the other end sees the connection given up. -/
def abort (i : Nat) (n : Network) : Network :=
  let before := n.slot i
  match before.socket with
  | .stream e => ((n.setSlot i {}).keepRemnant e.hasOutlived e before.port).sendFrom e e.aborting
  | _ => n.close i

/-- Shuts a socket down. -/
def shutdown (i : Nat) (n : Network) : Network :=
  let before := (n.slot i).socket
  let n := n.setSocket i before.shutdown
  match before with
  | .stream e => n.sendFrom e e.shutdown.1
  | .listener _ backlog => backlog.foldl (fun n e => n.sendFrom e e.aborting) n
  | _ => n

/-! ### Ports -/

/-- Whether nobody can wait at an address because a caller's end has its port. -/
def isCallersPort (address : Address) (port : UInt16) : Bool :=
  port == address.port && overlap address.host.untilZero home

/-- Whether a socket keeps others from waiting at an address: it is called there, or it has called from
there. -/
def holds (address : Address) (s : Slot) : Bool :=
  match s.socket with
  | .listener host _ => s.port == address.port && overlap address.host.untilZero host
  | .stream e => e.isCaller && e.holdsPort && isCallersPort address s.port
  | _ => false

/-- Whether nobody else can wait at an address. -/
def isTaken (address : Address) (n : Network) : Bool :=
  n.slots.any (holds address) || n.remnants.any fun r => isCallersPort address r.port

/-- The socket that is called at an address. -/
def listenerAt? (address : Address) (n : Network) : Option Nat :=
  n.slots.findIdx? fun s => s.port == address.port && s.socket.isCalledAt address.host

/-! ### The operations of a socket -/

/-- Has a socket called at an address; port zero means one that nobody has. -/
def listen (i : Nat) (address : Address) (h : Host) (n : Network) : Traced (Bool × Network) := do
  let usable := Address.isPlainHost address.host.untilZero
  let n := if usable then n.close i else n
  let taken := address.port != 0 && n.isTaken address
  let h := { h with portRefusal := if taken then some .addressInUse else none }
  let (ok, socket, _) ← (n.slot i).socket.listen address (h.away address)
  if ok then
    let fresh := address.port == 0
    let port := if fresh then n.nextPort else address.port
    let n := if fresh then { n with nextPort := n.nextPort + 1 } else n
    return (true, n.setSlot i ⟨socket, port⟩)
  else return (false, n.setSocket i socket)

/-- Calls an address. -/
def connect (i : Nat) (address : Address) (h : Host) (n : Network) : Traced (Bool × Network) := do
  let usable := Address.isPlainHost address.host.untilZero
  let n := if usable then n.close i else n
  let target := if address.host = home then n.listenerAt? address else none
  let tag := 2 * n.connections
  let near : Endpoint := { remote := address, tag := tag }
  let far : Endpoint := { remote := ⟨home, n.nextPort⟩, tag := tag + 1 }
  let (ok, socket, _) ← (n.slot i).socket.connect address
    { h with answering := target.map fun _ => near }
  match ok, target with
  | true, some j =>
    let n := { n with nextPort := n.nextPort + 1, connections := n.connections + 1 }
    let n := match (n.slot j).socket with
      | .listener host backlog => n.setSocket j (.listener host (backlog ++ [far]))
      | _ => n
    return (true, n.setSlot i ⟨socket, n.nextPort - 1⟩)
  | _, _ => return (false, n.setSocket i socket)

/-- Puts a slot in the place of another one, whose socket is closed.  The new one is part of the network
while that happens: it may be the other end of the connection that is closed. -/
def replace (i : Nat) (s : Slot) (n : Network) : Network :=
  let aside := n.slots.length
  let n := { n with slots := n.slots ++ [s] }.close i
  { n with slots := n.slots.take aside }.setSlot i (n.slot aside)

/-- Accepts the first call of a socket into another one. -/
def accept (i client : Nat) (h : Host) (n : Network) : Traced (Bool × Network) := do
  let port := (n.slot i).port
  let accepted ← (n.slot i).socket.accept h
  let n := n.setSocket i accepted.socket
  match accepted.endpoint with
  | some e => return (true, n.replace client ⟨.stream e, port⟩)
  | none => return (false, n)

/-- Has small packets of a socket sent at once, or gathered. -/
def setNoDelay (i : Nat) (h : Host) (n : Network) : Traced Bool := do
  return (← (n.slot i).socket.setNoDelay h).1

/-- Sends bytes. -/
def send (i : Nat) (bytes : Bytes) (h : Host) (n : Network) : Traced (Bool × Network) := do
  let (ok, socket, _) ← (n.slot i).socket.send bytes h
  let n := n.setSocket i socket
  match ok && !bytes.isEmpty, socket with
  | true, .stream e => return (true, n.sendFrom e (some (.data bytes)))
  | _, _ => return (ok, n)

/-- Reads exactly so many bytes: how that went, and the bytes that were read. -/
def receive (i count : Nat) (h : Host) (n : Network) : Traced (Status × Bytes × Network) := do
  let received ← (n.slot i).socket.receive count h
  return (received.status, received.bytes, n.setSocket i received.socket)

end Network

end SerialLink.Tcp
