import SerialLink.SerialPort.Transfer

/-!
# A peer that follows a script

What the peer does while the port is blocked can be laid down beforehand.  The port takes one act after
the other until it can go on.  A peer that has sent a bit does nothing more until the port goes on; if its
bit is only a part of other packets, the port gives up waiting.  When there are no more acts, a port that
waits for ever sees the peer end the connection, and any other port gives up.  So every tick comes to an
end.
-/

namespace SerialLink

/-- What a peer does. -/
inductive Peer.Act
  | send (bytes : Bytes)
  /-- Ends the connection in an orderly way. -/
  | finish
  /-- Gives the connection up. -/
  | reset
  deriving DecidableEq, Inhabited, Repr

namespace Peer

/-- What an act has come to this side. -/
def Act.segment : Act → Tcp.Segment
  | send bytes => .data bytes
  | finish => .finish
  | reset => .reset

/-- Whether the peer means to send a bit, and nothing else. -/
def Act.isBit : Act → Bool
  | send bytes => (Packet.decode? bytes).any (·.isSync)
  | _ => false

end Peer

namespace SerialPort

open Peer

/-- Whether the peer can call the port: it calls only where no link is plugged in. -/
def awaitsCall (p : SerialPort) : Bool := !p.isEnabled

/-- Whether the port gives up waiting some time. -/
def givesUp (p : SerialPort) : Bool := p.transferTimeout != 0

/-- A blocked port takes acts of the peer until it can go on: how the tick ends, and the acts that are
left. -/
def waitOut : List Act → SerialPort → Traced (Progress × List Act × SerialPort)
  | [], p => do
    if p.givesUp then return (.idle, [], ← p.timeOut)
    else
      let (progress, p) ← (← p.arrive .finish).resume
      return (progress, [], p)
  | act :: acts, p => do
    let (progress, p) ← (← p.arrive act.segment).resume
    if progress != .blocked then return (progress, acts, p)
    else if act.isBit && p.givesUp then return (.idle, acts, ← p.timeOut)
    else waitOut acts p

/-- Lets cycles pass, with a peer that follows a script while the port is blocked. -/
def tickAgainst (acts : List Act) (cycles : UInt32) (p : SerialPort) :
    Traced (Progress × List Act × SerialPort) := do
  let (progress, p) ← p.tick cycles
  if progress = .blocked then p.waitOut acts else return (progress, acts, p)

end SerialPort

end SerialLink
