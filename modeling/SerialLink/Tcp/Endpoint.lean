import SerialLink.Address
import SerialLink.SystemError

/-!
# The ends of a connection

An `Endpoint` is one end of an established connection, as the operating system keeps it for its owner:
the bytes that have come and were not read yet, and what is known of the other end.  Bytes that have
come are read before the end of the stream or a failure shows.  A failure shows once; after that the
broken connection takes no bytes and gives none.
-/

namespace SerialLink.Tcp

/-- What travels from one end to the other. -/
inductive Segment
  | data (bytes : Bytes)
  /-- The sender will send no more. -/
  | finish
  /-- The sender has given the connection up. -/
  | reset
  deriving DecidableEq, Inhabited, Repr

/-- One end of a connection. -/
structure Endpoint where
  /-- The address of the other end. -/
  remote : Address := ⟨[], 0⟩
  /-- The number of this end; the two ends of a connection have the numbers `2 n` and `2 n + 1`. -/
  tag : Nat := 0
  /-- The bytes that have come and were not read. -/
  inbox : Bytes := []
  /-- Whether the other end has said that it will send no more. -/
  finished : Bool := false
  /-- A failure that has not shown yet. -/
  failure : Option SystemError := none
  /-- Whether the connection is given up. -/
  broken : Bool := false
  /-- Whether the owner has shut this end down. -/
  shut : Bool := false
  /-- Whether that was after the other end had finished; then nothing of the connection lingers. -/
  shutLast : Bool := false
  deriving DecidableEq, Inhabited, Repr

namespace Endpoint

/-- The number of the other end. -/
def otherTag (e : Endpoint) : Nat := e.tag ^^^ 1

/-- Gives the connection up.  How that shows depends on whether the other end was still sending. -/
def breakDown (e : Endpoint) : Endpoint :=
  { e with
    broken := true
    failure := some (if e.finished then .brokenPipe else .connectionReset) }

/-- What a segment does to the end it comes to, and whether that end answers by giving up.  Nothing comes
from a sender that will send no more. -/
def arrive (segment : Segment) (e : Endpoint) : Bool × Endpoint :=
  match segment with
  | .data bytes =>
    if e.finished then (false, e)
    else if e.broken then (true, e)
    else if e.shut then (true, e.breakDown)
    else (false, { e with inbox := e.inbox ++ bytes })
  | .finish => (false, if e.broken then e else { e with finished := true })
  | .reset => (false, if e.broken || (e.shut && e.finished) then e else e.breakDown)

/-- Hands bytes over for sending. -/
def send (e : Endpoint) : Option SystemError × Endpoint :=
  match e.failure with
  | some error => (some error, { e with failure := none })
  | none => (if e.shut || e.broken then some .brokenPipe else none, e)

/-- What reading comes upon. -/
inductive Taken
  /-- All the bytes that were asked for. -/
  | all (bytes : Bytes)
  /-- The end of the stream, after fewer bytes. -/
  | ended (bytes : Bytes)
  /-- A failure, after fewer bytes. -/
  | failed (bytes : Bytes) (error : SystemError)
  /-- Too few bytes, but more may come. -/
  | waiting
  deriving DecidableEq, Inhabited, Repr

/-- Reads a number of bytes.  An end that waits for more leaves its bytes where they are. -/
def take (count : Nat) (e : Endpoint) : Taken × Endpoint :=
  if count ≤ e.inbox.length then
    (.all (e.inbox.take count), { e with inbox := e.inbox.drop count })
  else if e.finished then (.ended e.inbox, { e with inbox := [] })
  else
    match e.failure with
    | some error => (.failed e.inbox error, { e with inbox := [], failure := none })
    | none =>
      if e.shut || e.broken then (.ended e.inbox, { e with inbox := [] })
      else (.waiting, e)

/-- Shuts this end down: nothing more is sent from it. -/
def shutdown (e : Endpoint) : Option Segment × Endpoint :=
  (if e.shut || e.broken then none else some .finish,
    { e with shut := true, shutLast := if e.shut then e.shutLast else e.finished })

/-- Whether this end belongs to the side that has called. -/
def isCaller (e : Endpoint) : Bool := e.tag % 2 == 0

/-- Whether nothing will be sent any more, in either direction. -/
def isOver (e : Endpoint) : Bool := e.broken || (e.shut && e.finished)

/-- What the other end gets when this end is closed.  Closing with bytes unread gives the connection
up. -/
def closing (e : Endpoint) : Option Segment :=
  if e.isOver then none
  else if !e.inbox.isEmpty then some .reset
  else if e.shut then none
  else some .finish

/-- Whether this end has its local port as long as it is not closed. -/
def holdsPort (e : Endpoint) : Bool := !e.broken && !e.shutLast

/-- Whether the end is over on both sides, and this side was the first to finish: then its port stays in
use, whatever becomes of its owner. -/
def hasOutlived (e : Endpoint) : Bool := e.holdsPort && e.shut && e.finished

/-- Whether the local port stays in use when this end is closed: the side that finishes first waits. -/
def lingers (e : Endpoint) : Bool :=
  if e.finished then e.hasOutlived else e.holdsPort && e.inbox.isEmpty

/-- What the other end gets when this end is given up. -/
def aborting (e : Endpoint) : Option Segment := if e.isOver then none else some .reset

end Endpoint

end SerialLink.Tcp
