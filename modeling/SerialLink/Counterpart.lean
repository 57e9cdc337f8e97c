import SerialLink.Session

/-!
# The peer of a session

A `Counterpart` is the peer as it sees its connections to a session: it talks through one of them, and may
wait for another one to be accepted.  It talks through a new connection once both sides have it.  Whoever
calls anew gives up the call that still waits.
-/

namespace SerialLink

/-- The connections of a peer, by the numbers of their ends at this side. -/
structure Counterpart where
  /-- The number of the latest connection that was begun. -/
  latest : Nat := 0
  /-- The connection through which the peer talks; its number is zero if there was none. -/
  current : Nat := 0
  /-- The call of the peer that was not accepted yet. -/
  pending : Option Nat := none
  deriving DecidableEq, Inhabited, Repr

namespace Counterpart

variable {π : Type}

/-- This side's end of the next connection. -/
def nextEnd (remote : Address) (c : Counterpart) : Tcp.Endpoint := { remote, tag := c.latest + 1 }

/-- The peer calls: whether it is waited for. -/
def call [Responder π] (remote : Address) (s : Session π) (c : Counterpart) :
    Traced (Bool × Session π × Counterpart) := do
  let s ← match c.pending with
    | some former => s.arriveAt former .reset
    | none => pure s
  let (ok, connection) := s.connection.call (c.nextEnd remote)
  let latest := c.latest + 1
  return (ok, { s with connection }, { c with latest, pending := if ok then some latest else none })

/-- The call of the peer was accepted. -/
def accepted (c : Counterpart) : Counterpart :=
  match c.pending with
  | some number => { c with current := number, pending := none }
  | none => c

/-- The peer was called, and the connection was made. -/
def answered (c : Counterpart) : Counterpart :=
  { c with latest := c.latest + 1, current := c.latest + 1 }

/-- Something comes from the peer. -/
def tell [Responder π] (segment : Tcp.Segment) (s : Session π) (c : Counterpart) : Traced (Session π) :=
  s.arriveAt c.current segment

end Counterpart

end SerialLink
