import SerialLink.Protocol

/-!
# A port that is set by hand

A `ManualPort` answers the protocol with values that were set beforehand, and keeps a list of what it
was asked for.  It can be set to hang up the connection when it is asked for the time or for the serial
control register; that takes effect before the answer is sent.
-/

namespace SerialLink

/-- What a port is asked for. -/
inductive ManualPort.Question
  | request
  | bit
  deriving DecidableEq, Inhabited, Repr

/-- A port that answers with fixed values. -/
structure ManualPort where
  bit : UInt8 := 0
  control : UInt8 := 0
  timestamp : UInt32 := 0
  /-- Whether a bit was sent and is unanswered. -/
  pending : Bool := false
  /-- Whether to hang up when asked for the time. -/
  closeOnTimestamp : Bool := false
  /-- Whether to hang up when asked for the control register. -/
  closeOnControl : Bool := false
  /-- What the port was asked for, in that order. -/
  asked : List ManualPort.Question := []
  /-- Whether the port has hung up. -/
  hangsUp : Bool := false
  deriving DecidableEq, Inhabited, Repr

instance : Responder ManualPort where
  takeRequest port :=
    (port.pending, { port with pending := false, asked := port.asked ++ [.request] })
  takeBit port := (port.bit, { port with asked := port.asked ++ [.bit] })
  control port := (port.control, { port with hangsUp := port.hangsUp || port.closeOnControl })
  timestamp _ port :=
    (port.timestamp, { port with hangsUp := port.hangsUp || port.closeOnTimestamp })
  takeHangUp port := (port.hangsUp, { port with hangsUp := false })

end SerialLink
