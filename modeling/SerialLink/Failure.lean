/-!
# Why a link is lost

A link that works has no failure, so what a link reports is an `Option Failure`.
-/

namespace SerialLink

/-- The reason for which a link could not be made or was lost. -/
inductive Failure
  /-- The peer's address is not of the form `a.b.c.d:port`. -/
  | addressFormat
  /-- No connection could be made. -/
  | connectionFailed
  /-- The peer speaks another version of the protocol. -/
  | versionMismatch
  /-- The connection has ended, on whichever side. -/
  | connectionTerminated
  /-- The byte stream ended inside a packet. -/
  | malformedPacket
  /-- A packet of a kind that the protocol does not have; such a packet is passed over. -/
  | unknownPacketKind
  /-- The peer did not send its bit in time. -/
  | transferTimeout
  deriving DecidableEq, Inhabited, Repr

namespace Failure

/-- The name of a failure, as the log and the tool spell it. -/
def name : Failure → String
  | addressFormat => "address format"
  | connectionFailed => "connection failed"
  | versionMismatch => "version mismatch"
  | connectionTerminated => "connection terminated"
  | malformedPacket => "malformed packet"
  | unknownPacketKind => "unknown packet kind"
  | transferTimeout => "transfer timeout"

/-- The name of what a link reports, which may be no failure at all. -/
def nameOf : Option Failure → String
  | none => "none"
  | some f => f.name

/-- The numbers from zero on stand for no failure and then for the failures in their order. -/
def ofCode? : Int → Option (Option Failure)
  | 0 => some none
  | 1 => some (some addressFormat)
  | 2 => some (some connectionFailed)
  | 3 => some (some versionMismatch)
  | 4 => some (some connectionTerminated)
  | 5 => some (some malformedPacket)
  | 6 => some (some unknownPacketKind)
  | 7 => some (some transferTimeout)
  | _ => none

/-- The name that belongs to a number. -/
def nameOfCode (code : Int) : String :=
  match ofCode? code with
  | some reported => nameOf reported
  | none => "unknown"

end Failure

end SerialLink
