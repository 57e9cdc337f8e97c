import SerialLink.Decimal
import SerialLink.Failure
import SerialLink.Role
import SerialLink.Severity
import SerialLink.SystemError

/-!
# What the log says

Each `Notice` is one thing that the link, its connection, its configuration or the tool reports, with
the values that it reports.  `Notice.severity` says how serious it is and `Notice.text` words it.  A
line of the log has at most 4095 bytes, line end included (`length_clip_le`), and text that is
quoted in it ends at its first zero byte.
-/

namespace SerialLink

/-! ### Lines -/

namespace Line

/-- A line of the log has room for 4095 bytes; what is longer is cut there. -/
def clip (line : Bytes) : Bytes := line.take 4095

theorem length_clip_le (line : Bytes) : (clip line).length ≤ 4095 := by
  rw [clip, List.length_take]
  exact Nat.min_le_left 4095 line.length

/-- The parts of a line put together and ended. -/
def ofParts (parts : List Bytes) : Bytes := clip (parts.flatten ++ [10])

/-- Fixed text. -/
def lit (s : String) : Bytes := Bytes.ofString s

/-- A text that is quoted in a line. -/
def quoted (b : Bytes) : Bytes := b.untilZero

/-- A number. -/
def number (n : Nat) : Bytes := Decimal.natural n

/-- A condition, as one or zero. -/
def flag (b : Bool) : Bytes := if b then [49] else [48]

/-- A text on a line of its own. -/
def ofText (text : Bytes) : Bytes := ofParts [quoted text]

/-- A text and then a number three times: as it is, in hexadecimal, and as a signed word. -/
def ofTextAndWord (text : Bytes) (n : UInt32) : Bytes :=
  ofParts [quoted text, lit " ", number n.toNat, lit " 0x", Decimal.hex n.toNat, lit " ",
    Decimal.integer n.toInt32.toInt]

/-- A host and a port, as in an address. -/
def hostAndPort (host : Bytes) (port : UInt16) : Bytes :=
  quoted host ++ lit ":" ++ number port.toNat

/-- Three version numbers with points between them. -/
def version (major minor patch : UInt8) : Bytes :=
  number major.toNat ++ lit "." ++ number minor.toNat ++ lit "." ++ number patch.toNat

end Line

/-! ### Notices -/

/-- One thing that is reported. -/
inductive Notice
  /-- A check has failed. -/
  | assertionFailed (condition : Bytes)
  -- sockets
  | invalidListenAddress (host : Bytes)
  | invalidConnectAddress (host : Bytes)
  | noSocket (reason : SystemError)
  | bindFailed (host : Bytes) (port : UInt16) (reason : SystemError)
  | listenFailed (host : Bytes) (port : UInt16) (reason : SystemError)
  | acceptFailed (reason : SystemError)
  | accepted (host : Bytes) (port : UInt16)
  | connectFailed (host : Bytes) (port : UInt16) (reason : SystemError)
  | noDelayFailed (reason : SystemError)
  | sendFailed (reason : SystemError)
  | receiveFailed (reason : SystemError)
  -- the connection
  | binding (host : Bytes) (port : UInt16)
  | connecting (host : Bytes) (port : UInt16)
  | peerConnected
  | connected
  -- the peer's packets
  | peerVersion (major minor patch : UInt8)
  | versionMismatch (major minor patch : UInt8)
  | peerStatus (running paused reconnect : Bool)
  | disconnectRequested
  | unknownPacket (kind : UInt8)
  -- the end of a connection
  | connectionClosed
  | connectionAborted (reason : Option Failure)
  -- the serial port
  | noAddress
  | unusableAddress (text : Bytes)
  | linkUnavailable (reason : Option Failure)
  | linkDisabled (reason : Failure)
  | peerSilent (milliseconds : UInt32)
  -- configuration
  | unreadableConfig (path : Bytes)
  | invalidConfig (path : Bytes)
  -- the tool
  | noPeer (reason : Option Failure)
  | established (role : Role)
  | exchanged (sent received : UInt8)
  | interrupt (count : UInt32)
  | transferAborted (reason : Option Failure)
  | stateSaved (path : Bytes)
  | stateNotSaved (path : Bytes)
  deriving DecidableEq, Inhabited, Repr

namespace Notice

/-- How serious a notice is. -/
def severity : Notice → Severity
  | assertionFailed _ | invalidListenAddress _ | invalidConnectAddress _ | noSocket _
  | bindFailed .. | listenFailed .. | acceptFailed _ | connectFailed .. | noDelayFailed _
  | versionMismatch .. | connectionAborted _ | invalidConfig _ | noPeer _ | transferAborted _
  | stateNotSaved _ => .error
  | unknownPacket _ | unusableAddress _ | linkUnavailable _ | linkDisabled _ | peerSilent _
  | unreadableConfig _ => .warning
  | binding .. | connecting .. | peerConnected | connected | peerVersion .. | disconnectRequested
  | connectionClosed | noAddress | established _ | stateSaved _ => .info
  | accepted .. | sendFailed _ | receiveFailed _ | peerStatus .. | exchanged .. | interrupt _ =>
    .debug

open Line

/-- The words of a notice, in parts. -/
def parts : Notice → List Bytes
  | assertionFailed condition => [lit "Assertion failed: ", quoted condition]
  | invalidListenAddress host => [lit "Invalid listen address ", quoted host]
  | invalidConnectAddress host => [lit "Invalid connect address ", quoted host]
  | noSocket reason => [lit "Failed to create socket: ", lit reason.message]
  | bindFailed host port reason =>
    [lit "Failed to bind to ", hostAndPort host port, lit ": ", lit reason.message]
  | listenFailed host port reason =>
    [lit "Failed to listen on ", hostAndPort host port, lit ": ", lit reason.message]
  | acceptFailed reason => [lit "Failed to accept connection: ", lit reason.message]
  | accepted host port => [lit "Accepted connection from ", hostAndPort host port]
  | connectFailed host port reason =>
    [lit "Failed to connect to ", hostAndPort host port, lit ": ", lit reason.message]
  | noDelayFailed reason => [lit "Failed to set TCP_NODELAY: ", lit reason.message]
  | sendFailed reason => [lit "Socket send failed: ", lit reason.message]
  | receiveFailed reason => [lit "Socket receive failed: ", lit reason.message]
  | binding host port => [lit "Binding to ", hostAndPort host port]
  | connecting host port => [lit "Connecting to ", hostAndPort host port]
  | peerConnected => [lit "Link peer has connected"]
  | connected => [lit "Link connection successful"]
  | peerVersion major minor patch =>
    [lit "Connected to BGB version ", version major minor patch]
  | versionMismatch major minor patch =>
    [lit "BGB version mismatch! Expected ", version 1 4 0, lit ", got ",
      version major minor patch]
  | peerStatus running paused reconnect =>
    [lit "Link peer status: running=", flag running, lit " paused=", flag paused,
      lit " reconnect=", flag reconnect]
  | disconnectRequested => [lit "Link peer requested disconnect"]
  | unknownPacket kind => [lit "Unknown link packet received: ", number kind.toNat]
  | connectionClosed => [lit "Link connection closed"]
  | connectionAborted reason => [lit "Link connection aborted: ", lit (Failure.nameOf reason)]
  | noAddress => [lit "No serial address supplied. Link cable emulation disabled."]
  | unusableAddress text =>
    [lit "Only IP addresses of the form x.y.z.w:port are supported, got '", quoted text, lit "'"]
  | linkUnavailable reason =>
    [lit "Link cable emulation disabled: ", lit (Failure.nameOf reason)]
  | linkDisabled reason => [lit "Link cable disabled: ", lit reason.name]
  | peerSilent milliseconds =>
    [lit "Link peer did not answer within ", Decimal.integer milliseconds.toInt32.toInt,
      lit " ms"]
  | unreadableConfig path => [lit "Cannot read link configuration ", quoted path]
  | invalidConfig path => [lit "Invalid link configuration ", quoted path]
  | noPeer reason => [lit "No link peer: ", lit (Failure.nameOf reason)]
  | established role => [lit "Link established as ", lit role.name]
  | exchanged sent received =>
    [lit "Sent 0x", Decimal.hex sent.toNat, lit ", received 0x", Decimal.hex received.toNat]
  | interrupt count => [lit "Serial interrupt #", number count.toNat]
  | transferAborted reason => [lit "Transfer aborted: ", lit (Failure.nameOf reason)]
  | stateSaved path => [lit "Link state saved to ", quoted path]
  | stateNotSaved path => [lit "Cannot save link state to ", quoted path]

/-- The line that the log shows for a notice. -/
def text (notice : Notice) : Bytes := Line.ofParts notice.parts

end Notice

end SerialLink
