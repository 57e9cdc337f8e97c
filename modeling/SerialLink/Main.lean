import Std.Async.TCP
import SerialLink.Tool.Run

/-!
# The command line

The program lets the tool work with a real peer: it asks the operating system for the link, hands what
comes from the peer to the tool, and lets what the tool does happen.  All decisions are those of
`Tool.Process`; `Tool.run` makes the same ones with a partner that follows a plan.
-/

namespace SerialLink.CommandLine

open Std.Async.TCP.Socket (Client Server)
open Std.Net (SocketAddress IPv4Addr)
open SerialLink.Tool

/-! ### Answers of the operating system -/

/-- The number of an error, which arrives with its sign changed. -/
def errorNumber : IO.Error → Nat
  | .alreadyExists _ code _ | .otherError code _ | .resourceBusy code _ | .resourceVanished code _
  | .unsupportedOperation code _ | .hardwareFault code _ | .unsatisfiedConstraints code _
  | .illegalOperation code _ | .protocolError code _ | .timeExpired code _ | .interrupted _ code _
  | .noFileOrDirectory _ code _ | .invalidArgument _ code _ | .permissionDenied _ code _
  | .resourceExhausted _ code _ | .inappropriateType _ code _ | .noSuchThing _ code _ =>
    (0 - code).toNat
  | .unexpectedEof | .userError _ => 0

/-- The error of the operating system behind a failure, if a link knows it. -/
def systemError? (e : IO.Error) : Option SystemError :=
  match errorNumber e with
  | 4 => some .interrupted
  | 13 => some .permissionDenied
  | 22 => some .invalidArgument
  | 24 => some .tooManyFiles
  | 32 => some .brokenPipe
  | 98 => some .addressInUse
  | 99 => some .addressUnavailable
  | 101 => some .networkUnreachable
  | 103 => some .connectionAborted
  | 104 => some .connectionReset
  | 105 => some .noBufferSpace
  | 107 => some .notConnected
  | 110 => some .timedOut
  | 111 => some .connectionRefused
  | 113 => some .hostUnreachable
  | _ => none

/-- The error of the operating system behind a failure, or the one that is given. -/
def systemErrorOr (otherwise : SystemError) (e : IO.Error) : SystemError :=
  (systemError? e).getD otherwise

/-- What becomes of a request: its result, or the failure. -/
def outcome {α : Type} (request : IO α) : IO (Except IO.Error α) :=
  try return .ok (← request) catch e => return .error e

/-! ### Making the link -/

/-- An address as the operating system takes it. -/
def socketAddress? (address : Address) : Option SocketAddress :=
  if Address.isPlainHost address.host then
    match (Bytes.split 46 address.host).map fun group => UInt8.ofNat (Decimal.value group) with
    | [a, b, c, d] => some (.v4 ⟨.ofParts a b c d, address.port⟩)
    | _ => none
  else none

/-- The address of the other end of a connection. -/
def remote (client : Client) : IO Address := do
  match ← client.getPeerName with
  | .v4 peer => return ⟨Bytes.ofString (toString peer.addr), peer.port⟩
  | .v6 peer => return ⟨Bytes.ofString (toString peer.addr), peer.port⟩

/-- What the operating system said, and the connection, if there is one. -/
structure Line where
  host : Tcp.Host := {}
  client : Option Client := none

/-- Has the packets on a connection sent at once. -/
def Line.ofClient (host : Tcp.Host) (client : Client) : IO Line := do
  match ← outcome client.noDelay with
  | .ok _ => return { host, client := some client }
  | .error e =>
    return { host := { host with fault := some ⟨.noDelay, systemErrorOr .invalidArgument e⟩ } }

/-- Waits for the peer at an address. -/
def Line.await (address : SocketAddress) : IO Line := do
  let server ← Server.mk
  match ← outcome (do server.bind address; server.listen 1) with
  | .error e => return { host := { portRefusal := some (systemErrorOr .addressInUse e) } }
  | .ok _ =>
    match ← outcome server.accept.block with
    | .error e =>
      return { host := { fault := some ⟨.accept, systemErrorOr .connectionAborted e⟩ } }
    | .ok client => ofClient { caller := some { remote := ← remote client } } client

/-- Calls the peer at an address. -/
def Line.call (address : SocketAddress) : IO Line := do
  let client ← Client.mk
  match ← outcome (client.connect address).block with
  | .error e => return { host := { callRefusal := systemErrorOr .connectionRefused e } }
  | .ok _ => ofClient { answering := some { remote := ← remote client } } client

/-- Makes the connection that a configuration asks for. -/
def Line.open (config : Config) : IO Line := do
  match (Address.parse? config.peerAddress).bind socketAddress? with
  | none => return {}
  | some address => if config.bindAsServer then await address else call address

/-! ### Letting things happen -/

/-- Lets an event happen. -/
def happen (verbose : Bool) (client : Option Client) (event : Event) : IO Unit := do
  match event with
  | .noted _ | .dumped _ => (← IO.getStderr).write ⟨(console verbose [event]).toArray⟩
  | .sent packet =>
    match client with
    | some client => discard <| outcome (client.send ⟨packet.encode.toArray⟩).block
    | none => return
  | .printed byte =>
    let output ← IO.getStdout
    output.write ⟨#[byte]⟩
    output.flush
  | .refused _ | .handled .. | .clockedOut _ | .clockedIn _ | .interrupted => return

/-- Lets happen what is in a trace, and gives the value. -/
def perform {α : Type} (verbose : Bool) (client : Option Client) (t : Traced α) : IO α := do
  t.trace.forM (happen verbose client)
  return t.value

/-! ### Work -/

/-- A read of the connection that goes on in the background. -/
abbrev Reading := Task (Except IO.Error (Option ByteArray))

/-- Starts to read. -/
def read (client : Client) : IO Reading := (client.recv? 4096).asTask

/-- What has come from the peer, and the read that goes on after it.  If nothing has, a patient caller
waits for a moment. -/
def poll (patient : Bool) (client : Client) (reading : Option Reading) :
    IO (Option Tcp.Segment × Option Reading) := do
  match reading with
  | none =>
    if patient then IO.sleep 1
    return (none, none)
  | some task =>
    if ← IO.hasFinished task then
      match ← IO.wait task with
      | .ok (some bytes) => return (some (.data bytes.toList), some (← read client))
      | .ok none => return (some .finish, none)
      | .error _ => return (some .reset, none)
    else
      if patient then IO.sleep 1
      return (none, reading)

/-- Lets the tool work until it ends.  `waiting` is the time since which the port is blocked, if it is;
`patient` is whether there is nothing to do until something comes. -/
partial def work (verbose : Bool) (client : Client) (reading : Option Reading) (waiting : Option Nat)
    (patient : Bool) (p : Process) : IO (Bool × Process) := do
  let (segment, reading) ← poll patient client reading
  let p ← match segment with
    | some segment => perform verbose client (p.arrive segment)
    | none => pure p
  match ← perform verbose client p.step with
  | (.over success, p) => return (success, p)
  | (.running, p) => work verbose client reading none false p
  | (.heldBack, p) => work verbose client reading none true p
  | (.blocked, p) =>
    let now ← IO.monoMsNow
    let since := waiting.getD now
    let limit := p.port.transferTimeout.toNat
    if limit != 0 && since + limit ≤ now then
      match ← perform verbose client p.timeOut with
      | (.over success, p) => return (success, p)
      | (_, p) => work verbose client reading none false p
    else work verbose client reading (some since) true p

/-! ### Files -/

/-- The path that bytes stand for. -/
def path? (path : Bytes) : Option String := String.fromUTF8? ⟨path.untilZero.toArray⟩

/-- What a file holds, if it can be read.  A device that keeps nothing has no end that a read would come
to; it counts as empty. -/
def contents? (path : Bytes) : IO (Option Bytes) := do
  match path? path with
  | none => return none
  | some path =>
    match ← outcome (do
      let whole ← IO.FS.realPath path
      if Place.ofPath? (Bytes.ofString whole.toString) = some .void then return ByteArray.empty
      else IO.FS.readBinFile path) with
    | .ok bytes => return some bytes.toList
    | .error _ => return none

/-- Writes a whole file, and tells whether that went well. -/
def store (path content : Bytes) : IO Bool := do
  match path? path with
  | none => return false
  | some path => return (← outcome (IO.FS.writeBinFile path ⟨content.toArray⟩)) matches .ok _

/-! ### The program -/

/-- Makes the link of a configuration and works with it; tells whether everything went well.  What is
said first does not hang on the operating system's answer, and is said before that is asked for. -/
def runLink (o : Options) (config : Config) : IO Bool := do
  let announced := (establish? o config {}).trace.take 1
  announced.forM (happen o.verbose none)
  let line ← Line.open config
  let established := establish? o config line.host
  (established.trace.drop 1).forM (happen o.verbose line.client)
  match established.value, line.client with
  | some p, some client =>
    let (success, p) ← work o.verbose client (← read client) none false p
    perform o.verbose client (reportWork success p.port)
    let written ← (savedState? o p.port).mapM (store o.saveStatePath)
    perform o.verbose client (conclude o success written p.port)
  | _, _ => return false

/-- Does what the options say; tells whether everything went well. -/
def run (o : Options) : IO Bool := do
  match ← perform o.verbose none (configure? o (← contents? o.configPath)) with
  | some config => runLink o config
  | none => return false

end SerialLink.CommandLine

/-- Runs the program. -/
def main (words : List String) : IO UInt32 := do
  match SerialLink.Tool.Options.parse (words.map SerialLink.Bytes.ofString) with
  | .ok o => return if ← SerialLink.CommandLine.run o then 0 else 1
  | .error refusal =>
    let program := SerialLink.Bytes.ofString (← IO.appPath).toString
    (← IO.getStderr).write ⟨refusal.complaint.toArray⟩
    (← IO.getStdout).write ⟨(SerialLink.Tool.Options.usage program).toArray⟩
    return 1
