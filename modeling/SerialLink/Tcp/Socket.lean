import SerialLink.Tcp.Host
import SerialLink.Traced

/-!
# Sockets

A socket is closed, waits for callers, or is one end of a connection.  One that waits for callers and is
shut down waits no more, but is still there.  Every operation may meet an error
of the operating system; it logs the error and reports that it failed.  Listening and connecting close
what the socket was before, unless the address is unusable from the start.
-/

namespace SerialLink.Tcp

/-- A socket. -/
inductive Socket
  | closed
  /-- A socket that is called: the address at which it waits, and those who called and were not accepted
  yet. -/
  | listener (host : Bytes) (backlog : List Endpoint)
  /-- A socket that was called and then shut down.  To shut it down once more ends the stream that never
  began. -/
  | unconnected (ended : Bool)
  | stream (e : Endpoint)
  deriving DecidableEq, Inhabited, Repr

/-- How a read went. -/
inductive Status
  | ok
  /-- The stream had ended before any byte was read. -/
  | closed
  /-- The stream ended in the middle of the read. -/
  | truncated
  | error
  /-- The read is not over: more bytes may come. -/
  | waiting
  deriving DecidableEq, Inhabited, Repr

namespace Socket

/-- Whether there is a socket at all. -/
def isOpen : Socket → Bool
  | closed => false
  | _ => true

/-- Whether those who call an address reach the socket. -/
def isCalledAt (called : Bytes) : Socket → Bool
  | listener host _ => answersAt called host
  | _ => false

/-- Waits for callers at an address. -/
def listen (address : Address) (h : Host) (s : Socket) : Traced (Bool × Socket × Host) :=
  if !Address.isPlainHost address.host.untilZero then do
    Traced.note (.invalidListenAddress address.host)
    return (false, s, h)
  else if !h.descriptors then do
    Traced.note (.noSocket .tooManyFiles)
    return (false, closed, h)
  else
    match h.portRefusal with
    | some error => do
      Traced.note (.bindFailed address.host address.port error)
      return (false, closed, h)
    | none =>
      match h.attempt .listen with
      | (some error, h) => do
        Traced.note (.listenFailed address.host address.port error)
        return (false, closed, h)
      | (none, h) => return (true, listener address.host.untilZero [], h)

/-- What accepting a call comes to. -/
structure Acceptance where
  /-- This side's end of the connection, if there is one. -/
  endpoint : Option Endpoint
  socket : Socket
  host : Host

/-- Accepts the first call: one that came before, or the one that the host says will come.  Without any
the socket would wait for ever; no end comes of that. -/
def accept (h : Host) (s : Socket) : Traced Acceptance :=
  match s with
  | closed => return ⟨none, s, h⟩
  | listener host backlog =>
    match h.insist .accept with
    | (some error, h) => do
      Traced.note (.acceptFailed error)
      return ⟨none, s, h⟩
    | (none, h) =>
      match backlog, h.caller with
      | e :: rest, _ => do
        Traced.note (.accepted e.remote.host e.remote.port)
        return ⟨some e, listener host rest, h⟩
      | [], some e => do
        Traced.note (.accepted e.remote.host e.remote.port)
        return ⟨some e, s, { h with caller := none }⟩
      | [], none => return ⟨none, s, h⟩
  | _ =>
    match h.insist .accept with
    | (error, h) => do
      Traced.note (.acceptFailed (error.getD .invalidArgument))
      return ⟨none, s, h⟩

/-- Calls an address. -/
def connect (address : Address) (h : Host) (s : Socket) : Traced (Bool × Socket × Host) :=
  if !Address.isPlainHost address.host.untilZero then do
    Traced.note (.invalidConnectAddress address.host)
    return (false, s, h)
  else if !h.descriptors then do
    Traced.note (.noSocket .tooManyFiles)
    return (false, closed, h)
  else
    match h.answering with
    | some e => return (true, stream e, { h with answering := none })
    | none => do
      Traced.note (.connectFailed address.host address.port h.callRefusal)
      return (false, closed, h)

/-- Has small packets sent at once, or gathered. -/
def setNoDelay (h : Host) (s : Socket) : Traced (Bool × Host) :=
  if !s.isOpen then return (false, h)
  else
    match h.attempt .noDelay with
    | (some error, h) => do
      Traced.note (.noDelayFailed error)
      return (false, h)
    | (none, h) => return (true, h)

/-- Sends bytes; sending none needs nothing but an open socket. -/
def send (bytes : Bytes) (h : Host) (s : Socket) : Traced (Bool × Socket × Host) :=
  if !s.isOpen then return (false, s, h)
  else if bytes.isEmpty then return (true, s, h)
  else
    match h.insist .send with
    | (some error, h) => do
      Traced.note (.sendFailed error)
      return (false, s, h)
    | (none, h) =>
      match s with
      | stream e =>
        match e.send with
        | (some error, e) => do
          Traced.note (.sendFailed error)
          return (false, stream e, h)
        | (none, e) => return (true, stream e, h)
      | _ => do
        Traced.note (.sendFailed .brokenPipe)
        return (false, s, h)

/-- What a read comes to. -/
structure Received where
  status : Status
  /-- The bytes that were read, all of them only if the status is `ok`. -/
  bytes : Bytes
  socket : Socket
  host : Host

/-- How a failed read is reported: a connection that was given up before any byte came counts as
closed. -/
def readFailure (bytes : Bytes) (error : SystemError) (s : Socket) (h : Host) : Traced Received :=
  if error = .connectionReset ∧ bytes = [] then return ⟨.closed, bytes, s, h⟩
  else do
    Traced.note (.receiveFailed error)
    return ⟨.error, bytes, s, h⟩

/-- Reads exactly so many bytes; reading none needs nothing but an open socket. -/
def receive (count : Nat) (h : Host) (s : Socket) : Traced Received :=
  if !s.isOpen then return ⟨.error, [], s, h⟩
  else if count = 0 then return ⟨.ok, [], s, h⟩
  else
    match h.insist .receive with
    | (some error, h) => readFailure [] error s h
    | (none, h) =>
      match s with
      | stream e =>
        match e.take count with
        | (.all bytes, e) => return ⟨.ok, bytes, stream e, h⟩
        | (.ended bytes, e) =>
          return ⟨if bytes.isEmpty then .closed else .truncated, bytes, stream e, h⟩
        | (.failed bytes error, e) => readFailure bytes error (stream e) h
        | (.waiting, e) => return ⟨.waiting, [], stream e, h⟩
      | unconnected true => return ⟨.closed, [], s, h⟩
      | _ => readFailure [] .notConnected s h

/-- Whether the socket has a local port, as far as the operating system tells. -/
def hasPort (h : Host) (s : Socket) : Bool × Host :=
  if !s.isOpen then (false, h)
  else
    match h.attempt .localName with
    | (some _, h) => (false, h)
    | (none, h) => (true, h)

/-- Shuts the socket down.  A socket that waits for callers turns away those who wait. -/
def shutdown : Socket → Socket
  | closed => closed
  | listener .. => unconnected false
  | unconnected _ => unconnected true
  | stream e => stream e.shutdown.2

/-- Closes the socket. -/
def close (_ : Socket) : Socket := closed

end Socket

end SerialLink.Tcp
