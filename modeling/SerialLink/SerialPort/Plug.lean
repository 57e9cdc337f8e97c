import SerialLink.Config
import SerialLink.SerialPort.Basic

/-!
# Plugging the link in

A link is made as a configuration says.  That it cannot be made is no failure of the port: the port then
works without a link.
-/

namespace SerialLink.SerialPort

/-- Gives up the link that there is; only what the machine wrote and the reasons of failures stay. -/
def unplug (p : SerialPort) : Traced SerialPort := do
  let s ← p.toSession.stop
  return { p.withSession s with
    connection := s.connection.destroy
    protocol := .idle
    queue := .fresh
    port := { s.port with data := 0xff, pending := false, waiting := false }
    hasListener := false
    phase := .disabled }

/-- Makes the connection to a peer at an address, or waits for the peer there. -/
def dial (config : Config) (address : Address) (c : Connection) : Traced (Bool × Connection) :=
  if config.bindAsServer then c.bindAndAccept address else c.connect address

/-- Starts the receiver on a connection, if it was made. -/
def attach (made : Bool) (connection : Connection) (p : SerialPort) : Traced (Bool × SerialPort) := do
  match made, Protocol.start? connection.role with
  | true, some protocol =>
    let (_, s) ← { p.toSession with connection, protocol, queue := .fresh }.start
    return (true, { p.withSession s with phase := .armed })
  | _, _ =>
    return (false,
      { p with connection := connection.destroy, lastError := some .connectionFailed })

/-- Makes the connection that a configuration asks for, and starts the receiver on it: whether that
went well. -/
def connect (config : Config) (p : SerialPort) : Traced (Bool × SerialPort) := do
  match Address.parse? config.peerAddress with
  | none =>
    Traced.note (.unusableAddress config.peerAddress)
    return (false, { p with lastError := some .addressFormat })
  | some address =>
    let (made, connection) ← dial config address p.connection
    p.attach made connection

/-- Plugs a link into a port that has none, as a configuration says, with the operating system answering
as `host` says. -/
def plugIn (config : Config) (hasListener : Bool) (host : Tcp.Host) (p : SerialPort) :
    Traced SerialPort := do
  let p := { p with
    hasListener
    interruptBased := config.interruptBased
    transferTimeout := config.transferTimeout
    lastError := none
    clock := .start
    connection := { p.connection with host } }
  if config.peerAddress.isEmpty then
    Traced.note .noAddress
    return p.reset
  else
    let (ok, p) ← p.connect config
    if !ok then Traced.note (.linkUnavailable p.lastError)
    return p.reset

/-- Plugs a link in; the link that there was is given up. -/
def plug (config : Config) (hasListener : Bool) (host : Tcp.Host) (p : SerialPort) :
    Traced SerialPort := do
  (← p.unplug).plugIn config hasListener host

end SerialLink.SerialPort
