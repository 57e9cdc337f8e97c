import SerialLink.Tcp.Endpoint

/-!
# What the operating system answers

A machine that is on no network has the addresses at which it calls itself; it can wait for callers there,
and at the addresses that stand for several machines.  A `Host` says how the operating system will answer
the next requests: whether there are descriptors left, whether the port to be bound can be had, who answers
at the address to be called and who calls, and which request will fail without a reason of its own.
-/

namespace SerialLink.Tcp

/-! ### Addresses of the machine -/

/-- The address at which a machine calls itself. -/
def home : Bytes := Bytes.ofString "127.0.0.1"

/-- The address that stands for all those of a machine. -/
def anyHost : Bytes := Bytes.ofString "0.0.0.0"

/-- Whether a machine that is on no network can wait for callers at an address: it is one of its own, or
that of a group of machines, or of all. -/
def isOwnHost (host : Bytes) : Bool :=
  let first := Decimal.value ((Bytes.split 46 host).headD [])
  first == 127 || (224 ≤ first && first < 240) || host == anyHost ||
    host == Bytes.ofString "255.255.255.255"

/-- Whether a call to one address comes to who waits at another. -/
def answersAt (called waiting : Bytes) : Bool := waiting == called || waiting == anyHost

/-- Whether nobody can wait at two addresses with the same port. -/
def overlap (a b : Bytes) : Bool := answersAt a b || answersAt b a

/-! ### Requests -/

/-- The requests that can be made to fail. -/
inductive Call
  | listen
  | accept
  /-- To send small packets at once. -/
  | noDelay
  /-- To tell the address of a socket. -/
  | localName
  | receive
  | send
  deriving DecidableEq, Inhabited, Repr

/-- A request that will fail once. -/
structure Fault where
  call : Call
  error : SystemError
  deriving DecidableEq, Inhabited, Repr

/-- How the operating system will answer. -/
structure Host where
  fault : Option Fault := none
  /-- Whether a new socket can be had. -/
  descriptors : Bool := true
  /-- Why the port that is to be bound cannot be had, if it cannot. -/
  portRefusal : Option SystemError := none
  /-- This side's end of the connection, if someone answers at the address that is called. -/
  answering : Option Endpoint := none
  /-- Why a call fails that nobody answers. -/
  callRefusal : SystemError := .connectionRefused
  /-- This side's end of the connection, if someone calls. -/
  caller : Option Endpoint := none
  deriving DecidableEq, Inhabited, Repr

namespace Host

/-- How the system of a machine that is on no network answers whoever wants to wait at an address. -/
def away (address : Address) (h : Host) : Host :=
  if isOwnHost address.host.untilZero then h
  else { h with portRefusal := some .addressUnavailable }

/-- Makes a request: the error with which it is made to fail, if it is. -/
def attempt (call : Call) (h : Host) : Option SystemError × Host :=
  match h.fault with
  | some fault =>
    if fault.call = call then (some fault.error, { h with fault := none }) else (none, h)
  | none => (none, h)

/-- Makes a request, and makes it again if it was interrupted. -/
def insist (call : Call) (h : Host) : Option SystemError × Host :=
  match h.attempt call with
  | (some .interrupted, h) => (none, h)
  | answer => answer

end Host

end SerialLink.Tcp
