import SerialLink.Proofs.Byte
import SerialLink.Proofs.Session
import SerialLink.SerialPort.Transfer

/-!
# The port, step by step

Whatever a linked port does while the machine leaves its registers alone is a sequence of few kinds of
`SerialPort.Step`: the receiver moves, the connection meets something, cycles pass, a bit is begun and
clocked out, a bit of the peer is shifted in, or the link is lost.  What each step keeps is then kept by
all that the port does (`SerialPort.Steps.preserves`).
-/

namespace SerialLink.SerialPort

open Event

/-- The port without its link. -/
def lost (error : Option Failure) (p : SerialPort) : SerialPort :=
  { p with
    connection := p.connection.close
    receiver := { p.receiver with started := false }
    port := { p.port with data := 0xff, pending := false, waiting := false }
    phase := .disabled
    lastError := error
    transferredBits := 0
    cycleCount := 0 }

/-- One thing that happens to a port, with the deeds by which it shows in the history. -/
inductive Step : SerialPort → List Event → SerialPort → Prop
  /-- The receiver makes a move. -/
  | receiver {p : SerialPort} {h : List Event} {s : Session Registers}
      (move : Session.Move p.toSession h s) : Step p h (p.withSession s)
  /-- The connection meets something, or is closed. -/
  | connection (p : SerialPort) (c : Connection) (role : c.role = p.connection.role)
      (established : c.established → p.connection.established) : Step p [] { p with connection := c }
  /-- A port without a link lets its data register go. -/
  | idle (p : SerialPort) (unlinked : p.phase = .disabled) :
      Step p [] (p.withRegisters fun r => { r with data := 0xff })
  /-- Cycles pass. -/
  | pass (p : SerialPort) (cycles : UInt32) (ready : p.phase = .armed ∨ p.phase = .complete) :
      Step p [] (p.elapse cycles)
  /-- A bit is begun by a side that does not drive the clock. -/
  | listen (p : SerialPort) (ready : p.phase = .armed) (due : p.isDue)
      (still : p.port.drivesClock = false) : Step p [] { p with phase := .exchanging }
  /-- A bit is begun by a side that drives the clock, and is clocked out. -/
  | offer (p : SerialPort) (ready : p.phase = .armed) (due : p.isDue) (drives : p.port.drivesClock)
      (taken : (p.connection.send p.syncPacket).value.1) :
      Step p [.sent p.syncPacket, .clockedOut p.syncPacket] { p with
        phase := .exchanging
        port := { p.port with pending := true }
        connection := (p.connection.send p.syncPacket).value.2 }
  /-- A bit is begun by a side that drives the clock, but is not taken by the connection, which is closed
  for that. -/
  | fail (p : SerialPort) (ready : p.phase = .armed) (due : p.isDue) (drives : p.port.drivesClock) :
      Step p [.refused p.syncPacket] { p with
        phase := .exchanging
        port := { p.port with pending := false }
        connection := (p.connection.send p.syncPacket).value.2.close }
  /-- The port begins to wait for the bit of the peer. -/
  | wait (p : SerialPort) (begun : p.phase = .exchanging) :
      Step p [] (p.withRegisters fun r => { r with waiting := true })
  /-- A bit of the peer is shifted in, and it is not the last one. -/
  | shift (p : SerialPort) (item : BitQueue.Item) (rest : List BitQueue.Item)
      (begun : p.phase = .exchanging) (items : p.queue.items = item :: rest)
      (more : p.transferredBits + 1 < 8) :
      Step p [.clockedIn (item.data &&& 1)] { p with
        queue := p.queue.pop.2
        port := { p.port.shiftIn item.data with waiting := false }
        phase := .armed
        transferredBits := p.transferredBits + 1
        cycleCount := 0 }
  /-- The last bit of a byte is shifted in. -/
  | complete (p : SerialPort) (item : BitQueue.Item) (rest : List BitQueue.Item)
      (begun : p.phase = .exchanging) (items : p.queue.items = item :: rest)
      (last : ¬ p.transferredBits + 1 < 8) :
      Step p (.clockedIn (item.data &&& 1) ::
          if p.interruptBased && p.hasListener then [.interrupted] else []) { p with
        queue := p.queue.pop.2
        port := { p.port.shiftIn item.data with
          control := p.port.control &&& ~~~Registers.transferBit
          waiting := false }
        phase := .complete
        transferredBits := 0
        cycleCount := 0 }
  /-- The link is lost, which is when no bit is left and none will come. -/
  | lose (p : SerialPort) (error : Option Failure) (stopped : p.receiver.running = false)
      (drained : p.queue.items = []) :
      Step p [] (p.lost error)

/-- What happens to a port, one thing after the other. -/
inductive Steps : SerialPort → List Event → SerialPort → Prop
  | refl (p : SerialPort) : Steps p [] p
  | step {p q r : SerialPort} {h k : List Event} : Step p h q → Steps q k r → Steps p (h ++ k) r

theorem Steps.one {p q : SerialPort} {h : List Event} (step : Step p h q) : Steps p h q := by
  have := Steps.step step (.refl q)
  rwa [List.append_nil] at this

theorem Steps.trans {p q r : SerialPort} {h k : List Event} (first : Steps p h q)
    (second : Steps q k r) : Steps p (h ++ k) r := by
  induction first with
  | refl => exact second
  | step step _ ih =>
    rw [List.append_assoc]
    exact .step step (ih second)

/-- What every step keeps is kept by all of them. -/
theorem Steps.preserves {Inv : List Event → SerialPort → Prop}
    (step : ∀ g p h q, Step p h q → Inv g p → Inv (g ++ h) q) {g h : List Event} {p q : SerialPort}
    (steps : Steps p h q) (start : Inv g p) : Inv (g ++ h) q := by
  induction steps generalizing g with
  | refl =>
    rw [List.append_nil]
    exact start
  | step one _ ih =>
    rw [← List.append_assoc]
    exact ih (step _ _ _ _ one start)

/-- What the receiver does, the port does. -/
theorem Steps.of_moves {p : SerialPort} {s : Session Registers} {h : List Event}
    (moves : Session.Moves p.toSession h s) : Steps p h (p.withSession s) := by
  generalize ht : p.toSession = t at moves
  induction moves generalizing p with
  | refl =>
    subst ht
    exact .refl p
  | step move _ ih =>
    subst ht
    exact .step (.receiver move) (ih rfl)

/-! ### Taking a bit in -/

theorem takeBit_of_more {p : SerialPort} (more : p.transferredBits + 1 < 8) (bit : UInt8) :
    p.takeBit bit = ⟨(.idle, { p with
      port := p.port.shiftIn bit
      cycleCount := 0
      transferredBits := p.transferredBits + 1
      phase := .armed }), [.clockedIn (bit &&& 1)]⟩ := by
  rw [← Registers.low_shiftIn bit p.port]
  simp only [takeBit, more, if_true]
  rfl

theorem takeBit_of_last {p : SerialPort} (last : ¬ p.transferredBits + 1 < 8) (bit : UInt8) :
    p.takeBit bit = ⟨(.completed, { p with
      port := { p.port.shiftIn bit with control := p.port.control &&& ~~~Registers.transferBit }
      cycleCount := 0
      transferredBits := 0
      phase := .complete }),
      .clockedIn (bit &&& 1) :: if p.interruptBased && p.hasListener then [.interrupted] else []⟩ := by
  rw [← Registers.low_shiftIn bit p.port]
  simp only [takeBit, last, if_false]
  cases p.interruptBased && p.hasListener <;> rfl

end SerialLink.SerialPort
