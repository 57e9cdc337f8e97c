import SerialLink.Proofs.Act
import SerialLink.Proofs.Listening

/-!
# Two threads at one port

The machine exchanges bits with the port while the receiver handles packets of the peer, and neither waits until
the other is done.  A `Threads.Step` is as little as one of the two does at a time: the machine arms the flag, sends
its bit, takes an item out of the queue, shifts it in; the receiver reads a packet, takes the flag back, asks for
each part of an answer, queues the bit, sends the answer.  A third party is the peer, who answers each bit
with one bit and sends no other bits.  A `Threads.Run` takes such steps in any order.

If nobody comes in between, the steps of a thread amount to what the port does in one piece: to a whole
`SerialPort.tick` (`Threads.Run.tick`) and to a whole `Session.receiveNext` (`Threads.Run.receiveNext`).
-/

namespace SerialLink.Threads

open SerialPort (Act)

/-! ### The state -/

/-- How far the machine has come with a bit. -/
inductive Machine
  /-- It is not about to exchange a bit. -/
  | outside
  | begun
  /-- The flag is armed, and the bit is still to be sent. -/
  | armed
  /-- The bit was sent, if this side drives the clock. -/
  | sent
  | waiting
  /-- An item was taken out of the queue. -/
  | popped (item : BitQueue.Item)
  /-- The port does not wait any more, and the bit is to be shifted in. -/
  | roused (item : BitQueue.Item)
  /-- The wait is over, and no item has come. -/
  | expired
  deriving DecidableEq, Inhabited, Repr

/-- How far the receiver has come with a packet. -/
inductive Reader
  | idle
  | read (packet : Packet)
  /-- The time of the peer was noted. -/
  | heard (packet : Packet)
  /-- The flag was clear, so that an answer is to be put together. -/
  | asked (packet : Packet)
  | bit (packet : Packet) (bit : UInt8)
  | control (packet : Packet) (bit control : UInt8)
  /-- It is known what to answer, if anything, and the bit is to be queued. -/
  | built (packet : Packet) (reply : Option Packet)
  /-- Only the answer is to be sent, if there is one. -/
  | done (packet : Packet) (reply : Option Packet)
  deriving DecidableEq, Inhabited, Repr

/-- The port, what the two threads are about to do with it, and the peer. -/
structure State where
  port : SerialPort
  machine : Machine := .outside
  reader : Reader := .idle
  /-- What this side has sent and the peer has not read. -/
  outgoing : List Packet := []
  /-- The bits that the peer has read and has not answered. -/
  owed : List Packet := []
  /-- What the peer has sent and has not come. -/
  wire : Bytes := []

/-- What is noted of a step. -/
inductive Mark
  /-- The machine has sent a bit. -/
  | offered (packet : Packet)
  /-- The peer has answered a bit. -/
  | answered (request answer : Packet)
  /-- The machine has taken an item out of the queue. -/
  | popped (item : BitQueue.Item)
  /-- The receiver has taken the flag back for a bit of the peer. -/
  | consumed (packet : Packet) (pending : Bool)
  /-- The receiver has answered a packet. -/
  | replied (packet reply : Packet)
  deriving DecidableEq, Inhabited, Repr

/-! ### Steps -/

/-- What is done at a time, in any order. -/
inductive Step : State → List Mark → State → Prop
  -- The machine.
  | access (s : State) (act : Act) (outside : s.machine = .outside) (access : act.isAccess) :
      Step s [] { s with port := (s.port.perform act).value.2 }
  | pass (s : State) (cycles : UInt32) (outside : s.machine = .outside) (linked : s.port.isEnabled)
      (going : s.port.queue.isExhausted = false) : Step s [] { s with port := s.port.elapse cycles }
  | begin (s : State) (outside : s.machine = .outside) (ready : s.port.phase = .armed) (due : s.port.isDue) :
      Step s [] { s with port := { s.port with phase := .exchanging }, machine := .begun }
  /-- A side that does not drive the clock sends nothing. -/
  | listen (s : State) (begun : s.machine = .begun) (still : s.port.port.drivesClock = false) :
      Step s [] { s with machine := .sent }
  | arm (s : State) (begun : s.machine = .begun) (drives : s.port.port.drivesClock) :
      Step s [] { s with
        port := s.port.withRegisters fun r => { r with pending := true }
        machine := .armed }
  | send (s : State) (armed : s.machine = .armed)
      (taken : (s.port.connection.send s.port.syncPacket).value.1 = true) :
      Step s [.offered s.port.syncPacket] { s with
        port := { s.port with connection := (s.port.connection.send s.port.syncPacket).value.2 }
        machine := .sent
        outgoing := s.outgoing ++ [s.port.syncPacket] }
  | wait (s : State) (sent : s.machine = .sent) :
      Step s [] { s with
        port := s.port.withRegisters fun r => { r with waiting := true }
        machine := .waiting }
  /-- A wait that has a bound may end without an item.  How the link is then given up is the matter of
  `Schedule.Step`. -/
  | expire (s : State) (waiting : s.machine = .waiting) (bounded : s.port.transferTimeout ≠ 0)
      (empty : s.port.queue.entries.isEmpty) :
      Step s [] { s with machine := .expired }
  | pop (s : State) (item : BitQueue.Item) (waiting : s.machine = .waiting)
      (found : s.port.queue.pop.1 = .item item) :
      Step s [.popped item] { s with
        port := { s.port with queue := s.port.queue.pop.2 }
        machine := .popped item }
  | rouse (s : State) (item : BitQueue.Item) (popped : s.machine = .popped item) :
      Step s [] { s with
        port := s.port.withRegisters fun r => { r with waiting := false }
        machine := .roused item }
  | shift (s : State) (item : BitQueue.Item) (roused : s.machine = .roused item) :
      Step s [] { s with port := (s.port.takeBit item.data).value.2, machine := .outside }
  -- The receiver.
  | read (s : State) (packet : Packet) (idle : s.reader = .idle) (working : s.port.receiver.running)
      (arrival : s.port.connection.receive.value.1 = .packet packet) :
      Step s [] { s with
        port := { s.port with connection := s.port.connection.receive.value.2 }
        reader := .read packet }
  | hear (s : State) (packet : Packet) (read : s.reader = .read packet) :
      Step s [] { s with
        port := { s.port with clock := s.port.clock.hear packet.timestamp }
        reader := .heard packet }
  /-- A packet without a bit is handled in one piece: it has to do with neither the flag nor the queue. -/
  | handle (s : State) (packet : Packet) (o : Protocol.Outcome Registers) (heard : s.reader = .heard packet)
      (plain : packet.isSync = false) (going : packet.ending? = none)
      (outcome : o = (s.port.protocol.handle packet s.port.clock s.port.queue s.port.port).value) :
      Step s [] { s with
        port := { s.port with protocol := o.protocol, queue := o.queue, port := o.port }
        reader := .done packet o.reply }
  | consume (s : State) (packet : Packet) (heard : s.reader = .heard packet) (bit : packet.isSync) :
      Step s [.consumed packet (Responder.takeRequest s.port.port).1] { s with
        port := { s.port with port := (Responder.takeRequest s.port.port).2 }
        reader := if (Responder.takeRequest s.port.port).1 then .built packet none else .asked packet }
  | takeBit (s : State) (packet : Packet) (asked : s.reader = .asked packet) :
      Step s [] { s with
        port := { s.port with port := (Responder.takeBit s.port.port).2 }
        reader := .bit packet (Responder.takeBit s.port.port).1 }
  | readControl (s : State) (packet : Packet) (bit : UInt8) (taken : s.reader = .bit packet bit) :
      Step s [] { s with
        port := { s.port with port := (Responder.control s.port.port).2 }
        reader := .control packet bit (Responder.control s.port.port).1 }
  | readTime (s : State) (packet : Packet) (bit control : UInt8) (read : s.reader = .control packet bit control) :
      Step s [] { s with
        port := { s.port with port := (Responder.timestamp s.port.clock s.port.port).2 }
        reader := .built packet (some (.sync s.port.protocol.role bit control
          (Responder.timestamp s.port.clock s.port.port).1)) }
  | push (s : State) (packet : Packet) (reply : Option Packet) (built : s.reader = .built packet reply) :
      Step s [] { s with
        port := { s.port with queue := s.port.queue.push (Protocol.itemOf packet) }
        reader := .done packet reply }
  | rest (s : State) (packet : Packet) (done : s.reader = .done packet none) :
      Step s [] { s with
        port := { s.port with
          receiver := { s.port.receiver with packetCount := s.port.receiver.packetCount + 1 } }
        reader := .idle }
  | reply (s : State) (packet answer : Packet) (done : s.reader = .done packet (some answer))
      (taken : (s.port.connection.send answer).value.1 = true) :
      Step s [.replied packet answer] { s with
        port := { s.port with
          receiver := { s.port.receiver with packetCount := s.port.receiver.packetCount + 1 }
          connection := (s.port.connection.send answer).value.2 }
        reader := .idle
        outgoing := s.outgoing ++ [answer] }
  -- The peer.
  | see (s : State) (packet : Packet) (rest : List Packet) (came : s.outgoing = packet :: rest) :
      Step s [] { s with
        outgoing := rest
        owed := if packet.isSync then s.owed ++ [packet] else s.owed }
  | answer (s : State) (request answer : Packet) (rest : List Packet) (bytes : Bytes)
      (owed : s.owed = request :: rest) (decoded : Packet.decode? bytes = some answer) (bit : answer.isSync) :
      Step s [.answered request answer] { s with owed := rest, wire := s.wire ++ bytes }
  /-- What else the peer sends brings no bit and does not end the connection. -/
  | speak (s : State) (packet : Packet) (bytes : Bytes) (decoded : Packet.decode? bytes = some packet)
      (plain : packet.isSync = false) (going : packet.ending? = none) :
      Step s [] { s with wire := s.wire ++ bytes }
  /-- What the peer has sent comes in pieces. -/
  | deliver (s : State) (front rest : Bytes) (cut : s.wire = front ++ rest) :
      Step s [] { s with
        port := { s.port with connection := s.port.connection.arrive (.data front) }
        wire := rest }

/-- Any number of steps. -/
inductive Run (first : State) : List Mark → State → Prop
  | nothing : Run first [] first
  | step {h k : List Mark} {s t : State} (before : Run first h s) (step : Step s k t) : Run first (h ++ k) t

variable {s t u : State} {h k : List Mark}

theorem Run.trans (before : Run s h t) (after : Run t k u) : Run s (h ++ k) u := by
  induction after with
  | nothing =>
    rw [List.append_nil]
    exact before
  | step _ step ih =>
    rw [← List.append_assoc]
    exact .step ih step

theorem Run.one (step : Step s h t) : Run s h t := .step .nothing step

/-! ### The machine alone -/

/-- A machine that waits takes the bit if it is there, and goes on waiting if not. -/
theorem Run.awaitBit (waiting : s.machine = .waiting) (going : s.port.queue.pop.1 ≠ .closed) :
    ∃ h, Run s h { s with
      port := s.port.awaitBit.value.2
      machine := if s.port.awaitBit.value.1 = .blocked then .waiting else .outside } := by
  cases found : s.port.queue.pop.1 with
  | item item =>
    have done : (s.port.taking.takeBit item.data).value.1 ≠ .blocked := by
      by_cases more : s.port.taking.transferredBits + 1 < 8
      · rw [SerialPort.takeBit_of_more more]
        exact nofun
      · rw [SerialPort.takeBit_of_last more]
        exact nofun
    rw [SerialPort.awaitBit_of_item found, if_neg done]
    exact ⟨_, ((Run.one (.pop s item waiting found)).step (.rouse _ item rfl)).step (.shift _ item rfl)⟩
  | closed => exact absurd found going
  | empty =>
    obtain ⟨port, machine, reader, outgoing, owed, wire⟩ := s
    obtain rfl : machine = .waiting := waiting
    have same : port.awaitBit = ⟨(.blocked, port), []⟩ := by
      unfold SerialPort.awaitBit
      rcases pop : port.queue.pop with ⟨first, queue⟩
      obtain rfl : first = .empty := (congrArg (·.1) pop).symm.trans found
      rfl
    rw [same]
    exact ⟨[], .nothing⟩

/-- A machine to which a bit is due sends its own, if it drives the clock. -/
theorem Run.offerBit {unread : Bytes} {closing : Bool} (outside : s.machine = .outside)
    (ready : s.port.phase = .armed) (due : s.port.isDue) (carries : s.port.connection.Carries unread closing) :
    ∃ h outgoing, Run s h { s with
        port := (SerialPort.offerBit { s.port with phase := .exchanging }).value
        machine := .sent
        outgoing := outgoing } ∧
      (SerialPort.offerBit { s.port with phase := .exchanging }).value.queue = s.port.queue := by
  have begin := Run.one (.begin s outside ready due)
  cases drives : s.port.port.drivesClock with
  | false =>
    rw [SerialPort.offerBit_of_driven (p := { s.port with phase := .exchanging }) drives]
    exact ⟨_, _, begin.step (.listen _ rfl drives), rfl⟩
  | true =>
    have taken := (carries.send s.port.syncPacket).1
    rw [SerialPort.offerBit_of_taken (p := { s.port with phase := .exchanging }) drives taken]
    exact ⟨_, _, (begin.step (.arm _ rfl drives)).step (.send _ rfl taken), rfl⟩

/-- A machine to which a bit is due exchanges it in one piece. -/
theorem Run.exchange {unread : Bytes} {closing : Bool} (outside : s.machine = .outside)
    (ready : s.port.phase = .armed) (due : s.port.isDue) (carries : s.port.connection.Carries unread closing)
    (going : s.port.queue.pop.1 ≠ .closed) :
    ∃ h outgoing, Run s h { s with
      port := s.port.exchange.value.2
      machine := if s.port.exchange.value.1 = .blocked then .waiting else .outside
      outgoing := outgoing } := by
  obtain ⟨_, outgoing, offers, queue⟩ := Run.offerBit outside ready due carries
  obtain ⟨_, takes⟩ := Run.awaitBit (s := { s with
    port := (SerialPort.offerBit { s.port with phase := .exchanging }).value.withRegisters
      fun r => { r with waiting := true }
    machine := .waiting
    outgoing := outgoing }) rfl (by rw [← queue] at going; exact going)
  exact ⟨_, outgoing, (offers.step (.wait _ rfl)).trans takes⟩

/-- **What the machine does without anybody coming in between is a tick.** -/
theorem Run.tick {unread : Bytes} {closing : Bool} (outside : s.machine = .outside) (linked : s.port.isEnabled)
    (begun : s.port.phase ≠ .exchanging) (carries : s.port.connection.Carries unread closing)
    (ordered : s.port.queue.Ordered) (opened : s.port.queue.closed = false) (cycles : UInt32) :
    ∃ h outgoing, Run s h { s with
      port := (s.port.tick cycles).value.2
      machine := if (s.port.tick cycles).value.1 = .blocked then .waiting else .outside
      outgoing := outgoing } := by
  have going : s.port.queue.isExhausted = false := by
    unfold BitQueue.isExhausted
    rw [opened]
    rfl
  have found : s.port.queue.pop.1 ≠ .closed := by
    cases items : s.port.queue.items with
    | nil =>
      rw [BitQueue.pop_of_items_nil ordered items, opened]
      exact nofun
    | cons item rest =>
      rw [(BitQueue.pop_of_items_cons ordered items).1]
      exact nofun
  have passes := Run.one (.pass s cycles outside linked going)
  cases s.port.ticks_tick cycles with
  | unlinked phase => exact absurd phase (bne_iff_ne.mp linked)
  | blocked phase => exact absurd phase begun
  | loses _ exhausted => cases going.symm.trans exhausted
  | exchanges ready _ due same =>
    rw [same]
    obtain ⟨_, outgoing, exchanges⟩ := Run.exchange (s := { s with port := s.port.elapse cycles }) outside
      (SerialPort.phase_elapse ready cycles) due carries found
    exact ⟨_, outgoing, passes.trans exchanges⟩
  | passes _ _ _ same =>
    rw [same]
    obtain ⟨port, machine, reader, outgoing, owed, wire⟩ := s
    obtain rfl : machine = .outside := outside
    exact ⟨_, outgoing, passes⟩

/-! ### The receiver alone -/

/-- A receiver that knows what to answer sends it. -/
theorem Run.finish {unread : Bytes} {closing : Bool} {packet : Packet} {reply : Option Packet}
    (done : s.reader = .done packet reply) (carries : s.port.connection.Carries unread closing) :
    ∃ h outgoing, Run s h { s with
      port := { s.port with
        receiver := { s.port.receiver with packetCount := s.port.receiver.packetCount + 1 }
        connection := (s.port.connection.answer reply).value.2 }
      reader := .idle
      outgoing := outgoing } := by
  cases reply with
  | none => exact ⟨_, _, .one (.rest s packet done)⟩
  | some answer => exact ⟨_, _, .one (.reply s packet answer done (carries.send answer).1)⟩

/-- What the receiver makes of a packet is what the protocol makes of it. -/
theorem Run.handle {packet : Packet} (heard : s.reader = .heard packet) (going : packet.ending? = none)
    {o : Protocol.Outcome Registers}
    (outcome : o = (s.port.protocol.handle packet s.port.clock s.port.queue s.port.port).value) :
    ∃ h, Run s h { s with
      port := { s.port with protocol := o.protocol, queue := o.queue, port := o.port }
      reader := .done packet o.reply } := by
  cases bit : packet.isSync with
  | false => exact ⟨_, .one (.handle s packet o heard bit going outcome)⟩
  | true =>
    have consumes := Run.one (.consume s packet heard bit)
    rw [Protocol.handle_of_isSync _ _ _ _ _ bit] at outcome
    subst outcome
    have reply : Protocol.syncReply s.port.protocol.role s.port.clock s.port.port =
        if (Responder.takeRequest s.port.port).1 then (none, (Responder.takeRequest s.port.port).2)
        else (some (Protocol.bitReply s.port.protocol.role s.port.clock (Responder.takeRequest s.port.port).2).1,
          (Protocol.bitReply s.port.protocol.role s.port.clock (Responder.takeRequest s.port.port).2).2) := rfl
    simp only [Traced.value_pure, Protocol.handleSync, reply]
    cases pending : (Responder.takeRequest s.port.port).1 with
    | true =>
      rw [pending] at consumes
      exact ⟨_, consumes.step (.push _ packet none rfl)⟩
    | false =>
      rw [pending] at consumes
      have builds := ((consumes.step (.takeBit _ packet rfl)).step (.readControl _ packet _ rfl)).step
        (.readTime _ packet _ _ rfl)
      exact ⟨_, builds.step (.push _ packet _ rfl)⟩

/-- **What the receiver does with a packet without anybody coming in between is one look at the connection.** -/
theorem Run.receiveNext {unread : Bytes} {closing : Bool} {packet : Packet} (idle : s.reader = .idle)
    (working : s.port.receiver.running = true) (carries : s.port.connection.Carries unread closing)
    (arrival : s.port.connection.receive.value.1 = .packet packet) (going : packet.ending? = none) :
    ∃ h outgoing, Run s h { s with
      port := s.port.withSession s.port.toSession.receiveNext.value.2
      outgoing := outgoing } := by
  obtain ⟨_, rest, _, _, still⟩ := carries.of_packet arrival
  obtain ⟨port, machine, reader, outgoing, owed, wire⟩ := s
  obtain rfl : reader = .idle := idle
  have reads := Run.one (.read (State.mk port machine .idle outgoing owed wire) packet rfl working arrival)
  have hears := reads.step (.hear _ packet rfl)
  obtain ⟨o, outcome⟩ : ∃ o, o = (Session.outcome packet
      { port.toSession with connection := port.connection.receive.value.2 }).value := ⟨_, rfl⟩
  obtain ⟨_, handles⟩ := Run.handle (s := { port := { port with
      connection := port.connection.receive.value.2
      clock := port.clock.hear packet.timestamp }, machine, reader := .heard packet, outgoing, owed, wire })
    rfl going outcome
  obtain ⟨_, left, finishes⟩ := Run.finish (s := {
      port := { port with
        connection := port.connection.receive.value.2
        clock := port.clock.hear packet.timestamp
        protocol := o.protocol
        queue := o.queue
        port := o.port }
      machine := machine
      reader := .done packet o.reply
      outgoing := outgoing
      owed := owed
      wire := wire }) rfl still
  have value : port.toSession.receiveNext.value.2 = (Session.answering packet
      { port.toSession with connection := port.connection.receive.value.2 }).value.2 := by
    have taken := Session.value_takePacket_of_carries
      (s := { port.toSession with connection := port.connection.receive.value.2 }) (fun _ => rfl) still packet
    rw [going] at taken
    have working : port.receiver.running = true := working
    have arrival : port.connection.receive.value.1 = .packet packet := arrival
    unfold Session.receiveNext
    rw [if_neg (by rw [working]; decide)]
    simp only [Traced.value_bind, arrival, taken, Traced.value_pure]
  rw [value]
  subst outcome
  exact ⟨_, left, (hears.trans handles).trans finishes⟩

end SerialLink.Threads
