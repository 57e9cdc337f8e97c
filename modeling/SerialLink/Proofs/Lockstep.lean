import SerialLink.Proofs.Queue
import SerialLink.Proofs.Threads

/-!
# Bits in step

A side that drives the clock sends one bit, waits for the answer to it, and only then sends the next one.  So at most
one bit is on its way at any time, to the peer or back, and the flag is set exactly as long as the receiver has
not come upon the answer (`Threads.InStep`).  Every step keeps that (`Threads.InStep.step`), and so it holds
however the two threads are interleaved (`Threads.lockstep`).
-/

namespace SerialLink.Threads

open SerialPort (Act)

/-! ### What was noted -/

/-- The bits that the machine has sent. -/
def sentBits (history : List Mark) : List Packet :=
  history.filterMap fun
    | .offered packet => some packet
    | _ => none

/-- The bits that the peer has answered, each with its answer. -/
def answeredBits (history : List Mark) : List (Packet × Packet) :=
  history.filterMap fun
    | .answered request answer => some (request, answer)
    | _ => none

/-- The items that the machine has taken out of the queue. -/
def takenItems (history : List Mark) : List BitQueue.Item :=
  history.filterMap fun
    | .popped item => some item
    | _ => none

variable (a b : List Mark)

@[simp] theorem sentBits_append : sentBits (a ++ b) = sentBits a ++ sentBits b := List.filterMap_append

@[simp] theorem answeredBits_append : answeredBits (a ++ b) = answeredBits a ++ answeredBits b := List.filterMap_append

@[simp] theorem takenItems_append : takenItems (a ++ b) = takenItems a ++ takenItems b := List.filterMap_append

/-! ### Where bits are -/

/-- The packets among some that bring bits. -/
def bits (packets : List Packet) : List Packet := packets.filter (·.isSync)

@[simp] theorem bits_append (a b : List Packet) : bits (a ++ b) = bits a ++ bits b := List.filter_append ..

theorem bits_singleton_of_isSync {p : Packet} (bit : p.isSync) : bits [p] = [p] :=
  List.filter_cons_of_pos bit

theorem bits_singleton_of_not_isSync {p : Packet} (plain : p.isSync = false) : bits [p] = [] :=
  List.filter_cons_of_neg (by rw [plain]; decide)

namespace Machine

def isArmed : Machine → Bool
  | armed => true
  | _ => false

/-- Whether the machine may have sent a bit, and has not taken out the answer. -/
def awaits : Machine → Bool
  | sent | waiting => true
  | _ => false

end Machine

namespace Reader

/-- The packet that the receiver is at, if it has not yet taken the flag back for it. -/
def unconsumed : Reader → List Packet
  | read packet | heard packet => [packet]
  | _ => []

/-- The packet that the receiver is at, if it has not yet queued what it brings. -/
def unqueued : Reader → List Packet
  | read packet | heard packet | asked packet | bit packet _ | control packet .. | built packet _ => [packet]
  | idle | done .. => []

/-- Whether the receiver is not about to answer a bit. -/
def Spares : Reader → Prop
  | asked _ | bit .. | control .. => False
  | built packet reply => packet.isSync = true ∧ reply = none
  | done packet reply => ∀ answer, reply = some answer → packet.isSync = false ∧ answer.isSync = false
  | idle | read _ | heard _ => True

end Reader

namespace State

/-- The bits of this side on their way to the peer, or with it. -/
def requests (s : State) : List Packet := s.owed ++ bits s.outgoing

end State

/-! ### The invariant -/

/-- The threads are in step, with the given bytes come and unread, and the bits that were sent so far, those
that were answered, and the items that were taken out. -/
structure InStep (unread : Bytes) (offered : List Packet) (answers : List (Packet × Packet))
    (popped : List BitQueue.Item) (s : State) : Prop where
  carries : s.port.connection.Carries unread false
  whole : (unread ++ s.wire).length % Packet.size = 0
  ordered : s.port.queue.Ordered
  opened : s.port.queue.closed = false
  untimed : s.port.transferTimeout = 0
  /-- Every bit that was sent was answered, or is on its way or with the peer. -/
  sent : offered = answers.map Prod.fst ++ s.requests
  /-- Every answer was taken out, or is queued or on its way. -/
  came : answers.map (fun a => Protocol.itemOf a.2) = popped ++ s.port.queue.items ++
    (bits s.reader.unqueued ++ bits (Packet.ofStream (unread ++ s.wire))).map Protocol.itemOf
  /-- No bit is sent before the answer to the one before was taken out. -/
  ahead : offered.length ≤ popped.length + s.machine.awaits.toNat
  /-- The flag is set as long as the answer was not come upon. -/
  flag : s.port.port.pending.toNat = s.machine.isArmed.toNat + s.requests.length +
    (bits s.reader.unconsumed).length + (bits (Packet.ofStream (unread ++ s.wire))).length
  spares : s.reader.Spares

variable {unread : Bytes} {offered : List Packet} {answers : List (Packet × Packet)}
  {popped : List BitQueue.Item} {s : State}

/-- The bits that were sent and whose answers were not taken out are somewhere. -/
theorem InStep.balance (inv : InStep unread offered answers popped s) :
    offered.length = popped.length + s.port.queue.items.length + (bits s.reader.unqueued).length +
      (bits (Packet.ofStream (unread ++ s.wire))).length + s.requests.length := by
  have sent := congrArg List.length inv.sent
  have came := congrArg List.length inv.came
  simp only [List.length_append, List.length_map] at sent came
  omega

theorem bits_unconsumed (reader : Reader) :
    (bits reader.unconsumed).length ≤ (bits reader.unqueued).length := by
  cases reader with
  | read | heard => exact Nat.le_refl _
  | _ => exact Nat.zero_le _

/-- While the machine is not waiting for an answer there is none, nor a bit without one. -/
theorem InStep.still (inv : InStep unread offered answers popped s) (rests : s.machine.awaits = false) :
    s.port.queue.items.length = 0 ∧ (bits s.reader.unconsumed).length = 0 ∧
      (bits (Packet.ofStream (unread ++ s.wire))).length = 0 ∧ s.requests.length = 0 := by
  have balance := inv.balance
  have ahead := inv.ahead
  have fewer := bits_unconsumed s.reader
  rw [rests, Bool.toNat_false] at ahead
  omega

/-- So the flag is set then only if it was armed for the next bit. -/
theorem InStep.pending (inv : InStep unread offered answers popped s) (rests : s.machine.awaits = false) :
    s.port.port.pending = s.machine.isArmed := by
  obtain ⟨_, unconsumed, coming, requests⟩ := inv.still rests
  have flag := inv.flag
  rw [unconsumed, coming, requests] at flag
  cases armed : s.machine.isArmed <;> cases pending : s.port.port.pending <;>
    rw [armed, pending] at flag <;> first | rfl | cases flag

/-! ### Steps of the machine -/

/-- What changes neither the flag nor the queue keeps the threads in step. -/
theorem InStep.machine (inv : InStep unread offered answers popped s) {p : SerialPort} {m : Machine}
    (connection : p.connection = s.port.connection) (queue : p.queue = s.port.queue)
    (pending : p.port.pending = s.port.port.pending)
    (untimed : p.transferTimeout = s.port.transferTimeout) (armed : m.isArmed = s.machine.isArmed)
    (awaits : s.machine.awaits.toNat ≤ m.awaits.toNat) :
    InStep unread offered answers popped { s with port := p, machine := m } := by
  obtain ⟨carries, whole, ordered, opened, still, sent, came, ahead, flag, spares⟩ := inv
  rw [← connection] at carries
  rw [← queue] at ordered opened came
  rw [← pending, ← armed] at flag
  rw [← untimed] at still
  exact ⟨carries, whole, ordered, opened, still, sent, came,
    Nat.le_trans ahead (Nat.add_le_add_left awaits _), flag, spares⟩

/-- While the machine exchanges no bit it may do with its registers what it wants. -/
theorem InStep.access (inv : InStep unread offered answers popped s) (outside : s.machine = .outside)
    {act : Act} (access : act.isAccess) :
    InStep unread offered answers popped { s with port := (s.port.perform act).value.2 } := by
  obtain ⟨_, accessed⟩ := SerialPort.accessed_perform access s.port
  have untimed := (SerialPort.settings_perform access s.port).2
  have pending : (s.port.perform act).value.2.port.pending = s.port.port.pending := by
    cases reset : act.isReset with
    | false => exact SerialPort.pending_perform access reset s.port
    | true =>
      -- A reset clears the flag, but it is clear.
      have clear : s.port.port.pending = false := by
        rw [inv.pending (by rw [outside]; rfl), outside]
        rfl
      cases act with
      | reset => exact clear.symm
      | _ => cases reset
  exact inv.machine accessed.connection accessed.queue pending untimed rfl (Nat.le_refl _)

/-- The flag is armed when there is no bit on its way. -/
theorem InStep.arm (inv : InStep unread offered answers popped s) (begun : s.machine = .begun) :
    InStep unread offered answers popped { s with
      port := s.port.withRegisters fun r => { r with pending := true }
      machine := .armed } := by
  have rests : s.machine.awaits = false := by
    rw [begun]
    rfl
  obtain ⟨_, unconsumed, coming, requests⟩ := inv.still rests
  have ahead := inv.ahead
  rw [rests] at ahead
  refine { inv with ahead := ahead, flag := ?_ }
  show 1 = 1 + s.requests.length + (bits s.reader.unconsumed).length + _
  rw [requests, unconsumed]
  exact (congrArg (1 + ·) coming).symm

/-- The bit goes out, and the flag now stands for it. -/
theorem InStep.send (inv : InStep unread offered answers popped s) (armed : s.machine = .armed) :
    InStep unread (offered ++ [s.port.syncPacket]) answers popped { s with
      port := { s.port with connection := (s.port.connection.send s.port.syncPacket).value.2 }
      machine := .sent
      outgoing := s.outgoing ++ [s.port.syncPacket] } := by
  have bit : bits [s.port.syncPacket] = [s.port.syncPacket] :=
    bits_singleton_of_isSync (Packet.isSync_sync ..)
  have requests : s.owed ++ bits (s.outgoing ++ [s.port.syncPacket]) =
      s.requests ++ [s.port.syncPacket] := by
    rw [bits_append, bit, State.requests, List.append_assoc]
  have sent := inv.sent
  have ahead := inv.ahead
  have flag := inv.flag
  rw [armed] at ahead flag
  refine { inv with carries := (inv.carries.send _).2, sent := ?_, ahead := ?_, flag := ?_ }
  · show _ = answers.map Prod.fst ++ (s.owed ++ bits (s.outgoing ++ _))
    rw [requests, sent, List.append_assoc]
  · rw [List.length_append]
    exact Nat.add_le_add_right ahead 1
  · show s.port.port.pending.toNat = 0 + (s.owed ++ bits (s.outgoing ++ _)).length + _ + _
    rw [flag, requests, List.length_append, Nat.zero_add, Nat.add_comm s.requests.length]
    rfl

/-- The answer is taken out of the queue. -/
theorem InStep.pop (inv : InStep unread offered answers popped s) (waiting : s.machine = .waiting)
    {item : BitQueue.Item} (found : s.port.queue.pop.1 = .item item) :
    InStep unread offered answers (popped ++ [item]) { s with
      port := { s.port with queue := s.port.queue.pop.2 }
      machine := .popped item } := by
  have came := inv.came
  have ahead := inv.ahead
  have flag := inv.flag
  rw [BitQueue.items_pop found] at came
  rw [waiting] at ahead flag
  refine { inv with
    ordered := inv.ordered.pop
    opened := (BitQueue.closed_pop _).trans inv.opened
    came := ?_
    ahead := ?_
    flag := flag }
  · rw [came, List.append_cons]
  · rw [List.length_append]
    exact ahead

theorem InStep.shift (inv : InStep unread offered answers popped s) {item : BitQueue.Item}
    (roused : s.machine = .roused item) :
    InStep unread offered answers popped
      { s with port := (s.port.takeBit item.data).value.2, machine := .outside } := by
  have armed : Machine.outside.isArmed = s.machine.isArmed := by
    rw [roused]
    rfl
  have awaits : s.machine.awaits.toNat ≤ Machine.outside.awaits.toNat := by
    rw [roused]
    exact Nat.le_refl _
  by_cases more : s.port.transferredBits + 1 < 8
  · rw [SerialPort.takeBit_of_more more]
    exact inv.machine rfl rfl rfl rfl armed awaits
  · rw [SerialPort.takeBit_of_last more]
    exact inv.machine rfl rfl rfl rfl armed awaits

/-! ### Steps of the receiver -/

/-- A packet is read out of what has come. -/
theorem InStep.read (inv : InStep unread offered answers popped s) (idle : s.reader = .idle) {packet : Packet}
    (arrival : s.port.connection.receive.value.1 = .packet packet) :
    ∃ rest, InStep rest offered answers popped { s with
      port := { s.port with connection := s.port.connection.receive.value.2 }
      reader := .read packet } := by
  obtain ⟨chunk, rest, cut, decoded, carries⟩ := inv.carries.of_packet arrival
  have came := inv.came
  have flag := inv.flag
  have whole := inv.whole
  have first : Packet.ofStream (unread ++ s.wire) = packet :: Packet.ofStream (rest ++ s.wire) := by
    rw [cut, List.append_assoc]
    exact Packet.ofStream_append_of_decode? decoded _
  have split : bits (packet :: Packet.ofStream (rest ++ s.wire)) =
      bits [packet] ++ bits (Packet.ofStream (rest ++ s.wire)) := bits_append [packet] _
  rw [idle, first, split] at came flag
  refine ⟨rest, { inv with carries := carries, whole := ?_, came := came, flag := ?_, spares := trivial }⟩
  · have eight := Packet.length_of_decode? decoded
    rw [cut] at whole
    simp only [List.length_append, eight, Packet.size] at whole ⊢
    omega
  · rw [flag, List.length_append, ← Nat.add_assoc]
    rfl

/-- The time of the peer is noted. -/
theorem InStep.hear (inv : InStep unread offered answers popped s) {packet : Packet}
    (read : s.reader = .read packet) :
    InStep unread offered answers popped { s with
      port := { s.port with clock := s.port.clock.hear packet.timestamp }
      reader := .heard packet } := by
  obtain ⟨port, machine, reader, outgoing, owed, wire⟩ := s
  obtain rfl : reader = .read packet := read
  exact { inv with }

/-- A packet without a bit leaves the flag and the queue alone. -/
theorem InStep.handle (inv : InStep unread offered answers popped s) {packet : Packet}
    (heard : s.reader = .heard packet) (plain : packet.isSync = false) {o : Protocol.Outcome Registers}
    (outcome : o = (s.port.protocol.handle packet s.port.clock s.port.queue s.port.port).value) :
    InStep unread offered answers popped { s with
      port := { s.port with protocol := o.protocol, queue := o.queue, port := o.port }
      reader := .done packet o.reply } := by
  obtain ⟨queue, answer, port⟩ :=
    Protocol.handle_of_not_isSync packet s.port.clock s.port.protocol s.port.queue s.port.port plain
  rw [← outcome] at queue answer port
  have same : o.port = s.port.port := port.elim id id
  have none := bits_singleton_of_not_isSync plain
  obtain ⟨carries, whole, ordered, opened, untimed, sent, came, ahead, flag, spares⟩ := inv
  rw [heard] at came flag
  rw [← queue] at ordered opened came
  rw [← same] at flag
  refine ⟨carries, whole, ordered, opened, untimed, sent, ?_, ahead, ?_, fun reply is => ⟨plain, answer reply is⟩⟩
  · rw [came]
    show _ ++ (bits [packet] ++ _).map _ = _
    rw [none]
    rfl
  · show o.port.pending.toNat = _
    rw [flag]
    show _ + (bits [packet]).length + _ = _
    rw [none]
    rfl

/-- The receiver comes upon an answer, for which the flag was set. -/
theorem InStep.consume (inv : InStep unread offered answers popped s) {packet : Packet}
    (heard : s.reader = .heard packet) (bit : packet.isSync) :
    s.port.port.pending = true ∧ InStep unread offered answers popped { s with
      port := { s.port with port := { s.port.port with pending := false } }
      reader := .built packet none } := by
  obtain ⟨port, machine, reader, outgoing, owed, wire⟩ := s
  obtain rfl : reader = .heard packet := heard
  have flag := inv.flag
  have one : (bits [packet]).length = 1 := by rw [bits_singleton_of_isSync bit]; rfl
  have at_it : port.port.pending.toNat = machine.isArmed.toNat +
      (State.mk port machine (.heard packet) outgoing owed wire).requests.length + 1 +
        (bits (Packet.ofStream (unread ++ wire))).length := by
    rw [← one]
    exact flag
  cases pending : port.port.pending with
  | false =>
    rw [pending, Bool.toNat_false] at at_it
    omega
  | true =>
    refine ⟨rfl, { inv with flag := ?_, spares := ⟨bit, rfl⟩ }⟩
    rw [pending, Bool.toNat_true] at at_it
    show 0 = machine.isArmed.toNat +
      (State.mk port machine (.heard packet) outgoing owed wire).requests.length + 0 +
        (bits (Packet.ofStream (unread ++ wire))).length
    omega

/-- The answer is queued. -/
theorem InStep.push (inv : InStep unread offered answers popped s) {packet : Packet} {reply : Option Packet}
    (built : s.reader = .built packet reply) :
    InStep unread offered answers popped { s with
      port := { s.port with queue := s.port.queue.push (Protocol.itemOf packet) }
      reader := .done packet reply } := by
  obtain ⟨port, machine, reader, outgoing, owed, wire⟩ := s
  obtain rfl : reader = .built packet reply := built
  obtain ⟨bit, rfl⟩ : packet.isSync = true ∧ reply = none := inv.spares
  have came := inv.came
  refine { inv with
    ordered := inv.ordered.push _
    opened := (BitQueue.closed_push _ _).trans inv.opened
    came := ?_
    spares := nofun }
  rw [came, BitQueue.items_push, inv.opened]
  show _ ++ _ ++ (bits [packet] ++ _).map _ = _ ++ (_ ++ [_]) ++ _
  rw [bits_singleton_of_isSync bit]
  simp [Reader.unqueued, bits]

/-- The receiver is done with a packet that is not answered. -/
theorem InStep.rest (inv : InStep unread offered answers popped s) {packet : Packet}
    (done : s.reader = .done packet none) {receiver : Receiver} :
    InStep unread offered answers popped
      { s with port := { s.port with receiver := receiver }, reader := .idle } := by
  obtain ⟨port, machine, reader, outgoing, owed, wire⟩ := s
  obtain rfl : reader = .done packet none := done
  exact { inv with spares := trivial }

/-- An answer is sent, to a packet without a bit, and brings none. -/
theorem InStep.reply (inv : InStep unread offered answers popped s) {packet answer : Packet}
    (done : s.reader = .done packet (some answer)) {receiver : Receiver} :
    packet.isSync = false ∧ InStep unread offered answers popped { s with
      port := { s.port with receiver := receiver, connection := (s.port.connection.send answer).value.2 }
      reader := .idle
      outgoing := s.outgoing ++ [answer] } := by
  obtain ⟨port, machine, reader, outgoing, owed, wire⟩ := s
  obtain rfl : reader = .done packet (some answer) := done
  obtain ⟨plain, none⟩ : packet.isSync = false ∧ answer.isSync = false := inv.spares answer rfl
  have same : bits (outgoing ++ [answer]) = bits outgoing := by
    rw [bits_append, bits_singleton_of_not_isSync none, List.append_nil]
  have sent := inv.sent
  have flag := inv.flag
  unfold State.requests at sent flag
  rw [← same] at sent flag
  exact ⟨plain, { inv with
    carries := (inv.carries.send answer).2
    sent := sent
    flag := flag
    spares := trivial }⟩

/-! ### Steps of the peer -/

/-- The peer reads what has come to it. -/
theorem InStep.see (inv : InStep unread offered answers popped s) {packet : Packet} {rest : List Packet}
    (came : s.outgoing = packet :: rest) :
    InStep unread offered answers popped { s with
      outgoing := rest
      owed := if packet.isSync then s.owed ++ [packet] else s.owed } := by
  have same : (if packet.isSync then s.owed ++ [packet] else s.owed) ++ bits rest = s.requests := by
    rw [State.requests, came, show bits (packet :: rest) = bits [packet] ++ bits rest from bits_append [packet] rest]
    cases bit : packet.isSync with
    | true => rw [if_pos rfl, bits_singleton_of_isSync bit, List.append_assoc]
    | false => rw [if_neg (by decide), bits_singleton_of_not_isSync bit, List.nil_append]
  have sent := inv.sent
  have flag := inv.flag
  rw [← same] at sent flag
  exact { inv with sent := sent, flag := flag }

/-- One more packet behind the ones on their way. -/
theorem InStep.ofStream_concat (inv : InStep unread offered answers popped s) {packet : Packet} {bytes : Bytes}
    (decoded : Packet.decode? bytes = some packet) :
    (unread ++ (s.wire ++ bytes)).length % Packet.size = 0 ∧
      bits (Packet.ofStream (unread ++ (s.wire ++ bytes))) =
        bits (Packet.ofStream (unread ++ s.wire)) ++ bits [packet] := by
  rw [← List.append_assoc]
  constructor
  · rw [List.length_append, Packet.length_of_decode? decoded, Nat.add_mod_right]
    exact inv.whole
  · rw [Packet.ofStream_concat inv.whole decoded, bits_append]

/-- The peer answers a bit. -/
theorem InStep.answer (inv : InStep unread offered answers popped s) {request answer : Packet}
    {rest : List Packet} {bytes : Bytes} (owed : s.owed = request :: rest)
    (decoded : Packet.decode? bytes = some answer) (bit : answer.isSync) :
    InStep unread offered (answers ++ [(request, answer)]) popped
      { s with owed := rest, wire := s.wire ++ bytes } := by
  obtain ⟨whole, coming⟩ := inv.ofStream_concat decoded
  have requests : s.requests = request :: (rest ++ bits s.outgoing) := by
    rw [State.requests, owed]
    rfl
  rw [bits_singleton_of_isSync bit] at coming
  refine { inv with whole := whole, sent := ?_, came := ?_, flag := ?_ }
  · rw [inv.sent, requests, List.map_append, List.append_assoc]
    rfl
  · rw [List.map_append, inv.came, coming, List.map_append, List.map_append, List.map_append]
    simp only [List.append_assoc]
    rfl
  · have more := congrArg List.length coming
    have fewer := congrArg List.length requests
    have flag := inv.flag
    rw [List.length_append, List.length_singleton] at more
    rw [List.length_cons] at fewer
    show s.port.port.pending.toNat = s.machine.isArmed.toNat + (rest ++ bits s.outgoing).length +
      (bits s.reader.unconsumed).length + (bits (Packet.ofStream (unread ++ (s.wire ++ bytes)))).length
    omega

/-- The peer sends a packet that brings no bit. -/
theorem InStep.speak (inv : InStep unread offered answers popped s) {packet : Packet} {bytes : Bytes}
    (decoded : Packet.decode? bytes = some packet) (plain : packet.isSync = false) :
    InStep unread offered answers popped { s with wire := s.wire ++ bytes } := by
  obtain ⟨whole, same⟩ := inv.ofStream_concat decoded
  rw [bits_singleton_of_not_isSync plain, List.append_nil] at same
  have came := inv.came
  have flag := inv.flag
  rw [← same] at came flag
  exact { inv with whole := whole, came := came, flag := flag }

/-- What the peer has sent comes. -/
theorem InStep.deliver (inv : InStep unread offered answers popped s) {front rest : Bytes}
    (cut : s.wire = front ++ rest) :
    InStep (unread ++ front) offered answers popped { s with
      port := { s.port with connection := s.port.connection.arrive (.data front) }
      wire := rest } := by
  have same : unread ++ s.wire = unread ++ front ++ rest := by rw [cut, List.append_assoc]
  obtain ⟨carries, whole, ordered, opened, untimed, sent, came, ahead, flag, spares⟩ := inv
  rw [same] at whole came flag
  exact ⟨carries.come nofun, whole, ordered, opened, untimed, sent, came, ahead, flag, spares⟩

/-! ### All steps -/

/-- Whether what was noted is as it should be: the flag was set for a bit of the peer, and only a packet without a bit
was answered. -/
def Mark.isFair : Mark → Bool
  | consumed _ pending => pending
  | replied packet _ => !packet.isSync
  | _ => true

/-- A step of which nothing is noted. -/
theorem InStep.unmarked (inv : InStep unread offered answers popped s) :
    ∃ unread, InStep unread (offered ++ sentBits []) (answers ++ answeredBits [])
      (popped ++ takenItems []) s ∧ ∀ m ∈ ([] : List Mark), m.isFair := by
  refine ⟨unread, ?_, nofun⟩
  show InStep unread (offered ++ []) (answers ++ []) (popped ++ []) s
  rw [List.append_nil, List.append_nil, List.append_nil]
  exact inv

/-- **Every step keeps the threads in step.** -/
theorem InStep.step (inv : InStep unread offered answers popped s) {k : List Mark} {t : State}
    (step : Step s k t) :
    ∃ unread, InStep unread (offered ++ sentBits k) (answers ++ answeredBits k)
      (popped ++ takenItems k) t ∧ ∀ m ∈ k, m.isFair := by
  cases step with
  | access act outside access => exact (inv.access outside access).unmarked
  | pass cycles =>
    apply InStep.unmarked
    exact inv.machine rfl rfl rfl rfl rfl (Nat.le_refl _)
  | begin outside =>
    apply InStep.unmarked
    exact inv.machine rfl rfl rfl rfl (by rw [outside]; rfl) (by rw [outside]; decide)
  | listen begun =>
    apply InStep.unmarked
    exact inv.machine rfl rfl rfl rfl (by rw [begun]; rfl) (by rw [begun]; decide)
  | arm begun => exact (inv.arm begun).unmarked
  | send armed =>
    refine ⟨unread, ?_, by simp [Mark.isFair]⟩
    show InStep unread (offered ++ [s.port.syncPacket]) (answers ++ []) (popped ++ []) _
    rw [List.append_nil, List.append_nil]
    exact inv.send armed
  | wait sent =>
    apply InStep.unmarked
    exact inv.machine rfl rfl rfl rfl (by rw [sent]; rfl) (by rw [sent]; decide)
  | expire _ bounded => exact absurd inv.untimed bounded
  | pop item waiting found =>
    refine ⟨unread, ?_, by simp [Mark.isFair]⟩
    show InStep unread (offered ++ []) (answers ++ []) (popped ++ [item]) _
    rw [List.append_nil, List.append_nil]
    exact inv.pop waiting found
  | rouse item popped =>
    apply InStep.unmarked
    exact inv.machine rfl rfl rfl rfl (by rw [popped]; rfl) (by rw [popped]; exact Nat.le_refl _)
  | shift item roused => exact (inv.shift roused).unmarked
  | read packet idle _ arrival =>
    obtain ⟨_, after⟩ := inv.read idle arrival
    exact after.unmarked
  | hear packet read => exact (inv.hear read).unmarked
  | handle packet o heard plain _ outcome => exact (inv.handle heard plain outcome).unmarked
  | consume packet heard bit =>
    obtain ⟨set, after⟩ := inv.consume heard bit
    have taken : (Responder.takeRequest s.port.port).1 = true := set
    rw [taken, if_pos rfl]
    obtain ⟨unread, after, _⟩ := after.unmarked
    exact ⟨unread, after, by simp [Mark.isFair]⟩
  | takeBit packet asked =>
    have spares := inv.spares
    rw [asked] at spares
    exact spares.elim
  | readControl packet bit taken =>
    have spares := inv.spares
    rw [taken] at spares
    exact spares.elim
  | readTime packet bit control read =>
    have spares := inv.spares
    rw [read] at spares
    exact spares.elim
  | push packet reply built => exact (inv.push built).unmarked
  | rest packet done => exact (inv.rest done).unmarked
  | reply packet answer done =>
    obtain ⟨plain, after⟩ := inv.reply done
    obtain ⟨unread, after, _⟩ := after.unmarked
    exact ⟨unread, after, by simp [Mark.isFair, plain]⟩
  | see packet rest came => exact (inv.see came).unmarked
  | answer request answer rest bytes owed decoded bit =>
    refine ⟨unread, ?_, by simp [Mark.isFair]⟩
    show InStep unread (offered ++ []) (answers ++ [(request, answer)]) (popped ++ []) _
    rw [List.append_nil, List.append_nil]
    exact inv.answer owed decoded bit
  | speak packet bytes decoded plain => exact (inv.speak decoded plain).unmarked
  | deliver front rest cut => exact (inv.deliver cut).unmarked

/-- However the threads are interleaved, they are in step. -/
theorem InStep.run {s t : State} {h : List Mark} (inv : InStep unread [] [] [] s) (run : Run s h t) :
    ∃ unread, InStep unread (sentBits h) (answeredBits h) (takenItems h) t ∧
      ∀ m ∈ h, m.isFair := by
  induction run with
  | nothing => exact ⟨unread, inv, nofun⟩
  | @step h k s t before step ih =>
    obtain ⟨_, inv, fair⟩ := ih
    obtain ⟨unread, inv, more⟩ := inv.step step
    rw [← sentBits_append, ← answeredBits_append, ← takenItems_append] at inv
    refine ⟨unread, inv, fun m mem => ?_⟩
    rcases List.mem_append.mp mem with mem | mem
    · exact fair m mem
    · exact more m mem

/-- Where it all begins: there is no bit on its way, and none is waited for.  In what phase the port is, and who drives
the clock, is left open. -/
structure AtRest (s : State) : Prop where
  machine : s.machine = .outside
  reader : s.reader = .idle
  queue : s.port.queue = .fresh
  flag : s.port.port.pending = false
  untimed : s.port.transferTimeout = 0
  outgoing : ∀ p ∈ s.outgoing, p.isSync = false
  owed : s.owed = []
  /-- The connection works, and what has come and what is on its way are whole packets without bits. -/
  coming : ∃ unread, s.port.connection.Carries unread false ∧
    (unread ++ s.wire).length % Packet.size = 0 ∧
    ∀ p ∈ Packet.ofStream (unread ++ s.wire), p.isSync = false

theorem bits_eq_nil {packets : List Packet} (plain : ∀ p ∈ packets, p.isSync = false) :
    bits packets = [] :=
  List.filter_eq_nil_iff.mpr fun p mem => by rw [plain p mem]; decide

theorem AtRest.inStep {s : State} (rest : AtRest s) : ∃ unread, InStep unread [] [] [] s := by
  obtain ⟨machine, reader, queue, flag, untimed, outgoing, owed, unread, carries, whole, coming⟩ := rest
  have requests : s.requests = [] := by
    rw [State.requests, owed, bits_eq_nil outgoing]
    rfl
  refine ⟨unread, carries, whole, ?_, ?_, untimed, ?_, ?_, Nat.zero_le _, ?_, ?_⟩
  · rw [queue]
    rfl
  · rw [queue]
    rfl
  · rw [requests]
    rfl
  · rw [queue, reader, bits_eq_nil coming]
    rfl
  · rw [flag, machine, reader, requests, bits_eq_nil coming]
    rfl
  · rw [reader]
    trivial

/-- **Request and answer are in step, however the two threads are interleaved.**  No bit of the peer is ever answered:
the receiver always finds the flag set for it.  The `n`-th item that is taken out of the queue is what the peer has
answered to the `n`-th bit that was sent, and is taken out before the next bit is sent.  Outside an exchange the
queue is empty and the flag clear. -/
theorem lockstep {s t : State} {h : List Mark} (rest : AtRest s) (run : Run s h t) :
    (∀ packet pending, .consumed packet pending ∈ h → pending = true) ∧
      (∀ packet reply, .replied packet reply ∈ h → packet.isSync = false) ∧
      (∀ (n : Nat) (item : BitQueue.Item), (takenItems h)[n]? = some item → ∃ request answer,
        (sentBits h)[n]? = some request ∧ (answeredBits h)[n]? = some (request, answer) ∧
          item = Protocol.itemOf answer) ∧
      (takenItems h).length ≤ (sentBits h).length ∧ (sentBits h).length ≤ (takenItems h).length + 1 ∧
      (t.machine = .outside → t.port.queue = .fresh ∧ t.port.port.pending = false) := by
  obtain ⟨_, begun⟩ := rest.inStep
  obtain ⟨_, inv, fair⟩ := begun.run run
  have balance := inv.balance
  have ahead := inv.ahead
  refine ⟨fun _ _ mem => fair _ mem, ?_, ?_, by omega, ?_, ?_⟩
  · intro packet reply mem
    have plain := fair _ mem
    rw [Mark.isFair, Bool.not_eq_true'] at plain
    exact plain
  · intro n item taken
    have inside : n < (takenItems h).length := (List.getElem?_eq_some_iff.mp taken).1
    have came := congrArg (·[n]?) inv.came
    simp only [List.append_assoc] at came
    rw [List.getElem?_append_left inside, taken, List.getElem?_map, Option.map_eq_some_iff] at came
    obtain ⟨⟨request, answer⟩, answered, same⟩ := came
    have sent := congrArg (·[n]?) inv.sent
    have within : n < ((answeredBits h).map Prod.fst).length := by
      rw [List.length_map]
      exact (List.getElem?_eq_some_iff.mp answered).1
    rw [List.getElem?_append_left within, List.getElem?_map, answered] at sent
    exact ⟨request, answer, sent, answered, same.symm⟩
  · have most := Bool.toNat_le t.machine.awaits
    omega
  · intro outside
    have rests : t.machine.awaits = false := by
      rw [outside]
      rfl
    have pending := inv.pending rests
    have none : t.port.queue.items = [] := List.eq_nil_of_length_eq_zero (inv.still rests).1
    have empty : t.port.queue.entries = [] := by
      rw [inv.ordered, none, inv.opened]
      rfl
    rw [outside] at pending
    exact ⟨inv.ordered.eq_fresh (List.isEmpty_iff.mpr empty), pending⟩

/-- A port to whose machine a bit is due. -/
def due : State where
  port := {
    connection := { stream := .stream {}, established := true, role := .master }
    protocol := ⟨.master, true⟩
    receiver := { started := true, running := true }
    port := { data := 0x80, control := 0x81 }
    phase := .armed
    cycleCount := 514 }

/-- The answer to the bit of `due` comes behind a packet without a bit, and the receiver is at it before the machine
waits. -/
theorem lockstep_overtaken : ∃ h t, Run due h t ∧
    h = [.offered ⟨104, 1, 0x81, 0, 0⟩, .answered ⟨104, 1, 0x81, 0, 0⟩ ⟨105, 1, 0, 0, 9⟩,
      .consumed ⟨105, 1, 0, 0, 9⟩ true, .popped ⟨1, 9⟩] ∧
    t.port.port.data = 1 ∧ t.port.queue = .fresh ∧ t.port.port.pending = false := by
  have calm : due.port.connection.host.Calm := nofun
  have rest : AtRest due :=
    ⟨rfl, rfl, rfl, rfl, rfl, nofun, rfl, [], ⟨rfl, calm, _, rfl, rfl, rfl, rfl, rfl, rfl⟩, rfl, nofun⟩
  have offers := ((Run.one (.begin due rfl rfl rfl)).step (.arm _ rfl rfl)).step (.send _ rfl rfl)
  have speaks := (offers.step (.speak _ ⟨101, 0, 0, 0, 7⟩ [101, 0, 0, 0, 7, 0, 0, 0] rfl rfl rfl)).step
    (.see _ _ _ rfl)
  have answers := (speaks.step
    (.answer _ _ ⟨105, 1, 0, 0, 9⟩ _ [105, 1, 0, 0, 9, 0, 0, 0] rfl rfl rfl)).step
    (.deliver _ [101, 0, 0, 0, 7, 0, 0, 0, 105, 1] _ rfl)
  have passes := (((answers.step (.read _ ⟨101, 0, 0, 0, 7⟩ rfl rfl rfl)).step (.hear _ _ rfl)).step
    (.handle _ _ _ rfl rfl rfl rfl)).step (.rest _ _ rfl)
  have comes := ((passes.step (.deliver _ [0, 0, 9, 0, 0, 0] _ rfl)).step
    (.read _ ⟨105, 1, 0, 0, 9⟩ rfl rfl rfl)).step (.hear _ _ rfl)
  have meets := (((comes.step (.consume _ _ rfl rfl)).step (.wait _ rfl)).step (.push _ _ _ rfl)).step
    (.pop _ ⟨1, 9⟩ rfl rfl)
  have ends := ((meets.step (.rest _ _ rfl)).step (.rouse _ _ rfl)).step (.shift _ _ rfl)
  obtain ⟨_, _, _, _, _, still⟩ := lockstep rest ends
  obtain ⟨empty, clear⟩ := still rfl
  exact ⟨_, _, ends, rfl, rfl, empty, clear⟩

end SerialLink.Threads
