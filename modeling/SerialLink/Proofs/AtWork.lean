import SerialLink.Proofs.Completion
import SerialLink.Proofs.Intake
import SerialLink.Proofs.Speech
import SerialLink.Tool.Process

/-!
# A port at work

A port goes on by itself: it lets cycles pass, or if it waits for a bit it looks for it again
(`SerialPort.goOn`).  How that ends is `SerialPort.Goes`.  While a byte is under way the port is
`SerialPort.AtWork`: the bits that its peer has said so far are those of the bytes before, then those that were
shifted in since, then those that are queued; and the next bit is less than a bit's time away.  Whatever happens
keeps that, until the byte is completed or the link is lost (`SerialPort.AtWork.goOn`, `SerialPort.AtWork.arrive`).
-/

namespace SerialLink.SerialPort

open Event

variable {p q first : SerialPort} {x : Traced (Progress × SerialPort)} {cycles : UInt32} {speech : Speech}
  {done : List UInt8} {g : List Event} {act : Act}

/-! ### How a port goes on -/

/-- A port that waits looks for the bit again, and any other one lets cycles pass. -/
def goOn (cycles : UInt32) (p : SerialPort) : Traced (Progress × SerialPort) :=
  if p.phase = .exchanging then p.resume else p.tick cycles

/-- What a port does when it goes on. -/
def nextAct (cycles : UInt32) (p : SerialPort) : Act :=
  if p.phase = .exchanging then .resume else .tick cycles

theorem goOn_eq (cycles : UInt32) (p : SerialPort) : p.goOn cycles = p.perform (p.nextAct cycles) := by
  unfold goOn nextAct
  split <;> rfl

theorem passive_nextAct (cycles : UInt32) (p : SerialPort) : (p.nextAct cycles).isAccess = false := by
  unfold nextAct
  split <;> rfl

theorem isArrival_nextAct (cycles : UInt32) (p : SerialPort) : (p.nextAct cycles).isArrival = false := by
  unfold nextAct
  split <;> rfl

theorem possible_nextAct (cycles : UInt32) (p : SerialPort) : (p.nextAct cycles).isPossible p := by
  unfold nextAct
  split
  · next begun => exact beq_iff_eq.mpr begun
  · next outside => exact bne_iff_ne.mpr outside

/-- What a port puts out when it goes on and a bit is due. -/
def utters (cycles : UInt32) (p : SerialPort) : List Packet :=
  if p.phase ≠ .exchanging ∧ p.port.drivesClock then [(p.elapse cycles).syncPacket] else []

/-- How a port goes on that waits for a bit: it takes the next one, or there is none and it goes on waiting, or
none will come and the link is lost. -/
inductive Awaits (p : SerialPort) (x : Traced (Progress × SerialPort)) : Prop
  | takes (item : BitQueue.Item) (rest : List BitQueue.Item) (items : p.queue.items = item :: rest)
      (left : x.value.2.queue.items = rest) (bit : shifted x.trace = [item.bit])
      (count : x.value.2.cycleCount = 0)
      (ready : x.value.1 = .idle ∧ x.value.2.phase = .armed ∨
        x.value.1 = .completed ∧ x.value.2.phase = .complete)
      (receiver : x.value.2.receiver = p.receiver) (connection : x.value.2.connection = p.connection)
      (mute : offered x.trace = [])
  | waits (items : p.queue.items = []) (opened : p.queue.closed = false) (same : x = pure (.blocked, p))
  | loses (items : p.queue.items = []) (closed : p.queue.closed = true) (progress : x.value.1 = .idle)
      (phase : x.value.2.phase = .disabled) (silent : deeds x.trace = [])

theorem awaits_awaitBit (sound : p.toSession.Sound) : p.Awaits p.awaitBit := by
  cases p.looks_awaitBit with
  | shifts item found _ same =>
    rw [same]
    exact .takes item _ (BitQueue.items_pop found) rfl rfl rfl (.inl ⟨rfl, rfl⟩) rfl rfl rfl
  | completes item found _ same =>
    rw [same]
    refine .takes item _ (BitQueue.items_pop found) rfl ?_ rfl (.inr ⟨rfl, rfl⟩) rfl rfl ?_
    · cases p.interruptBased && p.hasListener <;> rfl
    · cases p.interruptBased && p.hasListener <;> rfl
  | loses found same =>
    obtain ⟨items, closed⟩ := sound.ordered.of_pop_closed found
    rw [same]
    exact .loses items closed rfl rfl (deeds_disable_idle sound p.receiverError)
  | waits found same =>
    obtain ⟨items, opened⟩ := sound.ordered.of_pop_empty found
    exact .waits items opened same

/-- A port that has begun a bit: it waits, and has put its own bit out if it drives the clock. -/
structure Opens (p b : SerialPort) : Prop where
  sound : b.toSession.Sound
  phase : b.phase = .exchanging
  queue : b.queue = p.queue
  receiver : b.receiver = p.receiver
  carries : ∀ unread, p.connection.Carries unread false → b.connection.Carries unread false
  pending : p.port.drivesClock → b.port.pending = true

/-- Over a connection that works a bit that is due is put out, and then the port waits. -/
theorem opens_exchange (sound : p.toSession.Sound)
    (vocal : p.port.drivesClock → ∃ unread, p.connection.Carries unread false) :
    ∃ b, p.Opens b ∧ p.exchange.value = b.awaitBit.value ∧
      shifted p.exchange.trace = shifted b.awaitBit.trace ∧
      offered p.exchange.trace = (if p.port.drivesClock then [p.syncPacket] else []) ++ offered b.awaitBit.trace := by
  cases drives : p.port.drivesClock with
  | false =>
    have begun := offerBit_of_driven (p := { p with phase := .exchanging }) drives
    refine ⟨{ p with phase := .exchanging, port := { p.port with waiting := true } }, ?_, ?_, ?_, ?_⟩
    · exact ⟨sound.of_eq rfl rfl rfl, rfl, rfl, rfl, fun _ carries => carries, by simp [drives]⟩
    all_goals
      rw [exchange, begun]
      rfl
  | true =>
    obtain ⟨unread, carries⟩ := vocal drives
    have taken := (carries.send p.syncPacket).1
    have begun := offerBit_of_taken (p := { p with phase := .exchanging }) drives taken
    have sent : deeds (p.connection.send p.syncPacket).trace = [.sent p.syncPacket] := by
      rw [Connection.deeds_send, taken]
      rfl
    refine ⟨(offering true { p with phase := .exchanging }).withRegisters fun r => { r with waiting := true }, ?_, ?_,
      ?_, ?_⟩
    · exact ⟨(sound.send p.syncPacket).of_eq rfl rfl rfl, rfl, rfl, rfl,
        fun _ carries => (carries.send p.syncPacket).2, fun _ => rfl⟩
    · rw [exchange, begun]
      rfl
    · rw [exchange, begun, Traced.trace_bind, shifted_append, shifted_append, ← shifted_deeds (Traced.trace _)]
      exact congrArg (shifted · ++ _ ++ _) sent
    · rw [exchange, begun, Traced.trace_bind, offered_append, offered_append, ← offered_deeds (Traced.trace _)]
      exact congrArg (offered · ++ _ ++ _) sent

/-- How a linked port goes on: cycles pass, or it takes the next bit, or it waits for one, or it loses the link. -/
inductive Goes (cycles : UInt32) (p : SerialPort) (x : Traced (Progress × SerialPort)) : Prop
  | passes (outside : p.phase ≠ .exchanging) (more : p.queue.isExhausted = false)
      (same : x = pure (.idle, p.elapse cycles)) (early : (p.elapse cycles).isDue = false)
  | takes (item : BitQueue.Item) (rest : List BitQueue.Item) (items : p.queue.items = item :: rest)
      (left : x.value.2.queue.items = rest) (bit : shifted x.trace = [item.bit])
      (count : x.value.2.cycleCount = 0)
      (ready : x.value.1 = .idle ∧ x.value.2.phase = .armed ∨
        x.value.1 = .completed ∧ x.value.2.phase = .complete)
      (receiver : x.value.2.receiver = p.receiver)
      (carries : ∀ unread, p.connection.Carries unread false → x.value.2.connection.Carries unread false)
      (out : offered x.trace = p.utters cycles)
  | waits (items : p.queue.items = []) (opened : p.queue.closed = false) (progress : x.value.1 = .blocked)
      (phase : x.value.2.phase = .exchanging) (queue : x.value.2.queue = p.queue)
      (receiver : x.value.2.receiver = p.receiver)
      (carries : ∀ unread, p.connection.Carries unread false → x.value.2.connection.Carries unread false)
      (pending : p.port.drivesClock → (p.phase = .exchanging → p.port.pending = true) →
        x.value.2.port.pending = true)
      (silent : shifted x.trace = []) (out : offered x.trace = p.utters cycles)
  | loses (items : p.queue.items = []) (stopped : p.receiver.running = false) (progress : x.value.1 = .idle)
      (phase : x.value.2.phase = .disabled) (silent : deeds x.trace = [])

theorem stopped_of_closed (sound : p.toSession.Sound) (closed : p.queue.closed = true) :
    p.receiver.running = false := by
  rw [sound.closed, Bool.not_eq_true'] at closed
  exact closed

/-- **How a linked port goes on**, if what it puts out is taken. -/
theorem goes_goOn (sound : p.Sound) (linked : p.phase ≠ .disabled)
    (vocal : p.port.drivesClock → p.phase ≠ .exchanging → p.queue.isExhausted = false →
      ∃ unread, p.connection.Carries unread false) (cycles : UInt32) : Goes cycles p (p.goOn cycles) := by
  have session := sound.linked linked
  unfold goOn
  by_cases begun : p.phase = .exchanging
  · have mute : p.utters cycles = [] := if_neg fun both => both.1 begun
    have resumes : p.resume = p.awaitBit := if_pos begun
    rw [if_pos begun, resumes]
    cases awaits_awaitBit session with
    | takes item rest items left bit count ready receiver connection silent =>
      exact .takes item rest items left bit count ready receiver (fun _ => connection ▸ id) (silent.trans mute.symm)
    | waits items opened same =>
      rw [same]
      exact .waits items opened rfl begun rfl rfl (fun _ => id) (fun _ asked => asked begun) rfl mute.symm
    | loses items closed progress phase silent =>
      exact .loses items (stopped_of_closed session closed) progress phase silent
  · rw [if_neg begun]
    cases p.ticks_tick cycles with
    | unlinked phase => exact absurd phase linked
    | blocked phase => exact absurd phase begun
    | loses _ exhausted same =>
      obtain ⟨closed, items⟩ := (BitQueue.isExhausted_iff session.ordered).mp exhausted
      rw [same]
      exact .loses items (stopped_of_closed session closed) rfl rfl (deeds_disable_idle session p.receiverError)
    | passes _ more early same => exact .passes begun more same early
    | exchanges _ more _ same =>
      have still : (p.elapse cycles).toSession.Sound := session.of_eq rfl rfl rfl
      obtain ⟨b, opens, value, bits, out⟩ := opens_exchange still fun drives => vocal drives begun more
      have utters : p.utters cycles = if p.port.drivesClock then [(p.elapse cycles).syncPacket] else [] := by
        simp [utters, begun]
      have out : offered (p.elapse cycles).exchange.trace = p.utters cycles ++ offered b.awaitBit.trace :=
        utters ▸ out
      rw [same]
      cases awaits_awaitBit opens.sound with
      | takes item rest items left bit count ready receiver connection silent =>
        rw [← value] at left count ready receiver connection
        rw [silent, List.append_nil] at out
        rw [opens.queue] at items
        exact .takes item rest items left (bits.trans bit) count ready (receiver.trans opens.receiver)
          (fun unread carries => connection ▸ opens.carries unread carries) out
      | waits items opened same =>
        have silent : b.awaitBit.trace = [] := congrArg Traced.trace same
        have same : (p.elapse cycles).exchange.value = (.blocked, b) := value.trans (congrArg Traced.value same)
        rw [silent] at bits out
        rw [opens.queue] at items opened
        refine .waits items opened ?_ ?_ ?_ ?_ ?_ ?_ bits (out.trans (List.append_nil _))
        all_goals rw [same]
        · exact opens.phase
        · exact opens.queue
        · exact opens.receiver
        · exact opens.carries
        · exact fun drives _ => opens.pending drives
      | loses items closed =>
        -- Nothing has closed the queue meanwhile.
        rw [opens.queue] at items closed
        cases more.symm.trans ((BitQueue.isExhausted_iff session.ordered).mpr ⟨closed, items⟩)

/-! ### Bytes under way -/

/-- A port at which a byte is under way since a port `first`, with the events since then.  All bits that the peer
has said are those of the bytes before (`done`), those that were shifted in since, and those that are queued. -/
structure AtWork (speech : Speech) (done : List UInt8) (first : SerialPort) (g : List Event) (p : SerialPort) :
    Prop where
  sound : p.Sound
  linked : p.phase ≠ .disabled
  attends : p.toSession.Attends speech
  underway : Underway first g p
  few : (shifted g).length < 8
  transfer : first.port.isTransferring = true
  bits : speech.bits = done ++ shifted g ++ p.queue.items.map (·.bit)
  whole : done.length % 8 = 0
  soon : p.phase ≠ .exchanging → p.cycleCount.toNat < 514

theorem AtWork.control (work : AtWork speech done first g p) : p.port.control = first.port.control := by
  have control := work.underway.control
  rw [if_pos work.few] at control
  exact control

theorem AtWork.drivesClock (work : AtWork speech done first g p) :
    p.port.drivesClock = first.port.drivesClock := by
  rw [Registers.drivesClock, work.control]
  rfl

theorem AtWork.transferring (work : AtWork speech done first g p) : p.port.isTransferring = true := by
  rw [Registers.isTransferring, work.control]
  exact work.transfer

/-- What an act does to a byte under way, as long as the link is not lost: the bits that come are those that are
shifted in or queued, and with the eighth one the byte is completed. -/
structure Carried (done : List UInt8) (first : SerialPort) (g : List Event) (p : SerialPort)
    (x : Traced (Progress × SerialPort)) : Prop where
  sound : x.value.2.Sound
  underway : Underway first (g ++ deeds x.trace) x.value.2
  bits : done ++ shifted g ++ p.queue.items.map (·.bit) ++ received x.trace =
    done ++ shifted (g ++ deeds x.trace) ++ x.value.2.queue.items.map (·.bit)
  completed : x.value.1 = .completed ↔ (shifted (g ++ deeds x.trace)).length = 8

theorem AtWork.carried (work : AtWork speech done first g p) (passive : act.isAccess = false)
    (possible : act.isPossible p) (linked : (p.perform act).value.2.phase ≠ .disabled) :
    Carried done first g p (p.perform act) := by
  have leads := leads_perform passive possible work.sound
  have underway : ∀ g p h q, Step p h q → (p.phase ≠ .disabled → Underway first g p) →
      q.phase ≠ .disabled → Underway first (g ++ h) q :=
    fun _ _ _ _ step before linked => step.underway linked (before (step.linked linked))
  have delivered : Delivered p.queue.items ([] ++ deeds (p.perform act).trace) (p.perform act).value.2 :=
    leads.steps.preserves (fun _ _ _ _ step => step.delivered) (.start (work.sound.linked work.linked).toOrderly)
  obtain ⟨taken, came, bits⟩ := delivered.taken
  have few := work.few
  have count := work.underway.bits
  refine ⟨leads.sound, leads.steps.preserves underway (fun _ => work.underway) linked, ?_, ?_⟩
  · rw [List.nil_append, arrived_deeds] at came
    have all : p.queue.items.map (·.bit) ++ received (p.perform act).trace =
        shifted (deeds (p.perform act).trace) ++ (p.perform act).value.2.queue.items.map (·.bit) := by
      rw [List.nil_append] at bits
      rw [bits, ← List.map_append, ← came, List.map_append, received_eq]
      rfl
    rw [List.append_assoc, all, shifted_append, List.append_assoc, List.append_assoc, List.append_assoc]
  · have single := leads.single
    rw [leads.completed, shifted_append, shifted_deeds, List.length_append, ← List.length_pos_iff]
    omega

/-- A byte that is not completed yet stays under way. -/
theorem AtWork.of_carried {later : Speech} (work : AtWork speech done first g p)
    (carried : Carried done first g p x) (linked : x.value.2.phase ≠ .disabled) (going : x.value.1 ≠ .completed)
    (attends : x.value.2.toSession.Attends later) (bits : later.bits = speech.bits ++ received x.trace)
    (soon : x.value.2.phase ≠ .exchanging → x.value.2.cycleCount.toNat < 514) :
    AtWork later done first (g ++ deeds x.trace) x.value.2 := by
  refine ⟨carried.sound, linked, attends, carried.underway, ?_, work.transfer, ?_, work.whole, soon⟩
  · have most := carried.underway.few
    have less := mt carried.completed.mpr going
    omega
  · rw [bits, work.bits, carried.bits]

/-- The bits that a segment adds to what was said are those that are received with it. -/
theorem bits_come (attends : p.toSession.Attends speech) (segment : Tcp.Segment) :
    (speech.come segment).bits = speech.bits ++ received (p.arrive segment).trace := by
  have trace : (p.arrive segment).trace = (p.toSession.arrive segment).trace := List.append_nil _
  rw [Speech.bits, (attends.arrive segment).2, Speech.bitsOf_append, Speech.bitsOf_heard, trace]
  rfl

/-- **What comes from the peer** is queued, and the byte stays under way. -/
theorem AtWork.arrive (work : AtWork speech done first g p) (segment : Tcp.Segment) :
    AtWork (speech.come segment) done first (g ++ deeds (p.arrive segment).trace) (p.arrive segment).value := by
  have trace : (p.perform (.arrive segment)).trace = (p.arrive segment).trace := List.append_nil _
  have linked : (p.arrive segment).value.phase ≠ .disabled := work.linked
  have carried : Carried done first g p (p.perform (.arrive segment)) := work.carried rfl rfl linked
  have still := work.of_carried carried linked nofun (work.attends.arrive segment).1 ?_ work.soon
  · rw [trace] at still
    exact still
  · rw [trace]
    exact bits_come work.attends segment

/-- That the operating system will answer otherwise is all one, as long as it does what it is asked to. -/
theorem AtWork.turn (work : AtWork speech done first g p) {host : Tcp.Host} (calm : host.Calm) :
    AtWork speech done first g { p with connection := { p.connection with host } } := by
  have carried : Carried done first g p (p.perform (.turn host)) := work.carried rfl rfl work.linked
  have still := work.of_carried carried work.linked nofun ?_ (List.append_nil speech.bits).symm work.soon
  · rw [show g ++ deeds (p.perform (.turn host)).trace = g from List.append_nil g] at still
    exact still
  · refine work.attends.of_eq rfl ?_
    rintro unread ⟨established, _, stream⟩
    exact ⟨established, calm, stream⟩

/-- A byte that was under way is completed: its eight bits make up the data register, and all other bits of the peer
are still queued. -/
structure Completed (speech : Speech) (done : List UInt8) (first : SerialPort) (g : List Event) (cycles : UInt32)
    (p : SerialPort) (x : Traced (Progress × SerialPort)) : Prop where
  progress : x.value.1 = .completed
  eight : (shifted (g ++ deeds x.trace)).length = 8
  data : x.value.2.port.data = Bits.byte (shifted (g ++ deeds x.trace))
  clear : x.value.2.port.isTransferring = false
  sound : x.value.2.Sound
  phase : x.value.2.phase = .complete
  role : x.value.2.connection.role = first.connection.role
  attends : x.value.2.toSession.Attends speech
  bits : speech.bits = done ++ shifted (g ++ deeds x.trace) ++ x.value.2.queue.items.map (·.bit)
  /-- The last bit was the first one in the queue. -/
  last : ∃ item, p.queue.items = item :: x.value.2.queue.items
  out : offered x.trace = p.utters cycles

theorem Completed.linked (completed : Completed speech done first g cycles p x) : x.value.2.phase ≠ .disabled := by
  simp [completed.phase]

theorem Completed.outside (completed : Completed speech done first g cycles p x) :
    x.value.2.phase ≠ .exchanging := by
  simp [completed.phase]

/-- The machine reads the byte that was completed. -/
theorem Completed.readData (completed : Completed speech done first g cycles p x) :
    x.value.2.readData = Bits.byte (shifted (g ++ deeds x.trace)) :=
  (if_pos (isEnabled_iff.mpr completed.linked)).trans completed.data

/-- How a byte under way goes on: the link is lost, or the byte is completed, or it stays under way. -/
inductive Proceeds (speech : Speech) (done : List UInt8) (first : SerialPort) (g : List Event) (cycles : UInt32)
    (p : SerialPort) (x : Traced (Progress × SerialPort)) : Prop
  | loses (items : p.queue.items = []) (gone : speech.IsOver) (progress : x.value.1 = .idle)
      (phase : x.value.2.phase = .disabled) (silent : deeds x.trace = [])
  | completes (completed : Completed speech done first g cycles p x)
  | goes (going : x.value.1 ≠ .completed) (work : AtWork speech done first (g ++ deeds x.trace) x.value.2)
      (goes : Goes cycles p x)

/-- Where a bit is not held back though it is due, the next one is less than a bit's time away. -/
theorem soon_of_early (enabled : p.isEnabled) (transfer : p.port.isTransferring) (early : p.isDue = false)
    (level : Tool.Process.isHeldBack p = false) : p.cycleCount.toNat < 514 := by
  have cycles := toNat_cyclesToTransmit enabled transfer
  have later : p.cyclesToTransmit ≠ 0 := by
    intro now
    unfold isDue at early
    unfold Tool.Process.isHeldBack at level
    rw [now] at early level
    cases ready : p.clock.isReady <;> simp [ready] at early level
  have positive : p.cyclesToTransmit.toNat ≠ 0 := fun none => later (UInt32.toNat_inj.mp none)
  omega

/-- **A byte under way goes on**, unless a bit is held back. -/
theorem AtWork.goOn (work : AtWork speech done first g p)
    (alone : p.port.drivesClock → p.phase ≠ .exchanging → p.queue.items = [])
    (level : (p.goOn cycles).value.1 = .idle → (p.goOn cycles).value.2.isEnabled →
      Tool.Process.isHeldBack (p.goOn cycles).value.2 = false) :
    Proceeds speech done first g cycles p (p.goOn cycles) := by
  have session := work.sound.linked work.linked
  -- A port that drives the clock puts its bit out only as long as the receiver is at work.
  have vocal : p.port.drivesClock → p.phase ≠ .exchanging → p.queue.isExhausted = false →
      ∃ unread, p.connection.Carries unread false := by
    intro drives outside more
    refine work.attends.carries ?_
    cases working : p.receiver.running with
    | true => rfl
    | false =>
      have closed : p.queue.closed = true := by rw [session.closed, working]; rfl
      rw [(BitQueue.isExhausted_iff session.ordered).mpr ⟨closed, alone drives outside⟩] at more
      cases more
  have goes := goes_goOn work.sound work.linked vocal cycles
  have unheard : received (p.goOn cycles).trace = [] := by
    rw [← Speech.bitsOf_heard, goOn_eq, heard_perform (isArrival_nextAct cycles p) work.sound]
    rfl
  have carried : (p.goOn cycles).value.2.phase ≠ .disabled → Carried done first g p (p.goOn cycles) := by
    rw [goOn_eq]
    exact work.carried (passive_nextAct cycles p) (possible_nextAct cycles p)
  have same : speech.bits = speech.bits ++ received (p.goOn cycles).trace := by
    rw [unheard, List.append_nil]
  have way := goes
  cases goes with
  | passes outside more pass early =>
    rw [pass] at level carried same ⊢
    have ready := ready_of_outside (isEnabled_iff.mpr work.linked) outside
    have armed := phase_elapse ready cycles
    have linked : (p.elapse cycles).phase ≠ .disabled := by rw [armed]; nofun
    have level := level rfl (isEnabled_iff.mpr linked)
    refine .goes nofun (work.of_carried (carried linked) linked nofun ?_ same fun _ => ?_) (pass ▸ way)
    · exact work.attends.of_eq rfl fun _ => id
    · exact soon_of_early (isEnabled_iff.mpr linked) work.transferring early level
  | takes item rest items left bit count ready receiver carries out =>
    have linked : (p.goOn cycles).value.2.phase ≠ .disabled := by
      rcases ready with ⟨_, h⟩ | ⟨_, h⟩ <;> rw [h] <;> nofun
    have attends : (p.goOn cycles).value.2.toSession.Attends speech := work.attends.of_eq receiver carries
    have carried := carried linked
    rcases ready with ⟨idle, armed⟩ | ⟨completed, phase⟩
    · refine .goes (idle ▸ nofun) (work.of_carried carried linked (idle ▸ nofun) attends same fun _ => ?_) way
      rw [count]
      decide
    · have eight := carried.completed.mp completed
      have control := carried.underway.control
      rw [eight, if_neg (by decide)] at control
      refine .completes ⟨completed, eight, carried.underway.data.eq_byte eight,
        Registers.isTransferring_cleared control, carried.sound, phase, carried.underway.role, attends, ?_,
        ⟨item, left ▸ items⟩, out⟩
      rw [same, work.bits, carried.bits]
  | waits items opened progress phase queue receiver carries pending silent out =>
    have linked : (p.goOn cycles).value.2.phase ≠ .disabled := phase ▸ nofun
    refine .goes (progress ▸ nofun) (work.of_carried (carried linked) linked (progress ▸ nofun) ?_ same ?_) way
    · exact work.attends.of_eq receiver carries
    · exact fun outside => absurd phase outside
  | loses items stopped progress phase silent =>
    refine .loses items ?_ progress phase silent
    cases work.attends with
    | listening _ _ _ _ _ working =>
      rw [stopped] at working
      cases working
    | ended _ gone => exact gone

/-- When the machine has written both registers of a linked port at which no byte is under way, one is. -/
theorem begin_eq (linked : p.phase ≠ .disabled) (clear : p.port.isTransferring = false) {control : UInt8}
    (set : control &&& Registers.transferBit ≠ 0) (byte : UInt8) :
    (p.writeData byte).writeControl control = { p with
      port := { p.port.loadAnswer byte with data := byte, control }
      transferredBits := 0
      cycleCount := 0 } := by
  have loaded : p.writeData byte = { p with port := { p.port.loadAnswer byte with data := byte } } :=
    if_pos (isEnabled_iff.mpr linked)
  have before : (p.writeData byte).port.isTransferring = false := by
    rw [loaded]
    exact clear
  have after : Registers.isTransferring { (p.writeData byte).port with control } = true := bne_iff_ne.mpr set
  unfold writeControl withRegisters
  simp only [before, after, Bool.not_false, Bool.and_self, if_true]
  rw [loaded]

/-- A byte that was just begun is under way. -/
theorem atWork_begin {byte control : UInt8} (sound : p.Sound) (linked : p.phase ≠ .disabled)
    (outside : p.phase ≠ .exchanging) (attends : p.toSession.Attends speech)
    (clear : p.port.isTransferring = false) (set : control &&& Registers.transferBit ≠ 0)
    (bits : speech.bits = done ++ p.queue.items.map (·.bit)) (whole : done.length % 8 = 0) :
    AtWork speech done ((p.writeData byte).writeControl control) [] ((p.writeData byte).writeControl control) := by
  rw [begin_eq linked clear set byte]
  refine ⟨⟨fun _ => (sound.linked linked).of_eq rfl rfl rfl, fun off => absurd off linked⟩, linked,
    attends.of_eq rfl fun _ => id, .start outside rfl, Nat.zero_lt_succ 7, bne_iff_ne.mpr set, ?_, whole,
    fun _ => Nat.zero_lt_succ 513⟩
  show speech.bits = done ++ [] ++ p.queue.items.map (·.bit)
  rw [List.append_nil]
  exact bits

/-! ### How long it takes -/

/-- How many ticks of sixteen cycles there are until a bit is due, the one with which it is due included. -/
def ticksLeft (p : SerialPort) : Nat := 33 - p.cycleCount.toNat / 16

theorem ticksLeft_le (p : SerialPort) : p.ticksLeft ≤ 33 := Nat.sub_le _ _

/-- Cycles that pass bring the next bit nearer, if they are sixteen or as many as are left; and if they are as many
as are left they do not just pass. -/
theorem AtWork.ticksLeft_elapse (work : AtWork speech done first g p) (outside : p.phase ≠ .exchanging)
    (after : (p.elapse cycles).cycleCount.toNat < 514)
    (pace : cycles = 16 ∨ p.cyclesToTransmit.toNat ≤ cycles.toNat) : (p.elapse cycles).ticksLeft < p.ticksLeft := by
  have soon := work.soon outside
  have ready := ready_of_outside (isEnabled_iff.mpr work.linked) outside
  have count : (p.elapse cycles).cycleCount.toNat = min (p.cycleCount.toNat + cycles.toNat) 4294967295 :=
    toNat_addCycles _ _
  rcases pace with rfl | enough
  · have sixteen : (16 : UInt32).toNat = 16 := rfl
    unfold ticksLeft
    omega
  · rw [toNat_cyclesToTransmit (isEnabled_iff.mpr work.linked) work.transferring] at enough
    omega

end SerialLink.SerialPort
